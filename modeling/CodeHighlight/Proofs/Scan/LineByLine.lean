import CodeHighlight.Proofs.Scan.Resumption

/-!
# Line by line

A line feed that no backslash stands before ends every token: words and numerals contain no line
feed, and a quoted string contains one only behind a backslash (`QuotedBody.getLast?_of_newline`).
So the tokens of a text are those of its first lines and those of the lines behind such a line feed
(`Grammar.hasToken_lines_iff`), and the leftmost of them are the leftmost of both
(`Leftmost.union`).
-/

namespace CodeHighlight

open scoped Computability

/-! ## Line feeds in lexemes -/

/-- Between quotation marks a line feed stands only behind a backslash. -/
theorem QuotedBody.getLast?_of_newline {mark : Char} {body before after : Text}
    (h : QuotedBody mark body) (hbody : body = before ++ '\n' :: after) :
    before.getLast? = some '\\' := by
  induction h generalizing before with
  | nil => simp at hbody
  | hidden c rest hrest ih =>
      match before with
      | [] => simp at hbody
      | [d] =>
          obtain ⟨rfl, -⟩ := List.cons.inj hbody
          rfl
      | d :: e :: before =>
          obtain ⟨-, hbehind⟩ := List.cons.inj hbody
          have hlast := ih (List.cons.inj hbehind).2
          rw [List.getLast?_cons_cons, List.getLast?_cons, hlast]
          rfl
  | shown c rest hbackslash hmark hline hrest ih =>
      cases before with
      | nil => exact absurd (List.cons.inj hbody).1 hline
      | cons d before =>
          have hlast := ih (List.cons.inj hbody).2
          rw [List.getLast?_cons, hlast]
          rfl

theorem newline_not_mem_numerals {t : Text} (h : t ∈ numerals) : '\n' ∉ t := by
  intro hmem
  exact absurd (isWordChar_or_of_mem_numerals h _ hmem) (by decide)

theorem IsWord.newline_not_mem {lexeme : Text} (h : IsWord lexeme) : '\n' ∉ lexeme := by
  intro hmem
  exact absurd (h.all_isWordChar _ hmem) (by decide)

/-- A numeral is the longest one in front of a line feed if it is the longest one on its line. -/
theorem Longest.append_newline {lexeme rest more : Text} (h : Longest numerals lexeme rest) :
    Longest numerals lexeme (rest ++ '\n' :: more) := by
  refine ⟨h.mem, fun word hfits hword => ?_⟩
  rw [← List.append_assoc] at hfits
  rcases List.prefix_or_prefix_of_prefix hfits (List.prefix_append (lexeme ++ rest) _) with
    hline | ⟨behind, rfl⟩
  · exact h.2 word hline hword
  · cases behind with
    | nil => exact h.2 _ (by rw [List.append_nil]) hword
    | cons c behind =>
        rw [List.prefix_append_right_inj] at hfits
        obtain ⟨rfl, -⟩ := List.cons_prefix_cons.1 hfits
        exact absurd (by simp) (newline_not_mem_numerals hword)

/-! ## Tokens of lines -/

namespace Grammar

variable {grammar : Grammar} {before lexeme after : Text} {category : Category}

/-- A token is still a token where more lines follow. -/
theorem IsToken.append_newline (h : grammar.IsToken before lexeme after category) (more : Text) :
    grammar.IsToken before lexeme (after ++ '\n' :: more) category := by
  refine h.of_context id ?_ Longest.append_newline
  cases after with
  | nil => exact fun _ => isWordChar_eq_false_of_toNat_lt (c := '\n') (by decide)
  | cons c after => exact id

/-- A line feed inside a token stands behind a backslash. -/
theorem IsToken.getLast?_of_newline (h : grammar.IsToken before lexeme after category)
    {front back : Text} (hlexeme : lexeme = front ++ '\n' :: back) :
    front.getLast? = some '\\' := by
  have hmem : '\n' ∈ lexeme := by simp [hlexeme]
  cases h with
  | keyword hword => exact absurd hmem hword.newline_not_mem
  | literal hword => exact absurd hmem hword.newline_not_mem
  | number hlongest => exact absurd hmem (newline_not_mem_numerals hlongest.mem)
  | string hquoted =>
      obtain ⟨mark, hmark, -, body, hbody, rfl⟩ := hquoted
      have hline : mark ≠ '\n' := by
        rintro rfl
        exact absurd hmark (by decide)
      cases front with
      | nil => exact absurd (List.cons.inj hlexeme).1 hline
      | cons c front =>
          -- The line feed is not the closing mark, so it stands in the body.
          obtain ⟨inner, hinner⟩ : ∃ inner, body = front ++ '\n' :: inner := by
            rcases List.append_eq_append_iff.1 (List.cons.inj hlexeme).2 with
              ⟨middle, -, hclosing⟩ | ⟨middle, hbody, hclosing⟩
            · cases middle with
              | nil => exact absurd (List.cons.inj hclosing).1 hline
              | cons d middle => simp at hclosing
            · cases middle with
              | nil => exact absurd (List.cons.inj hclosing).1.symm hline
              | cons d middle =>
                  obtain ⟨rfl, -⟩ := List.cons.inj hclosing
                  exact ⟨middle, hbody⟩
          rw [List.getLast?_cons, hbody.getLast?_of_newline hinner]
          rfl

/-! ## Tokens of two parts -/

section Parts

variable {a b : Text} {span : Span}

/-- At the front of a line no word goes on. -/
private theorem any_getLast?_line (a line : Text) :
    (a ++ '\n' :: line).getLast?.any isWordChar = line.getLast?.any isWordChar := by
  cases line with
  | nil =>
      rw [List.getLast?_concat]
      exact isWordChar_eq_false_of_toNat_lt (by decide)
  | cons c line =>
      rw [List.getLast?_append, List.getLast?_cons_cons, List.getLast?_cons, Option.some_or]

/-- A token that begins before the line feed ends before it. -/
private theorem IsToken.exists_line {rest : Text}
    (h : grammar.IsToken before lexeme rest category) (ha : a.getLast? ≠ some '\\')
    (htext : a ++ '\n' :: b = before ++ (lexeme ++ rest)) (hlt : before.length < a.length) :
    ∃ after, a = before ++ (lexeme ++ after) ∧ rest = after ++ '\n' :: b := by
  rcases List.append_eq_append_iff.1 htext with ⟨middle, rfl, -⟩ | ⟨line, rfl, hline⟩
  · rw [List.length_append] at hlt
    omega
  · rcases List.append_eq_append_iff.1 hline with ⟨after, rfl, hrest⟩ | ⟨middle, hlexeme, hbehind⟩
    · exact ⟨after, rfl, hrest⟩
    · cases middle with
      | nil =>
          rw [List.append_nil] at hlexeme
          exact ⟨[], by rw [hlexeme, List.append_nil], hbehind.symm⟩
      | cons c middle =>
          -- The line feed would stand inside the token.
          obtain ⟨rfl, -⟩ := List.cons.inj hbehind
          have hlast := h.getLast?_of_newline hlexeme
          rw [List.getLast?_append, hlast, Option.some_or] at ha
          contradiction

/-- A token of the lines up to a line feed is a token of the whole text. -/
theorem HasToken.append_line (h : grammar.HasToken (.ofText a) span) (b : Text) :
    grammar.HasToken (.ofText (a ++ '\n' :: b)) span := by
  obtain ⟨before, lexeme, after, category, htext, htoken, rfl⟩ := h
  rw [Source.text_ofText] at htext
  refine ⟨before, lexeme, after ++ '\n' :: b, category, ?_, htoken.append_newline b, rfl⟩
  rw [Source.text_ofText, htext, List.append_assoc]

/-- A token of the lines behind a line feed is a token of the whole text. -/
theorem HasToken.shift_line (h : grammar.HasToken (.ofText b) span) (a : Text) :
    grammar.HasToken (.ofText (a ++ '\n' :: b)) (span.shift (a.length + 1)) := by
  obtain ⟨before, lexeme, after, category, htext, htoken, rfl⟩ := h
  rw [Source.text_ofText] at htext
  have hoff := any_getLast?_line a before
  refine ⟨a ++ '\n' :: before, lexeme, after, category, ?_, htoken.of_context hoff.trans id id, ?_⟩
  · rw [Source.text_ofText, htext]
    simp only [List.append_assoc, List.cons_append]
  · rw [Span.shift_ofLexeme, List.length_append, List.length_cons]
    congr 1
    omega

/-- A token does not begin with a line feed, so it begins before or behind it, and if no backslash
stands before the line feed, then it does not go beyond it. -/
theorem HasToken.of_lines (h : grammar.HasToken (.ofText (a ++ '\n' :: b)) span)
    (ha : a.getLast? ≠ some '\\') :
    grammar.HasToken (.ofText a) span ∨
      ∃ other, grammar.HasToken (.ofText b) other ∧ span = other.shift (a.length + 1) := by
  obtain ⟨before, lexeme, after, category, htext, htoken, rfl⟩ := h
  rw [Source.text_ofText, List.append_assoc] at htext
  by_cases hlt : before.length < a.length
  · obtain ⟨line, hline, rfl⟩ := htoken.exists_line ha htext hlt
    refine .inl ⟨before, lexeme, line, category, ?_, htoken.of_append, rfl⟩
    rw [Source.text_ofText, hline, List.append_assoc]
  · right
    obtain ⟨c, body, rfl, hfirst⟩ := htoken.exists_first
    obtain ⟨middle, rfl, hmiddle⟩ : ∃ middle, before = a ++ middle ∧
        '\n' :: b = middle ++ (c :: body ++ after) := by
      rcases List.append_eq_append_iff.1 htext with hsplit | ⟨line, rfl, hline⟩
      · exact hsplit
      · rw [List.length_append] at hlt
        obtain rfl : line = [] := List.eq_nil_of_length_eq_zero (by omega)
        exact ⟨[], (List.append_nil _).symm.trans (List.append_nil _).symm, hline.symm⟩
    cases middle with
    | nil =>
        obtain ⟨rfl, -⟩ := List.cons.inj hmiddle
        exact absurd hfirst (by decide)
    | cons d front =>
        obtain ⟨rfl, rfl⟩ := List.cons.inj hmiddle
        have hoff := any_getLast?_line a front
        refine ⟨_, ⟨front, c :: body, after, category, ?_,
          htoken.of_context hoff.symm.trans id id, rfl⟩, ?_⟩
        · rw [Source.text_ofText, List.append_assoc]
          rfl
        · rw [Span.shift_ofLexeme, List.length_append, List.length_cons]
          congr 1
          omega

/-- If no backslash stands before a line feed, the tokens of a text are those of the lines up to it
and those of the lines behind it. -/
theorem hasToken_lines_iff (ha : a.getLast? ≠ some '\\') :
    grammar.HasToken (.ofText (a ++ '\n' :: b)) span ↔
      grammar.HasToken (.ofText a) span ∨
        ∃ other, grammar.HasToken (.ofText b) other ∧ span = other.shift (a.length + 1) := by
  constructor
  · exact fun h => h.of_lines ha
  · rintro (h | ⟨other, h, rfl⟩)
    · exact h.append_line b
    · exact h.shift_line a

end Parts

end Grammar

/-! ## Sequences of two parts -/

namespace Leftmost

variable {IsToken Other Joint : Span → Prop} {position middle : Int} {front back tokens : List Span}

/-- Only tokens from the position on matter. -/
theorem congr_from (h : Leftmost IsToken position tokens)
    (hsame : ∀ span, position ≤ span.start → (Other span ↔ IsToken span))
    (hlt : ∀ token, IsToken token → token.start < token.stop) :
    Leftmost Other position tokens := by
  induction h with
  | done position hnone =>
      refine .done position fun other hother => Int.lt_of_not_ge fun hge => ?_
      have hbefore := hnone other ((hsame other hge).1 hother)
      omega
  | next position token rest htoken hstart hleast _ ih =>
      have hnonempty := hlt token htoken
      refine .next position token rest ((hsame token hstart).2 htoken) hstart ?_ ?_
      · exact fun other hother hge => hleast other ((hsame other hge).1 hother) hge
      · exact ih fun span hge => hsame span (by omega)

theorem shift (h : Leftmost IsToken position tokens) (offset : Int) :
    Leftmost (fun span => ∃ other, IsToken other ∧ span = other.shift offset) (position + offset)
      (tokens.map (Span.shift offset)) := by
  have hplace : KeepsOrder (· + offset) fun _ => True :=
    fun _ _ _ _ hlt => Int.add_lt_add_right hlt offset
  exact h.map hplace (fun _ => ⟨rfl, rfl⟩) trivial fun _ _ => ⟨trivial, trivial⟩

/-- Where all tokens of one kind end before those of another kind begin, the leftmost tokens of
either kind are the leftmost of the one and then the leftmost of the other. -/
theorem union (hfront : Leftmost IsToken position front) (hback : Leftmost Other middle back)
    (hjoint : ∀ span, Joint span ↔ IsToken span ∨ Other span)
    (htokens : ∀ token, IsToken token → token.start < token.stop ∧ token.stop ≤ middle)
    (hothers : ∀ token, Other token → middle ≤ token.start ∧ token.start < token.stop)
    (hle : position ≤ middle) : Leftmost Joint position (front ++ back) := by
  induction hfront with
  | done position hnone =>
      have hfrom : Leftmost Joint middle back := by
        refine hback.congr_from ?_ fun token htoken => (hothers token htoken).2
        intro span hge
        refine (hjoint span).trans (or_iff_right fun hspan => ?_)
        have hbounds := htokens span hspan
        omega
      refine hfrom.skip hle ?_
      intro other hother hge
      rcases (hjoint other).1 hother with hother | hother
      · have hbefore := hnone other hother
        omega
      · exact (hothers other hother).1
  | next position token rest htoken hstart hleast _ ih =>
      have hbounds := htokens token htoken
      refine .next position token _ ((hjoint token).2 (.inl htoken)) hstart ?_ (ih hbounds.2)
      intro other hother hge
      rcases (hjoint other).1 hother with hother | hother
      · exact hleast other hother hge
      · have hlater := (hothers other hother).1
        omega

end Leftmost

/-! ## Lines of a source -/

namespace Grammar

variable {grammar : Grammar}

/-- With the default rules the spans of a source that are not plain are its leftmost tokens. -/
theorem exists_spans_leftmost (source : Source) (hrules : grammar.rules = defaultRules) :
    ∃ spans, (grammar.classify source).result = .ok spans ∧
      Leftmost (grammar.HasToken source) 0 (spans.filter fun span => span.category ≠ .plain) := by
  obtain ⟨tokens, hresult, hleftmost, hspaced⟩ := exists_leftmost_source source hrules
  refine ⟨_, hresult, ?_⟩
  rwa [filter_fillGaps source 0 source.length hspaced.not_plain]

/-- Apart from plain text, lines are classified on their own: what stands before a line feed, unless
it ends with a backslash, does not bear on what stands behind it, nor the other way round. -/
theorem classify_lines (grammar : Grammar) (hrules : grammar.rules = defaultRules) (a b : Text)
    (ha : a.getLast? ≠ some '\\') :
    ∃ spans first second, (grammar.classify (.ofText (a ++ '\n' :: b))).result = .ok spans ∧
      (grammar.classify (.ofText a)).result = .ok first ∧
      (grammar.classify (.ofText b)).result = .ok second ∧
      (spans.filter fun span => span.category ≠ .plain) =
        (first.filter fun span => span.category ≠ .plain) ++
          (second.filter fun span => span.category ≠ .plain).map (Span.shift (a.length + 1)) := by
  obtain ⟨spans, hspans, hwhole⟩ := exists_spans_leftmost (.ofText (a ++ '\n' :: b)) hrules
  obtain ⟨first, hfirst, hfront⟩ := exists_spans_leftmost (.ofText a) hrules
  obtain ⟨second, hsecond, hback⟩ := exists_spans_leftmost (.ofText b) hrules
  refine ⟨spans, first, second, hspans, hfirst, hsecond, ?_⟩
  have hshifted := hback.shift (a.length + 1)
  have hboth := hfront.union hshifted (fun span => hasToken_lines_iff ha) ?_ ?_ (by omega)
  · exact hwhole.unique (hasToken_start_injective grammar _ hrules) hboth
  · intro token htoken
    obtain ⟨-, hnonempty, hstop, -⟩ := htoken.bounds
    rw [Source.length_ofText] at hstop
    exact ⟨hnonempty, by omega⟩
  · rintro _ ⟨other, hother, rfl⟩
    obtain ⟨hstart, hnonempty, -, -⟩ := hother.bounds
    rw [Span.start_shift, Span.stop_shift]
    omega

/-- Neither the string that the first line leaves open nor the numeral at its end goes on in the
second one. -/
theorem classify_lines_unterminated :
    let a := "x = \"ab 1e".toList
    let b := "5 \"message\"".toList
    a.getLast? ≠ some '\\' ∧
    ∃ spans first second, (protobuf.classify (.ofText (a ++ '\n' :: b))).result = .ok spans ∧
      (protobuf.classify (.ofText a)).result = .ok first ∧
      (protobuf.classify (.ofText b)).result = .ok second ∧
      (spans.filter fun span => span.category ≠ .plain) =
        (first.filter fun span => span.category ≠ .plain) ++
          (second.filter fun span => span.category ≠ .plain).map (Span.shift (a.length + 1)) :=
  ⟨by decide, classify_lines protobuf rfl _ _ (by decide)⟩

end Grammar

end CodeHighlight
