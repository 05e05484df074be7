import CodeHighlight.Proofs.Scan.Resumption

/-!
# Runs of word characters

A run of word characters that is as long as possible lies inside a single span, since no token
begins or ends between two word characters (`Grammar.HasToken.outside`).  A run that begins like a
word is classified as the grammar classifies that word, unless a quoted string contains it: no
numeral contains such a run, because inside a numeral a letter stands only behind a digit.
-/

namespace CodeHighlight

open scoped Computability

/-- Between the text before it and the text after it, the run of word characters is as long as
possible. -/
structure WordRun (before run after : Text) : Prop where
  ne_nil : run ≠ []
  all_isWordChar : ∀ c ∈ run, isWordChar c = true
  any_before : before.getLast?.any isWordChar = false
  any_after : after.head?.any isWordChar = false

namespace WordRun

variable {before run after front back : Text}

/-- Where a run is cut in two, word characters stand on both sides of the cut. -/
theorem any_of_cut (h : WordRun before run after) (htext : front ++ back = before ++ run ++ after)
    (hlt : before.length < front.length) (hgt : front.length < before.length + run.length) :
    front.getLast?.any isWordChar = true ∧ back.head?.any isWordChar = true := by
  obtain ⟨left, right, rfl, hlength⟩ : ∃ left right, run = left ++ right ∧
      left.length = front.length - before.length := by
    refine ⟨_, _, (List.take_append_drop (front.length - before.length) run).symm, ?_⟩
    rw [List.length_take]
    omega
  rw [List.length_append] at hgt
  have hleft : left ≠ [] := List.ne_nil_of_length_pos (by omega)
  have hright : right ≠ [] := List.ne_nil_of_length_pos (by omega)
  have hsplit : front ++ back = before ++ left ++ (right ++ after) := by
    rw [htext]
    simp only [List.append_assoc]
  obtain ⟨rfl, rfl⟩ := List.append_inj hsplit (by rw [List.length_append]; omega)
  rw [List.getLast?_append, List.getLast?_eq_some_getLast hleft, List.head?_append,
    List.head?_eq_some_head hright]
  exact ⟨h.all_isWordChar _ (List.mem_append_left right (List.getLast_mem hleft)),
    h.all_isWordChar _ (List.mem_append_right left (List.head_mem hright))⟩

/-- Of two runs in a text neither is a proper part of the other. -/
theorem eq_of_covers {earlier word later : Text} (h : WordRun before run after)
    (hword : WordRun earlier word later)
    (htext : earlier ++ word ++ later = before ++ run ++ after)
    (hstart : earlier.length ≤ before.length)
    (hstop : before.length + run.length ≤ earlier.length + word.length) :
    earlier = before ∧ word = run := by
  have hpositive := List.length_pos_of_ne_nil h.ne_nil
  have hfront : earlier.length = before.length := by
    by_contra hne
    have hsplit : before ++ (run ++ after) = earlier ++ word ++ later := by
      rw [htext, List.append_assoc]
    have hcut := hword.any_of_cut hsplit (by omega) (by omega)
    exact Bool.false_ne_true (h.any_before.symm.trans hcut.1)
  have hend : (earlier ++ word).length = (before ++ run).length := by
    rw [List.length_append, List.length_append]
    by_contra hne
    have hcut := hword.any_of_cut htext.symm
      (by rw [List.length_append]; omega) (by rw [List.length_append]; omega)
    exact Bool.false_ne_true (h.any_after.symm.trans hcut.2)
  exact List.append_inj (List.append_inj htext hend).1 hfront

end WordRun

/-- Inside a numeral a word start stands only behind a digit, since it is the mark of the
exponent. -/
theorem any_getLast?_of_numeral {t front back : Text} {c : Char} (h : t ∈ numerals)
    (ht : t = front ++ c :: back) (hc : isWordStart c = true) :
    front.getLast?.any isWordChar = true := by
  obtain ⟨sign, hsign, whole, hwhole, fraction, hfraction, exponent, hexponent, rfl⟩ :=
    mem_numerals.1 h
  have hbound := le_toNat_of_isWordStart hc
  have hsigns : ∀ {sign : Text}, sign ∈ 1 + signs → c ∉ sign := by
    intro sign hsign hmem
    have hlow := isSign_of_mem hsign c hmem
    simp only [isSign, Bool.or_eq_true, beq_iff_eq] at hlow
    rcases hlow with rfl | rfl <;> contradiction
  have hdigits : ∀ {run : Text}, run ∈ digits → c ∉ run := by
    intro run hrun hmem
    have hlow := (isDigit_iff c).1 ((mem_digits.1 hrun).2 c hmem)
    omega
  have hdecimal : c ∉ sign ++ (whole ++ fraction) := by
    have hnoFraction : c ∉ fraction := by
      rcases hfraction with rfl | hfraction
      · exact List.not_mem_nil
      · obtain ⟨run, hrun, rfl⟩ := mem_fractions.1 hfraction
        have hpoint : c ≠ '.' := by
          rintro rfl
          contradiction
        simp [hpoint, hdigits hrun]
    simp [hsigns hsign, hdigits hwhole, hnoFraction]
  have hsplit : sign ++ (whole ++ fraction) ++ exponent = front ++ c :: back := by
    rw [← ht]
    simp only [List.append_assoc]
  obtain ⟨middle, rfl, hmiddle⟩ := Text.exists_append_of_not_mem hsplit hdecimal
  -- What is left of the numeral is its exponent, and of that the character is the mark.
  rcases hexponent with rfl | hexponent
  · exact absurd hmiddle.symm (List.append_ne_nil_of_right_ne_nil _ (List.cons_ne_nil _ _))
  · obtain ⟨mark, -, other, hother, run, hrun, rfl⟩ := mem_exponents.1 hexponent
    cases middle with
    | cons d middle =>
        have hmem : c ∈ other ++ run := by
          rw [(List.cons.inj hmiddle).2]
          simp
        rcases List.mem_append.1 hmem with hmem | hmem
        · exact absurd hmem (hsigns hother)
        · exact absurd hmem (hdigits hrun)
    | nil =>
        have hnumeral : sign ++ (whole ++ (fraction ++ [])) ∈ numerals :=
          mem_numerals.2 ⟨sign, hsign, whole, hwhole, fraction, hfraction, [], .inl rfl, rfl⟩
        rw [List.append_nil] at hnumeral
        rw [List.append_nil]
        exact any_isWordChar_of_any_isDigit (any_getLast?_of_mem_numerals hnumeral)

/-! ## Tokens and runs -/

namespace Grammar

variable {grammar : Grammar} {source : Source} {token : Span} {before run after : Text}

/-- A token neither begins nor ends inside a run. -/
theorem HasToken.outside (h : grammar.HasToken source token)
    (htext : source.text = before ++ run ++ after) (hrun : WordRun before run after) :
    (token.start ≤ before.length ∨ before.length + run.length ≤ token.start) ∧
      (token.stop ≤ before.length ∨ before.length + run.length ≤ token.stop) := by
  obtain ⟨earlier, lexeme, later, category, hsplit, htoken, rfl⟩ := h
  rw [htext] at hsplit
  have hstop : (Span.ofLexeme category lexeme earlier.length).stop =
      ((earlier ++ lexeme).length : Int) := by
    rw [List.length_append]
    rfl
  rw [hstop]
  show ((earlier.length : Int) ≤ _ ∨ _ ≤ (earlier.length : Int)) ∧ _
  constructor
  · by_contra hinside
    have hfront : earlier ++ (lexeme ++ later) = before ++ run ++ after := by
      rw [hsplit, List.append_assoc]
    have hcut := hrun.any_of_cut hfront (by omega) (by omega)
    have hhead := htoken.any_head?_eq_false hcut.1
    rw [List.head?_append, List.head?_eq_some_head htoken.ne_nil, Option.some_or] at hcut
    rw [List.head?_eq_some_head htoken.ne_nil] at hhead
    exact Bool.false_ne_true (hhead.symm.trans hcut.2)
  · by_contra hinside
    have hcut := hrun.any_of_cut hsplit.symm (by omega) (by omega)
    rw [List.getLast?_append, List.getLast?_eq_some_getLast htoken.ne_nil, Option.some_or] at hcut
    have hafter := htoken.any_head?_after_eq_false
      (by rw [List.getLast?_eq_some_getLast htoken.ne_nil]; exact hcut.1)
    exact Bool.false_ne_true (hafter.symm.trans hcut.2)

/-- A token that is a keyword or a literal is the whole run that it covers. -/
theorem HasToken.eq_run (h : grammar.HasToken source token)
    (htext : source.text = before ++ run ++ after) (hrun : WordRun before run after)
    (hstart : token.start ≤ before.length) (hstop : before.length + run.length ≤ token.stop)
    (hcategory : token.category = .keyword ∨ token.category = .literal) :
    IsWord run ∧ token = Span.ofLexeme (grammar.classifyWord run) run before.length := by
  obtain ⟨earlier, lexeme, later, category, hsplit, htoken, rfl⟩ := h
  have hne := htoken.ne_nil
  have hword : IsWord lexeme ∧ WordRun earlier lexeme later ∧
      category = grammar.classifyWord lexeme := by
    cases htoken with
    | keyword hword hbefore hafter hmem =>
        exact ⟨hword, ⟨hne, hword.all_isWordChar, hbefore, hafter⟩, (if_pos hmem).symm⟩
    | literal hword hbefore hafter hmem =>
        have hkeyword : lexeme ∉ grammar.keywords := fun h => grammar.disjoint lexeme h hmem
        refine ⟨hword, ⟨hne, hword.all_isWordChar, hbefore, hafter⟩, ?_⟩
        rw [classifyWord, wordCategory, if_neg hkeyword, if_pos hmem]
    | string => simp [Span.ofLexeme] at hcategory
    | number => simp [Span.ofLexeme] at hcategory
  obtain ⟨hlexeme, hwordRun, rfl⟩ := hword
  have hstart : (earlier.length : Int) ≤ before.length := hstart
  have hstop : (before.length : Int) + run.length ≤ earlier.length + lexeme.length := hstop
  rw [htext] at hsplit
  obtain ⟨rfl, rfl⟩ := hrun.eq_of_covers hwordRun hsplit.symm (by omega) (by omega)
  exact ⟨hlexeme, rfl⟩

/-- No numeral covers a run that begins like a word. -/
theorem HasToken.not_number (h : grammar.HasToken source token)
    (htext : source.text = before ++ run ++ after) (hrun : WordRun before run after)
    (hstart : token.start ≤ before.length) (hstop : before.length + run.length ≤ token.stop)
    (hfirst : run.head?.any isWordStart = true) : token.category ≠ .number := by
  obtain ⟨earlier, lexeme, later, category, hsplit, htoken, rfl⟩ := h
  rintro rfl
  have hstart : (earlier.length : Int) ≤ before.length := hstart
  have hstop : (before.length : Int) + run.length ≤ earlier.length + lexeme.length := hstop
  cases htoken with
  | number hlongest =>
      obtain ⟨c, rest, rfl⟩ := List.exists_cons_of_ne_nil hrun.ne_nil
      -- The numeral has the run inside, so what it has before the run are its own characters.
      rw [htext, List.append_assoc, List.append_assoc] at hsplit
      obtain ⟨front, rfl⟩ : earlier <+: before :=
        List.prefix_of_prefix_length_le (hsplit ▸ List.prefix_append earlier _)
          (List.prefix_append before _) (by omega)
      rw [List.append_assoc, List.append_cancel_left_eq] at hsplit
      obtain ⟨back, hback⟩ : front ++ c :: rest <+: lexeme := by
        rw [List.length_append] at hstop
        have hfront : front ++ c :: rest <+: lexeme ++ later := by
          rw [← hsplit, ← List.append_assoc]
          exact List.prefix_append _ after
        exact List.prefix_of_prefix_length_le hfront (List.prefix_append lexeme later)
          (by rw [List.length_append]; omega)
      have hlast := any_getLast?_of_numeral hlongest.mem
        (hback.symm.trans (by rw [List.append_assoc, List.cons_append])) hfirst
      exact Bool.false_ne_true (hrun.any_before.symm.trans (Text.any_getLast?_append hlast))

/-- A token that covers a run that begins like a word is a quoted string or that word. -/
theorem HasToken.eq_word (h : grammar.HasToken source token)
    (htext : source.text = before ++ run ++ after) (hrun : WordRun before run after)
    (hstart : token.start ≤ before.length) (hstop : before.length + run.length ≤ token.stop)
    (hfirst : run.head?.any isWordStart = true) (hstring : token.category ≠ .string) :
    token = Span.ofLexeme (grammar.classifyWord run) run before.length := by
  have hnumber := h.not_number htext hrun hstart hstop hfirst
  obtain ⟨-, -, -, hplain⟩ := h.bounds
  refine (h.eq_run htext hrun hstart hstop ?_).2
  cases hcategory : token.category with
  | keyword => exact .inl rfl
  | literal => exact .inr rfl
  | string => exact absurd hcategory hstring
  | number => exact absurd hcategory hnumber
  | plain => exact absurd hcategory hplain

end Grammar

/-! ## Spans and runs -/

/-- A stretch in which no token begins or ends lies inside one span. -/
theorem Spaced.exists_covering {source : Source} {start stop first last : Int}
    {tokens : List Span} (h : Spaced source start stop tokens) (hlt : first < last)
    (hfirst : start ≤ first) (hlast : last ≤ stop)
    (houtside : ∀ token ∈ tokens, (token.start ≤ first ∨ last ≤ token.start) ∧
      (token.stop ≤ first ∨ last ≤ token.stop)) :
    ∃ span ∈ fillGaps source start stop tokens, span.start ≤ first ∧ last ≤ span.stop := by
  have hgap : ∀ {start stop : Int}, start ≤ first → last ≤ stop →
      ∃ span ∈ plainBetween source start stop, span.start ≤ first ∧ last ≤ span.stop := by
    intro start stop hstart hstop
    rw [plainBetween, if_pos (by omega)]
    exact ⟨_, List.mem_singleton_self _, hstart, hstop⟩
  induction h with
  | nil start stop hle => exact hgap hfirst hlast
  | cons start stop token rest hstart hnonempty _ _ _ ih =>
      obtain ⟨houter, hothers⟩ := List.forall_mem_cons.1 houtside
      rw [fillGaps]
      -- The stretch lies in front of the token, inside it, or behind it.
      by_cases hbefore : last ≤ token.start
      · obtain ⟨span, hspan, hcovers⟩ := hgap hfirst hbefore
        exact ⟨span, List.mem_append_left _ hspan, hcovers⟩
      · by_cases hbehind : token.stop ≤ first
        · obtain ⟨span, hspan, hcovers⟩ := ih hbehind hlast hothers
          exact ⟨span, List.mem_append_right _ (List.mem_cons_of_mem token hspan), hcovers⟩
        · refine ⟨token, List.mem_append_right _ List.mem_cons_self, ?_, ?_⟩
          · exact houter.1.resolve_right hbefore
          · exact houter.2.resolve_left hbehind

/-- Two spans of a tiling that overlap are the same. -/
theorem Tiles.eq_of_overlap {source : Source} {start stop : Int} {spans : List Span}
    (h : Tiles source start stop spans) {span other : Span} (hspan : span ∈ spans)
    (hother : other ∈ spans) (hstart : span.start < other.stop) (hstop : other.start < span.stop) :
    span = other := by
  induction h with
  | nil => contradiction
  | cons first rest stop _ _ hrest ih =>
      have hlater : ∀ later ∈ rest, first.stop ≤ later.start :=
        fun later hmem => (hrest.bounds later hmem).1
      rcases List.mem_cons.1 hspan with rfl | hrestSpan
      · rcases List.mem_cons.1 hother with rfl | hrestOther
        · rfl
        · have hbehind := hlater other hrestOther
          omega
      · rcases List.mem_cons.1 hother with rfl | hrestOther
        · have hbehind := hlater span hrestSpan
          omega
        · exact ih hrestSpan hrestOther

/-- Every token is one of the leftmost ones or begins inside one of them. -/
theorem Leftmost.exists_covering {IsToken : Span → Prop} {position : Int} {tokens : List Span}
    (h : Leftmost IsToken position tokens) {token : Span} (htoken : IsToken token)
    (hge : position ≤ token.start) :
    ∃ other ∈ tokens, other.start ≤ token.start ∧ token.start < other.stop := by
  induction h with
  | done position hnone =>
      have hbefore := hnone token htoken
      omega
  | next position other rest _ _ hleast _ ih =>
      by_cases hlt : token.start < other.stop
      · exact ⟨other, List.mem_cons_self, hleast token htoken hge, hlt⟩
      · obtain ⟨later, hlater, hcovers⟩ := ih (by omega)
        exact ⟨later, List.mem_cons_of_mem other hlater, hcovers⟩

namespace Grammar

variable {grammar : Grammar} {source : Source} {before run after : Text}

/-- A run that is a keyword or a literal is a token. -/
theorem hasToken_of_wordRun (htext : source.text = before ++ run ++ after)
    (hrun : WordRun before run after) (hfirst : run.head?.any isWordStart = true)
    (hcategory : grammar.classifyWord run ≠ .plain) :
    grammar.HasToken source (Span.ofLexeme (grammar.classifyWord run) run before.length) := by
  obtain ⟨c, rest, rfl⟩ := List.exists_cons_of_ne_nil hrun.ne_nil
  have hword : IsWord (c :: rest) :=
    ⟨c, rest, hfirst, fun d hd => hrun.all_isWordChar d (List.mem_cons_of_mem c hd), rfl⟩
  refine ⟨before, c :: rest, after, _, htext, ?_, rfl⟩
  unfold classifyWord wordCategory at hcategory ⊢
  by_cases hkeyword : c :: rest ∈ grammar.keywords
  · rw [if_pos hkeyword]
    exact .keyword hword hrun.any_before hrun.any_after hkeyword
  · rw [if_neg hkeyword] at hcategory ⊢
    by_cases hliteral : c :: rest ∈ grammar.literals
    · rw [if_pos hliteral]
      exact .literal hword hrun.any_before hrun.any_after hliteral
    · rw [if_neg hliteral] at hcategory
      contradiction

/-- Every run of word characters lies inside a single span.  A run that begins like a word and is
not part of a quoted string is classified as a word: as a keyword or a literal it is a span of its
own, and otherwise it is plain text.  No part of any other run is a keyword or a literal. -/
theorem classify_word_runs (grammar : Grammar) (source : Source)
    (hrules : grammar.rules = defaultRules) :
    ∃ spans, (grammar.classify source).result = .ok spans ∧
      ∀ before run after, source.text = before ++ run ++ after → WordRun before run after →
        ∃ span ∈ spans, span.start ≤ before.length ∧ before.length + run.length ≤ span.stop ∧
          (∀ other ∈ spans, other.start < before.length + run.length →
            before.length < other.stop → other = span) ∧
          (run.head?.any isWordStart = true → span.category ≠ .string →
            span.category = grammar.classifyWord run ∧
              (span.category ≠ .plain →
                span = Span.ofLexeme (grammar.classifyWord run) run before.length)) ∧
          (run.head?.any isWordStart = false →
            span.category ≠ .keyword ∧ span.category ≠ .literal) := by
  obtain ⟨tokens, hresult, hleftmost, hspaced⟩ := exists_leftmost_source source hrules
  refine ⟨_, hresult, ?_⟩
  intro before run after htext hrun
  have hlength := congrArg List.length htext
  rw [List.length_append, List.length_append] at hlength
  have hpositive := List.length_pos_of_ne_nil hrun.ne_nil
  have htokens := filter_fillGaps source 0 source.length hspaced.not_plain
  obtain ⟨span, hspan, hstart, hstop⟩ : ∃ span ∈ fillGaps source 0 source.length tokens,
      span.start ≤ before.length ∧ (before.length : Int) + run.length ≤ span.stop :=
    hspaced.exists_covering (by omega) (by omega) (by rw [source.length_eq]; omega)
      fun token htoken => (hleftmost.isToken token htoken).outside htext hrun
  have honly : ∀ other ∈ fillGaps source 0 source.length tokens,
      other.start < before.length + run.length → before.length < other.stop → other = span := by
    intro other hother hbefore hbehind
    exact hspaced.tiles_fillGaps.eq_of_overlap hother hspan (by omega) (by omega)
  have htoken : span.category ≠ .plain → grammar.HasToken source span := by
    intro hcategory
    apply hleftmost.isToken
    rw [← htokens]
    exact List.mem_filter.2 ⟨hspan, by simpa using hcategory⟩
  refine ⟨span, hspan, hstart, hstop, honly, ?_, ?_⟩
  · intro hfirst hstring
    by_cases hplain : span.category = .plain
    · -- A keyword or a literal would be a token, and the run found one that covers it.
      refine ⟨?_, fun h => absurd hplain h⟩
      by_contra hother
      have hcategory : grammar.classifyWord run ≠ .plain := fun h => hother (hplain.trans h.symm)
      obtain ⟨other, hmem, hcovers⟩ := hleftmost.exists_covering
        (hasToken_of_wordRun htext hrun hfirst hcategory) (Int.natCast_nonneg before.length)
      have hnotPlain := hspaced.not_plain other hmem
      rw [← htokens] at hmem
      have hcovers : other.start ≤ before.length ∧ before.length < other.stop := hcovers
      obtain rfl := honly other (List.mem_of_mem_filter hmem) (by omega) hcovers.2
      exact hnotPlain hplain
    · have hword := (htoken hplain).eq_word htext hrun hstart hstop hfirst hstring
      exact ⟨congrArg Span.category hword, fun _ => hword⟩
  · intro hfirst
    rw [← not_or]
    intro hword
    have hplain : span.category ≠ .plain := by
      rcases hword with h | h <;> rw [h] <;> decide
    obtain ⟨⟨c, body, hc, -, rfl⟩, -⟩ := (htoken hplain).eq_run htext hrun hstart hstop hword
    exact Bool.false_ne_true (hfirst.symm.trans hc)

/-- Behind the three runs of a numeral and in front of a quoted string. -/
theorem classify_word_runs_message :
    let source : Source := .ofText "1.5e+3 message\"int32\"".toList
    let before := "1.5e+3 ".toList
    let run := "message".toList
    let after := "\"int32\"".toList
    source.text = before ++ run ++ after ∧ WordRun before run after ∧
    run.head?.any isWordStart = true ∧
    ∃ spans, (protobuf.classify source).result = .ok spans ∧
      ∃ span ∈ spans, span.start ≤ before.length ∧ before.length + run.length ≤ span.stop ∧
        (∀ other ∈ spans, other.start < before.length + run.length →
          before.length < other.stop → other = span) ∧
        (span.category ≠ .string → span.category = protobuf.classifyWord run ∧
          (span.category ≠ .plain →
            span = Span.ofLexeme (protobuf.classifyWord run) run before.length)) := by
  intro source before run after
  have htext : source.text = before ++ run ++ after := rfl
  have hrun : WordRun before run after :=
    ⟨by decide, List.all_eq_true.1 (by decide), by decide, by decide⟩
  have hfirst : run.head?.any isWordStart = true := by decide
  obtain ⟨spans, hspans, hruns⟩ := classify_word_runs protobuf source rfl
  obtain ⟨span, hmem, hstart, hstop, honly, hword, -⟩ := hruns before run after htext hrun
  exact ⟨htext, hrun, hfirst, spans, hspans, span, hmem, hstart, hstop, honly, hword hfirst⟩

end Grammar

end CodeHighlight
