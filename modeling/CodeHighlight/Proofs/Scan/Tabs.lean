import CodeHighlight.Proofs.Scan.Resumption
import CodeHighlight.Proofs.Text.Tabs

/-!
# Tokens of texts with expanded tabs

No token begins or ends with a space or a tab.  So an expanded text has a token only where both ends
of it come from ends in the text (`Text.exists_of_expandTabsFrom_cut_front`), and there the text has
a token as well: words and numerals contain no spaces, and in a quoted string it makes no difference
whether a backslash hides a tab or the first of its spaces (`quotedBody_expandTabsFrom_iff`).  The
tokens keep their order, and so does the plain text between them.
-/

namespace CodeHighlight

open scoped Computability

/-! ## Lexemes in expanded texts -/

section Bodies

variable {mark c : Char} {t : Text}

theorem quotedBody_hidden_iff : QuotedBody mark ('\\' :: c :: t) ↔ QuotedBody mark t := by
  constructor
  · intro h
    cases h with
    | hidden _ _ hrest => exact hrest
    | shown _ _ hbackslash => exact absurd rfl hbackslash
  · exact .hidden c t

theorem quotedBody_shown_iff (hc : c ≠ '\\') :
    QuotedBody mark (c :: t) ↔ (c ≠ mark ∧ c ≠ '\n') ∧ QuotedBody mark t := by
  constructor
  · intro h
    cases h with
    | hidden => exact absurd rfl hc
    | shown _ _ _ hmark hline hrest => exact ⟨⟨hmark, hline⟩, hrest⟩
  · rintro ⟨⟨hmark, hline⟩, hrest⟩
    exact .shown c t hc hmark hline hrest

/-- Spaces may always stand between quotation marks. -/
theorem quotedBody_spaces_iff (hspace : mark ≠ ' ') (count : Nat) :
    QuotedBody mark (List.replicate count ' ' ++ t) ↔ QuotedBody mark t := by
  induction count with
  | zero => exact Iff.rfl
  | succ count ih =>
      rw [List.replicate_succ, List.cons_append, quotedBody_shown_iff (by decide), ih]
      exact and_iff_right ⟨hspace.symm, by decide⟩

variable {width : Nat} (hwidth : 0 < width) {column : Nat}

include hwidth

/-- Behind a character that is expanded, hidden or not, a body goes on as if it were not. -/
private theorem quotedBody_expandTabsFrom_pair (hspace : mark ≠ ' ') (htab : mark ≠ '\t') :
    (QuotedBody mark (Text.expandTabsFrom width column t) ↔ QuotedBody mark t) ∧
      (QuotedBody mark ('\\' :: Text.expandTabsFrom width column t) ↔
        QuotedBody mark ('\\' :: t)) := by
  -- A backslash in front of the text may hide its first character, so both go together.
  induction t generalizing column with
  | nil => exact ⟨Iff.rfl, Iff.rfl⟩
  | cons c t ih =>
      have hopen : QuotedBody mark
          (Text.expandTabsFrom width (Text.columnBehind width column c) t) ↔ _ := ih.1
      have hbackslash : QuotedBody mark
          ('\\' :: Text.expandTabsFrom width (Text.columnBehind width column c) t) ↔ _ := ih.2
      rw [Text.expandTabsFrom_cons]
      rcases Text.filled_cases width column c hwidth with ⟨rfl, gap, hfilled⟩ | ⟨-, hfilled⟩
      · rw [hfilled, List.cons_append, quotedBody_hidden_iff, quotedBody_hidden_iff,
          quotedBody_shown_iff (by decide), quotedBody_shown_iff (by decide),
          quotedBody_spaces_iff hspace, hopen]
        refine ⟨and_congr_left fun _ => ?_, Iff.rfl⟩
        exact iff_of_true ⟨hspace.symm, by decide⟩ ⟨htab.symm, by decide⟩
      · rw [hfilled, List.singleton_append, quotedBody_hidden_iff, quotedBody_hidden_iff]
        refine ⟨?_, hopen⟩
        by_cases hc : c = '\\'
        · rw [hc] at hbackslash ⊢
          exact hbackslash
        · rw [quotedBody_shown_iff hc, quotedBody_shown_iff hc, hopen]

/-- Tabs between quotation marks may be expanded, or have been expanded. -/
theorem quotedBody_expandTabsFrom_iff (hspace : mark ≠ ' ') (htab : mark ≠ '\t') :
    QuotedBody mark (Text.expandTabsFrom width column t) ↔ QuotedBody mark t :=
  (quotedBody_expandTabsFrom_pair hwidth hspace htab).1

theorem isQuoted_expandTabsFrom_iff {marks : List Char} (hspace : ' ' ∉ marks)
    (htab : '\t' ∉ marks) :
    IsQuoted marks (Text.expandTabsFrom width column t) ↔ IsQuoted marks t := by
  constructor
  · rintro ⟨mark, hmark, hbackslash, body, hbody, hsplit⟩
    have hmarkSpace : mark ≠ ' ' := ne_of_mem_of_not_mem hmark hspace
    have hmarkTab : mark ≠ '\t' := ne_of_mem_of_not_mem hmark htab
    rw [← List.nil_append (mark :: _)] at hsplit
    obtain ⟨front, rest, rfl, -, hfront, hrest⟩ :=
      Text.exists_of_expandTabsFrom_eq_append hwidth hmarkSpace hsplit
    obtain rfl := Text.eq_nil_of_expandTabsFrom_eq_nil hwidth hfront.symm
    obtain ⟨inner, back, rfl, -, rfl, hback⟩ :=
      Text.exists_of_expandTabsFrom_eq_append hwidth hmarkSpace hrest.symm
    obtain rfl := Text.eq_nil_of_expandTabsFrom_eq_nil hwidth hback.symm
    rw [quotedBody_expandTabsFrom_iff hwidth hmarkSpace hmarkTab] at hbody
    exact ⟨mark, hmark, hbackslash, inner, hbody, rfl⟩
  · rintro ⟨mark, hmark, hbackslash, body, hbody, rfl⟩
    have hmarkSpace : mark ≠ ' ' := ne_of_mem_of_not_mem hmark hspace
    have hmarkTab : mark ≠ '\t' := ne_of_mem_of_not_mem hmark htab
    refine ⟨mark, hmark, hbackslash,
      Text.expandTabsFrom width (Text.columnBehind width column mark) body,
      (quotedBody_expandTabsFrom_iff hwidth hmarkSpace hmarkTab).2 hbody, ?_⟩
    rw [Text.expandTabsFrom_cons_of_ne _ _ _ _ hmarkTab, Text.expandTabsFrom_append,
      Text.expandTabsFrom_cons_of_ne _ _ _ _ hmarkTab]
    rfl

end Bodies

section Numerals

variable {width : Nat} (hwidth : 0 < width) {column : Nat} {lexeme after : Text}

include hwidth

/-- The longest numeral does not depend on how wide the tabs behind it are. -/
theorem longest_numerals_expandTabsFrom_iff :
    Longest numerals lexeme (Text.expandTabsFrom width column after) ↔
      Longest numerals lexeme after := by
  have hfits : ∀ word ∈ numerals,
      (word <+: lexeme ++ Text.expandTabsFrom width column after ↔ word <+: lexeme ++ after) := by
    intro word hword
    have hblank : ∀ c ∈ word, c ≠ '\t' ∧ c ≠ ' ' := by
      intro c hc
      constructor <;> rintro rfl <;>
        exact absurd (isWordChar_or_of_mem_numerals hword _ hc) (by decide)
    exact Text.prefix_append_expandTabsFrom_iff hwidth (fun hmem => (hblank _ hmem).1 rfl)
      fun hmem => (hblank _ hmem).2 rfl
  constructor
  · exact fun h => ⟨h.1, fun word hprefix hword => h.2 word ((hfits word hword).2 hprefix) hword⟩
  · exact fun h => ⟨h.1, fun word hprefix hword => h.2 word ((hfits word hword).1 hprefix) hword⟩

end Numerals

/-! ## Tokens in expanded texts -/

namespace Grammar

variable {grammar : Grammar} {before lexeme after : Text} {category : Category}

/-- Only quoted strings contain spaces and tabs. -/
theorem IsToken.isQuoted_or (h : grammar.IsToken before lexeme after category) :
    (category = .string ∧ IsQuoted ['"', '\''] lexeme) ∨ ('\t' ∉ lexeme ∧ ' ' ∉ lexeme) := by
  have hword : IsWord lexeme → '\t' ∉ lexeme ∧ ' ' ∉ lexeme := by
    intro hword
    constructor <;> exact fun hmem => absurd (hword.all_isWordChar _ hmem) (by decide)
  cases h with
  | keyword h => exact .inr (hword h)
  | literal h => exact .inr (hword h)
  | string h => exact .inl ⟨rfl, h⟩
  | number h =>
      right
      constructor <;>
        exact fun hmem => absurd (isWordChar_or_of_mem_numerals h.mem _ hmem) (by decide)

section Expansions

variable {width : Nat} (hwidth : 0 < width) {front column behind : Nat}

include hwidth

private theorem isToken_expandTabsFrom_lexeme_iff :
    grammar.IsToken before (Text.expandTabsFrom width column lexeme) after category ↔
      grammar.IsToken before lexeme after category := by
  constructor
  · intro h
    rcases h.isQuoted_or with ⟨rfl, hquoted⟩ | hblank
    · exact .string ((isQuoted_expandTabsFrom_iff hwidth (by decide) (by decide)).1 hquoted)
    · rwa [Text.expandTabsFrom_eq_self hwidth (.inr hblank.2)] at h
  · intro h
    rcases h.isQuoted_or with ⟨rfl, hquoted⟩ | hblank
    · exact .string ((isQuoted_expandTabsFrom_iff hwidth (by decide) (by decide)).2 hquoted)
    · rwa [Text.expandTabsFrom_eq_self hwidth (.inl hblank.1)]

/-- A token stays one where tabs before, in and behind it are expanded, whatever their columns. -/
theorem isToken_expandTabsFrom_iff :
    grammar.IsToken (Text.expandTabsFrom width front before)
        (Text.expandTabsFrom width column lexeme) (Text.expandTabsFrom width behind after)
        category ↔ grammar.IsToken before lexeme after category := by
  have hblank : isWordChar '\t' = isWordChar ' ' := by decide
  have hbefore : (Text.expandTabsFrom width front before).getLast?.any isWordChar =
      before.getLast?.any isWordChar := Text.any_getLast?_expandTabsFrom hwidth hblank
  have hafter : (Text.expandTabsFrom width behind after).head?.any isWordChar =
      after.head?.any isWordChar := Text.any_head?_expandTabsFrom hwidth hblank
  have hlongest : Longest numerals lexeme (Text.expandTabsFrom width behind after) ↔
      Longest numerals lexeme after := longest_numerals_expandTabsFrom_iff hwidth
  rw [isToken_expandTabsFrom_lexeme_iff hwidth]
  constructor
  · exact fun h => h.of_context hbefore.symm.trans hafter.symm.trans hlongest.1
  · exact fun h => h.of_context hbefore.trans hafter.trans hlongest.2

end Expansions

end Grammar

/-! ## Moving spans -/

/-- The span of the same category between the places that the ends of a span are moved to. -/
def Span.relocate (source : Source) (place : Int → Int) (span : Span) : Span :=
  ⟨span.category, source.slice (place span.start) (place span.stop), place span.start,
    place span.stop⟩

section Relocation

variable {source other : Source} {place : Int → Int} {offsets : Int → Prop} {start stop : Int}

theorem plainBetween_relocate (hplace : KeepsOrder place offsets) (hstart : offsets start)
    (hstop : offsets stop) :
    (plainBetween source start stop).map (Span.relocate other place) =
      plainBetween other (place start) (place stop) := by
  unfold plainBetween
  by_cases hlt : start < stop
  · rw [if_pos hlt, if_pos ((hplace.lt_iff_lt hstart hstop).2 hlt)]
    rfl
  · rw [if_neg hlt, if_neg (mt (hplace.lt_iff_lt hstart hstop).1 hlt)]
    rfl

/-- The gaps between tokens that are moved, but keep their order, are moved with them. -/
theorem fillGaps_relocate (hplace : KeepsOrder place offsets) (hstart : offsets start)
    (hstop : offsets stop) {tokens : List Span}
    (htokens : ∀ token ∈ tokens, offsets token.start ∧ offsets token.stop) :
    (fillGaps source start stop tokens).map (Span.relocate other place) =
      fillGaps other (place start) (place stop) (tokens.map (Span.relocate other place)) := by
  induction tokens generalizing start with
  | nil => exact plainBetween_relocate hplace hstart hstop
  | cons token rest ih =>
      obtain ⟨hfirst, hlast⟩ := htokens token List.mem_cons_self
      have hrest := ih hlast fun other hother => htokens other (List.mem_cons_of_mem token hother)
      rw [fillGaps, List.map_append, List.map_cons, plainBetween_relocate hplace hstart hfirst,
        hrest]
      rfl

end Relocation

/-! ## Spans of expanded texts -/

section Expansions

variable {width : Int} (hwidth : 0 < width) {t before middle after : Text}

include hwidth

/-- Between the places of its ends a part of a text has its expansion, in its own column. -/
theorem Source.slice_tabOffset (ht : t = before ++ (middle ++ after)) :
    (ofText (Text.expandTabs width t)).slice (Text.tabOffset width t before.length)
        (Text.tabOffset width t (before.length + middle.length)) =
      Text.expandTabsFrom width.toNat (Text.columnAfter width.toNat 0 before) middle := by
  let expanded := ofText (Text.expandTabs width t)
  obtain ⟨tail, hexpanded⟩ : ∃ tail, expanded.slice 0 expanded.length =
      Text.expandTabsFrom width.toNat 0 before ++
        (Text.expandTabsFrom width.toNat (Text.columnAfter width.toNat 0 before) middle ++
          tail) := by
    rw [slice_zero_length, text_ofText, ht, Text.expandTabs_eq hwidth, Text.expandTabsFrom_append,
      Text.expandTabsFrom_append]
    exact ⟨_, rfl⟩
  have hbehind := (expanded.slice_split (Int.le_refl 0) expanded.length_nonneg hexpanded).2
  rw [Int.zero_add] at hbehind
  obtain ⟨hfirst, hlast⟩ := Text.tabOffset_parts hwidth ht
  rw [hfirst, hlast]
  exact (expanded.slice_split (Int.natCast_nonneg _) expanded.length_nonneg hbehind).1

/-- A tab has its run of spaces there, and any other character itself. -/
theorem Source.slice_tabOffset_char {c : Char} (ht : t = before ++ c :: after) :
    (c = '\t' → ∃ gap, (ofText (Text.expandTabs width t)).slice
        (Text.tabOffset width t before.length) (Text.tabOffset width t (before.length + 1)) =
          ' ' :: List.replicate gap ' ') ∧
      (c ≠ '\t' → (ofText (Text.expandTabs width t)).slice
        (Text.tabOffset width t before.length) (Text.tabOffset width t (before.length + 1)) =
          [c]) := by
  have hslice : (ofText (Text.expandTabs width t)).slice
      (Text.tabOffset width t before.length) (Text.tabOffset width t (before.length + 1)) =
        Text.expandTabsFrom width.toNat (Text.columnAfter width.toNat 0 before) [c] := by
    rw [← slice_tabOffset hwidth (show t = before ++ ([c] ++ after) from ht)]
    rfl
  rw [hslice, Text.expandTabsFrom_cons, Text.expandTabsFrom, List.append_nil]
  rcases Text.filled_cases width.toNat (Text.columnAfter width.toNat 0 before) c (by omega) with
    ⟨rfl, hgap⟩ | ⟨hc, hfilled⟩
  · exact ⟨fun _ => hgap, fun htab => absurd rfl htab⟩
  · exact ⟨fun htab => absurd htab hc, fun _ => hfilled⟩

theorem Span.relocate_ofLexeme (ht : t = before ++ (middle ++ after)) (category : Category) :
    (ofLexeme category middle before.length).relocate (.ofText (Text.expandTabs width t))
        (Text.tabOffset width t) =
      ofLexeme category
        (Text.expandTabsFrom width.toNat (Text.columnAfter width.toNat 0 before) middle)
        (Text.expandTabsFrom width.toNat 0 before).length := by
  obtain ⟨hfirst, hlast⟩ := Text.tabOffset_parts hwidth ht
  unfold relocate ofLexeme
  rw [Source.slice_tabOffset hwidth ht, hfirst, hlast]

namespace Grammar

variable {grammar : Grammar} {span : Span}

/-- The tokens of an expanded text are the tokens of the text, each in its place. -/
theorem hasToken_expandTabs_iff :
    grammar.HasToken (.ofText (Text.expandTabs width t)) span ↔
      ∃ other, grammar.HasToken (.ofText t) other ∧
        span = other.relocate (.ofText (Text.expandTabs width t)) (Text.tabOffset width t) := by
  have hwidth' : 0 < width.toNat := by omega
  constructor
  · rintro ⟨front, lexeme, back, category, htext, htoken, rfl⟩
    rw [Source.text_ofText, Text.expandTabs_eq hwidth, List.append_assoc] at htext
    -- Neither end of the token is inside what a tab became.
    have hfirst : (lexeme ++ back).head? ≠ some ' ' := by
      obtain ⟨c, rest, rfl, hc⟩ := htoken.exists_first
      rintro hsame
      obtain rfl := Option.some.inj hsame
      exact absurd hc (by decide)
    have hlast : lexeme.getLast? ≠ some ' ' := by
      obtain ⟨c, hlast, hc⟩ := htoken.exists_last
      rw [hlast]
      rintro hsame
      obtain rfl := Option.some.inj hsame
      exact absurd hc (by decide)
    obtain ⟨before, rest, rfl, rfl, hrest⟩ :=
      Text.exists_of_expandTabsFrom_cut_front hwidth' hfirst htext
    obtain ⟨middle, after, rfl, rfl, rfl⟩ :=
      Text.exists_of_expandTabsFrom_cut_back hwidth' hlast hrest.symm
    refine ⟨_, ⟨before, middle, after, category, ?_,
      (isToken_expandTabsFrom_iff hwidth').1 htoken, rfl⟩,
      (Span.relocate_ofLexeme hwidth rfl category).symm⟩
    rw [Source.text_ofText, List.append_assoc]
  · rintro ⟨_, ⟨before, lexeme, after, category, htext, htoken, rfl⟩, rfl⟩
    rw [Source.text_ofText, List.append_assoc] at htext
    obtain ⟨behind, hexpanded⟩ : ∃ behind, (Source.ofText (Text.expandTabs width t)).text =
        Text.expandTabsFrom width.toNat 0 before ++
          Text.expandTabsFrom width.toNat (Text.columnAfter width.toNat 0 before) lexeme ++
          Text.expandTabsFrom width.toNat behind after := by
      rw [Source.text_ofText, htext, Text.expandTabs_eq hwidth, Text.expandTabsFrom_append,
        Text.expandTabsFrom_append, ← List.append_assoc]
      exact ⟨_, rfl⟩
    exact ⟨_, _, _, category, hexpanded, (isToken_expandTabsFrom_iff hwidth').2 htoken,
      Span.relocate_ofLexeme hwidth htext category⟩

end Grammar

end Expansions

namespace Grammar

/-- Where the tokens of a source are moved to the tokens of another one in their order, so are its
spans. -/
theorem exists_relocated_spans {grammar : Grammar} (hrules : grammar.rules = defaultRules)
    {source other : Source} {place : Int → Int} (hfirst : place 0 = 0)
    (hlast : place source.length = other.length)
    (horder : KeepsOrder place fun offset => 0 ≤ offset ∧ offset ≤ source.length)
    (htokens : ∀ span, grammar.HasToken other span ↔
      ∃ token, grammar.HasToken source token ∧ span = token.relocate other place) :
    ∃ spans, (grammar.classify source).result = .ok spans ∧
      (grammar.classify other).result = .ok (spans.map (Span.relocate other place)) := by
  obtain ⟨tokens, hresult, hleftmost, -⟩ := exists_leftmost_source source hrules
  obtain ⟨others, hothers, hfound, -⟩ := exists_leftmost_source other hrules
  have hlength := source.length_nonneg
  have hbounds : ∀ token, grammar.HasToken source token →
      (0 ≤ token.start ∧ token.start ≤ source.length) ∧
        (0 ≤ token.stop ∧ token.stop ≤ source.length) := by
    intro token htoken
    obtain ⟨hstart, hnonempty, hstop, -⟩ := htoken.bounds
    omega
  have hmoved : Leftmost (fun span => ∃ token, grammar.HasToken source token ∧
      span = token.relocate other place) (place 0) (tokens.map (Span.relocate other place)) :=
    hleftmost.map horder (fun _ => ⟨rfl, rfl⟩) ⟨Int.le_refl 0, hlength⟩ hbounds
  rw [← funext fun span => propext (htokens span), hfirst] at hmoved
  obtain rfl := hfound.unique (hasToken_start_injective grammar other hrules) hmoved
  have hgaps : (fillGaps source 0 source.length tokens).map (Span.relocate other place) =
      fillGaps other (place 0) (place source.length)
        (tokens.map (Span.relocate other place)) :=
    fillGaps_relocate horder ⟨Int.le_refl 0, hlength⟩ ⟨hlength, Int.le_refl _⟩
      fun token htoken => hbounds token (hleftmost.isToken token htoken)
  rw [hfirst, hlast] at hgaps
  exact ⟨_, hresult, hothers.trans (congrArg Except.ok hgaps.symm)⟩

/-- A text and its expansion are highlighted alike: each span of the expanded text lies where the
corresponding span of the text is moved to, as each tab becomes a run of spaces. -/
theorem classify_expandTabs (grammar : Grammar) (hrules : grammar.rules = defaultRules)
    (code : Text) (width : Int) (hwidth : 0 < width) :
    let expanded := Source.ofText (Text.expandTabs width code)
    let place := Text.tabOffset width code
    place 0 = 0 ∧ place code.length = expanded.length ∧
      (∀ first last : Int, 0 ≤ first → first < last → last ≤ code.length →
        place first < place last) ∧
      (∀ before c after, code = before ++ c :: after →
        (c = '\t' → ∃ gap, expanded.slice (place before.length) (place (before.length + 1)) =
          ' ' :: List.replicate gap ' ') ∧
        (c ≠ '\t' → expanded.slice (place before.length) (place (before.length + 1)) = [c])) ∧
      ∃ spans, (grammar.classify (.ofText code)).result = .ok spans ∧
        (grammar.classify expanded).result = .ok (spans.map (Span.relocate expanded place)) := by
  intro expanded place
  have hfirst : place 0 = 0 := Text.tabOffset_zero hwidth code
  have hlast : place code.length = expanded.length := by
    rw [Source.length_ofText]
    exact Text.tabOffset_length width code
  have hplace : ∀ first last : Int, 0 ≤ first → first < last → last ≤ code.length →
      place first < place last := fun _ _ => Text.tabOffset_lt_tabOffset hwidth
  refine ⟨hfirst, hlast, hplace, ?_, ?_⟩
  · exact fun before c after hcode => Source.slice_tabOffset_char hwidth hcode
  · rw [← Source.length_ofText] at hlast
    refine exists_relocated_spans hrules hfirst hlast ?_ fun span => hasToken_expandTabs_iff hwidth
    rw [Source.length_ofText]
    exact fun first last hstart hstop hlt => hplace first last hstart.1 hlt hstop.2

/-- The backslash that hides a tab hides the first of its two spaces. -/
theorem classify_expandTabs_hidden :
    let code := "\"\\\t\" 1\tint32".toList
    let expanded := Source.ofText (Text.expandTabs 4 code)
    let place := Text.tabOffset 4 code
    (0 : Int) < 4 ∧ expanded.text = "\"\\  \" 1 int32".toList ∧
      place 0 = 0 ∧ place code.length = expanded.length ∧
      (∀ first last : Int, 0 ≤ first → first < last → last ≤ code.length →
        place first < place last) ∧
      (∀ before c after, code = before ++ c :: after →
        (c = '\t' → ∃ gap, expanded.slice (place before.length) (place (before.length + 1)) =
          ' ' :: List.replicate gap ' ') ∧
        (c ≠ '\t' → expanded.slice (place before.length) (place (before.length + 1)) = [c])) ∧
      ∃ spans, (protobuf.classify (.ofText code)).result = .ok spans ∧
        (protobuf.classify expanded).result = .ok (spans.map (Span.relocate expanded place)) :=
  ⟨by decide, by decide, classify_expandTabs protobuf rfl _ 4 (by decide)⟩

end Grammar

end CodeHighlight
