import CodeHighlight.Proofs.Rule.Extension
import CodeHighlight.Proofs.Scan.Leftmost

/-!
# Where tokens meet

A token neither begins nor ends inside a run of word characters.  What does not begin or end there
can be cut off: a token of the text in front of a seam, at which some other token begins or ends, is
either a token of the whole text or the front of one (`Grammar.IsToken.exists_of_seam`).  The second
case arises only for a numeral that the seam separates from its fraction, and then there is a longer
numeral in its place.
-/

namespace CodeHighlight

open scoped Computability

namespace Grammar

variable {grammar : Grammar} {before lexeme after : Text} {category : Category}

/-! ## The ends of a token -/

/-- A token begins like a word, with a quotation mark, or like a numeral. -/
theorem IsToken.exists_first (h : grammar.IsToken before lexeme after category) :
    ∃ c rest, lexeme = c :: rest ∧
      (isWordStart c = true ∨ c ∈ ['"', '\''] ∨ isSign c = true ∨ isDigit c = true) := by
  have hword : IsWord lexeme → ∃ c rest, lexeme = c :: rest ∧
      (isWordStart c = true ∨ c ∈ ['"', '\''] ∨ isSign c = true ∨ isDigit c = true) := by
    rintro ⟨c, rest, hc, -, rfl⟩
    exact ⟨c, rest, rfl, .inl hc⟩
  cases h with
  | keyword h => exact hword h
  | literal h => exact hword h
  | string h =>
      obtain ⟨mark, hmark, -, body, -, rfl⟩ := h
      exact ⟨mark, _, rfl, .inr (.inl hmark)⟩
  | number h =>
      obtain ⟨sign, hsign, whole, hwhole, fraction, -, exponent, -, rfl⟩ := mem_numerals.1 h.mem
      rcases hsign with rfl | hsign
      · obtain ⟨c, rest, rfl⟩ := List.exists_cons_of_ne_nil (mem_digits.1 hwhole).1
        exact ⟨c, _, rfl, .inr (.inr (.inr ((mem_digits.1 hwhole).2 c List.mem_cons_self)))⟩
      · obtain ⟨c, hc, rfl⟩ := mem_oneOf.1 hsign
        exact ⟨c, _, rfl, .inr (.inr (.inl hc))⟩

/-- A token ends with a word character or a quotation mark. -/
theorem IsToken.exists_last (h : grammar.IsToken before lexeme after category) :
    ∃ c, lexeme.getLast? = some c ∧ (isWordChar c = true ∨ c ∈ ['"', '\'']) := by
  have hword : IsWord lexeme →
      ∃ c, lexeme.getLast? = some c ∧ (isWordChar c = true ∨ c ∈ ['"', '\'']) := by
    intro h
    obtain ⟨first, rest, rfl, -⟩ := h.exists_cons
    refine ⟨_, List.getLast?_eq_some_getLast (List.cons_ne_nil first rest), .inl ?_⟩
    exact h.all_isWordChar _ (List.getLast_mem _)
  cases h with
  | keyword h => exact hword h
  | literal h => exact hword h
  | string h =>
      obtain ⟨mark, hmark, -, body, -, rfl⟩ := h
      exact ⟨mark, by rw [← List.cons_append, List.getLast?_concat], .inr hmark⟩
  | number h =>
      obtain ⟨c, hc, hdigit⟩ := (Option.any_eq_true _ _).1 (any_getLast?_of_mem_numerals h.mem)
      exact ⟨c, hc, .inl (isWordChar_of_isDigit hdigit)⟩

private theorem not_isWordChar_of_mem_marks {mark : Char} (h : mark ∈ ['"', '\'']) :
    isWordChar mark = false := by
  apply isWordChar_eq_false_of_toNat_lt
  rcases List.mem_cons.1 h with rfl | h
  · decide
  · rw [List.mem_singleton.1 h]
    decide

/-- No token begins inside a run of word characters. -/
theorem IsToken.any_head?_eq_false (h : grammar.IsToken before lexeme after category)
    (hbefore : before.getLast?.any isWordChar = true) : lexeme.head?.any isWordChar = false := by
  cases h with
  | keyword _ hoff => exact absurd (hoff.symm.trans hbefore) Bool.false_ne_true
  | literal _ hoff => exact absurd (hoff.symm.trans hbefore) Bool.false_ne_true
  | number _ hoff => exact absurd (hoff.symm.trans hbefore) Bool.false_ne_true
  | string h =>
      obtain ⟨mark, hmark, -, body, -, rfl⟩ := h
      exact not_isWordChar_of_mem_marks hmark

/-- No token ends inside a run of word characters. -/
theorem IsToken.any_head?_after_eq_false (h : grammar.IsToken before lexeme after category)
    (hlast : lexeme.getLast?.any isWordChar = true) : after.head?.any isWordChar = false := by
  cases h with
  | keyword _ _ hafter => exact hafter
  | literal _ _ hafter => exact hafter
  | number _ _ hafter => exact hafter
  | string h =>
      obtain ⟨mark, hmark, -, body, -, rfl⟩ := h
      rw [← List.cons_append, List.getLast?_concat] at hlast
      exact absurd ((not_isWordChar_of_mem_marks hmark).symm.trans hlast) Bool.false_ne_true

/-! ## Cutting a text -/

/-- Of what surrounds a token it only matters whether a word character touches it and, for a
numeral, whether it could be longer. -/
theorem IsToken.of_context {other more : Text} (h : grammar.IsToken before lexeme after category)
    (hbefore : before.getLast?.any isWordChar = false → other.getLast?.any isWordChar = false)
    (hafter : after.head?.any isWordChar = false → more.head?.any isWordChar = false)
    (hlongest : Longest numerals lexeme after → Longest numerals lexeme more) :
    grammar.IsToken other lexeme more category := by
  cases h with
  | keyword hword hoff hbehind hmem => exact .keyword hword (hbefore hoff) (hafter hbehind) hmem
  | literal hword hoff hbehind hmem => exact .literal hword (hbefore hoff) (hafter hbehind) hmem
  | string hquoted => exact .string hquoted
  | number hnumeral hoff hbehind =>
      exact .number (hlongest hnumeral) (hbefore hoff) (hafter hbehind)

/-- A token is still a token where the text is cut short behind it. -/
theorem IsToken.of_append {tail : Text}
    (h : grammar.IsToken before lexeme (after ++ tail) category) :
    grammar.IsToken before lexeme after category := by
  refine h.of_context id ?_ Longest.of_append
  cases after with
  | nil => exact fun _ => rfl
  | cons c after => exact id

/-- Between the texts `front` and `tail`, of which the first one begins with `before`, a token
begins or ends that begins behind `before`. -/
inductive Seam (grammar : Grammar) (before front tail : Text) : Prop
  | starts (lexeme after : Text) (category : Category) (htail : tail = lexeme ++ after)
      (htoken : grammar.IsToken front lexeme after category) : Seam grammar before front tail
  | ends (gap lexeme : Text) (category : Category) (hgap : gap ≠ [])
      (hfront : front = before ++ gap ++ lexeme)
      (htoken : grammar.IsToken (before ++ gap) lexeme tail category) :
      Seam grammar before front tail

variable {front tail : Text}

/-- A seam does not lie inside a run of word characters. -/
theorem Seam.any_head?_eq_false (h : grammar.Seam before front tail)
    (hlast : front.getLast?.any isWordChar = true) : tail.head?.any isWordChar = false := by
  cases h with
  | starts lexeme after category htail htoken =>
      obtain ⟨c, rest, rfl, -⟩ := htoken.exists_first
      rw [htail]
      exact htoken.any_head?_eq_false hlast
  | ends gap lexeme category hgap hfront htoken =>
      apply htoken.any_head?_after_eq_false
      obtain ⟨c, hc, -⟩ := htoken.exists_last
      rw [hfront, List.getLast?_append, hc, Option.some_or] at hlast
      rwa [hc]

/-- A token that begins with a digit is a numeral. -/
theorem IsToken.longest_of_digit (h : grammar.IsToken before lexeme after category)
    (hdigit : lexeme.head?.any isDigit = true) :
    Longest numerals lexeme after ∧ after.head?.any isWordChar = false := by
  have hbounds : ∀ {c : Char} {rest : Text}, lexeme = c :: rest →
      0x30 ≤ c.toNat ∧ c.toNat ≤ 0x39 := by
    rintro c rest rfl
    exact (isDigit_iff c).1 hdigit
  have hword : ¬ IsWord lexeme := by
    intro hword
    obtain ⟨c, rest, hlexeme, hle⟩ := hword.exists_cons
    have hdigits := hbounds hlexeme
    omega
  cases h with
  | keyword h => exact absurd h hword
  | literal h => exact absurd h hword
  | string h =>
      obtain ⟨c, rest, hlexeme, hlt⟩ := h.exists_cons
      have hdigits := hbounds hlexeme
      omega
  | number hlongest _ hafter => exact ⟨hlongest, hafter⟩

/-- No fraction is cut off at a seam: its point begins no token, and the digits in front of it would
make a longer one. -/
private theorem Seam.not_fraction {run exponent : Text}
    (hlexeme : lexeme ∈ (1 + signs) * digits) (hrun : run ∈ digits)
    (hexponent : exponent ∈ 1 + exponents) (htail : '.' :: (run ++ exponent) <+: tail) :
    ¬ grammar.Seam before (before ++ lexeme) tail := by
  rintro (⟨token, after, category, rfl, htoken⟩ | ⟨gap, token, category, hgap, hfront, htoken⟩)
  · obtain ⟨c, rest, rfl, hfirst⟩ := htoken.exists_first
    obtain ⟨rfl, -⟩ := List.cons_prefix_cons.1 htail
    exact absurd hfirst (by decide)
  · -- What is left of the whole part behind the gap are digits.
    obtain ⟨sign, hsign, whole, hwhole, rfl⟩ := Language.mem_mul.1 hlexeme
    have hdigits : ∀ c ∈ token, isDigit c = true := by
      rw [List.append_assoc, List.append_cancel_left_eq] at hfront
      rcases List.append_eq_append_iff.1 hfront with ⟨middle, rfl, hwholeSplit⟩ |
        ⟨middle, hsignSplit, rfl⟩
      · intro c hc
        exact (mem_digits.1 hwhole).2 c (hwholeSplit ▸ List.mem_append_right _ hc)
      · have hmiddle : middle = [] := by
          rcases hsign with rfl | hsign
          · exact (List.append_eq_nil_iff.1 hsignSplit.symm).2
          · obtain ⟨c, -, rfl⟩ := mem_oneOf.1 hsign
            obtain ⟨d, gap, rfl⟩ := List.exists_cons_of_ne_nil hgap
            exact (List.append_eq_nil_iff.1 (List.cons.inj hsignSplit).2.symm).2
        rw [hmiddle]
        exact (mem_digits.1 hwhole).2
    obtain ⟨c, rest, rfl, -⟩ := htoken.exists_first
    have hlongest := (htoken.longest_of_digit (hdigits c List.mem_cons_self)).1
    have hle := hlongest.2 (c :: rest ++ '.' :: (run ++ exponent))
      ((List.prefix_append_right_inj _).2 htail)
      (mem_numerals.2 ⟨[], .inl rfl, c :: rest, mem_digits.2 ⟨List.cons_ne_nil _ _, hdigits⟩,
        '.' :: run, .inr (mem_fractions.2 ⟨run, hrun, rfl⟩), exponent, hexponent, by simp⟩)
    simp only [List.length_append, List.length_cons] at hle
    omega

/-- A numeral in front of a seam is the front of a numeral of the whole text. -/
private theorem Seam.exists_numeral (hlongest : Longest numerals lexeme after)
    (hafter : after.head?.any isWordChar = false)
    (hseam : grammar.Seam before (before ++ (lexeme ++ after)) tail) :
    ∃ whole rest, lexeme ++ (after ++ tail) = whole ++ rest ∧ Longest numerals whole rest ∧
      rest.head?.any isWordChar = false := by
  have hnext : (after ++ tail).head?.any isWordChar = false := by
    cases after with
    | nil =>
        apply hseam.any_head?_eq_false
        apply Text.any_getLast?_append
        rw [List.append_nil]
        exact any_isWordChar_of_any_isDigit (any_getLast?_of_mem_numerals hlongest.mem)
    | cons c after => exact hafter
  by_cases hstill : Longest numerals lexeme (after ++ tail)
  · exact ⟨lexeme, after ++ tail, rfl, hstill, hnext⟩
  · obtain ⟨hinteger, run, hrun, exponent, hexponent, ⟨rfl, htail⟩ | ⟨rfl, htail⟩⟩ :=
      hlongest.cut_at_point hnext hstill
    · rw [List.append_nil] at hseam
      exact absurd hseam (Seam.not_fraction hinteger hrun hexponent htail)
    · rcases hseam with ⟨token, rest, category, rfl, htoken⟩ |
        ⟨gap, token, category, -, hfront, htoken⟩
      · -- The token is the fraction, with its exponent unless another point follows.
        obtain ⟨c, token, rfl, -⟩ := htoken.exists_first
        obtain ⟨d, run, rfl⟩ := List.exists_cons_of_ne_nil (mem_digits.1 hrun).1
        obtain ⟨rfl, -⟩ := List.cons_prefix_cons.1 htail
        obtain ⟨htokenLongest, hrest⟩ :=
          htoken.longest_of_digit ((mem_digits.1 hrun).2 d List.mem_cons_self)
        obtain ⟨front, back, hsplit, hfront, hback⟩ := htokenLongest.exists_unsigned
          ((mem_digits.1 hrun).2 d List.mem_cons_self) hrest
        refine ⟨lexeme ++ '.' :: front, back, ?_, Longest.point hinteger hfront, hback⟩
        rw [hsplit]
        simp
      · -- No token ends with a point.
        obtain ⟨c, hc, hlast⟩ := htoken.exists_last
        have hpoint : (before ++ (lexeme ++ ['.'])).getLast? = some c := by
          rw [hfront, List.getLast?_append, hc, Option.some_or]
        rw [← List.append_assoc, List.getLast?_concat] at hpoint
        obtain rfl := Option.some.inj hpoint
        exact absurd hlast (by decide)

/-- A token of the text in front of a seam is a token of the whole text or the front of one. -/
theorem IsToken.exists_of_seam (h : grammar.IsToken before lexeme after category)
    (hseam : grammar.Seam before (before ++ (lexeme ++ after)) tail) :
    ∃ whole rest other, lexeme ++ (after ++ tail) = whole ++ rest ∧
      grammar.IsToken before whole rest other := by
  -- A word in front of the seam that goes up to it does not go on behind it.
  have hnext : IsWord lexeme → after.head?.any isWordChar = false →
      (after ++ tail).head?.any isWordChar = false := by
    intro hword hafter
    cases after with
    | nil =>
        apply hseam.any_head?_eq_false
        apply Text.any_getLast?_append
        obtain ⟨c, hc, -⟩ := h.exists_last
        rw [List.append_nil, hc]
        exact hword.all_isWordChar c (List.mem_of_getLast? hc)
    | cons c after => exact hafter
  cases h with
  | keyword hword hbefore hafter hmem =>
      exact ⟨lexeme, after ++ tail, _, rfl, .keyword hword hbefore (hnext hword hafter) hmem⟩
  | literal hword hbefore hafter hmem =>
      exact ⟨lexeme, after ++ tail, _, rfl, .literal hword hbefore (hnext hword hafter) hmem⟩
  | string hquoted => exact ⟨lexeme, after ++ tail, _, rfl, .string hquoted⟩
  | number hlongest hbefore hafter =>
      obtain ⟨whole, rest, hsplit, hwhole, hrest⟩ := Seam.exists_numeral hlongest hafter hseam
      exact ⟨whole, rest, _, hsplit, .number hwhole hbefore hrest⟩

end Grammar

end CodeHighlight
