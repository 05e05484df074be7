import CodeHighlight.Proofs.Rule.Numeral

/-!
# Numerals that go on

A numeral ends with a digit.  If it goes on with a character that is not a word character, that
character is a point, and what follows it are digits and perhaps an exponent
(`exists_fraction_of_append`): a sign only ever follows an exponent mark, which is a word character
but no digit.  So where a text is cut short behind a numeral and a point, the longest numeral of the
whole text is known as soon as the longest numeral behind the cut is known (`Longest.point`).
-/

namespace CodeHighlight

open scoped Computability

/-- A text that falls into parts in two ways, one of them at a character that the other one's front
does not have. -/
theorem Text.exists_append_of_not_mem {front back before after : Text} {c : Char}
    (h : front ++ back = before ++ c :: after) (hc : c ∉ front) :
    ∃ middle, before = front ++ middle ∧ back = middle ++ c :: after := by
  rcases List.append_eq_append_iff.1 h with ⟨middle, hbefore, hback⟩ | ⟨middle, hfront, hrest⟩
  · exact ⟨middle, hbefore, hback⟩
  · cases middle with
    | nil => exact ⟨[], by simpa using hfront.symm, by simpa using hrest.symm⟩
    | cons d middle =>
        obtain ⟨rfl, -⟩ := List.cons.inj hrest
        exact absurd (hfront ▸ by simp) hc

/-! ## The parts of a numeral -/

/-- A numeral falls into a sign, the digits of its whole part, a fraction and an exponent, of which
all but the digits may be missing. -/
theorem mem_numerals {t : Text} : t ∈ numerals ↔ ∃ sign ∈ 1 + signs, ∃ whole ∈ digits,
    ∃ fraction ∈ 1 + fractions, ∃ exponent ∈ 1 + exponents,
      t = sign ++ (whole ++ (fraction ++ exponent)) := by
  constructor
  · intro h
    obtain ⟨decimal, hdecimal, exponent, hexponent, rfl⟩ := Language.mem_mul.1 h
    obtain ⟨integer, hinteger, fraction, hfraction, rfl⟩ := Language.mem_mul.1 hdecimal
    obtain ⟨sign, hsign, whole, hwhole, rfl⟩ := Language.mem_mul.1 hinteger
    exact ⟨sign, hsign, whole, hwhole, fraction, hfraction, exponent, hexponent, by simp⟩
  · rintro ⟨sign, hsign, whole, hwhole, fraction, hfraction, exponent, hexponent, rfl⟩
    rw [← List.append_assoc, ← List.append_assoc]
    exact Language.append_mem_mul (Language.append_mem_mul
      (Language.append_mem_mul hsign hwhole) hfraction) hexponent

theorem mem_fractions {t : Text} : t ∈ fractions ↔ ∃ run ∈ digits, t = '.' :: run := by
  constructor
  · intro h
    obtain ⟨point, hpoint, run, hrun, rfl⟩ := Language.mem_mul.1 h
    obtain ⟨c, hc, rfl⟩ := mem_oneOf.1 hpoint
    exact ⟨run, hrun, by rw [eq_of_beq hc]; rfl⟩
  · rintro ⟨run, hrun, rfl⟩
    exact Language.append_mem_mul (mem_oneOf.2 ⟨'.', rfl, rfl⟩) hrun

theorem mem_exponents {t : Text} : t ∈ exponents ↔ ∃ mark, isExponentMark mark = true ∧
    ∃ sign ∈ 1 + signs, ∃ run ∈ digits, t = mark :: (sign ++ run) := by
  constructor
  · intro h
    obtain ⟨front, hfront, run, hrun, rfl⟩ := Language.mem_mul.1 h
    obtain ⟨mark, hmark, sign, hsign, rfl⟩ := Language.mem_mul.1 hfront
    obtain ⟨c, hc, rfl⟩ := mem_oneOf.1 hmark
    exact ⟨c, hc, sign, hsign, run, hrun, by simp⟩
  · rintro ⟨mark, hmark, sign, hsign, run, hrun, rfl⟩
    rw [← List.cons_append]
    exact Language.append_mem_mul
      (Language.append_mem_mul (mem_oneOf.2 ⟨mark, hmark, rfl⟩) hsign) hrun

/-- Numerals are made of digits, exponent marks, signs and points. -/
theorem isWordChar_or_of_mem_numerals {t : Text} (h : t ∈ numerals) :
    ∀ c ∈ t, isWordChar c = true ∨ isSign c = true ∨ c = '.' := by
  obtain ⟨sign, hsign, whole, hwhole, fraction, hfraction, exponent, hexponent, rfl⟩ :=
    mem_numerals.1 h
  have hdigits : ∀ {run : Text}, run ∈ digits → ∀ c ∈ run, isWordChar c = true :=
    fun hrun c hc => isWordChar_of_isDigit ((mem_digits.1 hrun).2 c hc)
  intro c hc
  rcases List.mem_append.1 hc with hc | hc
  · exact .inr (.inl (isSign_of_mem hsign c hc))
  · rcases List.mem_append.1 hc with hc | hc
    · exact .inl (hdigits hwhole c hc)
    · rcases List.mem_append.1 hc with hc | hc
      · rcases hfraction with rfl | hfraction
        · exact absurd hc List.not_mem_nil
        · obtain ⟨run, hrun, rfl⟩ := mem_fractions.1 hfraction
          rcases List.mem_cons.1 hc with hc | hc
          · exact .inr (.inr hc)
          · exact .inl (hdigits hrun c hc)
      · rcases hexponent with rfl | hexponent
        · exact absurd hc List.not_mem_nil
        · obtain ⟨mark, hmark, sign, hsign, run, hrun, rfl⟩ := mem_exponents.1 hexponent
          rcases List.mem_cons.1 hc with rfl | hc
          · exact .inl (isWordChar_of_isExponentMark hmark)
          · rcases List.mem_append.1 hc with hc | hc
            · exact .inr (.inl (isSign_of_mem hsign c hc))
            · exact .inl (hdigits hrun c hc)

/-! ## Last characters -/

section LastCharacters

variable {p : Char → Bool} {front t : Text}

theorem Text.any_getLast?_append (ht : t.getLast?.any p = true) :
    (front ++ t).getLast?.any p = true := by
  rw [List.getLast?_append]
  cases hlast : t.getLast? with
  | none => simp [hlast] at ht
  | some c => rwa [hlast] at ht

theorem any_getLast?_of_mem_digits (h : t ∈ digits) : t.getLast?.any isDigit = true := by
  obtain ⟨hne, hall⟩ := mem_digits.1 h
  rw [List.getLast?_eq_some_getLast hne]
  exact hall _ (List.getLast_mem hne)

/-- A numeral ends with a digit. -/
theorem any_getLast?_of_mem_numerals (h : t ∈ numerals) : t.getLast?.any isDigit = true := by
  obtain ⟨sign, -, whole, hwhole, fraction, hfraction, exponent, hexponent, rfl⟩ :=
    mem_numerals.1 h
  rcases hexponent with rfl | hexponent
  · rcases hfraction with rfl | hfraction
    · exact Text.any_getLast?_append (by simpa using any_getLast?_of_mem_digits hwhole)
    · obtain ⟨run, hrun, rfl⟩ := mem_fractions.1 hfraction
      rw [← List.append_assoc, List.append_nil, ← List.singleton_append]
      exact Text.any_getLast?_append (Text.any_getLast?_append (any_getLast?_of_mem_digits hrun))
  · obtain ⟨mark, -, sign, -, run, hrun, rfl⟩ := mem_exponents.1 hexponent
    rw [← List.singleton_append]
    iterate 5 apply Text.any_getLast?_append
    exact any_getLast?_of_mem_digits hrun

theorem any_isWordChar_of_any_isDigit {c : Option Char} (h : c.any isDigit = true) :
    c.any isWordChar = true := by
  cases c with
  | none => contradiction
  | some c => exact isWordChar_of_isDigit h

end LastCharacters

/-! ## What can follow a numeral -/

/-- Only behind the mark of an exponent there is a character that is not a word character. -/
private theorem not_any_getLast?_of_mem_exponents {exponent front before after : Text} {c : Char}
    (hexponent : exponent ∈ 1 + exponents) (h : exponent = before ++ c :: after)
    (hc : isWordChar c = false) : (front ++ before).getLast?.any isDigit = false := by
  rcases hexponent with rfl | hexponent
  · exact absurd h.symm (List.append_ne_nil_of_right_ne_nil _ (List.cons_ne_nil _ _))
  · obtain ⟨mark, hmark, sign, hsign, run, hrun, rfl⟩ := mem_exponents.1 hexponent
    have hnotRun : c ∉ run := by
      intro hmem
      rw [isWordChar_of_isDigit ((mem_digits.1 hrun).2 c hmem)] at hc
      contradiction
    have hnotMark : c ∉ [mark] := by
      intro hmem
      rw [List.mem_singleton.1 hmem, isWordChar_of_isExponentMark hmark] at hc
      contradiction
    obtain ⟨middle, rfl, hrest⟩ :=
      Text.exists_append_of_not_mem (show [mark] ++ (sign ++ run) = _ from h) hnotMark
    -- The sign is the only place that is left for the character.
    have hmiddle : middle = [] := by
      rcases hsign with rfl | hsign
      · exact absurd (by simp [show run = _ from hrest]) hnotRun
      · obtain ⟨d, -, rfl⟩ := mem_oneOf.1 hsign
        cases middle with
        | nil => rfl
        | cons e middle =>
            have htail : run = middle ++ c :: after := (List.cons.inj hrest).2
            exact absurd (by simp [htail]) hnotRun
    subst hmiddle
    simpa using mark_apart_digit mark hmark

/-- A numeral that goes on with a character that is not a word character goes on with a fraction. -/
theorem exists_fraction_of_append {lexeme more : Text} (hlexeme : lexeme ∈ numerals)
    (hmore : more ≠ []) (hhead : more.head?.any isWordChar = false)
    (h : lexeme ++ more ∈ numerals) :
    lexeme ∈ (1 + signs) * digits ∧ ∃ run ∈ digits, ∃ exponent ∈ 1 + exponents,
      more = '.' :: (run ++ exponent) := by
  obtain ⟨c, after, rfl⟩ := List.exists_cons_of_ne_nil hmore
  have hc : isWordChar c = false := hhead
  have hlast := any_getLast?_of_mem_numerals hlexeme
  have hnotDigits : ∀ {run : Text}, run ∈ digits → c ∉ run := by
    intro run hrun hmem
    rw [isWordChar_of_isDigit ((mem_digits.1 hrun).2 c hmem)] at hc
    contradiction
  obtain ⟨sign, hsign, whole, hwhole, fraction, hfraction, exponent, hexponent, hsame⟩ :=
    mem_numerals.1 h
  rcases List.append_eq_append_iff.1 hsame with ⟨middle, hshort, -⟩ | ⟨middle, rfl, hbehind⟩
  · -- A numeral is no part of a sign.
    obtain ⟨d, hd, hdigit⟩ := (Option.any_eq_true _ _).1 hlast
    have hmem : d ∈ sign := by
      rw [hshort]
      exact List.mem_append_left _ (List.mem_of_getLast? hd)
    rw [sign_apart_digit d (isSign_of_mem hsign d hmem)] at hdigit
    contradiction
  · obtain ⟨middle, rfl, hbehindWhole⟩ :=
      Text.exists_append_of_not_mem hbehind (hnotDigits hwhole)
    rcases hfraction with rfl | hfraction
    · rw [← List.append_assoc,
        not_any_getLast?_of_mem_exponents hexponent hbehindWhole hc] at hlast
      contradiction
    · obtain ⟨run, hrun, rfl⟩ := mem_fractions.1 hfraction
      cases middle with
      | nil =>
          obtain ⟨rfl, rfl⟩ := List.cons.inj hbehindWhole
          refine ⟨?_, run, hrun, exponent, hexponent, rfl⟩
          rw [List.append_nil]
          exact Language.append_mem_mul hsign hwhole
      | cons d middle =>
          obtain ⟨rfl, hbehindPoint⟩ := List.cons.inj hbehindWhole
          obtain ⟨middle, rfl, hbehindRun⟩ :=
            Text.exists_append_of_not_mem hbehindPoint (hnotDigits hrun)
          have hassoc : sign ++ (whole ++ '.' :: (run ++ middle)) =
              (sign ++ (whole ++ '.' :: run)) ++ middle := by simp
          rw [hassoc, not_any_getLast?_of_mem_exponents hexponent hbehindRun hc] at hlast
          contradiction

/-! ## Numerals around a point -/

namespace Longest

variable {integer lexeme front rest : Text}

/-- Digits with a point behind them go on with as many digits, and an exponent, as there are. -/
theorem point (hinteger : integer ∈ (1 + signs) * digits)
    (h : Longest (digits * (1 + exponents)) front rest) :
    Longest numerals (integer ++ '.' :: front) rest := by
  obtain ⟨sign, hsign, whole, hwhole, rfl⟩ := Language.mem_mul.1 hinteger
  obtain ⟨run, hrun, exponent, hexponent, rfl⟩ := Language.mem_mul.1 h.mem
  refine ⟨mem_numerals.2 ⟨sign, hsign, whole, hwhole, '.' :: run,
    .inr (mem_fractions.2 ⟨run, hrun, rfl⟩), exponent, hexponent, by simp⟩, ?_⟩
  have hnumeral : sign ++ whole ∈ numerals :=
    mem_numerals.2 ⟨sign, hsign, whole, hwhole, [], .inl rfl, [], .inl rfl, by simp⟩
  intro word hfits hword
  rw [List.append_assoc, List.cons_append] at hfits
  rcases List.prefix_or_prefix_of_prefix hfits (List.prefix_append _ _) with hshort | ⟨more, rfl⟩
  · exact (hshort.trans (List.prefix_append _ _)).length_le
  · by_cases hmore : more = []
    · rw [hmore, List.append_nil]
      exact (List.prefix_append _ _).length_le
    · rw [List.prefix_append_right_inj] at hfits
      have hhead : more.head?.any isWordChar = false := by
        obtain ⟨c, after, rfl⟩ := List.exists_cons_of_ne_nil hmore
        obtain ⟨rfl, -⟩ := List.cons_prefix_cons.1 hfits
        exact isWordChar_eq_false_of_toNat_lt (by decide)
      obtain ⟨-, otherRun, hotherRun, other, hother, rfl⟩ :=
        exists_fraction_of_append hnumeral hmore hhead hword
      obtain ⟨-, hbehind⟩ := List.cons_prefix_cons.1 hfits
      have hle := h.2 _ hbehind (Language.append_mem_mul hotherRun hother)
      simp only [List.length_append, List.length_cons] at hle ⊢
      omega

/-- Where a numeral without a sign stands on its own, so do its digits with the exponent, if it has
no fraction, or the digits in front of the point. -/
theorem exists_unsigned (h : Longest numerals lexeme rest)
    (hdigit : lexeme.head?.any isDigit = true) (hrest : rest.head?.any isWordChar = false) :
    ∃ front back, lexeme ++ rest = front ++ back ∧ Longest (digits * (1 + exponents)) front back ∧
      back.head?.any isWordChar = false := by
  obtain ⟨sign, hsign, whole, hwhole, fraction, hfraction, exponent, hexponent, rfl⟩ :=
    mem_numerals.1 h.mem
  have hnoSign : sign = [] := by
    rcases hsign with rfl | hsign
    · rfl
    · obtain ⟨c, hc, rfl⟩ := mem_oneOf.1 hsign
      have hdigit : isDigit c = true := hdigit
      rw [sign_apart_digit c hc] at hdigit
      contradiction
  subst hnoSign
  rcases hfraction with rfl | hfraction
  · refine ⟨whole ++ exponent, rest, rfl, ⟨Language.append_mem_mul hwhole hexponent, ?_⟩, hrest⟩
    intro word hfits hword
    obtain ⟨run, hrun, other, hother, rfl⟩ := Language.mem_mul.1 hword
    exact h.2 _ hfits
      (mem_numerals.2 ⟨[], .inl rfl, run, hrun, [], .inl rfl, other, hother, rfl⟩)
  · obtain ⟨run, hrun, rfl⟩ := mem_fractions.1 hfraction
    refine ⟨whole ++ [], '.' :: (run ++ exponent ++ rest), by simp, ?_,
      isWordChar_eq_false_of_toNat_lt (by decide)⟩
    have hfront : Longest digits whole ([] ++ '.' :: (run ++ exponent ++ rest)) :=
      longest_digits hwhole (point_apart_digit '.' rfl)
    refine hfront.mul (one_add_of_none ?_) (head?_not_mem_of_mem_one_add ?_)
    · rw [exponents, mul_assoc]
      exact not_prefix_of_head? (point_apart_mark '.' rfl)
    · rw [exponents, mul_assoc]
      apply head?_not_mem_of_mem_mul
      exact fun c hc => mark_apart_digit.symm c ((mem_digits.1 hwhole).2 c hc)

/-- If more text reveals that a numeral is not the longest one, then the text was cut short in front
of a point or directly behind it. -/
theorem cut_at_point {after tail : Text} (h : Longest numerals lexeme after)
    (hnext : (after ++ tail).head?.any isWordChar = false)
    (hlonger : ¬ Longest numerals lexeme (after ++ tail)) :
    lexeme ∈ (1 + signs) * digits ∧ ∃ run ∈ digits, ∃ exponent ∈ 1 + exponents,
      (after = [] ∧ '.' :: (run ++ exponent) <+: tail) ∨
        (after = ['.'] ∧ run ++ exponent <+: tail) := by
  obtain ⟨word, hfits, hword, hlength⟩ : ∃ word, word <+: lexeme ++ (after ++ tail) ∧
      word ∈ numerals ∧ lexeme.length < word.length := by
    by_contra hnone
    refine hlonger ⟨h.mem, fun word hfits hword => Nat.le_of_not_lt fun hlt => ?_⟩
    exact hnone ⟨word, hfits, hword, hlt⟩
  obtain ⟨more, rfl⟩ : lexeme <+: word :=
    List.prefix_of_prefix_length_le (List.prefix_append _ _) hfits (Nat.le_of_lt hlength)
  rw [List.prefix_append_right_inj] at hfits
  have hmore : more ≠ [] := by
    rintro rfl
    simp at hlength
  have hhead : more.head?.any isWordChar = false := by
    obtain ⟨c, behind, rfl⟩ := List.exists_cons_of_ne_nil hmore
    obtain ⟨behind', hsame⟩ := hfits
    rw [← hsame] at hnext
    exact hnext
  obtain ⟨hinteger, run, hrun, exponent, hexponent, rfl⟩ :=
    exists_fraction_of_append h.mem hmore hhead hword
  refine ⟨hinteger, run, hrun, exponent, hexponent, ?_⟩
  cases after with
  | nil => exact .inl ⟨rfl, hfits⟩
  | cons c after =>
      obtain ⟨rfl, hbehind⟩ := List.cons_prefix_cons.1 hfits
      cases after with
      | nil => exact .inr ⟨rfl, hbehind⟩
      | cons d after =>
          -- Already the first digit behind the point would have made a longer numeral.
          obtain ⟨sign, hsign, whole, hwhole, rfl⟩ := Language.mem_mul.1 hinteger
          obtain ⟨e, run, rfl⟩ := List.exists_cons_of_ne_nil (mem_digits.1 hrun).1
          obtain ⟨rfl, -⟩ := List.cons_prefix_cons.1 hbehind
          have hdigit : [e] ∈ digits := by
            refine mem_digits.2 ⟨List.cons_ne_nil _ _, ?_⟩
            simpa using (mem_digits.1 hrun).2 e List.mem_cons_self
          have hle := h.2 (sign ++ whole ++ ['.', e]) (by simp)
            (mem_numerals.2 ⟨sign, hsign, whole, hwhole, ['.', e],
              .inr (mem_fractions.2 ⟨[e], hdigit, rfl⟩), [], .inl rfl, by simp⟩)
          simp only [List.length_append, List.length_cons, List.length_nil] at hle
          omega

end Longest

end CodeHighlight
