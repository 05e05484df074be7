import CodeHighlight.Rule.Word

/-!
# Runs and classes of characters

A run of characters of one class is as long as possible, and the classes that different lexemes
begin with do not meet.
-/

namespace CodeHighlight

namespace Text

variable {p : Char → Bool} {run rest : Text}

/-- A run that something else follows is all that `takeWhile` takes. -/
theorem takeWhile_append_of_head? (hrun : ∀ c ∈ run, p c = true)
    (hrest : rest.head?.any p = false) : (run ++ rest).takeWhile p = run := by
  have hnil : rest.takeWhile p = [] := by
    cases rest with
    | nil => rfl
    | cons c rest =>
        have hc : p c = false := hrest
        rw [List.takeWhile_cons_of_neg (by simp [hc])]
  rw [List.takeWhile_append_of_pos hrun, hnil, List.append_nil]

theorem mem_takeWhile {t : Text} {c : Char} (h : c ∈ t.takeWhile p) : p c = true :=
  List.all_eq_true.1 List.all_takeWhile c h

theorem any_head?_dropWhile (p : Char → Bool) (t : Text) :
    (t.dropWhile p).head?.any p = false := by
  have h := List.head?_dropWhile_not p t
  cases hhead : (t.dropWhile p).head? with
  | none => rfl
  | some c =>
      rw [hhead] at h
      exact h

end Text

/-! ## First characters -/

theorem le_toNat_of_isWordStart {c : Char} (h : isWordStart c = true) : 0x41 ≤ c.toNat := by
  simp only [isWordStart, Bool.or_eq_true, beq_iff_eq] at h
  rcases h with h | rfl
  · -- Already the first range of letters begins there.
    unfold Unicode.isLetter Unicode.letters Unicode.RangeSet.contains at h
    split at h
    · exact of_decide_eq_true h
    · omega
  · decide

theorem le_toNat_of_isWordChar {c : Char} (h : isWordChar c = true) : 0x30 ≤ c.toNat := by
  simp only [isWordChar, Bool.or_eq_true, beq_iff_eq] at h
  rcases h with (h | h) | rfl
  · have hstart : isWordStart c = true := by simp [isWordStart, h]
    have hle := le_toNat_of_isWordStart hstart
    omega
  · unfold Unicode.isNumeral Unicode.numerals Unicode.RangeSet.contains at h
    split at h
    · exact of_decide_eq_true h
    · omega
  · decide

theorem isWordChar_eq_false_of_toNat_lt {c : Char} (h : c.toNat < 0x30) : isWordChar c = false := by
  cases hc : isWordChar c with
  | false => rfl
  | true =>
      have hle := le_toNat_of_isWordChar hc
      omega

theorem isDigit_iff (c : Char) : isDigit c = true ↔ 0x30 ≤ c.toNat ∧ c.toNat ≤ 0x39 := by
  simp only [isDigit, Bool.and_eq_true, decide_eq_true_eq, Char.le_def, UInt32.le_iff_toNat_le]
  rfl

/-- Digits are the first numerals. -/
theorem isWordChar_of_isDigit {c : Char} (h : isDigit c = true) : isWordChar c = true := by
  have hbounds := (isDigit_iff c).1 h
  have hnumeral : Unicode.isNumeral c = true := by
    unfold Unicode.isNumeral Unicode.numerals Unicode.RangeSet.contains
    rw [if_pos hbounds.2]
    exact decide_eq_true hbounds.1
  simp [isWordChar, hnumeral]

theorem isWordChar_of_isExponentMark {c : Char} (h : isExponentMark c = true) :
    isWordChar c = true := by
  simp only [isExponentMark, Bool.or_eq_true, beq_iff_eq] at h
  rcases h with rfl | rfl <;> decide

end CodeHighlight
