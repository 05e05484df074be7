import CodeHighlight.Text.Lower
import Mathlib.Data.List.DropRight

/-!
# Normal forms of names

A text in lower case is its own lower case (`Text.lower_lower`), and lower casing puts no blanks at
the ends of a text that has none there (`Text.strip_lower_strip`).  So a name in its normal form is
its own normal form.

What has to be known about the table of lower case runs is one fact about its pairs of runs: no
lower case lies in a run, is the capital I with a dot above, or is a blank (`lowerRuns_avoids`).
-/

namespace CodeHighlight

namespace Unicode

/-! ## The table of lower case runs -/

namespace LowerRun

/-- The code point is one of the run. -/
def Contains (run : LowerRun) (n : Nat) : Prop :=
  run.first ≤ n ∧ n ≤ run.last ∧ (n - run.first) % run.step = 0

/-- The lower case of the first code point of a run. -/
def firstLower (run : LowerRun) : Nat := (run.first + run.shift).toNat

/-- The lower case of the last code point of a run. -/
def lastLower (run : LowerRun) : Nat := (run.last + run.shift).toNat

/-- The lower cases of the run lie in front of the other run, behind it, or between its code
points. -/
def avoids (run other : LowerRun) : Bool :=
  run.lastLower < other.first || other.last < run.firstLower ||
    (run.first == run.last || run.step % other.step == 0) &&
      run.firstLower % other.step != other.first % other.step

theorem not_contains_of_avoids {run other : LowerRun} (hfirst : 0 ≤ run.first + run.shift)
    (h : run.avoids other = true) {n : Nat} (hn : run.Contains n) :
    ¬ other.Contains (n + run.shift).toNat := by
  obtain ⟨hlow, hhigh, hstep⟩ := hn
  rintro ⟨hotherLow, hotherHigh, hotherStep⟩
  have himage : (n + run.shift).toNat = run.firstLower + (n - run.first) := by
    unfold firstLower
    omega
  have hlast : (n + run.shift).toNat ≤ run.lastLower := by
    unfold lastLower
    omega
  simp only [avoids, Bool.or_eq_true, Bool.and_eq_true, decide_eq_true_eq, beq_iff_eq,
    bne_iff_ne] at h
  obtain (h | h) | ⟨hstride, hbetween⟩ := h
  · omega
  · omega
  · apply hbetween
    -- The image is congruent both to the first image and to the first code point of the other run.
    have hdistance : other.step ∣ n - run.first := by
      rcases hstride with hsingle | hstride
      · have hsame : n - run.first = 0 := by omega
        rw [hsame]
        exact Nat.dvd_zero _
      · exact Nat.dvd_trans (Nat.dvd_of_mod_eq_zero hstride) (Nat.dvd_of_mod_eq_zero hstep)
    obtain ⟨i, hi⟩ := hdistance
    obtain ⟨j, hj⟩ := Nat.dvd_of_mod_eq_zero hotherStep
    calc run.firstLower % other.step
        = (n + run.shift).toNat % other.step := by rw [himage, hi, Nat.add_mul_mod_self_left]
      _ = (other.first + other.step * j) % other.step := by rw [← hj, Nat.add_sub_cancel' hotherLow]
      _ = other.first % other.step := Nat.add_mul_mod_self_left _ _ _

end LowerRun

theorem lowerBy_eq_or (runs : List LowerRun) (n : Nat) :
    lowerBy runs n = n ∨
      ∃ run ∈ runs, run.Contains n ∧ lowerBy runs n = (n + run.shift).toNat := by
  induction runs with
  | nil => exact .inl rfl
  | cons run rest ih =>
      rw [lowerBy]
      split
      · exact .inl rfl
      · next hfirst =>
          split
          · next hlast =>
              split
              · next hstep =>
                  exact .inr ⟨run, List.mem_cons_self, ⟨by omega, hlast, hstep⟩, rfl⟩
              · exact .inl rfl
          · rcases ih with hself | ⟨other, hother, hcontains, himage⟩
            · exact .inl hself
            · exact .inr ⟨other, List.mem_cons_of_mem run hother, hcontains, himage⟩

theorem lowerBy_eq_self {runs : List LowerRun} {n : Nat}
    (h : ∀ run ∈ runs, ¬ run.Contains n) : lowerBy runs n = n := by
  rcases lowerBy_eq_or runs n with hself | ⟨run, hrun, hcontains, -⟩
  · exact hself
  · exact absurd hcontains (h run hrun)

/-- Code points that are not lower cases of others, as runs that move nowhere: the capital I with a
dot above, and the blanks. -/
def neverLower : List LowerRun :=
  ⟨0x130, 0x130, 1, 0⟩ :: blanks.map fun range => ⟨range.1, range.2, 1, 0⟩

theorem lowerRuns_first_nonneg : ∀ run ∈ lowerRuns, 0 ≤ run.first + run.shift := by
  decide +kernel

theorem lowerRuns_avoids :
    (lowerRuns.all fun run => (lowerRuns ++ neverLower).all run.avoids) = true := by
  decide +kernel

theorem lowerRuns_first_pos : ∀ run ∈ lowerRuns ++ neverLower, 0 < run.first := by
  decide +kernel

/-! ## Characters in lower case -/

/-- The character is its own lower case, also in a text. -/
def IsLower (c : Char) : Prop := c ≠ 'İ' ∧ toLower c = c

/-- A character that changes becomes one that lies in no run. -/
theorem toLower_eq_self_or (c : Char) :
    toLower c = c ∨ ∀ other ∈ lowerRuns ++ neverLower, ¬ other.Contains (toLower c).toNat := by
  rcases lowerBy_eq_or lowerRuns c.toNat with hself | ⟨run, hrun, hcontains, himage⟩
  · left
    rw [toLower, hself, Char.ofNat_toNat]
  · right
    intro other hother
    rw [toLower, himage]
    by_cases hvalid : (c.toNat + run.shift).toNat.isValidChar
    · have htoNat : (Char.ofNat (c.toNat + run.shift).toNat).toNat
          = (c.toNat + run.shift).toNat := by
        rw [Char.ofNat, dif_pos hvalid]
        rfl
      have havoids := List.all_eq_true.1 (List.all_eq_true.1 lowerRuns_avoids run hrun) other hother
      rw [htoNat]
      exact LowerRun.not_contains_of_avoids (lowerRuns_first_nonneg run hrun) havoids hcontains
    · have hpos := lowerRuns_first_pos other hother
      rw [Char.ofNat, dif_neg hvalid]
      rintro ⟨hlow, -, -⟩
      exact absurd (Nat.lt_of_lt_of_le hpos hlow) (by decide)

theorem toLower_toLower (c : Char) : toLower (toLower c) = toLower c := by
  rcases toLower_eq_self_or c with hself | havoids
  · rw [hself, hself]
  · have hfixed : lowerBy lowerRuns (toLower c).toNat = (toLower c).toNat :=
      lowerBy_eq_self fun run hrun => havoids run (List.mem_append_left _ hrun)
    rw [toLower, hfixed, Char.ofNat_toNat]

theorem isLower_toLower {c : Char} (hc : c ≠ 'İ') : IsLower (toLower c) := by
  refine ⟨?_, toLower_toLower c⟩
  rcases toLower_eq_self_or c with hself | havoids
  · rwa [hself]
  · intro hdotted
    apply havoids _ (List.mem_append_right lowerRuns (List.mem_cons_self : _ ∈ neverLower))
    rw [hdotted]
    exact ⟨by decide, by decide, by decide⟩

theorem blanks_ordered : blanks.Ordered := by
  unfold RangeSet.Ordered
  decide

theorem isBlank_toLower {c : Char} (hc : isBlank c = false) : isBlank (toLower c) = false := by
  rcases toLower_eq_self_or c with hself | havoids
  · rwa [hself]
  · by_contra hblank
    rw [Bool.not_eq_false, isBlank, RangeSet.contains_iff blanks_ordered] at hblank
    obtain ⟨range, hrange, hlow, hhigh⟩ := hblank
    exact havoids _
      (List.mem_append_right lowerRuns (List.mem_cons_of_mem _ (List.mem_map_of_mem hrange)))
      ⟨hlow, hhigh, Nat.mod_one _⟩

end Unicode

namespace Text

open Unicode

/-! ## Texts in lower case -/

/-- What a character can become when its text is put into lower case. -/
inductive LowerImage : Char → Text → Prop where
  | sigma : LowerImage 'Σ' ['σ']
  | finalSigma : LowerImage 'Σ' ['ς']
  | dotted : LowerImage 'İ' ['i', '\u0307']
  | simple {c : Char} (h : c ≠ 'İ') : LowerImage c [toLower c]

namespace LowerImage

variable {c d : Char} {image : Text}

theorem ne_nil (h : LowerImage c image) : image ≠ [] := by
  cases h <;> simp

theorem isLower (h : LowerImage c image) (hd : d ∈ image) : IsLower d := by
  cases h with
  | sigma =>
      rw [List.mem_singleton.1 hd]
      exact ⟨by decide, by decide⟩
  | finalSigma =>
      rw [List.mem_singleton.1 hd]
      exact ⟨by decide, by decide⟩
  | dotted =>
      rcases List.mem_pair.1 hd with rfl | rfl
      · exact ⟨by decide, by decide⟩
      · exact ⟨by decide, by decide⟩
  | simple hc =>
      rw [List.mem_singleton.1 hd]
      exact isLower_toLower hc

theorem isBlank (h : LowerImage c image) (hd : d ∈ image) (hc : isBlank c = false) :
    isBlank d = false := by
  cases h with
  | sigma =>
      rw [List.mem_singleton.1 hd]
      decide
  | finalSigma =>
      rw [List.mem_singleton.1 hd]
      decide
  | dotted => rcases List.mem_pair.1 hd with rfl | rfl <;> decide
  | simple =>
      rw [List.mem_singleton.1 hd]
      exact isBlank_toLower hc

end LowerImage

theorem exists_lowerAfter_cons (afterCased : Bool) (c : Char) (rest : Text) :
    ∃ image afterCased', LowerImage c image ∧
      lowerAfter afterCased (c :: rest) = image ++ lowerAfter afterCased' rest := by
  refine ⟨_, _, ?_, rfl⟩
  split
  · next hsigma =>
      subst hsigma
      split
      · exact .finalSigma
      · exact .sigma
  · split
    · next hdotted =>
        subst hdotted
        exact .dotted
    · next hdotted => exact .simple hdotted

theorem isLower_of_mem_lowerAfter {d : Char} {t : Text} {afterCased : Bool}
    (hd : d ∈ lowerAfter afterCased t) : IsLower d := by
  induction t generalizing afterCased with
  | nil => simp [lowerAfter] at hd
  | cons c rest ih =>
      obtain ⟨image, afterCased', himage, heq⟩ := exists_lowerAfter_cons afterCased c rest
      rw [heq] at hd
      rcases List.mem_append.1 hd with hd | hd
      · exact himage.isLower hd
      · exact ih hd

theorem lowerAfter_eq_self {t : Text} (h : ∀ c ∈ t, IsLower c) (afterCased : Bool) :
    lowerAfter afterCased t = t := by
  induction t generalizing afterCased with
  | nil => rfl
  | cons c rest ih =>
      obtain ⟨image, afterCased', himage, heq⟩ := exists_lowerAfter_cons afterCased c rest
      have hc : IsLower c := h c List.mem_cons_self
      have hself : image = [c] := by
        cases himage with
        | sigma => exact absurd hc.2 (by decide)
        | finalSigma => exact absurd hc.2 (by decide)
        | dotted => exact absurd rfl hc.1
        | simple => rw [hc.2]
      rw [heq, hself, ih fun d hd => h d (List.mem_cons_of_mem c hd)]
      rfl

/-- A text in lower case is its own lower case. -/
@[simp]
theorem lower_lower (t : Text) : t.lower.lower = t.lower :=
  lowerAfter_eq_self (fun _ hd => isLower_of_mem_lowerAfter hd) false

/-! ## Texts without blanks at their ends -/

/-- No blank stands at either end of the text. -/
structure Stripped (t : Text) : Prop where
  head : ∀ c ∈ t.head?, isBlank c = false
  last : ∀ c ∈ t.getLast?, isBlank c = false

theorem strip_eq_rdropWhile (t : Text) :
    t.strip = (t.dropWhile isBlank).rdropWhile isBlank := rfl

theorem stripped_strip (t : Text) : t.strip.Stripped := by
  rw [strip_eq_rdropWhile]
  constructor
  · intro c hc
    obtain ⟨dropped, hdropped⟩ := List.rdropWhile_prefix isBlank (l := t.dropWhile isBlank)
    have hhead : (t.dropWhile isBlank).head? = some c := by
      rw [← hdropped, List.head?_append, Option.mem_def.1 hc]
      rfl
    have hnot := List.head?_dropWhile_not isBlank t
    rwa [hhead] at hnot
  · intro c hc
    obtain ⟨hne, rfl⟩ := List.mem_getLast?_eq_getLast hc
    simpa using List.rdropWhile_last_not isBlank _ hne

theorem Stripped.strip_eq {t : Text} (h : t.Stripped) : t.strip = t := by
  have hfront : t.dropWhile isBlank = t := by
    cases t with
    | nil => rfl
    | cons c rest => rw [List.dropWhile_cons_of_neg (by simp [h.head c rfl])]
  rw [strip_eq_rdropWhile, hfront, List.rdropWhile_eq_self_iff]
  intro hne
  rw [h.last _ (List.getLast_mem_getLast? hne)]
  exact Bool.false_ne_true

theorem head?_lowerAfter {t : Text} {afterCased : Bool} {d : Char}
    (hd : d ∈ (lowerAfter afterCased t).head?) :
    ∃ c ∈ t.head?, ∃ image, LowerImage c image ∧ d ∈ image := by
  cases t with
  | nil => simp [lowerAfter] at hd
  | cons c rest =>
      obtain ⟨image, afterCased', himage, heq⟩ := exists_lowerAfter_cons afterCased c rest
      refine ⟨c, rfl, image, himage, ?_⟩
      rw [heq, List.head?_append_of_ne_nil _ himage.ne_nil] at hd
      exact List.mem_of_mem_head? hd

theorem getLast?_lowerAfter {t : Text} {afterCased : Bool} {d : Char}
    (hd : d ∈ (lowerAfter afterCased t).getLast?) :
    ∃ c ∈ t.getLast?, ∃ image, LowerImage c image ∧ d ∈ image := by
  induction t generalizing afterCased with
  | nil => simp [lowerAfter] at hd
  | cons c rest ih =>
      obtain ⟨image, afterCased', himage, heq⟩ := exists_lowerAfter_cons afterCased c rest
      rw [heq] at hd
      cases rest with
      | nil =>
          rw [lowerAfter, List.append_nil] at hd
          exact ⟨c, rfl, image, himage, List.mem_of_mem_getLast? hd⟩
      | cons c' rest' =>
          obtain ⟨image', _, himage', heq'⟩ := exists_lowerAfter_cons afterCased' c' rest'
          rw [List.getLast?_append_of_ne_nil _ (by simp [heq', himage'.ne_nil])] at hd
          exact ih hd

theorem Stripped.lower {t : Text} (h : t.Stripped) : t.lower.Stripped where
  head _ hd := by
    obtain ⟨c, hc, image, himage, hmem⟩ := head?_lowerAfter hd
    exact himage.isBlank hmem (h.head c hc)
  last _ hd := by
    obtain ⟨c, hc, image, himage, hmem⟩ := getLast?_lowerAfter hd
    exact himage.isBlank hmem (h.last c hc)

/-- Lower casing and dropping the blanks at the ends, done a second time, changes nothing. -/
theorem strip_lower_strip (t : Text) : t.strip.lower.strip = t.strip.lower :=
  t.stripped_strip.lower.strip_eq

end Text

end CodeHighlight
