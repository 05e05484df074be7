import CodeHighlight.Text.Basic

/-!
# Texts with expanded tabs

What a tab becomes depends on its column, so all is stated for a text that begins in any column.  A
text that falls into parts has an expansion that falls into the expansions of the parts, each in its
own column (`expandTabsFrom_append`), and an expansion that is cut at a character other than a space
comes from a text that is cut there (`exists_of_expandTabsFrom_eq_append`).  `tabOffset` takes an
offset of a text to the offset of the same place in its expansion.
-/

namespace CodeHighlight.Text

/-! ## Columns -/

/-- The column behind a character that stands in the given column. -/
def columnBehind (width column : Nat) (c : Char) : Nat :=
  if c = '\t' then column + (width - column % width)
  else if c = '\n' ∨ c = '\r' then 0 else column + 1

/-- The column behind a text that begins in the given column. -/
def columnAfter (width column : Nat) (t : Text) : Nat := t.foldl (columnBehind width) column

/-- What a character in the given column is expanded to. -/
def filled (width column : Nat) (c : Char) : Text :=
  if c = '\t' then List.replicate (width - column % width) ' ' else [c]

section Columns

variable (width column : Nat) (c : Char) (s t : Text)

theorem expandTabsFrom_cons :
    expandTabsFrom width column (c :: t) =
      filled width column c ++ expandTabsFrom width (columnBehind width column c) t := by
  rw [expandTabsFrom, filled, columnBehind]
  by_cases hc : c = '\t'
  · rw [if_pos hc, if_pos hc, if_pos hc]
  · rw [if_neg hc, if_neg hc, if_neg hc]
    rfl

theorem expandTabsFrom_append :
    expandTabsFrom width column (s ++ t) =
      expandTabsFrom width column s ++ expandTabsFrom width (columnAfter width column s) t := by
  induction s generalizing column with
  | nil => rfl
  | cons c s ih =>
      rw [List.cons_append, expandTabsFrom_cons, expandTabsFrom_cons, ih, List.append_assoc]
      rfl

theorem expandTabsFrom_cons_of_ne (hc : c ≠ '\t') :
    expandTabsFrom width column (c :: t) =
      c :: expandTabsFrom width (columnBehind width column c) t := by
  rw [expandTabsFrom_cons, filled, if_neg hc]
  rfl

/-- A tab becomes at least one space, and any other character stays. -/
theorem filled_cases (hwidth : 0 < width) :
    (c = '\t' ∧ ∃ gap, filled width column c = ' ' :: List.replicate gap ' ') ∨
      (c ≠ '\t' ∧ filled width column c = [c]) := by
  by_cases hc : c = '\t'
  · have hlt := Nat.mod_lt column hwidth
    refine .inl ⟨hc, width - column % width - 1, ?_⟩
    rw [filled, if_pos hc, ← List.replicate_succ,
      show width - column % width - 1 + 1 = width - column % width by omega]
  · exact .inr ⟨hc, if_neg hc⟩

end Columns

/-! ## What an expansion keeps -/

section Expansions

variable {width : Nat} (hwidth : 0 < width) {column : Nat} {t : Text}

include hwidth

/-- Only what a tab becomes is a space that was not there before. -/
theorem expandTabsFrom_eq_self (ht : '\t' ∉ t ∨ ' ' ∉ expandTabsFrom width column t) :
    expandTabsFrom width column t = t := by
  induction t generalizing column with
  | nil => rfl
  | cons c t ih =>
      rw [expandTabsFrom_cons] at ht ⊢
      rcases filled_cases width column c hwidth with ⟨rfl, gap, hfilled⟩ | ⟨hc, hfilled⟩
      · rw [hfilled] at ht
        simp at ht
      · rw [hfilled, List.singleton_append] at ht ⊢
        simp only [List.mem_cons, not_or] at ht
        rw [ih (ht.imp And.right And.right)]

theorem length_le_length_expandTabsFrom : t.length ≤ (expandTabsFrom width column t).length := by
  induction t generalizing column with
  | nil => exact Nat.le_refl _
  | cons c t ih =>
      have hrest : t.length ≤ (expandTabsFrom width (columnBehind width column c) t).length := ih
      rw [expandTabsFrom_cons, List.length_append, List.length_cons]
      rcases filled_cases width column c hwidth with ⟨-, gap, hfilled⟩ | ⟨-, hfilled⟩
      · rw [hfilled, List.length_cons]
        omega
      · rw [hfilled, List.length_singleton]
        omega

theorem eq_nil_of_expandTabsFrom_eq_nil (h : expandTabsFrom width column t = []) : t = [] := by
  have hle : t.length ≤ (expandTabsFrom width column t).length :=
    length_le_length_expandTabsFrom hwidth
  rw [h] at hle
  exact List.eq_nil_of_length_eq_zero (Nat.le_zero.1 hle)

/-- What stands in front of an expansion is of the same classes as what stands in front of the text,
for classes that do not tell tabs from spaces. -/
theorem any_head?_expandTabsFrom {p : Char → Bool} (hp : p '\t' = p ' ') :
    (expandTabsFrom width column t).head?.any p = t.head?.any p := by
  cases t with
  | nil => rfl
  | cons c t =>
      rw [expandTabsFrom_cons]
      rcases filled_cases width column c hwidth with ⟨rfl, gap, hfilled⟩ | ⟨-, hfilled⟩
      · rw [hfilled]
        exact hp.symm
      · rw [hfilled]
        rfl

/-- So is what stands behind it. -/
theorem any_getLast?_expandTabsFrom {p : Char → Bool} (hp : p '\t' = p ' ') :
    (expandTabsFrom width column t).getLast?.any p = t.getLast?.any p := by
  rcases List.eq_nil_or_concat t with rfl | ⟨t, c, rfl⟩
  · rfl
  · rw [List.concat_eq_append, expandTabsFrom_append, List.getLast?_concat, expandTabsFrom_cons,
      expandTabsFrom, List.append_nil, List.getLast?_append]
    rcases filled_cases width (columnAfter width column t) c hwidth with
      ⟨rfl, gap, hfilled⟩ | ⟨-, hfilled⟩
    · rw [hfilled, ← List.replicate_succ, List.replicate_succ', List.getLast?_concat]
      exact hp.symm
    · rw [hfilled]
      rfl

/-- A word without tabs and spaces stands in front of an expansion if it stands in front of the
text, whatever both of them stand behind. -/
theorem prefix_append_expandTabsFrom_iff {front word : Text} (htab : '\t' ∉ word)
    (hspace : ' ' ∉ word) :
    word <+: front ++ expandTabsFrom width column t ↔ word <+: front ++ t := by
  induction front generalizing word with
  | cons c front ih =>
      cases word with
      | nil => exact ⟨fun _ => List.nil_prefix, fun _ => List.nil_prefix⟩
      | cons d word =>
          rw [List.mem_cons, not_or] at htab hspace
          rw [List.cons_append, List.cons_append, List.cons_prefix_cons, List.cons_prefix_cons,
            ih htab.2 hspace.2]
  | nil =>
      rw [List.nil_append, List.nil_append]
      induction t generalizing column word with
      | nil => exact Iff.rfl
      | cons c t ih =>
          cases word with
          | nil => exact ⟨fun _ => List.nil_prefix, fun _ => List.nil_prefix⟩
          | cons d word =>
              rw [List.mem_cons, not_or] at htab hspace
              rw [expandTabsFrom_cons]
              rcases filled_cases width column c hwidth with ⟨rfl, gap, hfilled⟩ | ⟨-, hfilled⟩
              · rw [hfilled, List.cons_append, List.cons_prefix_cons, List.cons_prefix_cons]
                exact ⟨fun h => absurd h.1.symm hspace.1, fun h => absurd h.1.symm htab.1⟩
              · rw [hfilled, List.singleton_append, List.cons_prefix_cons, List.cons_prefix_cons,
                  ih htab.2 hspace.2]

/-- An expansion is cut at a character other than a space only where the text is cut. -/
theorem exists_of_expandTabsFrom_eq_append {front back : Text} {c : Char} (hc : c ≠ ' ')
    (h : expandTabsFrom width column t = front ++ c :: back) :
    ∃ before after, t = before ++ c :: after ∧ c ≠ '\t' ∧
      front = expandTabsFrom width column before ∧
      back = expandTabsFrom width (columnAfter width column (before ++ [c])) after := by
  induction t generalizing column front with
  | nil => exact absurd h.symm (List.append_ne_nil_of_right_ne_nil _ (List.cons_ne_nil _ _))
  | cons d t ih =>
      rw [expandTabsFrom_cons] at h
      -- Either the cut is at the first character, or it is behind all that this one became.
      rcases List.append_eq_append_iff.1 h with ⟨rest, rfl, hrest⟩ | ⟨rest, hfront, hrest⟩
      · obtain ⟨before, after, rfl, htab, rfl, rfl⟩ := ih hrest
        exact ⟨d :: before, after, rfl, htab, (expandTabsFrom_cons width column d before).symm, rfl⟩
      · cases rest with
        | nil =>
            have hrest : expandTabsFrom width (columnBehind width column d) t = [] ++ c :: back :=
              hrest.symm
            obtain ⟨before, after, rfl, htab, hbefore, rfl⟩ := ih hrest
            refine ⟨d :: before, after, rfl, htab, ?_, rfl⟩
            rw [expandTabsFrom_cons, ← hbefore, hfront, List.append_nil, List.append_nil]
        | cons e rest =>
            obtain ⟨rfl, hback⟩ := List.cons.inj hrest
            rcases filled_cases width column d hwidth with ⟨rfl, gap, hfilled⟩ | ⟨hd, hfilled⟩
            · have hmem : c ∈ List.replicate (gap + 1) ' ' := by
                rw [List.replicate_succ, ← hfilled, hfront]
                simp
              exact absurd (List.eq_of_mem_replicate hmem) hc
            · rw [hfilled] at hfront
              obtain ⟨rfl, hsame⟩ := List.append_eq_singleton_iff.1 hfront.symm |>.resolve_right
                fun h => absurd h.2 (List.cons_ne_nil _ _)
              obtain ⟨rfl, rfl⟩ := List.cons.inj hsame
              exact ⟨[], t, rfl, hd, rfl, hback⟩

/-- In front of anything but a space an expansion falls into expansions. -/
theorem exists_of_expandTabsFrom_cut_front {front back : Text} (hback : back.head? ≠ some ' ')
    (h : expandTabsFrom width column t = front ++ back) :
    ∃ before after, t = before ++ after ∧ front = expandTabsFrom width column before ∧
      back = expandTabsFrom width (columnAfter width column before) after := by
  cases back with
  | nil => exact ⟨t, [], (List.append_nil t).symm, (h.trans (List.append_nil front)).symm, rfl⟩
  | cons c back =>
      have hc : c ≠ ' ' := fun hsame => hback (congrArg some hsame)
      obtain ⟨before, after, rfl, htab, hfront, rfl⟩ :=
        exists_of_expandTabsFrom_eq_append hwidth hc h
      refine ⟨before, c :: after, rfl, hfront, ?_⟩
      rw [hfront, expandTabsFrom_append] at h
      exact (List.append_cancel_left h).symm

/-- So it does behind anything but a space. -/
theorem exists_of_expandTabsFrom_cut_back {front back : Text} (hfront : front.getLast? ≠ some ' ')
    (h : expandTabsFrom width column t = front ++ back) :
    ∃ before after, t = before ++ after ∧ front = expandTabsFrom width column before ∧
      back = expandTabsFrom width (columnAfter width column before) after := by
  rcases List.eq_nil_or_concat front with rfl | ⟨front, c, rfl⟩
  · exact ⟨[], t, rfl, rfl, h.symm⟩
  · rw [List.concat_eq_append] at h hfront ⊢
    have hc : c ≠ ' ' := by simpa using hfront
    rw [List.append_assoc, List.singleton_append] at h
    obtain ⟨before, after, rfl, htab, rfl, rfl⟩ := exists_of_expandTabsFrom_eq_append hwidth hc h
    refine ⟨before ++ [c], after, by simp, ?_, rfl⟩
    rw [expandTabsFrom_append, expandTabsFrom_cons_of_ne width _ c [] htab]
    rfl

end Expansions

/-! ## Offsets -/

/-- The offset in the expansion of a text that belongs to an offset in the text. -/
def tabOffset (width : Int) (t : Text) (offset : Int) : Int :=
  (expandTabs width (t.take offset.toNat)).length

section Offsets

theorem tabOffset_append (width : Int) (s t : Text) :
    tabOffset width (s ++ t) s.length = (expandTabs width s).length := by
  rw [tabOffset, Int.toNat_natCast, List.take_left]

theorem tabOffset_length (width : Int) (t : Text) :
    tabOffset width t t.length = (expandTabs width t).length := by
  rw [tabOffset, Int.toNat_natCast, List.take_length]

variable {width : Int} (hwidth : 0 < width)

include hwidth

theorem expandTabs_eq (t : Text) : expandTabs width t = expandTabsFrom width.toNat 0 t :=
  if_pos hwidth

theorem tabOffset_zero (t : Text) : tabOffset width t 0 = 0 := by
  rw [tabOffset, Int.toNat_zero, List.take_zero, expandTabs_eq hwidth]
  rfl

/-- The places of the ends of a part of a text. -/
theorem tabOffset_parts {t before middle after : Text} (ht : t = before ++ (middle ++ after)) :
    tabOffset width t before.length = (expandTabsFrom width.toNat 0 before).length ∧
      tabOffset width t (before.length + middle.length) =
        (expandTabsFrom width.toNat 0 before).length +
          (expandTabsFrom width.toNat (columnAfter width.toNat 0 before) middle).length := by
  constructor
  · rw [ht, tabOffset_append, expandTabs_eq hwidth]
  · rw [ht, ← List.append_assoc, ← Int.natCast_add, ← List.length_append, tabOffset_append,
      expandTabs_eq hwidth, expandTabsFrom_append, List.length_append, Int.natCast_add]

/-- Every part of a text leaves something behind in the expansion. -/
theorem tabOffset_lt_tabOffset {t : Text} {first last : Int} (hfirst : 0 ≤ first)
    (hlt : first < last) (hlast : last ≤ t.length) :
    tabOffset width t first < tabOffset width t last := by
  have hwidth' : 0 < width.toNat := by omega
  have hsplit : t.take last.toNat =
      t.take first.toNat ++ (t.take last.toNat).drop first.toNat := by
    have htake : t.take first.toNat = (t.take last.toNat).take first.toNat := by
      rw [List.take_take, Nat.min_eq_left (by omega)]
    rw [htake, List.take_append_drop]
  have hlength : ((t.take last.toNat).drop first.toNat).length = last.toNat - first.toNat := by
    rw [List.length_drop, List.length_take]
    omega
  have hle : ((t.take last.toNat).drop first.toNat).length ≤
      (expandTabsFrom width.toNat (columnAfter width.toNat 0 (t.take first.toNat))
        ((t.take last.toNat).drop first.toNat)).length :=
    length_le_length_expandTabsFrom hwidth'
  unfold tabOffset
  rw [expandTabs_eq hwidth, expandTabs_eq hwidth, hsplit, expandTabsFrom_append,
    List.length_append]
  omega

end Offsets

end CodeHighlight.Text
