import CodeHighlight.Source
import CodeHighlight.Span

/-!
# Stretches of a source

Positions inside a source can always be read, and a stretch is its first character followed by a
shorter stretch.  How a source stores its characters and what a negative position means is of no
concern beyond this module.
-/

namespace CodeHighlight

namespace Source

theorem length_eq (source : Source) : source.length = source.text.length := by
  simp [length, text]

theorem length_nonneg (source : Source) : 0 ≤ source.length := by
  rw [length_eq]
  omega

@[simp] theorem length_ofText (t : Text) : (ofText t).length = t.length := by
  rw [length_eq, text_ofText]

/-- Reading inside a source yields the character at that place of its text. -/
theorem read_eq (source : Source) {position : Int} (hposition : 0 ≤ position) {c : Char}
    (hc : source.text[position.toNat]? = some c) : source.read position = .ok c := by
  have hoffset : source.offset position = position := by
    unfold offset
    rw [if_neg (by omega)]
  unfold read
  rw [hoffset, if_neg (by omega)]
  rw [text, Array.getElem?_toList] at hc
  rw [hc]

/-- A stretch that ends where it starts, or before, is empty. -/
theorem slice_eq_nil (source : Source) {start stop : Int} (hstop : 0 ≤ stop)
    (hle : stop ≤ start) : source.slice start stop = [] := by
  rw [slice_eq source (by omega) hstop]
  apply List.drop_eq_nil_of_le
  rw [List.length_take]
  omega

/-- The character at the front of a stretch is the one that is read there. -/
theorem exists_read_slice (source : Source) {position stop : Int} (hposition : 0 ≤ position)
    (hlt : position < stop) (hstop : stop ≤ source.length) :
    ∃ c, source.read position = .ok c ∧
      source.slice position stop = c :: source.slice (position + 1) stop := by
  rw [length_eq] at hstop
  have hindex : position.toNat < source.text.length := by omega
  refine ⟨source.text[position.toNat], ?_, ?_⟩
  · exact read_eq source hposition (List.getElem?_eq_getElem hindex)
  · rw [slice_eq source hposition (by omega), slice_eq source (by omega) (by omega)]
    have hsucc : (position + 1).toNat = position.toNat + 1 := by omega
    have hfront : position.toNat < (source.text.take stop.toNat).length := by
      rw [List.length_take]
      omega
    rw [hsucc, List.drop_eq_getElem_cons hfront, List.getElem_take]

theorem slice_eq_cons_of_read (source : Source) {position stop : Int} (hposition : 0 ≤ position)
    (hlt : position < stop) (hstop : stop ≤ source.length) {c : Char}
    (hread : source.read position = .ok c) :
    source.slice position stop = c :: source.slice (position + 1) stop := by
  obtain ⟨d, hd, hslice⟩ := exists_read_slice source hposition hlt hstop
  obtain rfl := Except.ok.inj (hread.symm.trans hd)
  exact hslice

/-- A stretch that is not empty can be read at its front. -/
theorem of_slice_eq_cons (source : Source) {position stop : Int} (hposition : 0 ≤ position)
    (hnonneg : 0 ≤ stop) (hstop : stop ≤ source.length) {c : Char} {rest : Text}
    (h : source.slice position stop = c :: rest) :
    position < stop ∧ source.read position = .ok c ∧ source.slice (position + 1) stop = rest := by
  have hlt : position < stop := by
    apply Int.lt_of_not_ge
    intro hle
    rw [slice_eq_nil source hnonneg hle] at h
    contradiction
  obtain ⟨d, hread, hslice⟩ := exists_read_slice source hposition hlt hstop
  rw [hslice] at h
  obtain ⟨rfl, hrest⟩ := List.cons.inj h
  exact ⟨hlt, hread, hrest⟩

theorem slice_zero_length (source : Source) : source.slice 0 source.length = source.text := by
  rw [slice_eq source (by omega) source.length_nonneg, length_eq]
  simp

theorem length_slice (source : Source) {start stop : Int} (hstart : 0 ≤ start)
    (hle : start ≤ stop) (hstop : stop ≤ source.length) :
    (source.slice start stop).length = (stop - start).toNat := by
  rw [length_eq] at hstop
  rw [slice_eq source hstart (by omega), List.length_drop, List.length_take]
  omega

/-- Stretches that touch make up one stretch. -/
theorem slice_append (source : Source) {start middle stop : Int} (hstart : 0 ≤ start)
    (hfirst : start ≤ middle) (hsecond : middle ≤ stop) :
    source.slice start middle ++ source.slice middle stop = source.slice start stop := by
  rw [slice_eq source hstart (by omega), slice_eq source (by omega) (by omega),
    slice_eq source hstart (by omega)]
  -- Both sides are parts of what lies before `stop`, cut at `middle`.
  have htake : source.text.take middle.toNat = (source.text.take stop.toNat).take middle.toNat := by
    rw [List.take_take, Nat.min_eq_left (by omega)]
  have hdrop : (source.text.take stop.toNat).drop middle.toNat =
      ((source.text.take stop.toNat).drop start.toNat).drop (middle.toNat - start.toNat) := by
    rw [List.drop_drop, Nat.add_sub_cancel' (by omega)]
  rw [htake, List.drop_take, hdrop, List.take_append_drop]

/-- A stretch that falls into two texts falls into two stretches. -/
theorem slice_split (source : Source) {start stop : Int} (hstart : 0 ≤ start) (hstop : 0 ≤ stop)
    {front rest : Text} (h : source.slice start stop = front ++ rest) :
    source.slice start (start + front.length) = front ∧
      source.slice (start + front.length) stop = rest := by
  rw [slice_eq source hstart hstop] at h
  have hlength := congrArg List.length h
  rw [List.length_drop, List.length_take, List.length_append] at hlength
  have hnext : (start + front.length).toNat = start.toNat + front.length := by omega
  constructor
  · -- `stop` may lie before the front text ends only if that text is empty.
    rw [slice_eq source hstart (by omega), hnext, List.drop_take, Nat.add_sub_cancel_left]
    have hfront : ((source.text.take stop.toNat).drop start.toNat).take front.length = front := by
      rw [h, List.take_left]
    rw [List.drop_take, List.take_take] at hfront
    by_cases hempty : front.length = 0
    · rw [hempty, List.take_zero, List.eq_nil_of_length_eq_zero hempty]
    · rwa [Nat.min_eq_left (by omega)] at hfront
  · rw [slice_eq source (by omega) hstop, hnext, ← List.drop_drop, h, List.drop_left]

/-- A text inside a stretch is a stretch of its own. -/
theorem slice_middle (source : Source) {start stop : Int} (hstart : 0 ≤ start) (hstop : 0 ≤ stop)
    {front t back : Text} (h : source.slice start stop = front ++ t ++ back) :
    source.slice (start + front.length) (start + front.length + t.length) = t := by
  rw [List.append_assoc] at h
  exact (source.slice_split (by omega) hstop (source.slice_split hstart hstop h).2).1

/-- To cut a stretch in two texts is to choose an offset inside it. -/
theorem exists_cut_iff (source : Source) {start stop : Int} (hstart : 0 ≤ start)
    (hle : start ≤ stop) (hstop : stop ≤ source.length) {p : Text → Text → Prop} :
    (∃ front rest, source.slice start stop = front ++ rest ∧ p front rest) ↔
      ∃ middle, start ≤ middle ∧ middle ≤ stop ∧
        p (source.slice start middle) (source.slice middle stop) := by
  constructor
  · rintro ⟨front, rest, hsplit, hp⟩
    have hlength := congrArg List.length hsplit
    rw [source.length_slice hstart hle hstop, List.length_append] at hlength
    obtain ⟨hfront, hrest⟩ := source.slice_split hstart (by omega) hsplit
    refine ⟨start + front.length, by omega, by omega, ?_⟩
    rwa [hfront, hrest]
  · rintro ⟨middle, hfirst, hsecond, hp⟩
    exact ⟨_, _, (source.slice_append hstart hfirst hsecond).symm, hp⟩

/-- The character directly before a position, if there is one. -/
def behind (source : Source) (position : Int) : Option Char :=
  (source.slice 0 position).getLast?

theorem behind_zero (source : Source) : source.behind 0 = none := by
  rw [behind, slice_eq_nil source (by omega) (by omega), List.getLast?_nil]

/-- The last character of a stretch that is not empty stands directly before its end. -/
theorem behind_eq_getLast? (source : Source) {start stop : Int} (hstart : 0 ≤ start)
    (hlt : start < stop) (hstop : stop ≤ source.length) :
    source.behind stop = (source.slice start stop).getLast? := by
  obtain ⟨c, -, hc⟩ := exists_read_slice source hstart hlt hstop
  rw [behind, ← slice_append source (by omega) hstart (by omega), hc, List.getLast?_append,
    List.getLast?_cons, Option.some_or]

/-- Behind the front of the source, the character directly before a position can be read. -/
theorem exists_read_behind (source : Source) {position : Int} (hpositive : 0 < position)
    (hle : position ≤ source.length) :
    ∃ c, source.read (position - 1) = .ok c ∧ source.behind position = some c := by
  have hback : 0 ≤ position - 1 := by omega
  have hbefore : position - 1 < position := by omega
  obtain ⟨c, hread, hslice⟩ := source.exists_read_slice hback hbefore hle
  refine ⟨c, hread, ?_⟩
  rw [source.behind_eq_getLast? hback hbefore hle, hslice,
    source.slice_eq_nil (by omega) (by omega)]
  rfl

theorem behind_of_read (source : Source) {position : Int} (hpositive : 0 < position)
    (hle : position ≤ source.length) {c : Char} (hread : source.read (position - 1) = .ok c) :
    source.behind position = some c := by
  obtain ⟨d, hd, hbehind⟩ := source.exists_read_behind hpositive hle
  obtain rfl := Except.ok.inj (hread.symm.trans hd)
  exact hbehind

end Source

/-- The span of a lexeme that starts at a position. -/
def Span.ofLexeme (category : Category) (lexeme : Text) (start : Int) : Span :=
  ⟨category, lexeme, start, start + lexeme.length⟩

/-- The span of a lexeme at the front of a stretch carries the text between its offsets. -/
theorem Span.ofLexeme_eq (source : Source) (category : Category) {start stop : Int}
    (hstart : 0 ≤ start) (hstop : 0 ≤ stop) {lexeme rest : Text}
    (h : source.slice start stop = lexeme ++ rest) :
    Span.ofLexeme category lexeme start =
      ⟨category, source.slice start (start + lexeme.length), start, start + lexeme.length⟩ := by
  rw [Span.ofLexeme, (source.slice_split hstart hstop h).1]

/-- A stretch inside a source is the lexeme that starts and ends where it does. -/
theorem Span.ofLexeme_slice (source : Source) (category : Category) {start stop : Int}
    (hstart : 0 ≤ start) (hle : start ≤ stop) (hstop : stop ≤ source.length) :
    Span.ofLexeme category (source.slice start stop) start =
      ⟨category, source.slice start stop, start, stop⟩ := by
  have hend : start + ((stop - start).toNat : Int) = stop := by omega
  rw [Span.ofLexeme, source.length_slice hstart hle hstop, hend]

namespace Reader

variable (source : Source) (p : Char → Bool) {position stop : Int}

theorem sees_of_le (hle : stop ≤ position) :
    source.reader.sees p position stop = .ok false := by
  unfold sees
  rw [if_neg (by omega)]

theorem sees_of_read {c : Char} (hlt : position < stop) (hread : source.read position = .ok c) :
    source.reader.sees p position stop = .ok (p c) := by
  unfold sees
  rw [if_pos hlt]
  show (source.read position).map p = _
  rw [hread]
  rfl

/-- Looking ahead sees the first character of the stretch up to the bound. -/
theorem sees_reader (hposition : 0 ≤ position) (hnonneg : 0 ≤ stop)
    (hstop : stop ≤ source.length) :
    source.reader.sees p position stop = .ok ((source.slice position stop).head?.any p) := by
  by_cases hlt : position < stop
  · obtain ⟨c, hread, hslice⟩ := source.exists_read_slice hposition hlt hstop
    rw [sees_of_read source p hlt hread, hslice]
    rfl
  · rw [sees_of_le source p (by omega), source.slice_eq_nil hnonneg (by omega)]
    rfl

private theorem runEndWithin_reader (hposition : 0 ≤ position) (count : Nat)
    (hstop : position + count ≤ source.length) :
    source.reader.runEndWithin p position count =
      .ok (position + ((source.slice position (position + count)).takeWhile p).length) := by
  -- The count of positions is also the length of the stretch, so both shrink together.
  induction count generalizing position with
  | zero =>
      rw [source.slice_eq_nil (by omega) (by omega)]
      simp [runEndWithin]
  | succ count ih =>
      have hlt : position < position + (count + 1 : Nat) := by omega
      obtain ⟨c, hread, hslice⟩ := source.exists_read_slice hposition hlt hstop
      have hsame : position + (count + 1 : Nat) = position + 1 + count := by omega
      rw [hslice, hsame]
      unfold runEndWithin
      show (source.read position).bind _ = _
      rw [hread]
      show (if p c = true then _ else _) = _
      by_cases hp : p c = true
      · rw [if_pos hp, ih (by omega) (by omega), List.takeWhile_cons_of_pos hp, List.length_cons]
        congr 1
        omega
      · rw [if_neg hp, List.takeWhile_cons_of_neg hp]
        simp

/-- A run ends behind the characters of the stretch that satisfy the predicate. -/
theorem runEnd_reader (hposition : 0 ≤ position) (hle : position ≤ stop)
    (hstop : stop ≤ source.length) :
    source.reader.runEnd p position stop =
      .ok (position + ((source.slice position stop).takeWhile p).length) := by
  have hcount : position + ((stop - position).toNat : Int) = stop := by omega
  unfold runEnd
  rw [runEndWithin_reader source p hposition _ (by omega), hcount]

/-- Looking back sees the character directly before the position. -/
theorem follows_reader (hposition : 0 ≤ position) (hle : position ≤ source.length) :
    source.reader.follows p position = .ok ((source.behind position).any p) := by
  unfold follows
  by_cases hlt : 0 < position
  · obtain ⟨c, hread, hbehind⟩ := source.exists_read_behind hlt hle
    rw [if_pos hlt, hbehind]
    show (source.read (position - 1)).map p = _
    rw [hread]
    rfl
  · have hzero : position = 0 := by omega
    rw [if_neg hlt, hzero, source.behind_zero]
    rfl

end Reader

end CodeHighlight
