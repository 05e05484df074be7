import CodeHighlight.Error

/-!
# Sources and the ways to read them

A source is the text that is classified.  Positions in it are integers.  A negative position counts
from the end; a position beyond either end holds no character, and reading there is an error.

Rules see a source through a `Reader`, which says what reading a single character means.  Looking
ahead goes through `Reader.sees` and `Reader.runEnd`, which read only before a bound.
-/

namespace CodeHighlight

/-- The text that is classified, with its characters in constant reach. -/
structure Source where
  chars : Array Char

namespace Source

/-- The source made of a text. -/
def ofText (t : Text) : Source := ⟨t.toArray⟩

/-- The whole text of a source. -/
def text (source : Source) : Text := source.chars.toList

@[simp] theorem text_ofText (t : Text) : (ofText t).text = t := by
  simp [text, ofText]

/-- The number of characters. -/
def length (source : Source) : Int := source.chars.size

/-- The offset of a position, which counts from the end if it is negative. -/
def offset (source : Source) (position : Int) : Int :=
  if position < 0 then position + source.length else position

/-- Why there is no character at a position outside the source. -/
def missing (position : Int) : Error :=
  if -0x8000000000000000 ≤ position ∧ position < 0x8000000000000000 then .outOfRange
  else .positionTooLarge

/-- The character at a position. -/
def read (source : Source) (position : Int) : Except Error Char :=
  if source.offset position < 0 then .error (missing position)
  else
    match source.chars[(source.offset position).toNat]? with
    | some c => .ok c
    | none => .error (missing position)

/-- The text between two positions, each moved to the nearer end if it lies outside. -/
def slice (source : Source) (start stop : Int) : Text :=
  (source.chars.extract (source.offset start).toNat (source.offset stop).toNat).toList

/-- The text between two positions that are not negative. -/
theorem slice_eq (source : Source) {start stop : Int} (hstart : 0 ≤ start) (hstop : 0 ≤ stop) :
    source.slice start stop = (source.text.take stop.toNat).drop start.toNat := by
  have h₁ : ¬ start < 0 := by omega
  have h₂ : ¬ stop < 0 := by omega
  simp [slice, offset, text, h₁, h₂, List.extract_eq_take_drop, List.drop_take]

end Source

/-- A source together with the way to read its characters. -/
structure Reader where
  source : Source
  read : Int → Except Error Char

/-- The ordinary way to read a source. -/
def Source.reader (source : Source) : Reader := ⟨source, source.read⟩

namespace Reader

/-- The position lies before `stop` and holds a character that satisfies `p`. -/
def sees (reader : Reader) (p : Char → Bool) (position stop : Int) : Except Error Bool :=
  if position < stop then (reader.read position).map p else .ok false

/-- The end of the run of characters that satisfy `p`, over at most `count` positions. -/
def runEndWithin (reader : Reader) (p : Char → Bool) (position : Int) : Nat → Except Error Int
  | 0 => .ok position
  | count + 1 => do
      let c ← reader.read position
      if p c then reader.runEndWithin p (position + 1) count else .ok position

/-- The end of the run of characters that satisfy `p`, from `position` up to `stop` at most. -/
def runEnd (reader : Reader) (p : Char → Bool) (position stop : Int) : Except Error Int :=
  reader.runEndWithin p position (stop - position).toNat

/-- A character that satisfies `p` stands directly before the position. -/
def follows (reader : Reader) (p : Char → Bool) (position : Int) : Except Error Bool :=
  if 0 < position then (reader.read (position - 1)).map p else .ok false

end Reader

end CodeHighlight
