import CodeHighlight.Source
import CodeHighlight.Span
import CodeHighlight.Table

/-!
# The quoted string rule

A quoted string runs from a quotation mark to the next mark of the same kind on its line.  A
backslash hides the character behind it, a line feed included.

A search for the closing mark that fails has read up to some place, its *horizon*.  Every mark of
the same kind before the horizon was hidden by a backslash, so a search from there passes the same
places and fails as well.  A rule that remembers its horizons turns such a mark down at once, which
keeps the work on a line linear in its length.
-/

namespace CodeHighlight

/-- For each quotation mark, the place up to which its last failed search has read. -/
abbrev Horizons := Table Char Int

namespace Horizons

/-- The horizon of a mark, if a search for it has failed. -/
def reach (horizons : Horizons) (mark : Char) : Option Int := horizons.find? mark

/-- Remembers the horizon of a mark in place of an earlier one. -/
def note (horizons : Horizons) (mark : Char) (place : Int) : Horizons := horizons.put mark place

/-- A search for the mark from this position is known to fail. -/
def blocks (horizons : Horizons) (mark : Char) (position : Int) : Bool :=
  decide (position < (horizons.reach mark).getD (-1))

theorem reach_note (horizons : Horizons) (mark other : Char) (place : Int) :
    (horizons.note mark place).reach other =
      if mark = other then some place else horizons.reach other :=
  Table.find?_put ..

end Horizons

/-- How the search for a closing mark ends. -/
inductive Closing where
  /-- The string ends just before `stop`. -/
  | found (stop : Int)
  /-- There is no closing mark; the search has read up to the horizon. -/
  | missing (horizon : Int)
  deriving DecidableEq

/-- What a rule answers at a position: the span that it claims, if any, and the horizons that it
remembers afterwards, if it is given any to remember. -/
structure Attempt where
  claim : Option Span
  memory : Option Horizons

namespace Reader

/-- Searches for the closing mark over `count` positions.  The character behind a backslash is
stepped over unread, so the search may end one place beyond its last position. -/
def closingWithin (reader : Reader) (mark : Char) (position : Int) : Nat → Except Error Closing
  | 0 => .ok (.missing position)
  | count + 1 => do
      let c ← reader.read position
      if c = '\\' then
        match count with
        | 0 => return .missing (position + 2)
        | count + 1 => reader.closingWithin mark (position + 2) count
      else if c = mark then
        return .found (position + 1)
      else if c = '\n' then
        return .missing position
      else
        reader.closingWithin mark (position + 1) count

/-- Searches for the closing mark from a position up to `stop`. -/
def closing (reader : Reader) (mark : Char) (position stop : Int) : Except Error Closing :=
  reader.closingWithin mark position (stop - position).toNat

/-- The quoted string that opens at a position, where one of the given marks stands there.  With a
memory, positions that it blocks are turned down and failed searches are noted. -/
def quotedAt (reader : Reader) (marks : List Char) (memory : Option Horizons)
    (position stop : Int) : Except Error Attempt := do
  let mark ← reader.read position
  if mark ∉ marks then
    return ⟨none, memory⟩
  else if (memory.map (·.blocks mark position)).getD false then
    return ⟨none, memory⟩
  else
    match ← reader.closing mark (position + 1) stop with
    | .found last =>
        return ⟨some ⟨.string, reader.source.slice position last, position, last⟩, memory⟩
    | .missing horizon => return ⟨none, memory.map (·.note mark horizon)⟩

end Reader

end CodeHighlight
