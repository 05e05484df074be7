import CodeHighlight.Source
import CodeHighlight.Span
import CodeHighlight.Text.Word

/-!
# Words and numerals

A word is a maximal run of word characters that begins with a word start.  It is looked up as a
whole in the two word lists of a grammar; a word in neither list is claimed as plain text, so that
no part of it is tried by another rule.

A numeral is an optional sign, decimal digits, an optional fraction and an optional exponent.  It
stands on its own: no word character may stand directly before or after it.  Only ASCII digits count
as digits, although the digits of every script are word characters.
-/

namespace CodeHighlight

/-! ## The word rule -/

/-- The category of a whole word under a list of keywords and a list of literals. -/
def wordCategory (keywords literals : List Text) (word : Text) : Category :=
  if word ∈ keywords then .keyword
  else if word ∈ literals then .literal
  else .plain

/-- The word that starts at a position and ends at `stop` at the latest.  No word starts inside a
longer run of word characters. -/
def Reader.wordAt (reader : Reader) (keywords literals : List Text) (position stop : Int) :
    Except Error (Option Span) := do
  if !isWordStart (← reader.read position) then
    return none
  else if ← reader.follows isWordChar position then
    return none
  else
    let last ← reader.runEnd isWordChar (position + 1) stop
    let word := reader.source.slice position last
    return some ⟨wordCategory keywords literals word, word, position, last⟩

/-! ## The numeral rule -/

/-- An ASCII digit. -/
def isDigit (c : Char) : Bool := decide ('0' ≤ c) && decide (c ≤ '9')

/-- A plus or a minus sign. -/
def isSign (c : Char) : Bool := c == '+' || c == '-'

/-- The letter in front of an exponent. -/
def isExponentMark (c : Char) : Bool := c == 'e' || c == 'E'

namespace Reader

/-- The end of the fraction at a position, which is the position itself where no digit follows a
dot. -/
def fractionEnd (reader : Reader) (position stop : Int) : Except Error Int := do
  if ← reader.sees (· == '.') position (stop - 1) then
    if ← reader.sees isDigit (position + 1) stop then
      reader.runEnd isDigit (position + 1) stop
    else
      return position
  else
    return position

/-- The position behind the sign at a position, or the position itself where there is none. -/
def signEnd (reader : Reader) (position stop : Int) : Except Error Int := do
  if ← reader.sees isSign position stop then
    return position + 1
  else
    return position

/-- The end of the exponent at a position, which is the position itself where no digit follows the
exponent mark and its sign. -/
def exponentEnd (reader : Reader) (position stop : Int) : Except Error Int := do
  if ← reader.sees isExponentMark position stop then
    let digits ← reader.signEnd (position + 1) stop
    if ← reader.sees isDigit digits stop then
      reader.runEnd isDigit digits stop
    else
      return position
  else
    return position

/-- The end of the longest numeral at a position, whatever stands before and after it.  The first
character is read even if the position is not before `stop`. -/
def numeralEnd (reader : Reader) (position stop : Int) : Except Error (Option Int) := do
  let first ← reader.read position
  let digits := if isSign first then position + 1 else position
  if ← reader.sees isDigit digits stop then
    let whole ← reader.runEnd isDigit digits stop
    let fraction ← reader.fractionEnd whole stop
    return some (← reader.exponentEnd fraction stop)
  else
    return none

/-- The numeral that stands at a position and ends at `stop` at the latest. -/
def numeralAt (reader : Reader) (position stop : Int) : Except Error (Option Span) := do
  if ← reader.follows isWordChar position then
    return none
  else
    match ← reader.numeralEnd position stop with
    | none => return none
    | some last =>
        if ← reader.sees isWordChar last stop then
          return none
        else
          return some ⟨.number, reader.source.slice position last, position, last⟩

end Reader

end CodeHighlight
