import CodeHighlight.Rule.Quoted
import CodeHighlight.Rule.Word

/-!
# Rules

A rule looks at one position of a source and either claims a span there or declines.  The three
rules of the library never claim beyond the bound that they are given; a custom rule may claim
anything, and it may fail.

A marker rule claims a stretch that is laid out relative to a marker character.  The stretch may be
empty, reversed or out of bounds: whether a claim is acceptable is not for the rule to say.  The
category is given by its label, which is looked up at each claim, so a label that no category has
makes the rule fail where it would claim, and nowhere else.
-/

namespace CodeHighlight

/-! ## Markers -/

/-- Where the stretch of a marker ends. -/
inductive Extent where
  /-- A fixed number of places behind its start. -/
  | length (count : Int)
  /-- A fixed number of places behind the end of the range that is classified. -/
  | pastStop (count : Int)

/-- A marker with the label of the category and the place of the stretch that it stands for.  A mark
that is not a single character is never met. -/
structure Marker where
  mark : Text
  label : Text
  shift : Int
  extent : Extent

/-- The stretch that a marker at a position claims. -/
def Marker.claim (marker : Marker) (source : Source) (position stop : Int) :
    Except Error (Option Span) := do
  if [← source.read position] = marker.mark then
    let category ← Category.ofLabel marker.label
    let first := position + marker.shift
    let last :=
      match marker.extent with
      | .length count => first + count
      | .pastStop count => stop + count
    return some ⟨category, source.slice (max first 0) (max last 0), first, last⟩
  else
    return none

/-! ## The rules of a grammar -/

/-- The kinds of rules. -/
inductive Rule where
  /-- Words, looked up in a list of keywords and a list of literals. -/
  | word (keywords literals : List Text)
  /-- Quoted strings between two of the same of the given marks. -/
  | quoted (marks : List Char)
  /-- Stand-alone numerals. -/
  | numeral
  /-- A rule of the caller's own, with the label that messages show.  It keeps no memory: horizons
  are offered to every rule that asks for them, but here only the quoted rule does. -/
  | custom (label : Text) (claim : Source → Int → Int → Except Error (Option Span))

namespace Rule

/-- Quoted strings in double or single quotes. -/
def quotedString : Rule := quoted ['"', '\'']

/-- The rule of a marker character. -/
def marker (m : Marker) : Rule := custom ("ClaimMatcher(".toList ++ m.mark ++ [')']) m.claim

/-- The rule asks for horizons, to remember its failed searches by.  Any rule might do so, but what
a custom rule claims is here a function of the source, the position and the bound, so none does. -/
def tracksFailures : Rule → Bool
  | quoted _ => true
  | _ => false

/-- What the rule answers at a position, where claims should end at `stop` at the latest.  The rules
of the library read the character at the position, except the numeral rule behind a word
character. -/
def attempt (reader : Reader) (memory : Option Horizons) (position stop : Int) :
    Rule → Except Error Attempt
  | word keywords literals => do
      return ⟨← reader.wordAt keywords literals position stop, memory⟩
  | quoted marks => reader.quotedAt marks memory position stop
  | numeral => do
      return ⟨← reader.numeralAt position stop, memory⟩
  | custom _ claim => do
      return ⟨← claim reader.source position stop, memory⟩

/-- What the rule answers to a series of positions and bounds that share one memory, each answer
with the memory behind it.  A failure leaves the memory as it was. -/
def series (rule : Rule) (reader : Reader) (memory : Option Horizons) :
    List (Int × Int) → List (Except Error (Option Span) × Option Horizons)
  | [] => []
  | (position, stop) :: rest =>
      match rule.attempt reader memory position stop with
      | .error e => (.error e, memory) :: series rule reader memory rest
      | .ok attempt => (.ok attempt.claim, attempt.memory) :: series rule reader attempt.memory rest

/-- A rule as it is shown in messages. -/
def describe : Rule → Text
  | word _ _ => "WordMatcher".toList
  | quoted marks =>
      "QuotedStringMatcher(".toList ++
        Text.quoted (marks.eraseDups.mergeSort fun c d => decide (c ≤ d)) ++ [')']
  | numeral => "NumberMatcher()".toList
  | custom label _ => label

end Rule

end CodeHighlight
