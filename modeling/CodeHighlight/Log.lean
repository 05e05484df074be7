import CodeHighlight.Scan.Tokens

/-!
# Log records

What the library writes to its log, as data, and computations that write to it.
-/

namespace CodeHighlight

/-- The part of the library that a log record comes from. -/
inductive Topic where
  | registry
  | highlighting
  | scanning
  deriving DecidableEq

namespace Topic

/-- The name in front of every logger name of the library. -/
def root : Text := "decklight".toList

/-- The logger name for a given name: the name itself if it is the root name or lies below it, and
the name put below the root otherwise. -/
def below (name : Text) : Text :=
  if name = root ∨ (root ++ ['.']).isPrefixOf name then name else root ++ '.' :: name

/-- The logger that the records of a topic go to. -/
def logger : Topic → Text
  | registry => below "registry".toList
  | highlighting => below "highlighting".toList
  | scanning => below "lexer.core".toList

end Topic

/-- One entry of the log. -/
structure LogRecord where
  topic : Topic
  message : Text

namespace LogRecord

/-- The level of every record. -/
def level : Text := "DEBUG".toList

/-- The record of a claim that was refused. -/
def ofRefusal (refusal : Refusal) : LogRecord :=
  ⟨.scanning, "Ignoring malformed span ".toList ++ refusal.claim.describe ++
    " at offset ".toList ++ Text.ofInt refusal.offset⟩

end LogRecord

/-- The outcome of a computation that may fail, with the records that it wrote to the log. -/
structure Logged (α : Type) where
  result : Except Error α
  records : List LogRecord

namespace Logged

/-- A computation that writes nothing. -/
def ofExcept {α : Type} (result : Except Error α) : Logged α := ⟨result, []⟩

/-- Writes records and does nothing else. -/
def write (records : List LogRecord) : Logged Unit := ⟨.ok (), records⟩

instance : Monad Logged where
  pure a := ⟨.ok a, []⟩
  bind m f :=
    match m.result with
    | .error e => ⟨.error e, m.records⟩
    | .ok a =>
        let rest := f a
        ⟨rest.result, m.records ++ rest.records⟩

/-- What a pass over a source comes to, with its refusals in the log. -/
def ofScanned {α : Type} (pass : Scanned α) : Logged α :=
  ⟨pass.result, pass.refusals.map LogRecord.ofRefusal⟩

end Logged

end CodeHighlight
