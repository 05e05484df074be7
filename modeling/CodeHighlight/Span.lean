import CodeHighlight.Error

/-!
# Spans

A span is a stretch of source text with the category it is highlighted as.  Nothing ties the text of
a span to its offsets: rules of a grammar and callers of a renderer may present any span at all.
-/

namespace CodeHighlight

/-- What a stretch of source text is highlighted as. -/
inductive Category where
  | keyword
  | literal
  | string
  | number
  | plain
  deriving DecidableEq

namespace Category

/-- Every category, in the order of declaration. -/
def all : List Category := [keyword, literal, string, number, plain]

/-- The label of a category, which is also its class name in the markup. -/
def label : Category → Text
  | keyword => "keyword".toList
  | literal => "literal".toList
  | string => "string".toList
  | number => "number".toList
  | plain => "plain".toList

/-- The name of a category as it appears in messages. -/
def name : Category → Text
  | keyword => "KEYWORD".toList
  | literal => "LITERAL".toList
  | string => "STRING".toList
  | number => "NUMBER".toList
  | plain => "PLAIN".toList

/-- The category that has a label. -/
def ofLabel (label : Text) : Except Error Category :=
  match all.find? fun category => category.label = label with
  | some category => .ok category
  | none => .error (.unknownCategory label)

theorem ofLabel_label (category : Category) : ofLabel category.label = .ok category := by
  cases category <;> rfl

end Category

/-- A stretch of text from offset `start` up to, but not including, offset `stop`. -/
structure Span where
  category : Category
  text : Text
  start : Int
  stop : Int
  deriving DecidableEq

namespace Span

/-- The number of offsets that a span covers, where it is neither negative nor beyond 63 bits. -/
def length (span : Span) : Except Error Nat :=
  if span.stop < span.start then .error .negativeLength
  else if span.stop - span.start < 0x8000000000000000 then .ok (span.stop - span.start).toNat
  else .error .lengthTooLarge

/-- A text of more than 20 characters cut to its first 17, with three dots behind them. -/
def abbreviate (t : Text) : Text :=
  if 20 < t.length then t.take 17 ++ ['.', '.', '.'] else t

/-- A span as it appears in messages. -/
def describe (span : Span) : Text :=
  "Span(".toList ++ span.category.name ++ [',', ' '] ++ (abbreviate span.text).quoted ++
    [',', ' '] ++ Text.ofInt span.start ++ ':' :: Text.ofInt span.stop ++ [')']

end Span

end CodeHighlight
