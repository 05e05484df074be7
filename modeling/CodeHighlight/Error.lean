import CodeHighlight.Text.Quoted

/-!
# What can go wrong

Every failure of the library by its cause.  `Error.message` holds the wording of all of them.
-/

namespace CodeHighlight

/-- The causes of failure. -/
inductive Error where
  /-- A character was read outside the source. -/
  | outOfRange
  /-- A character was read at a position that does not fit 64 bits. -/
  | positionTooLarge
  /-- A grammar was given an empty name. -/
  | emptyName
  /-- Some words of a grammar are both keyword and literal. -/
  | ambiguousWords (grammar : Text) (words : List Text)
  /-- Something that is no grammar, of the kind given, was registered. -/
  | nameless (kind : Text)
  /-- Something without words and rules was used as a grammar.  It is shown by its kind, or by its
  name if that is all there is to it. -/
  | rulesMissing (shown : Text)
  /-- A language name is already registered, by the grammar named second. -/
  | nameTaken (key holder : Text)
  /-- No category has this label. -/
  | unknownCategory (label : Text)
  /-- A span starts before the end of the span in front of it. -/
  | overlap (start previousStop : Int)
  /-- A span ends before it starts, so it has no length. -/
  | negativeLength
  /-- The length of a span does not fit 63 bits. -/
  | lengthTooLarge
  /-- The tab width does not fit 32 bits. -/
  | tabWidthTooLarge
  /-- A highlighter that needs the name of a language was given none. -/
  | languageMissing
  /-- A session has no object of this name. -/
  | unknownName (name : Text)
  deriving DecidableEq

namespace Error

/-- The wording of a failure. -/
def message : Error → Text
  | outOfRange => "string index out of range".toList
  | positionTooLarge => "cannot fit 'int' into an index-sized integer".toList
  | emptyName => "Grammar <unnamed>: name must not be empty".toList
  | ambiguousWords grammar words =>
      "Grammar '".toList ++ grammar ++ "': words are both keyword and literal: ".toList ++
        [',', ' '].intercalate words
  | nameless kind => "Grammar ".toList ++ kind ++ " missing 'name' attribute".toList
  | rulesMissing shown => '\'' :: shown ++ "' object has no attribute 'keywords'".toList
  | nameTaken key holder =>
      "Language '".toList ++ key ++ "' already registered by grammar '".toList ++ holder ++ ['\'']
  | unknownCategory label => label.quoted ++ " is not a valid Category".toList
  | overlap start previousStop =>
      "Span at offset ".toList ++ Text.ofInt start ++
        " overlaps previous span ending at ".toList ++ Text.ofInt previousStop
  | negativeLength => "__len__() should return >= 0".toList
  | lengthTooLarge => "cannot fit 'int' into an index-sized integer".toList
  | tabWidthTooLarge => "Python int too large to convert to C int".toList
  | languageMissing => "can only concatenate str (not \"NoneType\") to str".toList
  | unknownName name => "no object named ".toList ++ name.quoted

end Error

end CodeHighlight
