import CodeHighlight.Rule.Basic

/-!
# Grammars

A grammar holds the highlighting rules of one language: its keywords, its literals and the rules
that are tried, in order, where no word starts.  `Grammar.make` refuses a grammar without a name and
a grammar in which a word is both keyword and literal.

Before it is checked a grammar is written down.  A list of words may be written as one line, which a
compact grammar splits at blanks and a full grammar splits into its characters.
-/

namespace CodeHighlight

/-- The highlighting rules of one language. -/
structure Grammar where
  name : Text
  keywords : List Text
  literals : List Text
  rules : List Rule
  aliases : List Text
  name_ne_nil : name ≠ []
  disjoint : ∀ word ∈ keywords, word ∉ literals

namespace Grammar

/-- The rules of a grammar that names none: quoted strings, then numerals. -/
def defaultRules : List Rule := [.quotedString, .numeral]

/-- The grammar with the given parts.  An empty name is reported before words that are both keyword
and literal. -/
def make (name : Text) (keywords literals : List Text) (rules : List Rule)
    (aliases : List Text) : Except Error Grammar :=
  if hname : name = [] then
    .error .emptyName
  else if hwords : ∀ word ∈ keywords, word ∉ literals then
    .ok ⟨name, keywords, literals, rules, aliases, hname, hwords⟩
  else
    .error (.ambiguousWords name (Text.sortDistinct (keywords.filter (· ∈ literals))))

/-- The name and the aliases, under which the grammar can be registered. -/
def names (grammar : Grammar) : List Text := grammar.name :: grammar.aliases

/-- The category of a whole word. -/
def classifyWord (grammar : Grammar) (word : Text) : Category :=
  wordCategory grammar.keywords grammar.literals word

/-- All rules in the order in which they are tried: words first. -/
def allRules (grammar : Grammar) : List Rule :=
  .word grammar.keywords grammar.literals :: grammar.rules

/-- The grammar of the built-in interface definition language. -/
def protobuf : Grammar where
  name := "protobuf".toList
  keywords := ["message".toList, "optional".toList, "required".toList, "repeated".toList]
  literals := ["int32".toList, "int64".toList, "string".toList, "boolean".toList]
  rules := defaultRules
  aliases := ["proto".toList]
  name_ne_nil := by decide
  disjoint := by decide

end Grammar

/-! ## Written grammars -/

/-- A list of words, as one line or word by word. -/
inductive WordList where
  | line (text : Text)
  | items (words : List Text)

namespace WordList

/-- The words of a list, where a line is split at its blanks. -/
def words : WordList → List Text
  | line text => text.words
  | items words => words

/-- The words of a list, where each character of a line is a word. -/
def characters : WordList → List Text
  | line text => text.map fun c => [c]
  | items words => words

end WordList

/-- A written grammar. -/
inductive Grammar.Spec where
  /-- The grammar of the built-in language. -/
  | builtin
  /-- Two word lists with the default rules. -/
  | compact (name : Text) (keywords literals aliases : WordList)
  /-- Every part on its own; the default rules stand in for missing ones. -/
  | full (name : Text) (keywords literals aliases : WordList) (rules : Option (List Rule))

/-- The grammar that is written down. -/
def Grammar.Spec.build : Grammar.Spec → Except Error Grammar
  | builtin => .ok .protobuf
  | compact name keywords literals aliases =>
      Grammar.make name keywords.words literals.words defaultRules aliases.characters
  | full name keywords literals aliases rules =>
      Grammar.make name keywords.characters literals.characters (rules.getD defaultRules)
        aliases.characters

end CodeHighlight
