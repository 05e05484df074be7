import CodeHighlight.Html.Markup

/-!
# Highlighters

A program highlights through one highlighter at a time: the built-in one, or one of its own, which
is either a plain function of code and language or answers whole requests.

The built-in highlighter looks the language up in a registry, classifies the code by the grammar
found there and writes the spans as a block.  Code of an unknown language is one plain span.
-/

namespace CodeHighlight

/-! ## The built-in highlighter -/

/-- Code to highlight, with its language and the line options as they are given. -/
structure Request where
  code : Text
  language : Option Text
  marked : Option (List Int)
  numbered : Bool

/-- The line options of a request; no list of marked lines marks none. -/
def Request.lineOptions (request : Request) : LineOptions :=
  ⟨request.marked.getD [], request.numbered⟩

/-- The record of a language that is not known. -/
def LogRecord.ofUnknownLanguage (language : Option Text) : LogRecord :=
  let shown := match language with
    | none => "None".toList
    | some name => name.quoted
  ⟨.highlighting, "No grammar for language ".toList ++ shown ++ "; rendering as plain text".toList⟩

/-- The span of code without a grammar: one plain span, unless the code is empty. -/
def plainSpans (code : Text) : List Span :=
  if code = [] then [] else [⟨.plain, code, 0, code.length⟩]

/-- The spans of code under the grammar of an entry.  Without an entry the code stays plain; an
entry that is only a name has no words to ask for. -/
def spansUnder (entry : Option Entry) (language : Option Text) (code : Text) :
    Logged (List Span) :=
  match entry with
  | some (.grammar grammar) => Logged.ofScanned (grammar.classify (.ofText code))
  | some (.bare name) => .ofExcept (.error (.rulesMissing name))
  | none => ⟨.ok (plainSpans code), [.ofUnknownLanguage language]⟩

/-- The block that the built-in highlighter makes of a request. -/
def highlightBuiltin (settings : Settings) (own : Option Registry) (request : Request) :
    Logged Text := do
  let code ← Logged.ofExcept (settings.expand request.code)
  let list ← spansUnder (settings.resolve? own request.language) request.language code
  Logged.ofExcept (settings.style.block list request.language request.lineOptions)

/-- The spans of a stretch of a source under the grammar of a language.  An unknown language has one
plain span, whose start is not moved into the source: a negative one counts from the end of the
source as far as the text is concerned, and is kept as the offset of the span. -/
def tokenizeRange (settings : Settings) (own : Option Registry) (source : Source)
    (start stop : Int) (language : Option Text) : Logged (List Span) :=
  match settings.resolve? own language with
  | some (.grammar grammar) =>
      Logged.ofScanned (grammar.classifyRange source start (some stop))
  | some (.bare name) => .ofExcept (.error (.rulesMissing name))
  | none => .ofExcept (.ok (plainBetween source start (min stop source.length)))

/-! ## The kinds of highlighters -/

/-- The kinds of highlighters.  Those of a program's own carry the label that they are known by. -/
inductive Highlighter where
  /-- The built-in highlighter, with a registry of its own or without. -/
  | builtin (registry : Option Registry)
  /-- Answers whole requests, and may say which languages it supports. -/
  | full (label : Text) (markup : Request → Text) (supports : Option (Option Text → Bool))
  /-- A function of code and language, which may fail. -/
  | simple (label : Text) (markup : Text → Option Text → Except Error Text)

namespace Highlighter

/-- The label of a highlighter of a program's own. -/
def label : Highlighter → Option Text
  | builtin _ => none
  | full label _ _ => some label
  | simple label _ => some label

/-- What a highlighter makes of a request under some settings. -/
def highlight (settings : Settings) (request : Request) : Highlighter → Logged Text
  | builtin registry => highlightBuiltin settings registry request
  | full _ markup _ => .ofExcept (.ok (markup request))
  | simple _ markup => .ofExcept (markup request.code request.language)

/-- A highlighter knows a language.  One that does not say is taken to know every language. -/
def supports (settings : Settings) (language : Option Text) : Highlighter → Bool
  | builtin registry => (settings.resolve? registry language).isSome
  | full _ _ (some supports) => supports language
  | full _ _ none => true
  | simple _ _ => true

/-! ## Samples

Highlighters of every shape that show what they are asked for.
-/

/-- Puts the code between tags that are the language, or the word for none. -/
def tagging : Highlighter :=
  .simple "simple".toList fun code language =>
    let tag := language.getD "None".toList
    .ok ('<' :: tag ++ '>' :: code ++ '<' :: '/' :: tag ++ ['>'])

/-- Puts the language in front of the code, and fails without one. -/
def labelling : Highlighter :=
  .simple "attr".toList fun code language =>
    match language with
    | some name => .ok ("attr:".toList ++ name ++ ':' :: code)
    | none => .error .languageMissing

/-- Repeats the code and says nothing about languages. -/
def repeating : Highlighter :=
  .full "nosupport".toList (fun request => "nosupport:".toList ++ request.code) none

/-- Writes the request down as a JSON array and knows one language only. -/
def recording : Highlighter :=
  .full "rec".toList
    (fun request =>
      "rec:".toList ++ Text.Json.array
        [Text.Json.string request.code,
          Text.Json.nullable Text.Json.string request.language,
          Text.Json.nullable (fun marked => Text.Json.array (marked.map Text.ofInt))
            request.marked,
          Text.Json.bool request.numbered])
    (some fun language => language = some "shout".toList)

end Highlighter

namespace About

/-! ## What the library says about itself to a program that embeds it -/

/-- The version of the library. -/
def version : Text := "0.1.0".toList

/-- The name under which code in the built-in language asks for this library. -/
def dispatchName : Text := Grammar.protobuf.name

/-- The names of the facilities that an embedding program is offered. -/
def facilities : List String :=
  ["Category", "DecklightError", "DecklightHighlighter", "Grammar", "GrammarError",
   "HighlightConfig", "Highlighter", "HtmlRenderer", "LanguageRegistry",
   "LanguageRegistryBuilder", "Lexer", "PROTOBUF", "RenderError", "Span", "__version__",
   "classify", "classify_range", "create_default_registry", "create_registry_with_defaults",
   "get_highlight_config", "get_highlighter", "highlight", "highlight_config_context", "name",
   "render_spans", "reset_highlight_config", "set_highlight_config", "set_highlighter",
   "supports_language"]

end About

end CodeHighlight
