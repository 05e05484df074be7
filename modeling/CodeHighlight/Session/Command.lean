import CodeHighlight.Highlighter
import CodeHighlight.Scan.Cursor

/-!
# Commands of a session

A session is a program of commands on named objects, on the active settings, on the highlighter in
use and on the log.  Blocks of commands may run under other settings or in a thread of their own.
-/

namespace CodeHighlight.Session

/-- The name that a session knows an object by. -/
abbrev Id := Text

/-- What a command takes for a grammar. -/
inductive GrammarRef where
  | named (id : Id)
  | written (spec : Grammar.Spec)
  /-- Something that is only a name. -/
  | bare (name : Text)
  /-- Something that is no grammar, of the given kind. -/
  | foreign (kind : Text)

/-- Settings whose registry is a named object of the session. -/
structure SettingsRef where
  classPrefix : Text
  wrapPlain : Bool
  registry : Option Id
  tabWidth : Option Int

/-- What a command takes for a highlighter. -/
inductive HighlighterRef where
  /-- The built-in highlighter as it is without any choice. -/
  | standard
  /-- The built-in highlighter, with a registry of its own or without. -/
  | builtin (registry : Option Id)
  | own (highlighter : Highlighter)

/-- The commands that hold no other commands. -/
inductive Action where
  | makeGrammar (id : Id) (spec : Grammar.Spec)
  | makeBuilder (id : Id) (defaults : Bool)
  | register (builder : Id) (grammar : GrammarRef)
  | registerAll (builder : Id) (grammars : List GrammarRef)
  | builderSize (builder : Id)
  | build (builder id : Id)
  | defaultRegistry (id : Id)
  | showRegistry (registry : Id)
  | lookUp (registry : Id) (name : Option Text)
  | setSettings (settings : SettingsRef)
  | resetSettings
  | showSettings
  | setHighlighter (highlighter : HighlighterRef)
  | showHighlighter
  | highlight (request : Request)
  | supports (language : Option Text)
  | resolve (registry : Option Id) (language : Option Text)
  | tokenizeRange (registry : Option Id) (source : Text) (start stop : Int)
      (language : Option Text)
  | render (source : Text) (grammar : GrammarRef) (options : StyleOptions)
  | makeStyle (id : Id) (options : StyleOptions)
  | renderWith (style : Id) (source : Text)
  | makeCursor (id : Id) (source : Text) (grammar : GrammarRef)
  | next (cursor : Id) (count : Nat)
  | rest (cursor : Id)
  | takeLog

/-- A command of a session. -/
inductive Command where
  | act (action : Action)
  /-- Runs a block under other settings; the block may end in a failure with a text. -/
  | within (settings : SettingsRef) (body : List Command) (failure : Option Text)
  /-- Runs a block in a thread of its own, which starts with the default settings. -/
  | thread (body : List Command)

/-- What a command answers. -/
inductive Reply where
  | failed (error : Error)
  | done
  | grammar (grammar : Grammar)
  | builder (size : Nat)
  | size (size : Nat)
  | registered (size : Nat)
  | registry (registry : Registry)
  | lookedUp (name : Option Text) (has : Bool)
  | settings (settings : Settings)
  | highlighter (label : Option Text)
  | text (text : Text)
  | truth (truth : Bool)
  | resolved (name : Option Text)
  | spans (spans : List Span)
  | deliveries (spans : List (Option Span))
  | records (records : List LogRecord)
  | block (inner : List Reply) (failure : Option Text) (after : Settings)
  | threadEnded (inner : List Reply)

end CodeHighlight.Session
