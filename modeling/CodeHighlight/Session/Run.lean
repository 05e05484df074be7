import CodeHighlight.Session.Command

/-!
# Running a session

All that one command leaves behind for the next is the state of the session: the named objects, the
active settings, the highlighter in use and the log.  `runAll` answers every command of a session in
turn.  A command that fails answers with its failure, and the session goes on.
-/

namespace CodeHighlight.Session

/-! ## The state of a session -/

/-- The state of a session. -/
structure State where
  grammars : Table Id Grammar
  builders : Table Id RegistryBuilder
  registries : Table Id Registry
  styles : Table Id Style
  cursors : Table Id Cursor
  settings : Settings
  highlighter : Highlighter
  log : List LogRecord

/-- The state before the first command. -/
def State.initial : State := ⟨[], [], [], [], [], .default, .builtin none, []⟩

/-- The active settings are a part of the state that can be read and set on its own. -/
instance (priority := low) : MonadStateOf Settings (StateM State) where
  get := do return (← getThe State).settings
  set settings := modifyThe State fun state => { state with settings }
  modifyGet f := modifyGetThe State fun state =>
    let (answer, settings) := f state.settings
    (answer, { state with settings })

/-- Steps of a session that may fail. -/
abbrev Step := ExceptT Error (StateM State)

namespace Step

/-- Fails if the outcome is a failure. -/
def ofExcept {α : Type} (outcome : Except Error α) : Step α :=
  ExceptT.mk (pure outcome)

/-- Runs a computation and adds what it writes to the log of the session. -/
def logged {α : Type} (computation : Logged α) : Step α := do
  modify fun state => { state with log := state.log ++ computation.records }
  ofExcept computation.result

/-- The object of a name in a table. -/
def find {α : Type} (table : State → Table Id α) (id : Id) : Step α := do
  match (table (← get)).find? id with
  | some object => return object
  | none => throw (.unknownName id)

/-- The registry of a name, if a name is given. -/
def findRegistry? : Option Id → Step (Option Registry)
  | none => return none
  | some id => return some (← find State.registries id)

end Step

/-! ## Single commands -/

namespace GrammarRef

/-- The candidate for registration that is meant. -/
def candidate : GrammarRef → Step Candidate
  | named id => return .entry (.grammar (← Step.find State.grammars id))
  | written spec => return .entry (.grammar (← Step.ofExcept spec.build))
  | bare name => return .entry (.bare name)
  | foreign kind => return .foreign kind

/-- The grammar that is meant.  What is no grammar fails when it is asked for its words; no value at
all stands for the built-in grammar. -/
def grammar (reference : GrammarRef) : Step Grammar := do
  match ← reference.candidate with
  | .entry (.grammar grammar) => return grammar
  | .entry (.bare name) => throw (.rulesMissing name)
  | .foreign kind =>
      if kind = "NoneType".toList then return .protobuf else throw (.rulesMissing kind)

end GrammarRef

/-- The settings that are meant. -/
def SettingsRef.settings (reference : SettingsRef) : Step Settings := do
  return ⟨reference.classPrefix, reference.wrapPlain,
    ← Step.findRegistry? reference.registry, reference.tabWidth⟩

/-- The highlighter that is meant. -/
def HighlighterRef.highlighter : HighlighterRef → Step Highlighter
  | standard => return .builtin none
  | builtin registry => return .builtin (← Step.findRegistry? registry)
  | own highlighter => return highlighter

/-- Keeps the cursor after some requests to it and gives out what they yield. -/
def Step.delivered {α : Type} (id : Id) (delivery : Delivery α) : Step α := do
  modify fun state =>
    { state with
      cursors := state.cursors.put id delivery.cursor
      log := state.log ++ delivery.refusals.map LogRecord.ofRefusal }
  Step.ofExcept delivery.result

/-- Answers a command that holds no other commands. -/
def Action.run : Action → Step Reply
  | makeGrammar id spec => do
      let grammar ← Step.ofExcept spec.build
      modify fun state => { state with grammars := state.grammars.put id grammar }
      return .grammar grammar
  | makeBuilder id defaults => do
      let builder := if defaults then RegistryBuilder.withDefaults else .empty
      modify fun state => { state with builders := state.builders.put id builder }
      return .builder builder.entries.length
  | register id reference => do
      let candidate ← reference.candidate
      let builder ← Step.find State.builders id
      let builder ← Step.ofExcept (builder.register candidate)
      modify fun state => { state with builders := state.builders.put id builder }
      return .registered builder.entries.length
  | registerAll id references => do
      let candidates ← references.mapM GrammarRef.candidate
      let builder ← Step.find State.builders id
      let (builder, failure) := builder.registerAll candidates
      modify fun state => { state with builders := state.builders.put id builder }
      match failure with
      | some e => throw e
      | none => return .registered builder.entries.length
  | builderSize id => do
      return .size (← Step.find State.builders id).entries.length
  | build id registryId => do
      let builder ← Step.find State.builders id
      let registry ← Step.logged builder.build
      modify fun state => { state with registries := state.registries.put registryId registry }
      return .registry registry
  | defaultRegistry id => do
      modify fun state =>
        { state with registries := state.registries.put id Registry.default }
      return .registry Registry.default
  | showRegistry id => do
      return .registry (← Step.find State.registries id)
  | lookUp id name => do
      let registry ← Step.find State.registries id
      return .lookedUp ((registry.get? name).map Entry.name) (registry.has name)
  | setSettings reference => do
      let settings ← reference.settings
      modify fun state => { state with settings }
      return .settings settings
  | resetSettings => do
      modify fun state => { state with settings := .default }
      return .settings .default
  | showSettings => do
      return .settings (← get).settings
  | setHighlighter reference => do
      let highlighter ← reference.highlighter
      modify fun state => { state with highlighter }
      return .highlighter highlighter.label
  | showHighlighter => do
      return .highlighter (← get).highlighter.label
  | highlight request => do
      let state ← get
      return .text (← Step.logged (state.highlighter.highlight state.settings request))
  | supports language => do
      let state ← get
      return .truth (state.highlighter.supports state.settings language)
  | resolve registry language => do
      let own ← Step.findRegistry? registry
      return .resolved (((← get).settings.resolve? own language).map Entry.name)
  | tokenizeRange registry source start stop language => do
      let own ← Step.findRegistry? registry
      let settings := (← get).settings
      return .spans (← Step.logged
        (CodeHighlight.tokenizeRange settings own (.ofText source) start stop language))
  | render source reference options => do
      let grammar ← reference.grammar
      let style := (← get).settings.styleWith options
      let list ← Step.logged (Logged.ofScanned (grammar.classify (.ofText source)))
      return .text (← Step.ofExcept (style.fragment list))
  | makeStyle id options => do
      let style := (← get).settings.styleWith options
      modify fun state => { state with styles := state.styles.put id style }
      return .done
  | renderWith id source => do
      let style ← Step.find State.styles id
      let list ← Step.logged
        (Logged.ofScanned (Grammar.protobuf.classify (.ofText source)))
      return .text (← Step.ofExcept (style.fragment list))
  | makeCursor id source reference => do
      let grammar ← reference.grammar
      modify fun state =>
        { state with cursors := state.cursors.put id (.ofSource grammar (.ofText source)) }
      return .done
  | next id count => do
      let cursor ← Step.find State.cursors id
      return .deliveries (← Step.delivered id (cursor.ask count))
  | rest id => do
      let cursor ← Step.find State.cursors id
      return .spans (← Step.delivered id cursor.rest)
  | takeLog => do
      let log := (← get).log
      modify fun state => { state with log := [] }
      return .records log

/-! ## Sessions -/

/-- The reply of a step, which is its failure if it fails. -/
def Step.reply (step : Step Reply) : StateM State Reply := do
  match ← step.run with
  | .ok reply => return reply
  | .error e => return .failed e

mutual

/-- Answers a command. -/
def Command.run : Command → StateM State Reply
  | .act action => action.run.reply
  | .within reference body failure => do
      match ← reference.settings.run with
      | .error e => return .failed e
      | .ok settings =>
          let inner ← Settings.within settings (runAll body)
          return .block inner failure (← get).settings
  | .thread body => do
      let inner ← Settings.within .default (runAll body)
      return .threadEnded inner

/-- Answers commands one after the other. -/
def runAll : List Command → StateM State (List Reply)
  | [] => return []
  | command :: rest => do
      let reply ← command.run
      return reply :: (← runAll rest)

end

/-- The replies to the commands of a session from its start. -/
def replies (commands : List Command) : List Reply :=
  (runAll commands State.initial).1

end CodeHighlight.Session
