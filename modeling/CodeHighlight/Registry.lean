import CodeHighlight.Grammar
import CodeHighlight.Log
import CodeHighlight.Table
import CodeHighlight.Text.Lower

/-!
# Registering languages and looking them up

Languages are registered under normalised names: without blanks at the ends and in lower case.  A
name belongs to one language only; a registration that would take a name from another language fails
and changes nothing.  A registry answers for every language name which entry holds it.
-/

namespace CodeHighlight

/-! ## Registering -/

/-- The form in which a language name is compared. -/
def normaliseName (name : Text) : Text := name.strip.lower

/-- What can be registered: a grammar, or a name without any rules. -/
inductive Entry where
  | grammar (grammar : Grammar)
  | bare (name : Text)

namespace Entry

/-- The name of an entry. -/
def name : Entry → Text
  | grammar g => g.name
  | bare name => name

/-- The names that an entry asks for, its own name first. -/
def names : Entry → List Text
  | grammar g => g.names
  | bare name => [name]

/-- The normalised names that an entry asks for. -/
def keys (entry : Entry) : List Text := entry.names.map normaliseName

end Entry

/-- What may be presented for registration: an entry, or something of another kind. -/
inductive Candidate where
  | entry (entry : Entry)
  | foreign (kind : Text)

/-- Normalised names with the entries that hold them. -/
abbrev NameIndex := Table Text Entry

/-- Gives keys to an entry, one after the other. -/
def NameIndex.give (index : NameIndex) (entry : Entry) (keys : List Text) : NameIndex :=
  keys.foldl (fun index key => index.put key entry) index

/-- Languages that are being registered: the entries in their order, and who holds which name. -/
structure RegistryBuilder where
  entries : List Entry
  index : NameIndex

namespace RegistryBuilder

/-- Nothing registered. -/
def empty : RegistryBuilder := ⟨[], []⟩

/-- The first of some keys that is held, with its holder. -/
def firstTaken? (index : NameIndex) : List Text → Option (Text × Entry)
  | [] => none
  | key :: rest =>
      match index.find? key with
      | some holder => some (key, holder)
      | none => firstTaken? index rest

/-- Registers a candidate under all its names. -/
def register (builder : RegistryBuilder) : Candidate → Except Error RegistryBuilder
  | .foreign kind => .error (.nameless kind)
  | .entry entry =>
      match firstTaken? builder.index entry.keys with
      | some (key, holder) => .error (.nameTaken key holder.name)
      | none => .ok ⟨builder.entries ++ [entry], builder.index.give entry entry.keys⟩

/-- Registers candidates one by one up to the first failure, and says what it was. -/
def registerAll (builder : RegistryBuilder) : List Candidate → RegistryBuilder × Option Error
  | [] => (builder, none)
  | candidate :: rest =>
      match builder.register candidate with
      | .ok builder => builder.registerAll rest
      | .error e => (builder, some e)

/-- A builder that already holds the built-in language. -/
def withDefaults : RegistryBuilder :=
  (empty.registerAll [.entry (.grammar .protobuf)]).1

end RegistryBuilder

/-! ## Looking up -/

/-- Registered languages. -/
structure Registry where
  entries : List Entry
  index : NameIndex

namespace Registry

/-- The entry for a language name.  No name and the empty name have none, whatever is registered. -/
def get? (registry : Registry) : Option Text → Option Entry
  | none => none
  | some name => if name = [] then none else registry.index.find? (normaliseName name)

/-- A language of this name is registered. -/
def has (registry : Registry) (name : Option Text) : Bool := (registry.get? name).isSome

/-- The registered names in increasing order. -/
def names (registry : Registry) : List Text := Text.sortDistinct registry.index.keys

/-- The number of registered names. -/
def size (registry : Registry) : Nat := registry.index.length

end Registry

namespace RegistryBuilder

/-- What is registered so far. -/
def toRegistry (builder : RegistryBuilder) : Registry := ⟨builder.entries, builder.index⟩

/-- What is registered so far, with a record of its names. -/
def build (builder : RegistryBuilder) : Logged Registry := do
  let registry := builder.toRegistry
  Logged.write [⟨.registry, "Building language registry with names ".toList ++
    Text.quotedList registry.names⟩]
  return registry

end RegistryBuilder

/-- The registry of the built-in language. -/
def Registry.default : Registry := RegistryBuilder.withDefaults.toRegistry

end CodeHighlight
