import CodeHighlight.Registry

/-!
# Settings

The settings that are active while code is highlighted, and what they decide: the style of the
markup, the tab stops and the languages that are known.  `within` makes some settings active for one
computation only and restores the earlier ones however the computation ends.
-/

namespace CodeHighlight

/-- The choices that hold for everything that is highlighted under them. -/
structure Settings where
  /-- Stands in front of every class name. -/
  classPrefix : Text
  /-- Plain text gets an element of its own. -/
  wrapPlain : Bool
  /-- The languages to look names up in, in place of the built-in ones. -/
  registry : Option Registry
  /-- The distance between tab stops; without one, or with zero, tabs are kept. -/
  tabWidth : Option Int

namespace Settings

/-- The settings that hold until others are chosen. -/
def default : Settings := ⟨[], false, none, none⟩

/-- The settings agree with the default ones. -/
def isDefault (settings : Settings) : Bool :=
  settings.classPrefix.isEmpty && !settings.wrapPlain && settings.registry.isNone &&
    settings.tabWidth.isNone

/-- Runs a computation under other settings and restores the earlier ones behind it, also when it
fails. -/
def within {m : Type → Type} [Monad m] [MonadStateOf Settings m] [MonadFinally m] {α : Type}
    (settings : Settings) (body : m α) : m α := do
  let earlier ← getThe Settings
  try
    set settings
    body
  finally
    set earlier

/-! ## What settings decide -/

/-- The code with its tabs expanded as the settings ask.  A width that does not fit 32 bits is
refused even for code without tabs. -/
def expand (settings : Settings) (code : Text) : Except Error Text :=
  match settings.tabWidth with
  | none => .ok code
  | some width =>
      if width = 0 then .ok code
      else if -0x80000000 ≤ width ∧ width < 0x80000000 then .ok (code.expandTabs width)
      else .error .tabWidthTooLarge

/-- The registry in force: a highlighter's own one, else the one of the settings, else the default
one. -/
def registryFor (settings : Settings) (own : Option Registry) : Registry :=
  (own.or settings.registry).getD Registry.default

/-- The entry of a language in the registry in force. -/
def resolve? (settings : Settings) (own : Option Registry) (language : Option Text) :
    Option Entry :=
  (settings.registryFor own).get? language

end Settings

/-- How spans are written. -/
structure Style where
  classPrefix : Text
  wrapPlain : Bool

/-- The style that settings ask for. -/
def Settings.style (settings : Settings) : Style := ⟨settings.classPrefix, settings.wrapPlain⟩

/-- A style in part: what is left open is for the settings to say. -/
structure StyleOptions where
  classPrefix : Option Text
  wrapPlain : Option Bool

/-- The style with the given options, completed by the settings. -/
def Settings.styleWith (settings : Settings) (options : StyleOptions) : Style :=
  ⟨options.classPrefix.getD settings.classPrefix, options.wrapPlain.getD settings.wrapPlain⟩

end CodeHighlight
