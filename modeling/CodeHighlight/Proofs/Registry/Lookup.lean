import CodeHighlight.Proofs.Registry.Builder
import CodeHighlight.Proofs.Text.Lower

/-!
# Lookup and registration agree

A language is found under a name exactly if it was registered under that name, where names are
compared in their normal forms.  The empty name is the exception: it can be registered, but it is
never found.
-/

namespace CodeHighlight

/-- A name in its normal form is its own normal form. -/
theorem normaliseName_normaliseName (name : Text) :
    normaliseName (normaliseName name) = normaliseName name := by
  unfold normaliseName
  rw [Text.strip_lower_strip, Text.lower_lower]

namespace Entry

theorem normaliseName_mem_keys {entry : Entry} {name : Text} (h : name ∈ entry.names) :
    normaliseName name ∈ entry.keys :=
  List.mem_map_of_mem h

theorem normaliseName_of_mem_keys {entry : Entry} {key : Text} (h : key ∈ entry.keys) :
    normaliseName key = key := by
  obtain ⟨name, -, rfl⟩ := List.mem_map.1 h
  exact normaliseName_normaliseName name

end Entry

namespace Registry

theorem get?_eq_find? (registry : Registry) {name : Text} (h : name ≠ []) :
    registry.get? (some name) = registry.index.find? (normaliseName name) :=
  if_neg h

theorem mem_names_iff (registry : Registry) (name : Text) :
    name ∈ registry.names ↔ name ∈ registry.index.keys :=
  Text.mem_sortDistinct

/-- In a registry of some entries, an entry is found under every nonempty name whose normal form is
one of its names in normal form, and under no others; the empty name finds nothing.  So an entry is
found under its name and its aliases, each name that the registry lists finds an entry, and two
names with the same normal form find the same. -/
theorem lookup_agrees {entries : List Entry} {builder : RegistryBuilder}
    {registry : Registry}
    (hregister : RegistryBuilder.empty.registerAll (entries.map .entry) = (builder, none))
    (hbuild : builder.build.result = .ok registry) :
    (∀ name entry, name ≠ [] →
      (registry.get? (some name) = some entry ↔
        entry ∈ entries ∧ normaliseName name ∈ entry.keys)) ∧
    (∀ entry ∈ entries, ∀ name ∈ entry.names, name ≠ [] →
      registry.get? (some name) = some entry) ∧
    (∀ name ∈ registry.names, name ≠ [] →
      ∃ entry ∈ entries, registry.get? (some name) = some entry) ∧
    (∀ name, registry.has name = (registry.get? name).isSome) ∧
    (∀ name name', name ≠ [] → name' ≠ [] → normaliseName name = normaliseName name' →
      registry.get? (some name) = registry.get? (some name')) ∧
    registry.get? (some []) = none ∧ registry.get? none = none := by
  have hsound : builder.Sound := by
    have hall := RegistryBuilder.sound_empty.registerAll (entries.map .entry)
    rwa [hregister] at hall
  have hentries : builder.entries = entries := RegistryBuilder.entries_of_registerAll hregister
  obtain rfl : builder.toRegistry = registry := Except.ok.inj hbuild
  have hget : ∀ name entry, name ≠ [] →
      (builder.toRegistry.get? (some name) = some entry ↔
        entry ∈ entries ∧ normaliseName name ∈ entry.keys) := by
    intro name entry hname
    rw [get?_eq_find? _ hname, ← hentries]
    exact hsound.holds_iff (normaliseName name) entry
  refine ⟨hget, ?_, ?_, fun name => rfl, ?_, rfl, rfl⟩
  · intro entry hentry name hname hne
    exact (hget name entry hne).2 ⟨hentry, Entry.normaliseName_mem_keys hname⟩
  · intro name hname hne
    obtain ⟨entry, hentry, hkey⟩ :=
      (hsound.mem_keys_iff name).1 ((mem_names_iff _ name).1 hname)
    rw [hentries] at hentry
    refine ⟨entry, hentry, (hget name entry hne).2 ⟨hentry, ?_⟩⟩
    rwa [Entry.normaliseName_of_mem_keys hkey]
  · intro name name' hne hne' hsame
    rw [get?_eq_find? _ hne, get?_eq_find? _ hne', hsame]

/-- A name that is given with blanks and capitals is found in another spelling. -/
theorem lookup_agrees_thrift :
    ∃ builder registry,
      RegistryBuilder.empty.registerAll
        ([.grammar .protobuf, .bare " Thrift".toList].map .entry) = (builder, none) ∧
      builder.build.result = .ok registry ∧
      registry.get? (some "THRIFT\n".toList) = some (.bare " Thrift".toList) := by
  have hregister : RegistryBuilder.empty.registerAll
      ([.grammar .protobuf, .bare " Thrift".toList].map .entry) = (_, none) :=
    Prod.ext rfl (Option.isNone_iff_eq_none.1 (by decide +kernel))
  refine ⟨_, _, hregister, rfl, ?_⟩
  exact ((lookup_agrees hregister rfl).1 _ _ (by decide)).2
    ⟨by simp, by decide +kernel⟩

/-- An empty alias is registered and listed, and a blank name finds its grammar; but the empty name
does not, though its normal form is the same. -/
theorem lookup_misses_empty :
    ∃ grammar builder registry,
      Grammar.make ['a'] [] [] Grammar.defaultRules [[]] = .ok grammar ∧
      RegistryBuilder.empty.registerAll ([.grammar grammar].map .entry) = (builder, none) ∧
      builder.build.result = .ok registry ∧
      [] ∈ grammar.names ∧ [] ∈ registry.names ∧
      normaliseName [] ∈ (Entry.grammar grammar).keys ∧ normaliseName [] = normaliseName [' '] ∧
      registry.get? (some [' ']) = some (.grammar grammar) ∧ registry.get? (some []) = none := by
  refine ⟨⟨['a'], [], [], Grammar.defaultRules, [[]], by decide, by decide⟩, _, _, rfl,
    Prod.ext rfl (Option.isNone_iff_eq_none.1 (by decide +kernel)), rfl, ?_⟩
  refine ⟨by decide, ?_, by decide +kernel, by decide +kernel, rfl, rfl⟩
  exact (mem_names_iff _ _).2 (by decide +kernel)

end Registry

end CodeHighlight
