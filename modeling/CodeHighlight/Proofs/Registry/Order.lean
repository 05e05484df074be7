import CodeHighlight.Proofs.Registry.Builder

/-!
# Registration in any order

A batch of entries is registered if and only if no two of them ask for one name and none asks for a
name that is held already (`registerAll_eq_none_iff`).  That does not depend on the order of the
entries, and neither does what the registry answers afterwards, because a sound builder holds the
names of its entries and no others (`Sound.toRegistry_congr`).
-/

namespace CodeHighlight

namespace Text

private theorem nodup_eraseDups (texts : List Text) : texts.eraseDups.Nodup := by
  match texts with
  | [] => simp
  | t :: rest =>
      rw [List.eraseDups_cons, List.nodup_cons]
      exact ⟨by simp, nodup_eraseDups _⟩
termination_by texts.length
decreasing_by
  have hle := List.length_filter_le (fun u => !u == t) rest
  simp only [List.length_cons]
  omega

/-- The texts are in increasing order. -/
theorem pairwise_sortDistinct (texts : List Text) : (sortDistinct texts).Pairwise List.le := by
  have hle : ∀ s t : Text, (!t.lex s fun c d => decide (c < d)) = true ↔ s.le t := by
    intro s t
    rw [Bool.not_eq_true', ← Bool.not_eq_true, List.lex_eq_true_iff_lt]
  refine (List.pairwise_mergeSort ?_ ?_ texts.eraseDups).imp fun h => (hle _ _).1 h
  · simp only [hle]
    exact fun _ _ _ => List.le_trans
  · simp only [Bool.or_eq_true, hle]
    exact List.le_total

/-- The sorted list shows neither the order nor the number of times in which texts are given. -/
theorem sortDistinct_congr {texts others : List Text} (h : ∀ t, t ∈ texts ↔ t ∈ others) :
    sortDistinct texts = sortDistinct others := by
  have hperm : (sortDistinct texts).Perm (sortDistinct others) := by
    refine (List.mergeSort_perm ..).trans (.trans ?_ (List.mergeSort_perm ..).symm)
    rw [List.perm_ext_iff_of_nodup (nodup_eraseDups texts) (nodup_eraseDups others)]
    simpa using h
  exact hperm.eq_of_pairwise (fun _ _ _ _ => List.le_antisymm) (pairwise_sortDistinct texts)
    (pairwise_sortDistinct others)

end Text

namespace RegistryBuilder

/-- The builders that calls can lead to, with batches that fail half way among the calls. -/
inductive Reachable : RegistryBuilder → Prop
  | empty : Reachable empty
  | withDefaults : Reachable withDefaults
  | register {builder builder' : RegistryBuilder} (candidate : Candidate)
      (h : Reachable builder) (hregister : builder.register candidate = .ok builder') :
      Reachable builder'
  | registerAll {builder : RegistryBuilder} (candidates : List Candidate) (h : Reachable builder) :
      Reachable (builder.registerAll candidates).1

theorem Reachable.sound {builder : RegistryBuilder} (h : builder.Reachable) : builder.Sound := by
  induction h with
  | empty => exact sound_empty
  | withDefaults => exact sound_withDefaults
  | register candidate _ hregister ih => exact ih.register hregister
  | registerAll candidates _ ih => exact ih.registerAll candidates

/-! ## Which batches are registered -/

/-- A registration that succeeds adds the names of the entry. -/
theorem mem_keys_of_register {builder builder' : RegistryBuilder} {entry : Entry}
    (h : builder.register (.entry entry) = .ok builder') (key : Text) :
    key ∈ builder'.index.keys ↔ key ∈ builder.index.keys ∨ key ∈ entry.keys := by
  obtain ⟨-, rfl⟩ := register_eq_ok_iff.1 h
  rw [← Table.find?_isSome_iff, NameIndex.find?_give]
  split
  · next hkey => simp [hkey]
  · next hkey => simp [hkey, Table.find?_isSome_iff]

/-- The names of other entries are free behind a registration if they were free before and are none
of the names that it gives away. -/
theorem disjoint_keys_of_register {builder builder' : RegistryBuilder} {entry : Entry}
    (h : builder.register (.entry entry) = .ok builder') (other : Entry) :
    other.keys.Disjoint builder'.index.keys ↔
      other.keys.Disjoint builder.index.keys ∧ entry.keys.Disjoint other.keys := by
  simp only [List.Disjoint, mem_keys_of_register h]
  grind

/-- A batch of entries is registered exactly if no two entries ask for one name and none asks for a
name that is held.  An entry may ask for one name several times. -/
theorem registerAll_eq_none_iff (builder : RegistryBuilder) (entries : List Entry) :
    (builder.registerAll (entries.map .entry)).2 = none ↔
      entries.Pairwise (fun entry other => entry.keys.Disjoint other.keys) ∧
        ∀ entry ∈ entries, entry.keys.Disjoint builder.index.keys := by
  induction entries generalizing builder with
  | nil => simp [registerAll]
  | cons entry rest ih =>
      rw [List.map_cons, registerAll, List.pairwise_cons, List.forall_mem_cons]
      cases hregister : builder.register (.entry entry) with
      | error e =>
          -- An entry is refused for nothing but a name that is held.
          have htaken : ¬ entry.keys.Disjoint builder.index.keys := by
            intro hfree
            have hdone := register_eq_ok_iff.2 ⟨fun key hkey htaken => hfree hkey htaken, rfl⟩
            rw [hregister] at hdone
            contradiction
          simp [htaken]
      | ok builder' =>
          have hfree : entry.keys.Disjoint builder.index.keys :=
            fun key hkey htaken => (register_eq_ok_iff.1 hregister).1 key hkey htaken
          simp only [ih builder', disjoint_keys_of_register hregister, hfree, true_and]
          rw [forall₂_and]
          grind

/-- Whether a batch is registered does not depend on its order. -/
theorem registerAll_eq_none_iff_of_perm (builder : RegistryBuilder) {entries reordered : List Entry}
    (h : entries.Perm reordered) :
    (builder.registerAll (entries.map .entry)).2 = none ↔
      (builder.registerAll (reordered.map .entry)).2 = none := by
  rw [registerAll_eq_none_iff, registerAll_eq_none_iff, h.pairwise_iff List.disjoint_comm.1]
  simp only [h.mem_iff]

/-! ## What is found afterwards -/

/-- What a registry answers depends on which entries it has and not on their order. -/
theorem Sound.toRegistry_congr {builder other : RegistryBuilder} (h : builder.Sound)
    (hother : other.Sound) (hentries : ∀ entry, entry ∈ builder.entries ↔ entry ∈ other.entries) :
    (∀ name, builder.toRegistry.get? name = other.toRegistry.get? name) ∧
      builder.toRegistry.names = other.toRegistry.names ∧
      builder.toRegistry.size = other.toRegistry.size := by
  have hfind : ∀ key, builder.index.find? key = other.index.find? key := by
    intro key
    refine Option.ext fun entry => ?_
    rw [h.holds_iff, hother.holds_iff, hentries]
  have hkeys : ∀ key, key ∈ builder.index.keys ↔ key ∈ other.index.keys := by
    intro key
    rw [← Table.find?_isSome_iff, ← Table.find?_isSome_iff, hfind]
  refine ⟨fun name => ?_, Text.sortDistinct_congr hkeys, ?_⟩
  · cases name with
    | none => rfl
    | some name => simp only [Registry.get?, toRegistry, hfind]
  · have hperm := (List.perm_ext_iff_of_nodup h.keys_nodup hother.keys_nodup).2 hkeys
    simpa [Table.keys, Registry.size, toRegistry] using hperm.length_eq

/-- From every builder that calls can lead to, a batch of entries is registered exactly if no two
entries ask for one name and none asks for a name that is held.  So a batch that is registered is
registered in every other order as well, and the registries that are built then answer alike for
every name and have the same names. -/
theorem registerAll_perm {builder : RegistryBuilder} (h : builder.Reachable)
    (entries : List Entry) :
    ((builder.registerAll (entries.map .entry)).2 = none ↔
      entries.Pairwise (fun entry other => entry.keys.Disjoint other.keys) ∧
        ∀ entry ∈ entries, entry.keys.Disjoint builder.index.keys) ∧
    ∀ reordered builder', entries.Perm reordered →
      builder.registerAll (entries.map .entry) = (builder', none) →
      ∃ other registry otherRegistry,
        builder.registerAll (reordered.map .entry) = (other, none) ∧
        builder'.build.result = .ok registry ∧ other.build.result = .ok otherRegistry ∧
        (∀ name, registry.get? name = otherRegistry.get? name) ∧
        registry.names = otherRegistry.names ∧ registry.size = otherRegistry.size := by
  refine ⟨registerAll_eq_none_iff builder entries, fun reordered builder' hperm hdone => ?_⟩
  have hother : builder.registerAll (reordered.map .entry) =
      ((builder.registerAll (reordered.map .entry)).1, none) := by
    refine Prod.ext rfl ?_
    rw [← registerAll_eq_none_iff_of_perm builder hperm, hdone]
  have hsound := h.sound.registerAll (entries.map .entry)
  have hsoundOther := h.sound.registerAll (reordered.map .entry)
  have hentries := entries_of_registerAll hdone
  have hentriesOther := entries_of_registerAll hother
  rw [hdone] at hsound
  refine ⟨_, _, _, hother, rfl, rfl, hsound.toRegistry_congr hsoundOther fun entry => ?_⟩
  rw [hentries, hentriesOther, List.mem_append, List.mem_append, hperm.mem_iff]

/-- Names that are given twice, once in capitals, behind a batch that failed half way. -/
theorem registerAll_perm_repeated :
    let builder : RegistryBuilder :=
      (withDefaults.registerAll [.entry (.bare ['a']), .entry (.bare "Proto ".toList)]).1
    let avro : Grammar := { Grammar.protobuf with
      name := "avro".toList, aliases := ["AVRO".toList, "avdl".toList], name_ne_nil := by decide }
    let front : List Entry := [.grammar avro, .bare "thrift".toList]
    let entries := front ++ [.bare ['b']]
    let reordered := .bare ['b'] :: front
    builder.Reachable ∧ entries.Perm reordered ∧
      ∃ builder' other registry otherRegistry,
        builder.registerAll (entries.map .entry) = (builder', none) ∧
        builder.registerAll (reordered.map .entry) = (other, none) ∧
        builder'.build.result = .ok registry ∧ other.build.result = .ok otherRegistry ∧
        (∀ name, registry.get? name = otherRegistry.get? name) ∧
        registry.names = otherRegistry.names ∧ registry.size = otherRegistry.size := by
  intro builder avro front entries reordered
  have hreachable : builder.Reachable := .registerAll _ .withDefaults
  have hperm : entries.Perm reordered := List.perm_append_singleton (.bare ['b']) front
  have hdone : builder.registerAll (entries.map .entry) = (_, none) :=
    Prod.ext rfl (Option.isNone_iff_eq_none.1 (by decide +kernel))
  obtain ⟨other, registry, otherRegistry, hother, hregistries⟩ :=
    (registerAll_perm hreachable entries).2 reordered _ hperm hdone
  exact ⟨hreachable, hperm, _, other, registry, otherRegistry, hdone, hother, hregistries⟩

end RegistryBuilder

end CodeHighlight
