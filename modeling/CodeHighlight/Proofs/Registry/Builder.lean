import CodeHighlight.Registry
import Mathlib.Data.List.Nodup

/-!
# What a registry builder holds

The list of entries and the index of names say the same (`RegistryBuilder.Sound`): an entry holds a
name exactly if it asks for it, and no two entries ask for one name.  A registration keeps that, and
so do batches of registrations, whether they fail or not.

A registration fails exactly if one of the names that it asks for is held, and the failure is about
the first such name (`register_eq_error_iff`).
-/

namespace CodeHighlight

namespace NameIndex

/-! ## Giving out names -/

theorem give_cons (index : NameIndex) (entry : Entry) (key : Text) (rest : List Text) :
    index.give entry (key :: rest) = NameIndex.give (index.put key entry) entry rest :=
  rfl

/-- An entry holds the keys that it is given; all others stay with those who held them. -/
theorem find?_give (index : NameIndex) (entry : Entry) (given : List Text) (key : Text) :
    (index.give entry given).find? key =
      if key ∈ given then some entry else index.find? key := by
  induction given generalizing index with
  | nil => simp [give]
  | cons first rest ih =>
      rw [give_cons, ih, Table.find?_put]
      by_cases hfirst : key = first
      · simp [hfirst]
      · simp [hfirst, Ne.symm hfirst]

theorem nodup_keys_put {index : NameIndex} (h : index.keys.Nodup) (key : Text) (entry : Entry) :
    (index.put key entry).keys.Nodup := by
  rw [Table.keys_put]
  split
  · exact h
  · next hnew => exact h.append (List.nodup_singleton key) (List.disjoint_singleton.2 hnew)

theorem nodup_keys_give {index : NameIndex} (h : index.keys.Nodup) (entry : Entry)
    (given : List Text) : (index.give entry given).keys.Nodup := by
  induction given generalizing index with
  | nil => exact h
  | cons first rest ih => exact ih (nodup_keys_put h first entry)

end NameIndex

namespace RegistryBuilder

/-! ## One registration -/

theorem firstTaken?_eq_none_iff (index : NameIndex) (keys : List Text) :
    firstTaken? index keys = none ↔ ∀ key ∈ keys, key ∉ index.keys := by
  induction keys with
  | nil => simp [firstTaken?]
  | cons key rest ih =>
      rw [firstTaken?, List.forall_mem_cons, ← Table.find?_eq_none_iff, ← ih]
      split
      · next hholder => simp [hholder]
      · next hfree => simp [hfree]

theorem firstTaken?_eq_some_iff (index : NameIndex) (keys : List Text) (key : Text)
    (holder : Entry) :
    firstTaken? index keys = some (key, holder) ↔
      ∃ front back, keys = front ++ key :: back ∧ (∀ other ∈ front, other ∉ index.keys) ∧
        index.find? key = some holder := by
  induction keys with
  | nil => simp [firstTaken?]
  | cons first rest ih =>
      rw [firstTaken?]
      constructor
      · split
        · next holder' hholder =>
            rintro ⟨rfl, rfl⟩
            exact ⟨[], rest, rfl, by simp, hholder⟩
        · next hfree =>
            intro htaken
            obtain ⟨front, back, rfl, hfront, hholder⟩ := ih.1 htaken
            refine ⟨first :: front, back, rfl, ?_, hholder⟩
            exact List.forall_mem_cons.2 ⟨(Table.find?_eq_none_iff index first).1 hfree, hfront⟩
      · rintro ⟨front, back, hkeys, hfront, hholder⟩
        cases front with
        | nil =>
            obtain ⟨rfl, rfl⟩ := List.cons.inj hkeys
            rw [hholder]
        | cons key' front =>
            obtain ⟨rfl, rfl⟩ := List.cons.inj hkeys
            obtain ⟨hfirst, hfront⟩ := List.forall_mem_cons.1 hfront
            rw [(Table.find?_eq_none_iff index first).2 hfirst]
            exact ih.2 ⟨front, back, rfl, hfront, hholder⟩

/-- The entries and the index agree, and each name belongs to one entry. -/
structure Sound (builder : RegistryBuilder) : Prop where
  /-- A name is held by the entries that ask for it, and by no others. -/
  holds_iff : ∀ key entry,
    builder.index.find? key = some entry ↔ entry ∈ builder.entries ∧ key ∈ entry.keys
  /-- The index is a map. -/
  keys_nodup : builder.index.keys.Nodup
  /-- No two entries ask for one name. -/
  disjoint : builder.entries.Pairwise fun entry other => entry.keys.Disjoint other.keys

theorem sound_empty : empty.Sound where
  holds_iff key entry := by simp [empty, Table.find?]
  keys_nodup := List.nodup_nil
  disjoint := List.Pairwise.nil

/-- The failure of a registration: it is about the first name of the entry that is held, and says
which name that is and which entry holds it, alone. -/
inductive Refuses (builder : RegistryBuilder) (entry : Entry) : Error → Prop where
  | nameTaken {key : Text} {holder : Entry} (front back : List Text)
      (split : entry.keys = front ++ key :: back)
      (free : ∀ other ∈ front, other ∉ builder.index.keys)
      (held : holder ∈ builder.entries)
      (holds_iff : ∀ other ∈ builder.entries, key ∈ other.keys ↔ other = holder) :
      Refuses builder entry (.nameTaken key holder.name)

namespace Sound

variable {builder : RegistryBuilder}

theorem mem_keys_iff (h : builder.Sound) (key : Text) :
    key ∈ builder.index.keys ↔ ∃ entry ∈ builder.entries, key ∈ entry.keys := by
  rw [← Table.find?_isSome_iff, Option.isSome_iff_exists]
  exact exists_congr (h.holds_iff key)

end Sound

/-- A registration that succeeds: no name was held, and the entry has got all its names. -/
theorem register_eq_ok_iff {builder builder' : RegistryBuilder} {entry : Entry} :
    builder.register (.entry entry) = .ok builder' ↔
      (∀ key ∈ entry.keys, key ∉ builder.index.keys) ∧
        builder' = ⟨builder.entries ++ [entry], builder.index.give entry entry.keys⟩ := by
  rw [← firstTaken?_eq_none_iff, register]
  split
  · next htaken => simp [htaken]
  · next hfree => simp [hfree, eq_comm]

/-- A registration that fails is about the first name of the entry that is held. -/
theorem register_eq_error_iff {builder : RegistryBuilder} (h : builder.Sound) {entry : Entry}
    {e : Error} : builder.register (.entry entry) = .error e ↔ builder.Refuses entry e := by
  rw [register]
  constructor
  · split
    · next key holder htaken =>
        rintro ⟨rfl⟩
        obtain ⟨front, back, hsplit, hfree, hholder⟩ := (firstTaken?_eq_some_iff ..).1 htaken
        refine .nameTaken front back hsplit hfree ((h.holds_iff key holder).1 hholder).1 ?_
        intro other hother
        rw [← and_iff_right hother (b := key ∈ other.keys), ← h.holds_iff, hholder,
          Option.some_inj, eq_comm]
    · rintro ⟨⟩
  · rintro ⟨front, back, hsplit, hfree, hheld, honly⟩
    have hholder := (h.holds_iff _ _).2 ⟨hheld, (honly _ hheld).2 rfl⟩
    rw [(firstTaken?_eq_some_iff ..).2 ⟨front, back, hsplit, hfree, hholder⟩]

theorem Refuses.exists_taken {builder : RegistryBuilder} {entry : Entry} {e : Error}
    (hrefuses : builder.Refuses entry e) (h : builder.Sound) :
    ∃ key ∈ entry.keys, key ∈ builder.index.keys := by
  obtain @⟨key, holder, front, back, hsplit, -, hheld, honly⟩ := hrefuses
  refine ⟨key, ?_, (h.mem_keys_iff key).2 ⟨holder, hheld, (honly holder hheld).2 rfl⟩⟩
  rw [hsplit]
  exact List.mem_append_right front List.mem_cons_self

theorem Sound.register {builder builder' : RegistryBuilder} (h : builder.Sound)
    {candidate : Candidate} (hregister : builder.register candidate = .ok builder') :
    builder'.Sound := by
  cases candidate with
  | foreign kind => cases hregister
  | entry entry =>
      obtain ⟨hfree, rfl⟩ := register_eq_ok_iff.1 hregister
      have hfresh : ∀ other ∈ builder.entries, ∀ key ∈ entry.keys, key ∉ other.keys :=
        fun other hother key hkey hmem =>
          hfree key hkey ((h.mem_keys_iff key).2 ⟨other, hother, hmem⟩)
      refine ⟨?_, NameIndex.nodup_keys_give h.keys_nodup entry entry.keys, ?_⟩
      · intro key other
        rw [NameIndex.find?_give, List.mem_append, List.mem_singleton]
        split
        · next hkey =>
            rw [Option.some_inj]
            constructor
            · rintro rfl
              exact ⟨.inr rfl, hkey⟩
            · rintro ⟨hother | hsame, hmem⟩
              · exact absurd hmem (hfresh other hother key hkey)
              · exact hsame.symm
        · next hkey =>
            rw [h.holds_iff]
            constructor
            · rintro ⟨hother, hmem⟩
              exact ⟨.inl hother, hmem⟩
            · rintro ⟨hother | rfl, hmem⟩
              · exact ⟨hother, hmem⟩
              · exact absurd hmem hkey
      · rw [List.pairwise_append]
        refine ⟨h.disjoint, List.pairwise_singleton _ _, ?_⟩
        intro other hother entry' hentry'
        rw [List.mem_singleton.1 hentry']
        exact fun key hmem hkey => hfresh other hother key hkey hmem

/-! ## Batches -/

/-- What a batch comes to, whether it fails or not, is sound. -/
theorem Sound.registerAll {builder : RegistryBuilder} (h : builder.Sound)
    (candidates : List Candidate) : (builder.registerAll candidates).1.Sound := by
  induction candidates generalizing builder with
  | nil => exact h
  | cons candidate rest ih =>
      rw [RegistryBuilder.registerAll]
      split
      · next hregister => exact ih (h.register hregister)
      · exact h

theorem sound_withDefaults : withDefaults.Sound :=
  sound_empty.registerAll _

/-- A batch of entries without a failure registers all of them, in their order. -/
theorem entries_of_registerAll {builder builder' : RegistryBuilder} {entries : List Entry}
    (h : builder.registerAll (entries.map .entry) = (builder', none)) :
    builder'.entries = builder.entries ++ entries := by
  induction entries generalizing builder with
  | nil =>
      obtain ⟨rfl, -⟩ := Prod.mk.inj h
      exact (List.append_nil _).symm
  | cons entry rest ih =>
      rw [List.map_cons, registerAll] at h
      split at h
      · next hregister =>
          obtain ⟨-, rfl⟩ := register_eq_ok_iff.1 hregister
          rw [ih h, List.append_assoc, List.singleton_append]
      · cases h

end RegistryBuilder

end CodeHighlight
