/-!
# Tables

Objects under keys.  An object that is put under a key takes the place of the one that was there,
and a new key goes behind the others.
-/

namespace CodeHighlight

/-- Objects by key. -/
abbrev Table (κ α : Type) := List (κ × α)

namespace Table

variable {κ α : Type}

/-- The keys of a table, in the order in which they came in. -/
def keys (table : Table κ α) : List κ := table.map (·.1)

@[simp]
theorem keys_cons (slot : κ × α) (rest : Table κ α) : keys (slot :: rest) = slot.1 :: keys rest :=
  rfl

variable [DecidableEq κ]

/-- The object under a key. -/
def find? : Table κ α → κ → Option α
  | [], _ => none
  | (other, object) :: rest, key => if other = key then some object else find? rest key

/-- Puts an object under a key, in place of the one that was there. -/
def put (key : κ) (object : α) : Table κ α → Table κ α
  | [] => [(key, object)]
  | (other, old) :: rest =>
      if other = key then (key, object) :: rest else (other, old) :: put key object rest

/-! ## What is found -/

theorem find?_isSome_iff (table : Table κ α) (key : κ) :
    (table.find? key).isSome ↔ key ∈ table.keys := by
  induction table with
  | nil => simp [find?, keys]
  | cons slot rest ih =>
      obtain ⟨other, object⟩ := slot
      rw [find?]
      split
      · next h => simp [h]
      · next h =>
          rw [ih]
          simp [Ne.symm h]

theorem find?_eq_none_iff (table : Table κ α) (key : κ) :
    table.find? key = none ↔ key ∉ table.keys := by
  rw [← find?_isSome_iff, Bool.not_eq_true, Option.isSome_eq_false_iff, Option.isNone_iff_eq_none]

theorem find?_put (table : Table κ α) (key other : κ) (object : α) :
    (put key object table).find? other =
      if key = other then some object else table.find? other := by
  induction table with
  | nil => simp [put, find?]
  | cons slot rest ih =>
      obtain ⟨first, old⟩ := slot
      rw [put]
      split
      · next hfirst =>
          subst hfirst
          simp only [find?]
          split
          · rfl
          · rfl
      · next hfirst =>
          simp only [find?, ih]
          split
          · next hother => rw [if_neg fun h => hfirst (hother.trans h.symm)]
          · rfl

@[simp]
theorem find?_put_self (table : Table κ α) (key : κ) (object : α) :
    (put key object table).find? key = some object := by
  rw [find?_put, if_pos rfl]

theorem find?_put_of_ne (table : Table κ α) {key other : κ} (object : α) (h : key ≠ other) :
    (put key object table).find? other = table.find? other := by
  rw [find?_put, if_neg h]

/-! ## What is put -/

theorem put_put (table : Table κ α) (key : κ) (old new : α) :
    put key new (put key old table) = put key new table := by
  induction table with
  | nil => simp [put]
  | cons slot rest ih =>
      obtain ⟨other, object⟩ := slot
      by_cases hother : other = key
      · simp [put, hother]
      · simp [put, hother, ih]

/-- Nothing happens when an object gets the key that it has. -/
theorem put_of_find? {table : Table κ α} {key : κ} {object : α}
    (h : table.find? key = some object) : put key object table = table := by
  induction table with
  | nil => cases h
  | cons slot rest ih =>
      obtain ⟨other, old⟩ := slot
      rw [find?] at h
      rw [put]
      split at h
      · next hother =>
          obtain rfl := Option.some.inj h
          rw [if_pos hother, hother]
      · next hother => rw [if_neg hother, ih h]

/-- Only a new key adds to the keys. -/
theorem keys_put (table : Table κ α) (key : κ) (object : α) :
    (put key object table).keys =
      if key ∈ table.keys then table.keys else table.keys ++ [key] := by
  induction table with
  | nil => simp [put, keys]
  | cons slot rest ih =>
      obtain ⟨other, old⟩ := slot
      rw [put]
      split
      · next hother => simp [hother]
      · next hother =>
          rw [keys_cons, ih, keys_cons]
          have hmem : key ∈ other :: keys rest ↔ key ∈ keys rest := by simp [Ne.symm hother]
          simp only [hmem]
          split
          · rfl
          · rfl

end Table

end CodeHighlight
