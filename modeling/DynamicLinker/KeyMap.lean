/-
# Finite maps with one value for each key

Name indices, symbol tables and sets of files are all finite maps that are filled one
entry at a time, where a later entry for a key replaces the earlier one.  A `KeyMap` is
a list of entries whose keys are distinct.  It is seen through `find?`, and the lemmas
here say what each operation does to that view.
-/

namespace DynamicLinker

/-- A finite map from keys to values, as a list of entries with distinct keys. -/
structure KeyMap (κ ν : Type) where
  /-- The entries, the most recently inserted one first. -/
  entries : List (κ × ν)
  /-- No key has two entries. -/
  keys_nodup : (entries.map Prod.fst).Nodup
deriving DecidableEq

namespace KeyMap

variable {κ ν : Type}

/-- The map without entries. -/
def empty : KeyMap κ ν := ⟨[], List.nodup_nil⟩

instance : Inhabited (KeyMap κ ν) := ⟨empty⟩

/-- The keys of a map. -/
def keys (m : KeyMap κ ν) : List κ := m.entries.map Prod.fst

/-- The number of keys of a map. -/
def size (m : KeyMap κ ν) : Nat := m.entries.length

variable [DecidableEq κ]

/-- The value of a key, if it has one. -/
def find? (m : KeyMap κ ν) (k : κ) : Option ν := m.entries.lookup k

/-- Remove a key and its value. -/
def erase (m : KeyMap κ ν) (k : κ) : KeyMap κ ν where
  entries := m.entries.filter fun e => e.1 ≠ k
  keys_nodup := m.keys_nodup.sublist (List.filter_sublist.map Prod.fst)

/-- Give a key a value, in place of the one that it may have had. -/
def insert (m : KeyMap κ ν) (k : κ) (v : ν) : KeyMap κ ν where
  entries := (k, v) :: (m.erase k).entries
  keys_nodup := by
    rw [List.map_cons, List.nodup_cons]
    refine ⟨?_, (m.erase k).keys_nodup⟩
    simp [erase]

/-- The map of a list of entries, in which a later entry for a key wins. -/
def ofList (entries : List (κ × ν)) : KeyMap κ ν :=
  entries.foldl (fun m e => m.insert e.1 e.2) empty

/-! ## The view through `find?` -/

@[simp] theorem find?_empty (k : κ) : (empty : KeyMap κ ν).find? k = none := rfl

/-- A lookup passes over the entries of other keys. -/
theorem lookup_cons_of_ne {k k' : κ} (h : k' ≠ k) (v : ν) (rest : List (κ × ν)) :
    ((k, v) :: rest).lookup k' = rest.lookup k' := by
  simp [List.lookup_cons, beq_false_of_ne h]

/-- A list without the entries of a key finds all other keys as before. -/
theorem lookup_filter_ne (entries : List (κ × ν)) (k k' : κ) :
    (entries.filter fun e => e.1 ≠ k).lookup k' = if k' = k then none else entries.lookup k' := by
  induction entries with
  | nil => simp
  | cons e rest ih =>
    obtain ⟨j, v⟩ := e
    by_cases hj : j = k
    · rw [List.filter_cons_of_neg (by simpa using hj), ih]
      by_cases hk : k' = k
      · simp [hk]
      · rw [if_neg hk, if_neg hk, lookup_cons_of_ne (hj ▸ hk)]
    · rw [List.filter_cons_of_pos (by simpa using hj)]
      by_cases hk : k' = j
      · subst hk
        simp [hj]
      · rw [lookup_cons_of_ne hk, lookup_cons_of_ne hk, ih]

theorem find?_erase (m : KeyMap κ ν) (k k' : κ) :
    (m.erase k).find? k' = if k' = k then none else m.find? k' :=
  lookup_filter_ne m.entries k k'

theorem find?_insert (m : KeyMap κ ν) (k : κ) (v : ν) (k' : κ) :
    (m.insert k v).find? k' = if k' = k then some v else m.find? k' := by
  by_cases h : k' = k
  · subst h
    simp [insert, find?]
  · have hfind := m.find?_erase k k'
    rw [if_neg h] at hfind ⊢
    rw [← hfind]
    exact lookup_cons_of_ne h v _

@[simp] theorem find?_insert_self (m : KeyMap κ ν) (k : κ) (v : ν) :
    (m.insert k v).find? k = some v := by
  simp [find?_insert]

theorem find?_insert_of_ne (m : KeyMap κ ν) {k k' : κ} (v : ν) (h : k' ≠ k) :
    (m.insert k v).find? k' = m.find? k' := by
  simp [find?_insert, h]

/-- What is found is an entry. -/
theorem mem_entries_of_find? {m : KeyMap κ ν} {k : κ} {v : ν} (h : m.find? k = some v) :
    (k, v) ∈ m.entries := by
  obtain ⟨before, after, hsplit, -⟩ := List.lookup_eq_some_iff.mp h
  simp [hsplit]

end KeyMap

end DynamicLinker
