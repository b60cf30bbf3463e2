/-
# Arenas with reused slots

An arena keeps values in numbered slots.  A value keeps its slot until it is erased, and
then the slot is free for another value: of several free slots the one freed last is
taken first, and only when none is free does the arena grow.  So the number of a slot
names a value only as long as that value stays.

An arena is seen through `get?`, and through `nextIndex` for the slot that the next value
will take.
-/

namespace DynamicLinker

/-- Values in numbered slots, of which some may be free. -/
structure Arena (α : Type) where
  /-- The slots, each with the value that it holds, if any. -/
  slots : List (Option α)
  /-- The numbers of the free slots, the one freed last in front. -/
  free : List Nat
  /-- No slot is listed as free twice. -/
  free_nodup : free.Nodup
  /-- The free slots are those that hold no value. -/
  mem_free_iff : ∀ i, i ∈ free ↔ slots[i]? = some none
deriving DecidableEq

namespace Arena

variable {α : Type}

/-- The arena without slots. -/
def empty : Arena α := ⟨[], [], List.nodup_nil, by simp⟩

instance : Inhabited (Arena α) := ⟨empty⟩

/-- The value in a slot, if it holds one. -/
def get? (s : Arena α) (i : Nat) : Option α := s.slots[i]?.join

/-- The number of slots, free or not. -/
def size (s : Arena α) : Nat := s.slots.length

/-- The slot that the next value takes. -/
def nextIndex (s : Arena α) : Nat := s.free.head?.getD s.size

/-- The slots after a value took the next one. -/
def filled (s : Arena α) (a : α) : List (Option α) :=
  match s.free with
  | [] => s.slots ++ [some a]
  | i :: _ => s.slots.set i (some a)

/-- A free slot is within the arena. -/
theorem lt_of_mem_free {s : Arena α} {i : Nat} (h : i ∈ s.free) : i < s.slots.length := by
  have hslot := (s.mem_free_iff i).mp h
  exact (List.getElem?_eq_some_iff.mp hslot).1

/-- Filling the next slot leaves the others as they are. -/
theorem getElem?_filled (s : Arena α) (a : α) (i : Nat) :
    (s.filled a)[i]? = if i = s.nextIndex then some (some a) else s.slots[i]? := by
  unfold filled nextIndex size
  cases hfree : s.free with
  | nil =>
    rcases Nat.lt_trichotomy i s.slots.length with hlt | heq | hgt
    · have hi : i ≠ s.slots.length := Nat.ne_of_lt hlt
      simp [hi, List.getElem?_append_left hlt]
    · simp [heq]
    · have hi : i ≠ s.slots.length := Nat.ne_of_gt hgt
      have hlong : (s.slots ++ [some a]).length ≤ i := by
        rw [List.length_append]
        exact hgt
      simp [hi, List.getElem?_eq_none hlong, List.getElem?_eq_none (Nat.le_of_lt hgt)]
  | cons j rest =>
    have hj : j < s.slots.length := lt_of_mem_free (by simp [hfree])
    by_cases hi : i = j
    · simp [hi, hj]
    · simp [hi, List.getElem?_set_ne (Ne.symm hi)]

/-- Put a value into the next slot. -/
def insert (s : Arena α) (a : α) : Arena α where
  slots := s.filled a
  free := s.free.tail
  free_nodup := s.free_nodup.sublist (List.tail_sublist _)
  mem_free_iff i := by
    rw [getElem?_filled]
    have hmem := s.mem_free_iff i
    have hnodup := s.free_nodup
    unfold nextIndex size
    cases hfree : s.free with
    | nil =>
      rw [hfree] at hmem
      by_cases hi : i = s.slots.length
      · simp [hi]
      · simpa [hi] using hmem
    | cons j rest =>
      rw [hfree] at hmem hnodup
      by_cases hi : i = j
      · simp [hi, (List.nodup_cons.mp hnodup).1]
      · simpa [hi] using hmem

/-- Empty a slot.  Nothing happens if it holds no value. -/
def erase (s : Arena α) (i : Nat) : Arena α :=
  match h : s.get? i with
  | none => s
  | some a =>
    { slots := s.slots.set i none
      free := i :: s.free
      free_nodup := by
        refine List.nodup_cons.mpr ⟨fun hi => ?_, s.free_nodup⟩
        simp [get?, (s.mem_free_iff i).mp hi] at h
      mem_free_iff := fun j => by
        have hi : i < s.slots.length := by
          have hslot : s.slots[i]?.join = some a := h
          rw [Option.join_eq_some_iff] at hslot
          exact (List.getElem?_eq_some_iff.mp hslot).1
        rw [List.mem_cons, s.mem_free_iff j]
        by_cases hj : j = i
        · simp [hj, hi]
        · simp [hj, List.getElem?_set_ne (Ne.symm hj)] }

/-- Replace every value by its image. -/
def map (s : Arena α) (f : α → α) : Arena α where
  slots := s.slots.map (Option.map f)
  free := s.free
  free_nodup := s.free_nodup
  mem_free_iff i := by
    rw [s.mem_free_iff i, List.getElem?_map]
    cases s.slots[i]? with
    | none => simp
    | some slot => cases slot <;> simp

/-- Replace the value in a slot by its image.  Nothing happens if it holds no value. -/
def modify (s : Arena α) (i : Nat) (f : α → α) : Arena α where
  slots := s.slots.modify i (Option.map f)
  free := s.free
  free_nodup := s.free_nodup
  mem_free_iff j := by
    rw [s.mem_free_iff j, List.getElem?_modify]
    by_cases hj : i = j
    · cases s.slots[j]? with
      | none => simp
      | some slot => cases slot <;> simp [hj]
    · simp [hj]

/-! ## The view through `get?` -/

@[simp] theorem get?_empty (i : Nat) : (empty : Arena α).get? i = none := by
  simp [get?, empty]

/-- The slot that the next value takes holds none. -/
@[simp] theorem get?_nextIndex (s : Arena α) : s.get? s.nextIndex = none := by
  unfold nextIndex size get?
  cases hfree : s.free with
  | nil => simp
  | cons j rest =>
    have hj : s.slots[j]? = some none := (s.mem_free_iff j).mp (by simp [hfree])
    simp [hj]

theorem get?_insert (s : Arena α) (a : α) (i : Nat) :
    (s.insert a).get? i = if i = s.nextIndex then some a else s.get? i := by
  simp only [get?, insert, getElem?_filled]
  split <;> simp

theorem get?_erase (s : Arena α) (i j : Nat) :
    (s.erase i).get? j = if j = i then none else s.get? j := by
  unfold erase
  split
  · rename_i h
    by_cases hj : j = i
    · simp [hj, h]
    · simp [hj]
  · by_cases hj : j = i
    · subst hj
      simp only [get?, List.getElem?_set_self', if_pos]
      cases s.slots[j]? <;> simp
    · simp [get?, hj, List.getElem?_set_ne (Ne.symm hj)]

@[simp] theorem get?_map (s : Arena α) (f : α → α) (i : Nat) :
    (s.map f).get? i = (s.get? i).map f := by
  simp only [get?, map, List.getElem?_map]
  cases s.slots[i]? with
  | none => simp
  | some slot => cases slot <;> simp

theorem get?_modify (s : Arena α) (i : Nat) (f : α → α) (j : Nat) :
    (s.modify i f).get? j = if j = i then (s.get? j).map f else s.get? j := by
  simp only [get?, modify, List.getElem?_modify]
  by_cases hj : j = i
  · subst hj
    cases s.slots[j]? with
    | none => simp
    | some slot => cases slot <;> simp
  · simp [hj, Ne.symm hj]

/-- A slot that holds a value is within the arena. -/
theorem lt_size_of_get? {s : Arena α} {i : Nat} {a : α} (h : s.get? i = some a) :
    i < s.size := by
  have hslot : s.slots[i]?.join = some a := h
  rw [Option.join_eq_some_iff] at hslot
  exact (List.getElem?_eq_some_iff.mp hslot).1

end Arena

end DynamicLinker
