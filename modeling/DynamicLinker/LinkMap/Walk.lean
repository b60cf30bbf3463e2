/-
# Walks over dependencies

A walk lists the modules that can be reached from a module, each once, at the place
where it is first found.  It keeps an agenda of modules to visit.  The module in front
is dropped if it was seen before, and else it is listed and its dependencies join the
agenda: in front of the rest for a depth-first walk, behind it for a breadth-first walk.

The tree of a module is its depth-first walk.  It is the order in which symbols are looked
for, and its members are what the module needs.

A walk ends on every graph, cycles included, by `degreeOutside_cons_add_le`; its steps are
`walk_nil`, `walk_cons_of_mem` and `walk_cons_of_not_mem`.
-/
import DynamicLinker.LinkMap.Basic

namespace DynamicLinker

/-- Where the dependencies of a module join the agenda of a walk. -/
inductive Discipline where
  /-- In front, so that they are visited before what was found earlier. -/
  | depthFirst
  /-- At the back, so that they are visited after what was found earlier. -/
  | breadthFirst
deriving DecidableEq

/-- The agenda after dependencies joined it. -/
def Discipline.join (discipline : Discipline) (deps rest : List ModuleId) : List ModuleId :=
  match discipline with
  | depthFirst => deps ++ rest
  | breadthFirst => rest ++ deps

theorem Discipline.length_join (discipline : Discipline) (deps rest : List ModuleId) :
    (discipline.join deps rest).length = deps.length + rest.length := by
  cases discipline <;> simp [join, Nat.add_comm]

@[simp] theorem Discipline.mem_join {discipline : Discipline} {deps rest : List ModuleId}
    {id : ModuleId} : id ∈ discipline.join deps rest ↔ id ∈ deps ∨ id ∈ rest := by
  cases discipline <;> simp [join, or_comm]

namespace LinkMap

variable (lm : LinkMap)

/-! ## The dependencies that a walk has not met yet -/

/-- The number of dependencies of the listed modules that were not seen. -/
def degreeAmong (seen : List ModuleId) : List ModuleId → Nat
  | [] => 0
  | id :: ids => (if id ∈ seen then 0 else (lm.deps id).length) + degreeAmong seen ids

/-- The number of dependencies of all modules that were not seen. -/
def degreeOutside (seen : List ModuleId) : Nat :=
  lm.degreeAmong seen (List.range lm.modules.size)

theorem degreeAmong_cons (seen : List ModuleId) (id : ModuleId) (ids : List ModuleId) :
    lm.degreeAmong seen (id :: ids)
      = (if id ∈ seen then 0 else (lm.deps id).length) + lm.degreeAmong seen ids := rfl

theorem degreeAmong_cons_seen_le (seen : List ModuleId) (id : ModuleId) (ids : List ModuleId) :
    lm.degreeAmong (id :: seen) ids ≤ lm.degreeAmong seen ids := by
  induction ids with
  | nil => simp [degreeAmong]
  | cons j ids ih =>
    rw [degreeAmong_cons, degreeAmong_cons]
    by_cases hj : j ∈ seen
    · simpa [hj] using ih
    · by_cases hji : j = id
      · simp only [hji, List.mem_cons, true_or, if_true]
        omega
      · simpa [hj, hji] using ih

theorem degreeAmong_cons_seen_add_le {seen : List ModuleId} {id : ModuleId} (hseen : id ∉ seen)
    {ids : List ModuleId} (hid : id ∈ ids) :
    lm.degreeAmong (id :: seen) ids + (lm.deps id).length ≤ lm.degreeAmong seen ids := by
  induction ids with
  | nil => simp at hid
  | cons j ids ih =>
    rw [degreeAmong_cons, degreeAmong_cons]
    have hle := lm.degreeAmong_cons_seen_le seen id ids
    by_cases hji : j = id
    · subst hji
      simp only [List.mem_cons, true_or, if_true, hseen, if_false]
      omega
    · have hmem : id ∈ ids := by
        rcases List.mem_cons.mp hid with rfl | h
        · exact absurd rfl hji
        · exact h
      have := ih hmem
      by_cases hj : j ∈ seen
      · simpa [hj] using this
      · simp only [List.mem_cons, hji, hj, or_self, if_false]
        omega

/-- A number without a module has no dependencies. -/
theorem deps_eq_nil_of_size_le {id : ModuleId} (h : lm.modules.size ≤ id) : lm.deps id = [] := by
  unfold deps
  cases hget : lm.get? id with
  | none => rfl
  | some m => exact absurd (Arena.lt_size_of_get? hget) (Nat.not_lt.mpr h)

/-- Seeing a module takes its dependencies out of those that were not met. -/
theorem degreeOutside_cons_add_le {seen : List ModuleId} {id : ModuleId} (h : id ∉ seen) :
    lm.degreeOutside (id :: seen) + (lm.deps id).length ≤ lm.degreeOutside seen := by
  by_cases hid : id < lm.modules.size
  · exact lm.degreeAmong_cons_seen_add_le h (List.mem_range.mpr hid)
  · rw [lm.deps_eq_nil_of_size_le (Nat.not_lt.mp hid)]
    exact lm.degreeAmong_cons_seen_le seen id _

/-! ## Walks -/

/-- The modules that a walk lists when some modules were seen already.  The walk ends
because listing a module takes as many dependencies out of those not met as it adds to
the agenda. -/
def walk (discipline : Discipline) (seen agenda : List ModuleId) : List ModuleId :=
  match agenda with
  | [] => []
  | id :: rest =>
    if _h : id ∈ seen then walk discipline seen rest
    else id :: walk discipline (id :: seen) (discipline.join (lm.deps id) rest)
termination_by agenda.length + lm.degreeOutside seen
decreasing_by
  · simp only [List.length_cons]
    omega
  · have := lm.degreeOutside_cons_add_le _h
    simp only [discipline.length_join, List.length_cons]
    omega

/-- The tree of a module: the module, then its dependencies depth first in the order of
declaration, each module where it is first found. -/
def tree (root : ModuleId) : List ModuleId := lm.walk .depthFirst [] [root]

/-- Does the tree of a module reach one that is still loading? -/
def awaitsLoading (root : ModuleId) : Bool :=
  (lm.tree root).any fun id => (lm.get? id).any fun m => m.state = .loading

/-! ## One step of a walk -/

@[simp] theorem walk_nil (discipline : Discipline) (seen : List ModuleId) :
    lm.walk discipline seen [] = [] := by
  rw [walk]

theorem walk_cons_of_mem (discipline : Discipline) {seen : List ModuleId} {id : ModuleId}
    (h : id ∈ seen) (rest : List ModuleId) :
    lm.walk discipline seen (id :: rest) = lm.walk discipline seen rest := by
  rw [walk, dif_pos h]

theorem walk_cons_of_not_mem (discipline : Discipline) {seen : List ModuleId} {id : ModuleId}
    (h : id ∉ seen) (rest : List ModuleId) :
    lm.walk discipline seen (id :: rest)
      = id :: lm.walk discipline (id :: seen) (discipline.join (lm.deps id) rest) := by
  rw [walk, dif_neg h]

end LinkMap

end DynamicLinker
