/-
# Trees, with a stack and by recursion

The tree of a module is told in three ways.  It is a walk with an agenda.  It is found with a stack,
whose top is at its end: a module is taken off the stack, and if it was not listed before it is
listed and its dependencies are put onto the stack, the last one first.  The stack is the agenda
read backwards, so it may hold a module many times, and modules that were listed long ago.  And the
tree is what the recursive walk lists: the module, then for each dependency the walk from there,
without what was listed before.

The number of rounds with a stack is known as well.  Each round takes one module off the stack, and
the dependencies of each module are put onto it once, namely when the module is listed.

The main result is `depthFirst_tree`, which puts the three together for any link map, consistent or
not, and for any number, be it that of a module or not.
-/
import DynamicLinker.Proofs.Preorder

namespace DynamicLinker.LinkMap

variable {lm : LinkMap} {id root : ModuleId} {n n' : Nat}
  {listed stack seen agenda result result' : List ModuleId}

/-! ## With a stack -/

/-- A search with a stack that has listed some modules goes on for a number of rounds, and has
listed the given modules when the stack is empty. -/
inductive StackSearch (lm : LinkMap) :
    Nat → List ModuleId → List ModuleId → List ModuleId → Prop where
  /-- The search ends when the stack is empty. -/
  | done (listed : List ModuleId) : StackSearch lm 0 listed [] listed
  /-- A module on top that was listed is dropped. -/
  | drop {n : Nat} {listed stack result : List ModuleId} {id : ModuleId}
      (htop : stack.getLast? = some id) (hlisted : id ∈ listed)
      (hrest : StackSearch lm n listed stack.dropLast result) :
      StackSearch lm (n + 1) listed stack result
  /-- A new module on top is listed, and its dependencies take its place, the first one on top. -/
  | list {n : Nat} {listed stack result : List ModuleId} {id : ModuleId}
      (htop : stack.getLast? = some id) (hnew : id ∉ listed)
      (hrest : StackSearch lm n (listed ++ [id]) (stack.dropLast ++ (lm.deps id).reverse) result) :
      StackSearch lm (n + 1) listed stack result

/-- A search determines what it lists, and how many rounds it takes. -/
lemma StackSearch.unique (h : lm.StackSearch n listed stack result)
    (h' : lm.StackSearch n' listed stack result') : n = n' ∧ result = result' := by
  induction h generalizing n' result' with
  | done =>
    cases h' with
    | done => exact ⟨rfl, rfl⟩
    | drop htop _ _ => simp at htop
    | list htop _ _ => simp at htop
  | drop htop hlisted _ ih =>
    cases h' with
    | done => simp at htop
    | drop _ _ hrest =>
      obtain ⟨rfl, rfl⟩ := ih hrest
      exact ⟨rfl, rfl⟩
    | list htop' hnew _ =>
      obtain rfl := Option.some.inj (htop.symm.trans htop')
      exact absurd hlisted hnew
  | list htop hnew _ ih =>
    cases h' with
    | done => simp at htop
    | drop htop' hlisted _ =>
      obtain rfl := Option.some.inj (htop.symm.trans htop')
      exact absurd hlisted hnew
    | list htop' _ hrest =>
      obtain rfl := Option.some.inj (htop.symm.trans htop')
      obtain ⟨rfl, rfl⟩ := ih hrest
      exact ⟨rfl, rfl⟩

/-- A search whose stack is the agenda of a walk, read backwards, lists what the walk lists.  Each
round takes one module off the stack. -/
lemma stackSearch_walk (lm : LinkMap) (agenda : List ModuleId) (h : ∀ x, x ∈ listed ↔ x ∈ seen) :
    lm.StackSearch (agenda.length + lm.degreeAmong [] (lm.walk .depthFirst seen agenda)) listed
      agenda.reverse (listed ++ lm.walk .depthFirst seen agenda) := by
  fun_induction lm.walk .depthFirst seen agenda generalizing listed with
  | case1 seen =>
    rw [List.append_nil]
    exact .done listed
  | case2 seen id rest hmem ih =>
    have hrest := ih h
    rw [List.length_cons, Nat.add_right_comm]
    refine .drop (by simp) ((h id).mpr hmem) ?_
    simpa using hrest
  | case3 seen id rest hmem ih =>
    have hlisted : ∀ x, x ∈ listed ++ [id] ↔ x ∈ id :: seen := fun x => by simp [h, or_comm]
    have hrest := ih hlisted
    simp only [Discipline.join, List.length_append, List.reverse_append, List.append_assoc,
      List.singleton_append] at hrest
    have hcount : (id :: rest).length
          + lm.degreeAmong [] (id :: lm.walk .depthFirst (id :: seen) (lm.deps id ++ rest))
        = (lm.deps id).length + rest.length
          + lm.degreeAmong [] (lm.walk .depthFirst (id :: seen) (lm.deps id ++ rest)) + 1 := by
      simp only [degreeAmong_cons, List.not_mem_nil, if_false, List.length_cons]
      omega
    simp only [Discipline.join]
    rw [hcount]
    refine .list (by simp) (fun hin => hmem ((h id).mp hin)) ?_
    simpa using hrest

/-! ## By recursion -/

/-- To have seen more leaves no more dependencies that were not met. -/
lemma degreeOutside_append_le (lm : LinkMap) (ids seen : List ModuleId) :
    lm.degreeOutside (ids ++ seen) ≤ lm.degreeOutside seen := by
  induction ids with
  | nil => exact Nat.le_refl _
  | cons id ids ih => exact Nat.le_trans (lm.degreeAmong_cons_seen_le _ id _) ih

/-- What the recursive walk lists from the modules of a list, one after the other, when some were
listed before.  It passes over a module that was listed.  A new one is listed before the walk from
its dependencies, and what that has listed counts for the modules that are left. -/
def explore (lm : LinkMap) (listed : List ModuleId) : List ModuleId → List ModuleId
  | [] => []
  | id :: rest =>
    if _h : id ∈ listed then lm.explore listed rest
    else
      let below := lm.explore (id :: listed) (lm.deps id)
      id :: below ++ lm.explore (below ++ id :: listed) rest
termination_by ids => ids.length + lm.degreeOutside listed
decreasing_by
  · simp
  · have := lm.degreeOutside_cons_add_le _h
    simp only [List.length_cons]
    omega
  · refine Nat.lt_of_le_of_lt (Nat.add_le_add_left (lm.degreeOutside_append_le _ _) _) ?_
    have := lm.degreeOutside_cons_add_le _h
    simp only [List.length_cons]
    omega

lemma preorder_explore (lm : LinkMap) (listed agenda : List ModuleId) :
    Preorder lm.deps listed agenda (lm.explore listed agenda) := by
  fun_induction lm.explore listed agenda with
  | case1 listed => exact .nil listed
  | case2 listed id rest hmem ih => exact .skip hmem ih
  | case3 listed id rest hmem below ihbelow ihrest => exact .visit hmem ihbelow ihrest

/-- **The walk with an agenda lists what the recursive walk lists.** -/
theorem walk_depthFirst_eq_explore (lm : LinkMap) (seen agenda : List ModuleId) :
    lm.walk .depthFirst seen agenda = lm.explore seen agenda :=
  (lm.preorder_walk seen agenda).unique (lm.preorder_explore seen agenda)

/-! ## Trees -/

/-- What the tree of a module is. -/
structure DepthFirst (lm : LinkMap) (root : ModuleId) (tree : List ModuleId) : Prop where
  /-- A search with a stack that has the root on it ends, after one round for the root and one for
  each dependency of the tree, and lists the tree. -/
  stackSearch_iff {n : Nat} {result : List ModuleId} : lm.StackSearch n [] [root] result ↔
    n = 1 + lm.degreeAmong [] tree ∧ result = tree
  /-- The recursive walk lists the tree. -/
  eq_explore : tree = lm.explore [] [root]
  /-- The root comes first, and then what the recursive walk lists from its dependencies. -/
  eq_cons : tree = root :: lm.explore [root] (lm.deps root)
  /-- No module is listed twice. -/
  nodup : tree.Nodup
  /-- The modules are those that the root reaches. -/
  mem_iff {id : ModuleId} : id ∈ tree ↔ lm.Reaches root id

/-- **The tree of a module is the depth-first preorder from it**, in any link map, and for any
number. -/
theorem depthFirst_tree (lm : LinkMap) (root : ModuleId) : lm.DepthFirst root (lm.tree root) where
  stackSearch_iff {n result} := by
    have htree : lm.StackSearch (1 + lm.degreeAmong [] (lm.tree root)) [] [root] (lm.tree root) :=
      lm.stackSearch_walk [root] fun x => Iff.rfl
    constructor
    · exact fun h => h.unique htree
    · rintro ⟨rfl, rfl⟩
      exact htree
  eq_explore := lm.walk_depthFirst_eq_explore [] [root]
  eq_cons := by
    rw [tree, walk_cons_of_not_mem lm _ List.not_mem_nil, walk_depthFirst_eq_explore]
    simp [Discipline.join]
  nodup := tree_nodup lm root
  mem_iff := mem_tree

end DynamicLinker.LinkMap
