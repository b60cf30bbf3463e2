/-
# The order of initialisers, level by level

Initialisers run in the order of a breadth-first walk, backwards.  The walk goes by levels: the
root, then its dependencies, then theirs, and so on, always without what was listed before.  A level
is empty if the one before it is, and since the walk is finite some level is; so the walk is the
levels up to that one, put together.

A module is in the level whose number is its distance from the root, the length of a shortest path.
So the distances in the walk never fall, and in the order of initialisers they never rise.

The walk is done with a queue as well: one list, to which the dependencies of each of its modules in
turn are added, unless they are in the list already.  There a module is marked when it is found, and
not when its turn comes, but that makes no difference.

The main result is `byLevels_initializationOrder`, for any link map, consistent or not, and for any
number, be it that of a module or not.
-/
import DynamicLinker.Proofs.BreadthFirst
import Mathlib.Data.List.Nodup
import Mathlib.Tactic.ByContra
import Mathlib.Tactic.Tauto

namespace DynamicLinker.LinkMap

variable {lm : LinkMap} {id root : ModuleId} {k n : Nat}
  {seen seen' ids ids' agenda order result result' : List ModuleId}

/-! ## Distances -/

/-- The length of the shortest paths from one module to another. -/
structure Distance (lm : LinkMap) (root : ModuleId) (k : Nat) (id : ModuleId) : Prop where
  /-- There is a path of that length. -/
  path : lm.Path root k id
  /-- No path is shorter. -/
  shortest {j : Nat} : lm.Path root j id → k ≤ j

lemma Distance.unique {j : Nat} (h : lm.Distance root k id) (h' : lm.Distance root j id) :
    k = j :=
  Nat.le_antisymm (h.shortest h'.path) (h'.shortest h.path)

/-- **A level has the modules at one distance.** -/
theorem mem_level_iff : id ∈ lm.level root k ↔ lm.Distance root k id := by
  have hin : id ∈ lm.nearer root (k + 1) ↔ id ∈ lm.nearer root k ∨ id ∈ lm.level root k := by
    rw [nearer, List.mem_append]
  have hout : id ∈ lm.level root k → id ∉ lm.nearer root k := by
    cases k with
    | zero => simp [nearer]
    | succ k =>
      rw [level, mem_fresh, nearer]
      exact fun h => h.2
  constructor
  · intro h
    obtain ⟨j, hj, hpath⟩ := mem_nearer_iff.mp (hin.mpr (.inr h))
    have hshortest : ∀ {i}, lm.Path root i id → k ≤ i := fun {i} hi => by
      by_contra hlt
      exact hout h (mem_nearer_iff.mpr ⟨i, by omega, hi⟩)
    have := hshortest hpath
    obtain rfl : j = k := by omega
    exact ⟨hpath, hshortest⟩
  · intro h
    refine (hin.mp (mem_nearer_iff.mpr ⟨k, by omega, h.path⟩)).resolve_left fun hnear => ?_
    obtain ⟨j, hj, hpath⟩ := mem_nearer_iff.mp hnear
    have := h.shortest hpath
    omega

/-! ## All levels together -/

lemma nearer_eq_flatMap (lm : LinkMap) (root : ModuleId) (n : Nat) :
    lm.nearer root n = (List.range n).flatMap (lm.level root) := by
  induction n with
  | zero => simp [nearer]
  | succ n ih => rw [nearer, ih, List.range_succ, List.flatMap_append, List.flatMap_singleton]

/-- From an empty level on all levels are empty. -/
lemma level_eq_nil_of_le (h : lm.level root n = []) (hk : n ≤ k) : lm.level root k = [] := by
  induction hk with
  | refl => exact h
  | step _ ih => rw [level, ih, List.flatMap_nil, fresh]

/-- As long as no level is empty there are as many modules as levels. -/
lemma le_length_nearer (h : ∀ k < n, lm.level root k ≠ []) : n ≤ (lm.nearer root n).length := by
  induction n with
  | zero => exact Nat.zero_le _
  | succ n ih =>
    have hlast := List.length_pos_iff.mpr (h n (by omega))
    have := ih fun k hk => h k (by omega)
    rw [nearer, List.length_append]
    omega

/-- **A breadth-first walk is made of levels, of which only finitely many are not empty.** -/
theorem exists_levels (lm : LinkMap) (root : ModuleId) :
    ∃ n, lm.walk .breadthFirst [] [root] = (List.range n).flatMap (lm.level root) ∧
      ∀ k, n ≤ k → lm.level root k = [] := by
  obtain ⟨n, hn⟩ : ∃ n, lm.level root n = [] := by
    by_contra hnone
    -- the first levels are part of the walk, so they cannot have more modules than it
    have hfirst := congrArg List.length (lm.walk_breadthFirst_eq root
      (lm.walk .breadthFirst [] [root]).length)
    have hlong : (lm.walk .breadthFirst [] [root]).length + 1
        ≤ (lm.nearer root ((lm.walk .breadthFirst [] [root]).length + 1)).length :=
      le_length_nearer fun k _ hk => hnone ⟨k, hk⟩
    rw [List.length_append] at hfirst
    omega
  refine ⟨n, ?_, fun k hk => level_eq_nil_of_le hn hk⟩
  rw [lm.walk_breadthFirst_eq root n, hn, List.flatMap_nil, walk_nil, List.append_nil, nearer, hn,
    List.append_nil, nearer_eq_flatMap]

/-- In the order of levels the distances do not fall. -/
lemma pairwise_levels (lm : LinkMap) (root : ModuleId) (n : Nat) :
    ((List.range n).flatMap (lm.level root)).Pairwise
      fun a b => ∀ j k, lm.Distance root j b → lm.Distance root k a → k ≤ j := by
  refine List.pairwise_flatMap.mpr ⟨fun i _ => ?_, ?_⟩
  · refine List.pairwise_of_forall_mem_list fun a ha b hb j k hj hk => ?_
    have hki : k = i := hk.unique (mem_level_iff.mp ha)
    have hji : j = i := hj.unique (mem_level_iff.mp hb)
    exact Nat.le_of_eq (hki.trans hji.symm)
  · refine List.pairwise_lt_range.imp fun {i i'} hlt a ha b hb j k hj hk => ?_
    have hki : k = i := hk.unique (mem_level_iff.mp ha)
    have hji : j = i' := hj.unique (mem_level_iff.mp hb)
    omega

/-! ## With a queue -/

/-- A search with a queue that has come to the given place of its list goes on, and in the end has
the given list. -/
inductive QueueSearch (lm : LinkMap) : Nat → List ModuleId → List ModuleId → Prop where
  /-- The search ends with the list. -/
  | done {next : Nat} {order : List ModuleId} (hend : order[next]? = none) :
      QueueSearch lm next order order
  /-- The dependencies of the next module join the list, unless they are in it. -/
  | next {next : Nat} {order result : List ModuleId} {id : ModuleId} (hid : order[next]? = some id)
      (hrest : QueueSearch lm (next + 1) (order ++ fresh order (lm.deps id)) result) :
      QueueSearch lm next order result

lemma QueueSearch.unique (h : lm.QueueSearch n order result) (h' : lm.QueueSearch n order result') :
    result = result' := by
  induction h with
  | done hend =>
    cases h' with
    | done _ => rfl
    | next hid _ => simp [hend] at hid
  | next hid _ ih =>
    cases h' with
    | done hend => simp [hend] at hid
    | next hid' hrest =>
      obtain rfl := Option.some.inj (hid.symm.trans hid')
      exact ih hrest

lemma fresh_congr_seen (h : ∀ x, x ∈ seen' ↔ x ∈ seen) : fresh seen' ids = fresh seen ids := by
  induction ids generalizing seen seen' with
  | nil => rfl
  | cons id ids ih =>
    have hcons : fresh (id :: seen') ids = fresh (id :: seen) ids :=
      ih fun x => by rw [List.mem_cons, List.mem_cons, h]
    simp only [fresh, h, hcons, ih h]

lemma fresh_append :
    fresh seen (ids ++ ids') = fresh seen ids ++ fresh (fresh seen ids ++ seen) ids' := by
  induction ids generalizing seen with
  | nil => rfl
  | cons id ids ih =>
    rw [List.cons_append, fresh, fresh]
    split
    · exact ih
    · rw [ih, List.cons_append, List.cons_append]
      rw [fresh_congr_seen fun x => List.perm_middle.mem_iff]

/-- A search with a queue whose waiting modules are those of the agenda of a walk that were not
seen, each once, lists what the walk lists. -/
lemma queueSearch_walk (lm : LinkMap) (agenda : List ModuleId) (h : ∀ x, x ∈ ids ↔ x ∈ seen) :
    lm.QueueSearch ids.length (ids ++ fresh seen agenda)
      (ids ++ lm.walk .breadthFirst seen agenda) := by
  fun_induction lm.walk .breadthFirst seen agenda generalizing ids with
  | case1 seen =>
    simp only [fresh, List.append_nil]
    exact .done (by simp)
  | case2 seen id rest hmem ih =>
    rw [fresh, if_pos hmem]
    exact ih h
  | case3 seen id rest hmem ih =>
    have hids : ∀ x, x ∈ ids ++ [id] ↔ x ∈ id :: seen := fun x => by simp [h, or_comm]
    have hrest := ih hids
    have hnext : (ids ++ id :: fresh (id :: seen) rest)[ids.length]? = some id := by simp
    rw [fresh, if_neg hmem]
    refine .next hnext ?_
    simp only [Discipline.join, fresh_append, List.length_append, List.length_singleton,
      List.append_assoc, List.singleton_append] at hrest
    -- the list so far has what was seen and what is new in the agenda
    have hseen : fresh (ids ++ id :: fresh (id :: seen) rest) (lm.deps id)
        = fresh (fresh (id :: seen) rest ++ id :: seen) (lm.deps id) :=
      fresh_congr_seen fun x => by
        simp only [List.mem_append, List.mem_cons, h]
        tauto
    simpa only [Discipline.join, hseen, List.append_assoc, List.cons_append] using hrest

/-! ## The order of initialisers -/

/-- What the order is in which initialisers run. -/
structure ByLevels (lm : LinkMap) (root : ModuleId) (order : List ModuleId) : Prop where
  /-- A search with a queue that begins with the root ends, with the order read backwards. -/
  queueSearch_iff {result : List ModuleId} :
    lm.QueueSearch 0 [root] result ↔ result = order.reverse
  /-- Read backwards, the order is made of the levels. -/
  levels : ∃ n, order.reverse = (List.range n).flatMap (lm.level root) ∧
    ∀ k, n ≤ k → lm.level root k = []
  /-- No module is initialised twice. -/
  nodup : order.Nodup
  /-- The modules are those of the tree. -/
  perm_tree : order.Perm (lm.tree root)
  /-- Each of them has a distance from the root. -/
  exists_distance {id : ModuleId} : id ∈ order → ∃ k, lm.Distance root k id
  /-- A module that comes later is not farther from the root. -/
  pairwise : order.Pairwise fun a b => ∀ j k, lm.Distance root j a → lm.Distance root k b → k ≤ j
  /-- The root comes last. -/
  getLast?_eq : order.getLast? = some root

/-- **Initialisers run level by level, the farthest level first.** -/
theorem byLevels_initializationOrder (lm : LinkMap) (root : ModuleId) :
    lm.ByLevels root (lm.initializationOrder root) := by
  have hreverse : (lm.initializationOrder root).reverse = lm.walk .breadthFirst [] [root] :=
    List.reverse_reverse _
  obtain ⟨n, hlevels, hempty⟩ := lm.exists_levels root
  have hmem : ∀ {id}, id ∈ lm.initializationOrder root ↔ lm.Reaches root id := fun {id} => by
    rw [← List.mem_reverse, hreverse, mem_walk_iff]
    simp
  have hnodup : (lm.initializationOrder root).Nodup :=
    List.nodup_reverse.mpr (walk_nodup .breadthFirst [] [root])
  refine ⟨fun {result} => ?_, ⟨n, hreverse.trans hlevels, hempty⟩, hnodup, ?_, fun {id} hid => ?_,
    ?_, ?_⟩
  · have hnone : ∀ x, x ∈ ([] : List ModuleId) ↔ x ∈ ([] : List ModuleId) := fun _ => Iff.rfl
    have hsearch : lm.QueueSearch 0 [root] (lm.walk .breadthFirst [] [root]) :=
      lm.queueSearch_walk [root] hnone
    rw [hreverse]
    constructor
    · exact fun h => h.unique hsearch
    · rintro rfl
      exact hsearch
  · exact (List.perm_ext_iff_of_nodup hnodup (tree_nodup lm root)).mpr fun id => by
      rw [hmem, mem_tree]
  · rw [← List.mem_reverse, hreverse, hlevels, List.mem_flatMap] at hid
    obtain ⟨k, -, hk⟩ := hid
    exact ⟨k, mem_level_iff.mp hk⟩
  · rw [← List.pairwise_reverse, hreverse, hlevels]
    exact lm.pairwise_levels root n
  · rw [List.getLast?_eq_head?_reverse, hreverse, walk_cons_of_not_mem lm _ List.not_mem_nil]
    rfl

end DynamicLinker.LinkMap
