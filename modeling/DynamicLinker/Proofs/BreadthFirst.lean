/-
# Breadth first, level by level

A breadth-first walk lists its root, then what is one dependency away, then what is two away, and
so on.  What it lists in one of these rounds is a level: the dependencies of the level before, in
order, without those that were listed already.

By induction on the rounds, the modules of the first `k` levels are exactly those to which a path
of fewer than `k` dependencies leads.  So of two modules the one with the shorter path is listed
first, and initialised last.
-/
import DynamicLinker.LinkMap.Initialization
import DynamicLinker.Proofs.Reachability

namespace DynamicLinker.LinkMap

/-! ## Paths -/

/-- A path of the given number of dependencies leads from one module to another. -/
inductive Path (lm : LinkMap) (a : ModuleId) : Nat → ModuleId → Prop where
  /-- No dependency leads from a module to itself. -/
  | refl : Path lm a 0 a
  /-- A path goes on by a dependency of the module to which it has led. -/
  | tail {k : Nat} {b c : ModuleId} (hab : Path lm a k b) (hbc : c ∈ lm.deps b) :
      Path lm a (k + 1) c

variable {lm lm' : LinkMap} {a b x root : ModuleId} {k : Nat}

/-- Only the dependencies of a link map matter for its paths. -/
lemma Path.congr (h : lm.Path a k b) (hdeps : ∀ x, lm'.deps x = lm.deps x) : lm'.Path a k b := by
  induction h with
  | refl => exact .refl
  | tail _ hbc ih => exact ih.tail (by rwa [hdeps])

/-! ## One level -/

/-- The modules of a list that were not seen, each where it first stands. -/
def fresh (seen : List ModuleId) : List ModuleId → List ModuleId
  | [] => []
  | id :: ids => if id ∈ seen then fresh seen ids else id :: fresh (id :: seen) ids

variable {seen seen' ids agenda rest : List ModuleId} {discipline : Discipline}

lemma mem_fresh : x ∈ fresh seen ids ↔ x ∈ ids ∧ x ∉ seen := by
  induction ids generalizing seen with
  | nil => simp [fresh]
  | cons id ids ih =>
    rw [fresh]
    split
    · rename_i hmem
      rw [ih, List.mem_cons]
      constructor
      · exact fun h => ⟨Or.inr h.1, h.2⟩
      · rintro ⟨rfl | h, hx⟩
        · exact absurd hmem hx
        · exact ⟨h, hx⟩
    · rename_i hmem
      rw [List.mem_cons, ih, List.mem_cons, List.mem_cons, not_or]
      by_cases hx : x = id
      · simp [hx, hmem]
      · simp [hx]

/-- Of the modules that were seen, only the set matters for a walk. -/
lemma walk_congr_seen (h : ∀ x, x ∈ seen' ↔ x ∈ seen) :
    lm.walk discipline seen' agenda = lm.walk discipline seen agenda := by
  fun_induction lm.walk discipline seen agenda generalizing seen' with
  | case1 => simp
  | case2 seen id rest hmem ih =>
    rw [walk_cons_of_mem lm discipline ((h id).mpr hmem)]
    exact ih h
  | case3 seen id rest hmem ih =>
    rw [walk_cons_of_not_mem lm discipline fun hin => hmem ((h id).mp hin)]
    rw [ih fun x => by rw [List.mem_cons, List.mem_cons, h]]

/-- A breadth-first walk lists what is new in front of its agenda, and puts the dependencies of
that behind the rest. -/
lemma walk_breadthFirst_append (lm : LinkMap) (seen ids rest : List ModuleId) :
    lm.walk .breadthFirst seen (ids ++ rest)
      = fresh seen ids ++ lm.walk .breadthFirst (seen ++ fresh seen ids)
          (rest ++ (fresh seen ids).flatMap lm.deps) := by
  induction ids generalizing seen rest with
  | nil => simp [fresh]
  | cons id ids ih =>
    rw [fresh, List.cons_append]
    split
    · rename_i hmem
      rw [walk_cons_of_mem lm _ hmem, ih]
    · rename_i hmem
      rw [walk_cons_of_not_mem lm _ hmem, Discipline.join, List.append_assoc, ih]
      rw [List.flatMap_cons, List.cons_append, ← List.append_assoc rest]
      rw [walk_congr_seen fun x => List.perm_middle.symm.mem_iff]
      rfl

/-! ## All levels -/

mutual

/-- What a breadth-first walk lists before the level of the given number. -/
def nearer (lm : LinkMap) (root : ModuleId) : Nat → List ModuleId
  | 0 => []
  | k + 1 => lm.nearer root k ++ lm.level root k

/-- The level of the given number: the root, or what is new among the dependencies of the level
before. -/
def level (lm : LinkMap) (root : ModuleId) : Nat → List ModuleId
  | 0 => [root]
  | k + 1 => fresh (lm.nearer root k ++ lm.level root k) ((lm.level root k).flatMap lm.deps)

end

/-- A breadth-first walk goes level by level. -/
lemma walk_breadthFirst_eq (lm : LinkMap) (root : ModuleId) (k : Nat) :
    lm.walk .breadthFirst [] [root]
      = lm.nearer root (k + 1) ++ lm.walk .breadthFirst (lm.nearer root (k + 1))
          ((lm.level root k).flatMap lm.deps) := by
  induction k with
  | zero =>
    have hfirst := lm.walk_breadthFirst_append [] [root] []
    simpa [nearer, level, fresh] using hfirst
  | succ k ih =>
    have hnext := lm.walk_breadthFirst_append (lm.nearer root (k + 1))
      ((lm.level root k).flatMap lm.deps) []
    rw [List.append_nil, List.nil_append] at hnext
    rw [ih, hnext, ← List.append_assoc]
    rfl

/-- A level adds the dependencies of the one before. -/
lemma mem_nearer_add_two :
    x ∈ lm.nearer root (k + 2) ↔
      x ∈ lm.nearer root (k + 1) ∨ ∃ y ∈ lm.level root k, x ∈ lm.deps y := by
  rw [nearer, level, List.mem_append, mem_fresh, ← nearer, List.mem_flatMap]
  by_cases hx : x ∈ lm.nearer root (k + 1)
  · simp [hx]
  · simp [hx]

/-- **The first levels have what short paths lead to.** -/
theorem mem_nearer_iff : x ∈ lm.nearer root k ↔ ∃ j < k, lm.Path root j x := by
  induction k using Nat.strongRecOn generalizing x with
  | ind k ih =>
    match k with
    | 0 => simp [nearer]
    | 1 =>
      simp only [nearer, level, List.nil_append, List.mem_singleton, Nat.lt_one_iff,
        exists_eq_left]
      constructor
      · rintro rfl
        exact .refl
      · rintro ⟨⟩
        rfl
    | k + 2 =>
      rw [mem_nearer_add_two, ih (k + 1) (by omega)]
      constructor
      · rintro (⟨j, hj, hpath⟩ | ⟨y, hy, hx⟩)
        · exact ⟨j, by omega, hpath⟩
        · have hy' : y ∈ lm.nearer root (k + 1) := by simp [nearer, hy]
          obtain ⟨j, hj, hpath⟩ := (ih (k + 1) (by omega)).mp hy'
          exact ⟨j + 1, by omega, hpath.tail hx⟩
      · rintro ⟨j, hj, hpath⟩
        cases hpath with
        | refl => exact Or.inl ⟨0, by omega, .refl⟩
        | @tail j y _ hpath hx =>
          -- the module before the last one on the path is in the last level, or nearer
          have hy := (ih (k + 1) (by omega)).mpr ⟨j, by omega, hpath⟩
          rw [nearer, List.mem_append] at hy
          rcases hy with hy | hy
          · obtain ⟨i, hi, hpath⟩ := (ih k (by omega)).mp hy
            exact Or.inl ⟨i + 1, by omega, hpath.tail hx⟩
          · exact Or.inr ⟨y, hy, hx⟩

/-- **The farther of two modules is initialised first.** -/
theorem sublist_initializationOrder {near far : ModuleId} (hnear : lm.Path root k near)
    (hfar : lm.Reaches root far) (hlonger : ∀ j, lm.Path root j far → k < j) :
    [far, near].Sublist (lm.initializationOrder root) := by
  have hin : near ∈ lm.nearer root (k + 1) := mem_nearer_iff.mpr ⟨k, by omega, hnear⟩
  have hout : far ∉ lm.nearer root (k + 1) := by
    intro hmem
    obtain ⟨j, hj, hpath⟩ := mem_nearer_iff.mp hmem
    have := hlonger j hpath
    omega
  have hlisted : far ∈ lm.walk .breadthFirst [] [root] :=
    mem_walk_iff.mpr ⟨root, List.mem_singleton_self root, hfar⟩
  rw [initializationOrder, ← List.reverse_sublist, List.reverse_reverse]
  rw [lm.walk_breadthFirst_eq root k] at hlisted ⊢
  have hlater := (List.mem_append.mp hlisted).resolve_left hout
  exact (List.singleton_sublist.mpr hin).append (List.singleton_sublist.mpr hlater)

end DynamicLinker.LinkMap
