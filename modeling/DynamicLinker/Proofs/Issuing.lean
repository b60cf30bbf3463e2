/-
# What the issue of a handle changes

Before a handle is issued the tree of the module is promoted, if the mode says so, and the
initialisers run that are due in it.  Both go through the tree one module after the other, and
change one flag of each.  So afterwards every module of the tree has the flag, every other module
has the flag that it had, and to do the same again does nothing.

Promotion reorders the global list as well, but a module that becomes global goes behind all that
are global before, so the global scope only grows at its end.
-/
import DynamicLinker.Proofs.Soundness

namespace DynamicLinker

/-- A module that is global is not changed by being made global. -/
lemma Module.eq_of_isGlobal {m : Module} (h : m.isGlobal = true) :
    { m with isGlobal := true } = m := by
  rw [← h]

namespace LinkMap

/-- Has the initialiser of the module of a number run? -/
def initialized? (lm : LinkMap) (id : ModuleId) : Option Bool :=
  (lm.get? id).map Module.initialized

variable {lm : LinkMap} {id i root : ModuleId} {ids : List ModuleId}

/-! ## The global flag -/

/-- Of a module that is made global, only the flag changes. -/
lemma get?_promoteOne :
    (lm.promoteOne id).get? i
      = if i = id then (lm.get? i).map fun m => { m with isGlobal := true } else lm.get? i := by
  rw [promoteOne]
  cases hget : lm.get? id with
  | none =>
    by_cases hi : i = id
    · simp [hi, hget]
    · simp [hi]
  | some m =>
    by_cases hglobal : m.isGlobal = true
    · by_cases hi : i = id
      · simp [hi, hget, hglobal, Module.eq_of_isGlobal hglobal]
      · simp [hi, hglobal]
    · simp only [hglobal, Bool.false_eq_true, if_false]
      exact get?_modify id _ i

lemma get?_foldl_promoteOne :
    (ids.foldl promoteOne lm).get? i
      = if i ∈ ids then (lm.get? i).map fun m => { m with isGlobal := true } else lm.get? i := by
  induction ids generalizing lm with
  | nil => simp
  | cons id ids ih =>
    rw [List.foldl_cons, ih, get?_promoteOne]
    by_cases hi : i = id
    · by_cases hids : i ∈ ids <;> simp [hi, Function.comp_def]
    · simp [hi]

lemma global?_promoteOne :
    (lm.promoteOne id).global? i
      = if i = id then (lm.global? i).map fun _ => true else lm.global? i := by
  rw [global?, get?_promoteOne, global?]
  by_cases hi : i = id <;> simp [hi, Function.comp_def]

lemma global?_foldl_promoteOne :
    (ids.foldl promoteOne lm).global? i
      = if i ∈ ids then (lm.global? i).map fun _ => true else lm.global? i := by
  rw [global?, get?_foldl_promoteOne, global?]
  by_cases hi : i ∈ ids <;> simp [hi, Function.comp_def]

/-- After the promotion of a module exactly those are global that were so before or are in its
tree. -/
lemma global?_promote :
    (lm.promote root).global? i
      = if i ∈ lm.tree root then (lm.global? i).map fun _ => true else lm.global? i :=
  global?_foldl_promoteOne

lemma promoteOne_eq_self (h : lm.global? id ≠ some false) : lm.promoteOne id = lm := by
  rw [promoteOne]
  cases hget : lm.get? id with
  | none => rfl
  | some m =>
    have hglobal : m.isGlobal = true := by simpa [global?, hget] using h
    simp [hglobal]

lemma foldl_promoteOne_eq_self (h : ∀ id ∈ ids, lm.global? id ≠ some false) :
    ids.foldl promoteOne lm = lm := by
  induction ids with
  | nil => rfl
  | cons id ids ih =>
    rw [List.foldl_cons, promoteOne_eq_self (h id List.mem_cons_self)]
    exact ih fun i hi => h i (List.mem_cons_of_mem _ hi)

/-! ## The initialisation flag -/

lemma initialized?_markInitialized :
    (lm.markInitialized id).initialized? i
      = if i = id then (lm.initialized? i).map fun _ => true else lm.initialized? i := by
  simp only [initialized?, markInitialized, get?_modify]
  by_cases hi : i = id <;> cases lm.get? i <;> simp [hi]

lemma initialized?_foldl_markInitialized :
    (ids.foldl markInitialized lm).initialized? i
      = if i ∈ ids then (lm.initialized? i).map fun _ => true else lm.initialized? i := by
  induction ids generalizing lm with
  | nil => simp
  | cons id ids ih =>
    rw [List.foldl_cons, ih, initialized?_markInitialized]
    by_cases hi : i = id
    · by_cases hids : i ∈ ids <;> simp [hi]
    · simp [hi]

lemma mem_uninitialized :
    i ∈ lm.uninitialized root ↔ lm.Reaches root i ∧ lm.initialized? i = some false := by
  simp only [uninitialized, initializationOrder, List.mem_filter, List.mem_reverse, mem_walk_iff,
    List.mem_singleton, exists_eq_left, Option.any_eq_true, initialized?, Option.map_eq_some_iff,
    Bool.not_eq_true']

/-- Once the initialisers of a tree have run, none is due in it. -/
lemma uninitialized_initializeTree : (lm.initializeTree root).uninitialized root = [] := by
  rw [List.eq_nil_iff_forall_not_mem]
  intro i hi
  obtain ⟨hreaches, hdue⟩ := mem_uninitialized.mp hi
  rw [reaches_congr (lm.alike_initializeTree root).deps_eq] at hreaches
  rw [initializeTree, initialized?_foldl_markInitialized] at hdue
  split at hdue
  · simp at hdue
  · rename_i hnot
    exact hnot (mem_uninitialized.mpr ⟨hreaches, hdue⟩)

/-- Once the initialisers of a tree have run, to run them again does nothing. -/
lemma initializeTree_initializeTree (lm : LinkMap) (root : ModuleId) :
    (lm.initializeTree root).initializeTree root = lm.initializeTree root := by
  rw [initializeTree, uninitialized_initializeTree]
  rfl

@[simp] lemma global?_markInitialized : (lm.markInitialized id).global? i = lm.global? i :=
  global?_modify fun _ => rfl

@[simp] lemma global?_foldl_markInitialized :
    (ids.foldl markInitialized lm).global? i = lm.global? i := by
  induction ids generalizing lm with
  | nil => rfl
  | cons id ids ih => rw [List.foldl_cons, ih, global?_markInitialized]

@[simp] lemma order_foldl_markInitialized : (ids.foldl markInitialized lm).order = lm.order := by
  induction ids generalizing lm with
  | nil => rfl
  | cons id ids ih => exact ih

/-! ## The global scope -/

/-- The global scope has the modules of the global list that have the flag. -/
lemma globalScope_eq (lm : LinkMap) :
    lm.globalScope = lm.order.filter fun id => lm.global? id = some true := by
  refine List.filter_congr fun id _ => ?_
  cases hget : lm.get? id <;> simp [global?, hget]

/-- A module that is made global goes to the end of the global scope. -/
lemma globalScope_promoteOne (hnodup : lm.order.Nodup) :
    (lm.promoteOne id).globalScope
      = lm.globalScope ++ if id ∈ lm.order ∧ lm.global? id = some false then [id] else [] := by
  by_cases hlocal : lm.global? id = some false
  · obtain ⟨m, hm, hflag⟩ := Option.map_eq_some_iff.mp hlocal
    have horder : (lm.promoteOne id).order = moveToBack lm.order id := by
      simp [promoteOne, hm, hflag]
    have hself : (lm.promoteOne id).global? id = some true := by simp [global?_promoteOne, hlocal]
    -- away from the module itself the flags are what they were
    have hrest : ∀ ids : List ModuleId, id ∉ ids →
        (ids.filter fun i => (lm.promoteOne id).global? i = some true)
          = ids.filter fun i => lm.global? i = some true := by
      intro ids hids
      refine List.filter_congr fun i hi => ?_
      have hne : i ≠ id := fun heq => hids (heq ▸ hi)
      rw [global?_promoteOne, if_neg hne]
    rw [globalScope_eq, horder, moveToBack]
    by_cases hmem : id ∈ lm.order
    · have hpassed : ((lm.order.erase id).filter fun i => lm.global? i = some true)
          = lm.globalScope := by
        rw [globalScope_eq, hnodup.erase_eq_filter, List.filter_filter]
        refine List.filter_congr fun i _ => ?_
        by_cases hi : i = id <;> simp [hi, hlocal]
      rw [if_pos hmem, if_pos ⟨hmem, hlocal⟩, List.filter_append, hrest _ hnodup.not_mem_erase,
        hpassed]
      simp [hself]
    · rw [if_neg hmem, if_neg fun h => hmem h.1, hrest _ hmem, List.append_nil, globalScope_eq]
  · rw [promoteOne_eq_self hlocal, if_neg fun h => hlocal h.2, List.append_nil]

lemma globalScope_foldl_promoteOne (hnodup : lm.order.Nodup) :
    lm.globalScope <+: (ids.foldl promoteOne lm).globalScope := by
  induction ids generalizing lm with
  | nil => exact List.prefix_refl _
  | cons id ids ih =>
    have hnodup' : (lm.promoteOne id).order.Nodup := by
      rcases lm.promoteOne_eq id with heq | heq
      · rwa [heq]
      · rw [heq]
        exact (moveToBack_perm lm.order id).nodup_iff.mpr hnodup
    refine List.IsPrefix.trans ?_ (ih hnodup')
    rw [globalScope_promoteOne hnodup]
    exact List.prefix_append _ _

/-- **Promotion only appends to the global scope.** -/
theorem globalScope_promote (hnodup : lm.order.Nodup) (root : ModuleId) :
    lm.globalScope <+: (lm.promote root).globalScope :=
  globalScope_foldl_promoteOne hnodup

lemma globalScope_initializeTree (lm : LinkMap) (root : ModuleId) :
    (lm.initializeTree root).globalScope = lm.globalScope := by
  rw [globalScope_eq, globalScope_eq, initializeTree, order_foldl_markInitialized]
  simp only [global?_foldl_markInitialized]

end LinkMap

namespace Linker

/-- The linker of which a handle of a module is issued, when the module has been promoted. -/
def promoted (linker : Linker) (id : ModuleId) (mode : Mode) : Linker :=
  if mode.global then linker.withModules fun lm => lm.promote id else linker

lemma issue_eq (linker : Linker) (id : ModuleId) (mode : Mode) :
    linker.issue id mode = ⟨.ok ⟨linker.id, id⟩,
      (linker.promoted id mode).withModules fun lm => lm.initializeTree id,
      ((linker.promoted id mode).modules.namesOf
        ((linker.promoted id mode).modules.uninitialized id)).map .init⟩ := rfl

lemma alike_promoted (linker : Linker) (id : ModuleId) (mode : Mode) :
    linker.modules.Alike (linker.promoted id mode).modules := by
  rw [promoted]
  split
  · exact LinkMap.alike_promote _ id
  · exact LinkMap.Alike.refl _

lemma consistent_promoted {linker : Linker} (h : linker.modules.Consistent) (id : ModuleId)
    (mode : Mode) : (linker.promoted id mode).modules.Consistent := by
  rw [promoted]
  split
  · exact h.promote id
  · exact h

/-- The issue of a handle keeps the number of the linker. -/
@[simp] lemma id_issue (linker : Linker) (id : ModuleId) (mode : Mode) :
    (linker.issue id mode).linker.id = linker.id := by
  rw [issue]
  split <;> rfl

/-- The issue of a handle keeps a link map consistent. -/
lemma consistent_issue {linker : Linker} (h : linker.modules.Consistent) (id : ModuleId)
    (mode : Mode) : (linker.issue id mode).linker.modules.Consistent := by
  rw [issue]
  split
  · exact (h.promote id).initializeTree id
  · exact h.initializeTree id

/-- The issue of a handle only appends to the global scope. -/
lemma globalScope_issue {linker : Linker} (hnodup : linker.modules.order.Nodup) (id : ModuleId)
    (mode : Mode) :
    linker.modules.globalScope <+: (linker.issue id mode).linker.modules.globalScope := by
  rw [issue]
  split
  · refine (LinkMap.globalScope_promote hnodup id).trans ?_
    exact (LinkMap.globalScope_initializeTree _ id).symm ▸ List.prefix_refl _
  · exact (LinkMap.globalScope_initializeTree _ id).symm ▸ List.prefix_refl _

/-- **A handle that has been issued can be issued again, and then nothing happens.** -/
theorem issue_issue (linker : Linker) (id : ModuleId) (mode : Mode) :
    (linker.issue id mode).linker.issue id mode
      = ⟨.ok ⟨linker.id, id⟩, (linker.issue id mode).linker, []⟩ := by
  have hpromoted : ((linker.modules.promote id).initializeTree id).promote id
      = (linker.modules.promote id).initializeTree id := by
    refine LinkMap.foldl_promoteOne_eq_self fun i hi => ?_
    have htree : i ∈ linker.modules.tree id := by
      rw [LinkMap.mem_tree, LinkMap.reaches_congr (LinkMap.alike_initializeTree _ id).deps_eq,
        LinkMap.reaches_congr (LinkMap.alike_promote _ id).deps_eq] at hi
      exact LinkMap.mem_tree.mpr hi
    rw [LinkMap.initializeTree, LinkMap.global?_foldl_markInitialized, LinkMap.global?_promote,
      if_pos htree]
    cases linker.modules.global? i <;> simp
  by_cases hglobal : mode.global = true
  · simp only [issue, hglobal, if_true, withModules, hpromoted,
      LinkMap.initializeTree_initializeTree, LinkMap.uninitialized_initializeTree]
    rfl
  · simp only [issue, hglobal, Bool.false_eq_true, if_false, withModules,
      LinkMap.initializeTree_initializeTree, LinkMap.uninitialized_initializeTree]
    rfl

end Linker

end DynamicLinker
