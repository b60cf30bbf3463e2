/-
# What promotion moves

To promote a module is to go through its tree and to make each module global that is not yet.  A
module that becomes global moves to the back of the global list, as far as it is in the list.  So
while a promotion goes on, the list has two parts: in front what was not met and what was global
before, in the old order, and behind that what has become global, in the order of the tree.

The tree has no module twice, so what becomes of a module depends on its own flag only, and on
whether it is in the list.  The main result is `promotes_promote`: the modules of the tree that are
not global are the ones that change their flag, they go to the back of the list in the order of the
tree, all else stays, and to promote the module again does nothing.
-/
import DynamicLinker.Proofs.Issuing

namespace DynamicLinker

namespace LinkMap

variable {lm : LinkMap} {id root : ModuleId} {ids order : List ModuleId}

/-- The modules of a list that are not global, in order. -/
def localAmong (lm : LinkMap) (ids : List ModuleId) : List ModuleId :=
  ids.filter fun id => lm.global? id = some false

/-- The modules that the promotion of a module makes global, in the order of its tree. -/
def newlyGlobal (lm : LinkMap) (root : ModuleId) : List ModuleId := lm.localAmong (lm.tree root)

lemma mem_newlyGlobal :
    id ∈ lm.newlyGlobal root ↔ lm.Reaches root id ∧ lm.global? id = some false := by
  simp [newlyGlobal, localAmong]

/-! ## One module -/

/-- Of a list without repetitions, a module is taken out and put behind it, if it is there. -/
lemma moveToBack_eq (h : order.Nodup) (id : ModuleId) :
    moveToBack order id = order.filter (· ≠ id) ++ [id].filter (· ∈ order) := by
  rw [moveToBack]
  by_cases hid : id ∈ order
  · rw [if_pos hid, List.filter_cons_of_pos (by simpa using hid), List.filter_nil,
      h.erase_eq_filter]
    congr 1
    exact List.filter_congr fun i _ => by rw [decide_not]; rfl
  · rw [if_neg hid, List.filter_cons_of_neg (by simpa using hid), List.filter_nil,
      List.append_nil]
    refine (List.filter_eq_self.mpr fun i hi => ?_).symm
    have hne : i ≠ id := fun heq => hid (heq ▸ hi)
    simpa using hne

lemma promoteOne_of_local (h : lm.global? id = some false) :
    lm.promoteOne id = { lm.setGlobal id true with order := moveToBack lm.order id } := by
  obtain ⟨m, hm, hflag⟩ := Option.map_eq_some_iff.mp h
  simp [promoteOne, hm, hflag]

@[simp] lemma names_promoteOne : (lm.promoteOne id).names = lm.names := by
  rcases lm.promoteOne_eq id with h | h <;> rw [h]
  rfl

/-! ## Several modules -/

lemma names_foldl_promoteOne : (ids.foldl promoteOne lm).names = lm.names := by
  induction ids generalizing lm with
  | nil => rfl
  | cons id ids ih => rw [List.foldl_cons, ih, names_promoteOne]

lemma order_foldl_promoteOne_perm : (ids.foldl promoteOne lm).order.Perm lm.order := by
  induction ids generalizing lm with
  | nil => exact List.Perm.refl _
  | cons id ids ih =>
    refine ih.trans ?_
    rcases lm.promoteOne_eq id with h | h
    · rw [h]
    · rw [h]
      exact moveToBack_perm lm.order id

/-- To make a module global does not matter for the flags of others. -/
lemma localAmong_promoteOne (h : id ∉ ids) :
    (lm.promoteOne id).localAmong ids = lm.localAmong ids := by
  refine List.filter_congr fun i hi => ?_
  have hne : i ≠ id := fun heq => h (heq ▸ hi)
  rw [global?_promoteOne, if_neg hne]

/-- **Of different modules, those that are not global go to the back of the list, in their
order.** -/
theorem order_foldl_promoteOne (hids : ids.Nodup) (hnodup : lm.order.Nodup) :
    (ids.foldl promoteOne lm).order
      = lm.order.filter (· ∉ lm.localAmong ids) ++ (lm.localAmong ids).filter (· ∈ lm.order) := by
  induction ids generalizing lm with
  | nil => simp [localAmong]
  | cons id ids ih =>
    obtain ⟨hid, hids⟩ := List.nodup_cons.mp hids
    rw [List.foldl_cons]
    by_cases hlocal : lm.global? id = some false
    · -- this module is behind what was there, and those that are met later go behind it
      have hperm : (lm.promoteOne id).order.Perm lm.order := by
        rw [promoteOne_of_local hlocal]
        exact moveToBack_perm lm.order id
      have hcons : lm.localAmong (id :: ids) = id :: lm.localAmong ids := by
        simp [localAmong, hlocal]
      have hnot : id ∉ lm.localAmong ids := fun h => hid (List.mem_of_mem_filter h)
      rw [ih hids (hperm.nodup_iff.mpr hnodup), localAmong_promoteOne hid, hcons]
      have hlater : (lm.localAmong ids).filter (· ∈ (lm.promoteOne id).order)
          = (lm.localAmong ids).filter (· ∈ lm.order) :=
        List.filter_congr fun i _ => decide_eq_decide.mpr hperm.mem_iff
      have hself : ([id].filter (· ∈ lm.order)).filter (· ∉ lm.localAmong ids)
          = [id].filter (· ∈ lm.order) := by
        refine List.filter_eq_self.mpr fun i hi => ?_
        rw [List.mem_singleton.mp (List.mem_of_mem_filter hi)]
        simpa using hnot
      have hfront : (lm.order.filter (· ≠ id)).filter (· ∉ lm.localAmong ids)
          = lm.order.filter (· ∉ id :: lm.localAmong ids) := by
        rw [List.filter_filter]
        exact List.filter_congr fun i _ => by simp [Bool.and_comm]
      rw [hlater, promoteOne_of_local hlocal, moveToBack_eq hnodup, List.filter_append, hself,
        hfront, List.append_assoc, ← List.filter_append, List.singleton_append]
    · have hcons : lm.localAmong (id :: ids) = lm.localAmong ids := by
        simp [localAmong, hlocal]
      rw [promoteOne_eq_self hlocal, ih hids hnodup, hcons]

/-- A module that is promoted again stays as it is, and so does all else. -/
lemma promote_promote (lm : LinkMap) (root : ModuleId) :
    (lm.promote root).promote root = lm.promote root := by
  refine foldl_promoteOne_eq_self fun id hid => ?_
  rw [mem_tree, reaches_congr (alike_promote lm root).deps_eq] at hid
  rw [global?_promote, if_pos (mem_tree.mpr hid)]
  cases lm.global? id <;> simp

/-! ## The promotion of a module -/

/-- What the promotion of a module makes of a link map. -/
structure Promotes (lm : LinkMap) (root : ModuleId) (after : LinkMap) : Prop where
  /-- The modules that become global go behind the others, in the order of the tree, as far as they
  are in the list.  The others keep their order. -/
  order_eq : after.order
    = lm.order.filter (· ∉ lm.newlyGlobal root) ++ (lm.newlyGlobal root).filter (· ∈ lm.order)
  /-- No module joins the list or leaves it. -/
  order_perm : after.order.Perm lm.order
  /-- The modules whose flag changes are those that become global. -/
  global?_ne_iff {id : ModuleId} : after.global? id ≠ lm.global? id ↔ id ∈ lm.newlyGlobal root
  /-- All else of a module stays, and each other module stays as it is. -/
  get?_eq {id : ModuleId} : after.get? id
    = if id ∈ lm.newlyGlobal root then (lm.get? id).map fun m => { m with isGlobal := true }
      else lm.get? id
  /-- The modules are found by the same names. -/
  names_eq : after.names = lm.names
  /-- To promote the module again changes nothing. -/
  again : after.promote root = after

/-- **Promotion moves the modules that become global to the back, in the order of the tree.** -/
theorem promotes_promote (h : lm.order.Nodup) (root : ModuleId) :
    lm.Promotes root (lm.promote root) where
  order_eq := order_foldl_promoteOne (tree_nodup lm root) h
  order_perm := order_foldl_promoteOne_perm
  global?_ne_iff {id} := by
    rw [global?_promote, mem_newlyGlobal, ← mem_tree]
    by_cases hid : id ∈ lm.tree root
    · cases hflag : lm.global? id <;> simp [hid]
    · simp [hid]
  get?_eq {id} := by
    rw [promote, get?_foldl_promoteOne]
    by_cases hid : id ∈ lm.tree root
    · by_cases hlocal : id ∈ lm.newlyGlobal root
      · rw [if_pos hid, if_pos hlocal]
      · -- a module of the tree that is not made global has the flag already, or is not there
        rw [if_pos hid, if_neg hlocal]
        cases hget : lm.get? id with
        | none => rfl
        | some m =>
          have hglobal : m.isGlobal = true := by
            simpa [mem_newlyGlobal, mem_tree.mp hid, global?, hget] using hlocal
          simp [Module.eq_of_isGlobal hglobal]
    · rw [if_neg hid, if_neg fun hlocal => hid (mem_tree.mpr (mem_newlyGlobal.mp hlocal).1)]
  names_eq := names_foldl_promoteOne
  again := promote_promote lm root

/-- The module `root` needs `c` and the global module `g`; `c` needs `d` and `u`, which is not in
the list, and `d` needs `root`.  The promotion of `root` moves it behind the global module `h`, on
which nothing depends, and `c` and `d` behind it; `g` keeps its place, and `u` becomes global as
well. -/
theorem promotes_promote_of_cycle :
    ∃ lm : LinkMap, lm.order = [0, 1, 2, 3, 4] ∧ lm.order.Nodup ∧ lm.globalScope = [0, 3] ∧
      lm.tree 4 = [4, 1, 2, 5, 0] ∧ lm.newlyGlobal 4 = [4, 1, 2, 5] ∧
      lm.Promotes 4 (lm.promote 4) ∧ (lm.promote 4).order = [0, 3, 4, 1, 2] ∧
      (lm.promote 4).global? 5 = some true := by
  let registered : LinkMap := ["g", "c", "d", "h", "root", "u"].foldl
    (fun lm name => lm.register ⟨⟨name⟩, 0x1000, .empty, false⟩) .empty
  let published := [0, 1, 2, 3, 4].foldl publish registered
  let linked : LinkMap := [(4, 1), (4, 0), (1, 2), (1, 5), (2, 4)].foldl
    (fun lm dep => lm.addDep dep.1 dep.2) published
  let lm := (linked.setGlobal 0 true).setGlobal 3 true
  have hnodup : lm.order.Nodup := by decide +kernel
  exact ⟨lm, by decide +kernel, hnodup, by decide +kernel, by decide +kernel, by decide +kernel,
    promotes_promote hnodup 4, by decide +kernel, by decide +kernel⟩

end LinkMap

end DynamicLinker
