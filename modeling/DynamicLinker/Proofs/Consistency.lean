/-
# Consistent link maps

The parts of a link map say the same thing in different ways: a module is stored under its
number, is found by its name, and stands in the global list once it is loaded.  A link map
is consistent when they agree, and when every dependency is on a module that is there.
Each operation keeps a link map consistent, provided that

* a module is registered only under a name that is free, and
* only modules that are not loaded are published, relocated or discarded.

The second condition is there because discarding leaves the global list alone.
-/
import DynamicLinker.Proofs.Views
import Mathlib.Data.List.Nodup
import Mathlib.Tactic.Tauto

namespace DynamicLinker.LinkMap

/-- A link map whose parts agree. -/
structure Consistent (lm : LinkMap) : Prop where
  /-- A module is stored under its number. -/
  id_eq {id : ModuleId} {m : Module} : lm.get? id = some m → m.id = id
  /-- The index has the names of the modules, each with its module. -/
  named_iff {name : Soname} {id : ModuleId} :
    lm.named? name = some id ↔ ∃ mapping, lm.mapping? id = some mapping ∧ mapping.name = name
  /-- Dependencies are modules. -/
  dep_live {a b : ModuleId} : b ∈ lm.deps a → (lm.get? b).isSome
  /-- The global list has no module twice. -/
  order_nodup : lm.order.Nodup
  /-- The global list has the loaded modules. -/
  mem_order_iff {id : ModuleId} : id ∈ lm.order ↔ lm.state? id = some .loaded

variable {lm : LinkMap} {id i : ModuleId} {ids : List ModuleId} {mapping : Mapping}

namespace Consistent

lemma named_of_mapping (h : lm.Consistent) (hid : lm.mapping? id = some mapping) :
    lm.named? mapping.name = some id :=
  h.named_iff.mpr ⟨mapping, hid, rfl⟩

/-- Two modules with one name are the same. -/
lemma id_unique {mapping' : Mapping} (h : lm.Consistent) (hid : lm.mapping? id = some mapping)
    (hi : lm.mapping? i = some mapping') (hname : mapping.name = mapping'.name) : id = i := by
  have hfound := h.named_of_mapping hid
  rw [hname, h.named_of_mapping hi] at hfound
  exact (Option.some.inj hfound).symm

lemma live_of_named {name : Soname} (h : lm.Consistent) (hname : lm.named? name = some id) :
    (lm.get? id).isSome := by
  obtain ⟨mapping, hid, -⟩ := h.named_iff.mp hname
  exact isSome_of_mapping? hid

/-- What a module reaches is there, if the module is. -/
lemma live_of_reaches (h : lm.Consistent) (hreach : lm.Reaches id i)
    (hid : (lm.get? id).isSome) : (lm.get? i).isSome :=
  hreach.closed (P := fun x => (lm.get? x).isSome) (fun _ _ _ hy => h.dep_live hy) hid

/-! ## Registering and changing modules -/

lemma empty : LinkMap.empty.Consistent where
  id_eq h := by simp at h
  named_iff := by simp [mapping?]
  dep_live h := by simp [deps] at h
  order_nodup := List.nodup_nil
  mem_order_iff {id} := by
    have hnone : LinkMap.empty.state? id = none := by simp [state?]
    have hnil : LinkMap.empty.order = [] := rfl
    simp [hnone, hnil]

lemma register (h : lm.Consistent) (hfree : lm.named? mapping.name = none) :
    (lm.register mapping).Consistent where
  id_eq {id m} hm := by
    rw [get?_register] at hm
    split at hm
    · rename_i hid
      rw [hid, ← Option.some.inj hm]
      rfl
    · exact h.id_eq hm
  named_iff {name id} := by
    have hnext : lm.mapping? lm.nextId = none := by simp [mapping?]
    rw [named?_register]
    simp only [mapping?_register]
    by_cases hid : id = lm.nextId
    · -- the new module answers to its own name only, as nothing was stored at its number
      subst hid
      have hother : lm.named? name ≠ some lm.nextId := by
        intro hname
        obtain ⟨mapping', hmapping', -⟩ := h.named_iff.mp hname
        simp [hnext] at hmapping'
      by_cases hname : name = mapping.name
      · simp [hname]
      · simp [hname, hother, Ne.symm hname]
    · by_cases hname : name = mapping.name
      · subst hname
        have hnone : ¬ ∃ mapping', lm.mapping? id = some mapping' ∧
            mapping'.name = mapping.name := by
          rw [← h.named_iff, hfree]
          simp
        simpa [hid, Ne.symm hid] using hnone
      · simpa [hid, hname] using h.named_iff
  dep_live {a b} hb := by
    rw [deps_register] at hb
    rw [get?_register]
    split
    · rfl
    · exact h.dep_live hb
  order_nodup := h.order_nodup
  mem_order_iff {id} := by
    have hnext : lm.state? lm.nextId = none := by simp [state?]
    have horder : (lm.register mapping).order = lm.order := rfl
    rw [horder, h.mem_order_iff, state?_register]
    by_cases hid : id = lm.nextId
    · simp [hid, hnext]
    · simp [hid]

/-- A change in place is harmless if it keeps what was mapped, depends on modules only, and
neither makes a module loaded nor ends that. -/
lemma modify (h : lm.Consistent) {f : Module → Module} (hid : ∀ m, (f m).id = m.id)
    (hmapping : ∀ m, (f m).toMapping = m.toMapping)
    (hdeps : ∀ a, ∀ b ∈ (lm.modify id f).deps a, (lm.get? b).isSome)
    (hstate : ∀ i, (lm.modify id f).state? i = some .loaded ↔ lm.state? i = some .loaded) :
    (lm.modify id f).Consistent where
  id_eq {j m} hm := by
    rw [get?_modify] at hm
    split at hm
    · obtain ⟨m', hm', rfl⟩ := Option.map_eq_some_iff.mp hm
      rw [hid]
      exact h.id_eq hm'
    · exact h.id_eq hm
  named_iff := by
    simp only [named?_modify, mapping?_modify hmapping]
    exact h.named_iff
  dep_live hb := by
    rw [isSome_congr (mapping?_modify hmapping)]
    exact hdeps _ _ hb
  order_nodup := h.order_nodup
  mem_order_iff {i} := h.mem_order_iff.trans (hstate i).symm

/-- The global list may be reordered. -/
lemma reorder (h : lm.Consistent) {order : List ModuleId} (hperm : order.Perm lm.order) :
    Consistent { lm with order } where
  id_eq := h.id_eq
  named_iff := h.named_iff
  dep_live := h.dep_live
  order_nodup := hperm.nodup_iff.mpr h.order_nodup
  mem_order_iff := hperm.mem_iff.trans h.mem_order_iff

lemma setGlobal (h : lm.Consistent) (isGlobal : Bool) : (lm.setGlobal id isGlobal).Consistent := by
  refine h.modify (fun _ => rfl) (fun _ => rfl) (fun a b hb => ?_) (fun i => ?_)
  · rw [deps_modify (f := fun m => { m with isGlobal }) fun _ => rfl] at hb
    exact h.dep_live hb
  · rw [state?_modify (f := fun m => { m with isGlobal }) fun _ => rfl]

lemma markInitialized (h : lm.Consistent) : (lm.markInitialized id).Consistent := by
  refine h.modify (fun _ => rfl) (fun _ => rfl) (fun a b hb => ?_) (fun i => ?_)
  · rw [← LinkMap.markInitialized, deps_markInitialized] at hb
    exact h.dep_live hb
  · rw [← LinkMap.markInitialized, state?_markInitialized]

lemma markRelocated (h : lm.Consistent) (hid : lm.state? id ≠ some .loaded) :
    (lm.markRelocated id).Consistent := by
  refine h.modify (fun _ => rfl) (fun _ => rfl) (fun a b hb => ?_) (fun i => ?_)
  · rw [← LinkMap.markRelocated, deps_markRelocated] at hb
    exact h.dep_live hb
  · rw [← LinkMap.markRelocated, state?_markRelocated]
    split
    · rename_i hi
      simp [hi, hid]
    · rfl

lemma addDep (h : lm.Consistent) {parent target : ModuleId} (hparent : (lm.get? parent).isSome)
    (htarget : (lm.get? target).isSome) : (lm.addDep parent target).Consistent := by
  have hmodify : lm.addDep parent target = lm.modify parent fun m => m.addDep target := by
    simp [LinkMap.addDep, htarget]
  rw [hmodify]
  refine h.modify (fun _ => rfl) (fun _ => rfl) (fun a b hb => ?_) (fun i => ?_)
  · rw [← hmodify, mem_deps_addDep hparent htarget] at hb
    rcases hb with hb | ⟨-, rfl⟩
    · exact h.dep_live hb
    · exact htarget
  · rw [← hmodify, state?_addDep]

/-! ## Publishing and discarding modules -/

lemma publish (h : lm.Consistent) (hlive : (lm.get? id).isSome)
    (hid : lm.state? id ≠ some .loaded) : (lm.publish id).Consistent where
  id_eq {j m} hm := by
    rw [get?_publish] at hm
    split at hm
    · obtain ⟨m', hm', rfl⟩ := Option.map_eq_some_iff.mp hm
      exact h.id_eq (m := m') hm'
    · exact h.id_eq hm
  named_iff := by
    simp only [named?_publish, mapping?_publish]
    exact h.named_iff
  dep_live hb := by
    rw [deps_publish] at hb
    rw [isSome_congr mapping?_publish]
    exact h.dep_live hb
  order_nodup := by
    rw [order_publish hlive]
    refine List.Nodup.append h.order_nodup (List.nodup_singleton id) ?_
    rw [List.disjoint_singleton]
    exact fun hmem => hid (h.mem_order_iff.mp hmem)
  mem_order_iff {j} := by
    rw [order_publish hlive, state?_publish, List.mem_append, List.mem_singleton, h.mem_order_iff]
    by_cases hj : j = id
    · obtain ⟨m, hm⟩ := Option.isSome_iff_exists.mp hlive
      simp [hj, state?_of_get? hm]
    · simp [hj]

lemma foldl_publish (h : lm.Consistent) (hnodup : ids.Nodup)
    (hlive : ∀ id ∈ ids, (lm.get? id).isSome)
    (hids : ∀ id ∈ ids, lm.state? id ≠ some .loaded) :
    (ids.foldl LinkMap.publish lm).Consistent := by
  induction ids generalizing lm with
  | nil => exact h
  | cons id ids ih =>
    obtain ⟨hnot, hnodup⟩ := List.nodup_cons.mp hnodup
    have hhead : (lm.publish id).Consistent :=
      h.publish (hlive id List.mem_cons_self) (hids id List.mem_cons_self)
    refine ih hhead hnodup (fun j hj => ?_) (fun j hj => ?_)
    · rw [isSome_congr mapping?_publish]
      exact hlive j (List.mem_cons_of_mem _ hj)
    · have hne : j ≠ id := fun heq => hnot (heq ▸ hj)
      rw [state?_publish, if_neg hne]
      exact hids j (List.mem_cons_of_mem _ hj)

/-- Discarding a module frees its name. -/
lemma named?_discard (h : lm.Consistent) (hid : lm.mapping? id = some mapping) (name : Soname) :
    (lm.discard id).named? name = if name = mapping.name then none else lm.named? name := by
  obtain ⟨m, hm, rfl⟩ := mapping?_eq_some.mp hid
  simp only [LinkMap.named?_discard hm, h.named_of_mapping hid, true_and]

lemma discard (h : lm.Consistent) (hid : lm.state? id ≠ some .loaded) :
    (lm.discard id).Consistent := by
  cases hmapping : lm.mapping? id with
  | none =>
    have hget : lm.get? id = none := by simpa [mapping?] using hmapping
    have hsame : lm.discard id = lm := by simp [LinkMap.discard, hget]
    rwa [hsame]
  | some mapping =>
    refine ⟨?_, ?_, ?_, ?_, ?_⟩
    · intro j m hm
      rw [get?_discard] at hm
      split at hm
      · split at hm
        · simp at hm
        · exact h.id_eq hm
      · obtain ⟨m', hm', rfl⟩ := Option.map_eq_some_iff.mp hm
        exact h.id_eq (m := m') hm'
    · intro name j
      rw [h.named?_discard hmapping, mapping?_discard]
      by_cases hj : j = id
      · subst hj
        by_cases hname : name = mapping.name
        · simp [hname]
        · have hother : lm.named? name ≠ some j := by
            intro hfound
            obtain ⟨mapping', hmapping', rfl⟩ := h.named_iff.mp hfound
            exact hname (by rw [Option.some.inj (hmapping'.symm.trans hmapping)])
          simp [hname, hother]
      · by_cases hname : name = mapping.name
        · -- another module of that name would be the discarded one
          subst hname
          simp only [if_true, if_neg hj, reduceCtorEq, false_iff, not_exists, not_and]
          intro mapping' hmapping' hsame
          exact hj (h.id_unique hmapping' hmapping hsame)
        · simp only [if_neg hname, if_neg hj]
          exact h.named_iff
    · intro a b hb
      obtain ⟨-, hne, hb⟩ := (mem_deps_discard fun _ _ => h.dep_live).mp hb
      rw [← isSome_mapping?, mapping?_discard, if_neg hne, isSome_mapping?]
      exact h.dep_live hb
    · rw [order_discard]
      exact h.order_nodup
    · intro j
      rw [order_discard, h.mem_order_iff, state?_discard]
      by_cases hj : j = id
      · simp [hj, hid]
      · simp [hj]

/-- Discarding loads nothing. -/
lemma state?_discard_ne_loaded (hi : lm.state? i ≠ some .loaded) :
    (lm.discard id).state? i ≠ some .loaded := by
  rw [state?_discard]
  split
  · simp
  · exact hi

lemma foldl_discard (h : lm.Consistent) (hids : ∀ id ∈ ids, lm.state? id ≠ some .loaded) :
    (ids.foldl LinkMap.discard lm).Consistent := by
  induction ids generalizing lm with
  | nil => exact h
  | cons id ids ih =>
    exact ih (h.discard (hids id List.mem_cons_self)) fun j hj =>
      state?_discard_ne_loaded (hids j (List.mem_cons_of_mem _ hj))

/-- The dependencies that are left are those between modules that are left. -/
lemma mem_deps_foldl_discard (h : lm.Consistent)
    (hids : ∀ id ∈ ids, lm.state? id ≠ some .loaded) {t : ModuleId} :
    t ∈ (ids.foldl LinkMap.discard lm).deps i ↔ i ∉ ids ∧ t ∉ ids ∧ t ∈ lm.deps i := by
  induction ids generalizing lm with
  | nil => simp
  | cons id ids ih =>
    have hrest : ∀ j ∈ ids, (lm.discard id).state? j ≠ some .loaded := fun j hj =>
      state?_discard_ne_loaded (hids j (List.mem_cons_of_mem _ hj))
    rw [List.foldl_cons, ih (h.discard (hids id List.mem_cons_self)) hrest,
      mem_deps_discard fun _ _ => h.dep_live]
    simp only [List.mem_cons, not_or]
    tauto

/-- A module that is left, and depended on none of the discarded, stays as it was. -/
lemma get?_foldl_discard (h : lm.Consistent) (hids : ∀ id ∈ ids, lm.state? id ≠ some .loaded)
    (hi : i ∉ ids) (hdeps : ∀ t ∈ lm.deps i, t ∉ ids) :
    (ids.foldl LinkMap.discard lm).get? i = lm.get? i := by
  induction ids generalizing lm with
  | nil => rfl
  | cons id ids ih =>
    rw [List.mem_cons, not_or] at hi
    obtain ⟨hne, hi⟩ := hi
    have hnot : id ∉ lm.deps i := fun hid => hdeps id hid List.mem_cons_self
    have hhead := get?_discard_of_not_mem_deps hne hnot
    have hrest : ∀ j ∈ ids, (lm.discard id).state? j ≠ some .loaded := fun j hj =>
      state?_discard_ne_loaded (hids j (List.mem_cons_of_mem _ hj))
    rw [List.foldl_cons, ih (h.discard (hids id List.mem_cons_self)) hrest hi ?_, hhead]
    intro t ht hmem
    rw [deps_congr hhead] at ht
    exact hdeps t ht (List.mem_cons_of_mem _ hmem)

/-! ## Promoting and initialising -/

lemma promoteOne (h : lm.Consistent) : (lm.promoteOne id).Consistent := by
  rcases lm.promoteOne_eq id with heq | heq
  · rwa [heq]
  · rw [heq]
    exact (h.setGlobal true).reorder (moveToBack_perm lm.order id)

lemma foldl_promoteOne (h : lm.Consistent) : (ids.foldl LinkMap.promoteOne lm).Consistent := by
  induction ids generalizing lm with
  | nil => exact h
  | cons id ids ih => exact ih h.promoteOne

lemma promote (h : lm.Consistent) (root : ModuleId) : (lm.promote root).Consistent :=
  h.foldl_promoteOne

lemma foldl_markInitialized (h : lm.Consistent) :
    (ids.foldl LinkMap.markInitialized lm).Consistent := by
  induction ids generalizing lm with
  | nil => exact h
  | cons id ids ih => exact ih h.markInitialized

lemma initializeTree (h : lm.Consistent) (root : ModuleId) : (lm.initializeTree root).Consistent :=
  h.foldl_markInitialized

end Consistent

end DynamicLinker.LinkMap
