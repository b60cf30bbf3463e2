/-
# Views of link maps

What an operation of a link map does is said through a few views: how far a module has been
linked, what was mapped for it, which modules it depends on, and the global list.  The view
of the mapping never changes as long as a module stays.

The operations on whole lists of modules, publishing, discarding and promoting them one
after the other, have the same views at the end of this file.
-/
import DynamicLinker.LinkMap.Initialization
import DynamicLinker.LinkMap.Promotion
import DynamicLinker.Proofs.Reachability

namespace DynamicLinker

namespace LinkMap

/-- How far the module of a number has been linked. -/
def state? (lm : LinkMap) (id : ModuleId) : Option ModuleState := (lm.get? id).map Module.state

/-- Is the module of a number part of the global scope? -/
def global? (lm : LinkMap) (id : ModuleId) : Option Bool := (lm.get? id).map Module.isGlobal

/-- What the module of a number is. -/
def mapping? (lm : LinkMap) (id : ModuleId) : Option Mapping :=
  (lm.get? id).map Module.toMapping

variable {lm : LinkMap} {id i : ModuleId} {m : Module} {s : ModuleState}

lemma state?_eq_some : lm.state? id = some s ↔ ∃ m, lm.get? id = some m ∧ m.state = s :=
  Option.map_eq_some_iff

lemma state?_of_get? (h : lm.get? id = some m) : lm.state? id = some m.state := by
  simp [state?, h]

@[simp] lemma isSome_state? : (lm.state? id).isSome = (lm.get? id).isSome := by
  simp [state?]

lemma isSome_of_state? (h : lm.state? id = some s) : (lm.get? id).isSome := by
  rw [← isSome_state?, h]
  rfl

lemma mapping?_eq_some {mapping : Mapping} :
    lm.mapping? id = some mapping ↔ ∃ m, lm.get? id = some m ∧ m.toMapping = mapping :=
  Option.map_eq_some_iff

lemma mapping?_of_get? (h : lm.get? id = some m) : lm.mapping? id = some m.toMapping := by
  simp [mapping?, h]

lemma isSome_of_mapping? {mapping : Mapping} (h : lm.mapping? id = some mapping) :
    (lm.get? id).isSome := by
  obtain ⟨m, hm, -⟩ := mapping?_eq_some.mp h
  simp [hm]

@[simp] lemma isSome_mapping? : (lm.mapping? id).isSome = (lm.get? id).isSome := by
  simp [mapping?]

/-- Where two link maps map the same, either both have a module or neither has. -/
lemma isSome_congr {lm' : LinkMap} (h : lm'.mapping? i = lm.mapping? i) :
    (lm'.get? i).isSome = (lm.get? i).isSome := by
  rw [← isSome_mapping?, h, isSome_mapping?]

lemma isLoaded_iff : lm.isLoaded id = true ↔ lm.state? id = some .loaded := by
  simp [isLoaded, state?_eq_some, Module.isLoaded, Option.any_eq_true]

lemma deps_of_get? (h : lm.get? id = some m) : lm.deps id = m.targets := by
  simp [deps, h]

lemma deps_of_get?_none (h : lm.get? id = none) : lm.deps id = [] := by
  simp [deps, h]

lemma isSome_of_mem_deps {t : ModuleId} (h : t ∈ lm.deps id) : (lm.get? id).isSome := by
  cases hget : lm.get? id with
  | none => simp [deps_of_get?_none hget] at h
  | some m => rfl

/-- Where two link maps store the same module, its dependencies are the same. -/
lemma deps_congr {lm' : LinkMap} (h : lm'.get? i = lm.get? i) : lm'.deps i = lm.deps i := by
  simp [deps, h]

/-- A tree awaits a loading module exactly when its root reaches one. -/
lemma awaitsLoading_iff :
    lm.awaitsLoading id = true ↔ ∃ x, lm.Reaches id x ∧ lm.state? x = some .loading := by
  simp only [awaitsLoading, List.any_eq_true, mem_tree, Option.any_eq_true, decide_eq_true_eq,
    state?_eq_some]

/-! ## Views of the operations -/

variable {mapping : Mapping} {parent target : ModuleId}

lemma state?_register :
    (lm.register mapping).state? i = if i = lm.nextId then some .loading else lm.state? i := by
  simp only [state?, get?_register]
  split <;> rfl

lemma mapping?_register :
    (lm.register mapping).mapping? i = if i = lm.nextId then some mapping else lm.mapping? i := by
  simp only [mapping?, get?_register]
  split <;> rfl

lemma global?_register :
    (lm.register mapping).global? i = if i = lm.nextId then some false else lm.global? i := by
  simp only [global?, get?_register]
  split <;> rfl

/-- A module has no dependencies when it is registered. -/
@[simp] lemma deps_register : (lm.register mapping).deps i = lm.deps i := by
  by_cases hi : i = lm.nextId
  · subst hi
    have hnew : (lm.register mapping).get? lm.nextId = some (mapping.toModule lm.nextId) := by
      simp [get?_register]
    rw [deps_of_get? hnew, deps_of_get?_none get?_nextId]
    rfl
  · exact deps_congr (by simp [get?_register, hi])

/-- A change that keeps the states of modules keeps the state of every number. -/
lemma state?_modify {f : Module → Module} (hf : ∀ m, (f m).state = m.state) :
    (lm.modify id f).state? i = lm.state? i := by
  simp only [state?, get?_modify]
  split
  · rw [Option.map_map]
    exact congrArg (fun g => (lm.get? i).map g) (funext hf)
  · rfl

lemma mapping?_modify {f : Module → Module} (hf : ∀ m, (f m).toMapping = m.toMapping) :
    (lm.modify id f).mapping? i = lm.mapping? i := by
  simp only [mapping?, get?_modify]
  split
  · rw [Option.map_map]
    exact congrArg (fun g => (lm.get? i).map g) (funext hf)
  · rfl

lemma global?_modify {f : Module → Module} (hf : ∀ m, (f m).isGlobal = m.isGlobal) :
    (lm.modify id f).global? i = lm.global? i := by
  simp only [global?, get?_modify]
  split
  · rw [Option.map_map]
    exact congrArg (fun g => (lm.get? i).map g) (funext hf)
  · rfl

lemma deps_modify {f : Module → Module} (hf : ∀ m, (f m).targets = m.targets) :
    (lm.modify id f).deps i = lm.deps i := by
  by_cases hi : i = id
  · subst hi
    cases hget : lm.get? i with
    | none => simp [deps, get?_modify, hget]
    | some m => simp [deps, get?_modify, hget, hf]
  · exact deps_congr (by simp [get?_modify, hi])

/-- Recording a dependency changes the module that has it, if the other module is there. -/
lemma addDep_eq (lm : LinkMap) (parent target : ModuleId) :
    lm.addDep parent target = lm ∨
      lm.addDep parent target = lm.modify parent fun m => m.addDep target := by
  rw [addDep]
  split
  · exact Or.inr rfl
  · exact Or.inl rfl

@[simp] lemma state?_addDep : (lm.addDep parent target).state? i = lm.state? i := by
  rcases lm.addDep_eq parent target with h | h
  · rw [h]
  · rw [h]
    exact state?_modify fun _ => rfl

@[simp] lemma mapping?_addDep : (lm.addDep parent target).mapping? i = lm.mapping? i := by
  rcases lm.addDep_eq parent target with h | h
  · rw [h]
  · rw [h]
    exact mapping?_modify fun _ => rfl

@[simp] lemma global?_addDep : (lm.addDep parent target).global? i = lm.global? i := by
  rcases lm.addDep_eq parent target with h | h
  · rw [h]
  · rw [h]
    exact global?_modify fun _ => rfl

@[simp] lemma order_addDep : (lm.addDep parent target).order = lm.order := by
  rcases lm.addDep_eq parent target with h | h <;> rw [h]
  rfl

/-- Recording a dependency between two modules adds it and nothing else. -/
lemma mem_deps_addDep {t : ModuleId} (hparent : (lm.get? parent).isSome)
    (htarget : (lm.get? target).isSome) :
    t ∈ (lm.addDep parent target).deps i ↔ t ∈ lm.deps i ∨ i = parent ∧ t = target := by
  by_cases hi : i = parent
  · subst hi
    obtain ⟨m, hm⟩ := Option.isSome_iff_exists.mp hparent
    have hnew : (lm.addDep i target).get? i = some (m.addDep target) := by
      simp [get?_addDep, htarget, hm]
    rw [deps_of_get? hnew, deps_of_get? hm, Module.mem_targets_addDep]
    simp [or_comm]
  · have hsame : (lm.addDep parent target).get? i = lm.get? i := by
      simp [get?_addDep, hi]
    simp [deps_congr hsame, hi]

lemma state?_markRelocated :
    (lm.markRelocated id).state? i
      = if i = id then (lm.state? i).map fun _ => .relocated else lm.state? i := by
  simp only [state?, markRelocated, get?_modify]
  split
  · simp [Function.comp_def]
  · rfl

@[simp] lemma mapping?_markRelocated : (lm.markRelocated id).mapping? i = lm.mapping? i :=
  mapping?_modify fun _ => rfl

@[simp] lemma global?_markRelocated : (lm.markRelocated id).global? i = lm.global? i :=
  global?_modify fun _ => rfl

@[simp] lemma deps_markRelocated : (lm.markRelocated id).deps i = lm.deps i :=
  deps_modify fun _ => rfl

lemma state?_publish :
    (lm.publish id).state? i
      = if i = id then (lm.state? i).map fun _ => .loaded else lm.state? i := by
  simp only [state?, get?_publish]
  split
  · simp [Function.comp_def]
  · rfl

@[simp] lemma mapping?_publish : (lm.publish id).mapping? i = lm.mapping? i := by
  simp only [mapping?, get?_publish]
  split
  · simp [Function.comp_def]
  · rfl

@[simp] lemma global?_publish : (lm.publish id).global? i = lm.global? i := by
  simp only [global?, get?_publish]
  split
  · simp [Function.comp_def]
  · rfl

@[simp] lemma deps_publish : (lm.publish id).deps i = lm.deps i := by
  by_cases hi : i = id
  · subst hi
    cases hget : lm.get? i with
    | none => simp [deps, get?_publish, hget]
    | some m => simp [deps, get?_publish, hget, Module.targets]
  · exact deps_congr (by simp [get?_publish, hi])

lemma order_publish (h : (lm.get? id).isSome) : (lm.publish id).order = lm.order ++ [id] := by
  simp [publish, h]

@[simp] lemma order_discard : (lm.discard id).order = lm.order := by
  rw [discard]
  split <;> rfl

lemma state?_discard : (lm.discard id).state? i = if i = id then none else lm.state? i := by
  simp only [state?, get?_discard]
  by_cases hi : i = id
  · simp [hi]
  · by_cases hid : (lm.get? id).isNone
    · simp [hi, hid]
    · simp [hi, hid, Function.comp_def, Module.removeDep]

lemma mapping?_discard : (lm.discard id).mapping? i = if i = id then none else lm.mapping? i := by
  simp only [mapping?, get?_discard]
  by_cases hi : i = id
  · simp [hi]
  · by_cases hid : (lm.get? id).isNone
    · simp [hi, hid]
    · simp [hi, hid, Function.comp_def, Module.removeDep]

/-- To discard a module is to free its name, if that stands for it. -/
lemma named?_discard (hid : lm.get? id = some m) (name : Soname) :
    (lm.discard id).named? name
      = if lm.named? m.name = some id ∧ name = m.name then none else lm.named? name := by
  simp only [discard, hid, named?]
  by_cases hown : lm.names.find? m.name = some id
  · simp only [hown, if_true, KeyMap.find?_erase, true_and]
  · simp only [hown, if_false, false_and]

/-- Discarding a module takes it out of the dependencies of the others, each of which stays
as it was if it did not depend on it. -/
lemma get?_discard_of_not_mem_deps (hi : i ≠ id) (hdeps : id ∉ lm.deps i) :
    (lm.discard id).get? i = lm.get? i := by
  rw [get?_discard]
  by_cases hid : (lm.get? id).isNone
  · simp [hi, hid]
  · cases hget : lm.get? i with
    | none => simp [hi, hid]
    | some m =>
      rw [deps_of_get? hget] at hdeps
      simp [hi, hid, Module.removeDep_of_not_mem hdeps]

/-! ## Publishing several modules -/

variable {ids : List ModuleId}

lemma state?_foldl_publish :
    (ids.foldl publish lm).state? i
      = if i ∈ ids then (lm.state? i).map fun _ => .loaded else lm.state? i := by
  induction ids generalizing lm with
  | nil => simp
  | cons id ids ih =>
    -- a module that is listed twice is loaded after the first time, which does not matter
    rw [List.foldl_cons, ih, state?_publish]
    by_cases hi : i = id
    · by_cases hmem : i ∈ ids <;> simp [hi, Function.comp_def]
    · simp [hi]

@[simp] lemma mapping?_foldl_publish : (ids.foldl publish lm).mapping? i = lm.mapping? i := by
  induction ids generalizing lm with
  | nil => rfl
  | cons id ids ih => rw [List.foldl_cons, ih, mapping?_publish]

@[simp] lemma global?_foldl_publish : (ids.foldl publish lm).global? i = lm.global? i := by
  induction ids generalizing lm with
  | nil => rfl
  | cons id ids ih => rw [List.foldl_cons, ih, global?_publish]

@[simp] lemma deps_foldl_publish : (ids.foldl publish lm).deps i = lm.deps i := by
  induction ids generalizing lm with
  | nil => rfl
  | cons id ids ih => rw [List.foldl_cons, ih, deps_publish]

lemma order_foldl_publish (hlive : ∀ id ∈ ids, (lm.get? id).isSome) :
    (ids.foldl publish lm).order = lm.order ++ ids := by
  induction ids generalizing lm with
  | nil => simp
  | cons id ids ih =>
    have hrest : ∀ j ∈ ids, ((lm.publish id).get? j).isSome := by
      intro j hj
      rw [isSome_congr mapping?_publish]
      exact hlive j (List.mem_cons_of_mem _ hj)
    rw [List.foldl_cons, ih hrest, order_publish (hlive id List.mem_cons_self)]
    simp

/-- A module that is not among the published ones stays as it was. -/
lemma get?_foldl_publish_of_not_mem (hi : i ∉ ids) :
    (ids.foldl publish lm).get? i = lm.get? i := by
  induction ids generalizing lm with
  | nil => rfl
  | cons id ids ih =>
    rw [List.mem_cons, not_or] at hi
    rw [List.foldl_cons, ih hi.2, get?_publish, if_neg hi.1]

/-! ## Discarding several modules -/

lemma state?_foldl_discard :
    (ids.foldl discard lm).state? i = if i ∈ ids then none else lm.state? i := by
  induction ids generalizing lm with
  | nil => simp
  | cons id ids ih =>
    rw [List.foldl_cons, ih, state?_discard]
    by_cases hmem : i ∈ ids <;> simp [hmem]

@[simp] lemma order_foldl_discard : (ids.foldl discard lm).order = lm.order := by
  induction ids generalizing lm with
  | nil => rfl
  | cons id ids ih => rw [List.foldl_cons, ih, order_discard]

lemma mem_deps_discard {t : ModuleId} (hlive : ∀ a, ∀ b ∈ lm.deps a, (lm.get? b).isSome) :
    t ∈ (lm.discard id).deps i ↔ i ≠ id ∧ t ≠ id ∧ t ∈ lm.deps i := by
  by_cases hi : i = id
  · subst hi
    have hgone : (lm.discard i).get? i = none := by simp [get?_discard]
    simp [deps_of_get?_none hgone]
  · cases hid : lm.get? id with
    | none =>
      have hsame : (lm.discard id).get? i = lm.get? i := by simp [get?_discard, hi, hid]
      rw [deps_congr hsame]
      constructor
      · intro ht
        refine ⟨hi, ?_, ht⟩
        rintro rfl
        simpa [hid] using hlive i _ ht
      · exact fun h => h.2.2
    | some m =>
      cases hget : lm.get? i with
      | none =>
        have hgone : (lm.discard id).get? i = none := by simp [get?_discard, hi, hid, hget]
        simp [deps_of_get?_none hgone, deps_of_get?_none hget]
      | some other =>
        have hnew : (lm.discard id).get? i = some (other.removeDep id) := by
          simp [get?_discard, hi, hid, hget]
        simp [deps_of_get? hnew, deps_of_get? hget, hi]

/-! ## Promoting and initialising -/

lemma moveToBack_perm (order : List ModuleId) (id : ModuleId) :
    (moveToBack order id).Perm order := by
  rw [moveToBack]
  split
  · rename_i h
    exact (List.perm_append_singleton id _).trans (List.perm_cons_erase h).symm
  · exact List.Perm.refl order

/-- Making a module global changes its flag and the order of the global list. -/
lemma promoteOne_eq (lm : LinkMap) (id : ModuleId) :
    lm.promoteOne id = lm ∨
      lm.promoteOne id = { lm.setGlobal id true with order := moveToBack lm.order id } := by
  rw [promoteOne]
  split
  · exact Or.inl rfl
  · split
    · exact Or.inl rfl
    · exact Or.inr rfl

@[simp] lemma state?_promoteOne : (lm.promoteOne id).state? i = lm.state? i := by
  rcases lm.promoteOne_eq id with h | h
  · rw [h]
  · rw [h]
    exact state?_modify (f := fun m => { m with isGlobal := true }) fun _ => rfl

@[simp] lemma mapping?_promoteOne : (lm.promoteOne id).mapping? i = lm.mapping? i := by
  rcases lm.promoteOne_eq id with h | h
  · rw [h]
  · rw [h]
    exact mapping?_modify (f := fun m => { m with isGlobal := true }) fun _ => rfl

@[simp] lemma deps_promoteOne : (lm.promoteOne id).deps i = lm.deps i := by
  rcases lm.promoteOne_eq id with h | h
  · rw [h]
  · rw [h]
    exact deps_modify (f := fun m => { m with isGlobal := true }) fun _ => rfl

@[simp] lemma state?_markInitialized : (lm.markInitialized id).state? i = lm.state? i :=
  state?_modify fun _ => rfl

@[simp] lemma mapping?_markInitialized : (lm.markInitialized id).mapping? i = lm.mapping? i :=
  mapping?_modify fun _ => rfl

@[simp] lemma deps_markInitialized : (lm.markInitialized id).deps i = lm.deps i :=
  deps_modify fun _ => rfl

end LinkMap

end DynamicLinker
