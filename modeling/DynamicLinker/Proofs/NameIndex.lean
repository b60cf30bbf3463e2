/-
# The owners of names

A linker uses its link map with care: it registers a module only under a name that is free.
The index of names does not need that.  Here the operations of a link map are applied in any
order and to any modules.  A module may be registered under a name that is taken, and the older
module is then still there, but not found; either of the two may be discarded first; and the
number of a discarded module is given to the module that is registered next, whatever its name.

A name belongs to the module that was last registered under it, until that module is discarded.
It does not go back to an older module of the same name, and a number that has been given to
another module meanwhile does not bring it back.  The index says exactly that, because every name
in it is that of the module it stands for (`NamesLive`): so a registration or a discard changes
the owner of the names that it is about and of no others, which is the step lemma
`owned_iff_of_effect`.
-/
import DynamicLinker.Proofs.Since
import DynamicLinker.Proofs.Soundness

namespace DynamicLinker.LinkMap

/-! ## Edits -/

/-- An operation that changes a link map. -/
inductive Edit where
  /-- Register a module that has been mapped. -/
  | register (mapping : Mapping)
  /-- Discard a module. -/
  | discard (id : ModuleId)
  /-- Put a module at the back of the global list. -/
  | publish (id : ModuleId)
  /-- Record that a module has been relocated. -/
  | markRelocated (id : ModuleId)
  /-- Record that the initialiser of a module has run. -/
  | markInitialized (id : ModuleId)
  /-- Put a module into the global scope or take it out. -/
  | setGlobal (id : ModuleId) (isGlobal : Bool)
  /-- Record that a module depends on another. -/
  | addDep (parent target : ModuleId)
  /-- Make every module of a tree global. -/
  | promote (root : ModuleId)

/-- Apply an operation.  One on a module that is not there changes nothing. -/
def edit (lm : LinkMap) : Edit → LinkMap
  | .register mapping => lm.register mapping
  | .discard id => lm.discard id
  | .publish id => lm.publish id
  | .markRelocated id => lm.markRelocated id
  | .markInitialized id => lm.markInitialized id
  | .setGlobal id isGlobal => lm.setGlobal id isGlobal
  | .addDep parent target => lm.addDep parent target
  | .promote root => lm.promote root

/-- The link map that edits make of the empty one. -/
def edited (edits : List Edit) : LinkMap := edits.foldl edit empty

lemma edited_concat (edits : List Edit) (last : Edit) :
    edited (edits ++ [last]) = (edited edits).edit last := by
  simp [edited]

/-- An edit that takes a name from the module of a number: another module is registered under the
name, or the module is discarded. -/
inductive Edit.Frees (name : Soname) (id : ModuleId) : Edit → Prop where
  /-- A module of that name is registered. -/
  | register {mapping : Mapping} (hname : mapping.name = name) : Frees name id (.register mapping)
  /-- The module is discarded. -/
  | discard : Frees name id (.discard id)

/-- After edits, a module that was mapped owns its name, under a number: it was given the number
when it was registered, and since then no module of its name was registered and none of its
number discarded. -/
def Owns (edits : List Edit) (mapping : Mapping) (id : ModuleId) : Prop :=
  Since (fun before edit => edit = .register mapping ∧ (edited before).nextId = id)
    (fun _ edit => edit.Frees mapping.name id) edits

variable {lm : LinkMap} {edits : List Edit} {mapping : Mapping} {id : ModuleId}

/-! ## What an edit does to names and to what they stand for -/

@[simp] lemma named?_promote {root : ModuleId} {name : Soname} :
    (lm.promote root).named? name = lm.named? name := by
  rw [promote]
  generalize lm.tree root = ids
  induction ids generalizing lm with
  | nil => rfl
  | cons id ids ih =>
    rw [List.foldl_cons, ih]
    rcases lm.promoteOne_eq id with h | h <;> rw [h]
    rfl

/-- What an edit does to names and to what was mapped. -/
inductive Edit.Effect (lm : LinkMap) : Edit → LinkMap → Prop where
  /-- A module is registered. -/
  | registers (mapping : Mapping) : Effect lm (.register mapping) (lm.register mapping)
  /-- A module is discarded. -/
  | discards (id : ModuleId) : Effect lm (.discard id) (lm.discard id)
  /-- All modules stay, with their names, and none is added. -/
  | keeps {edit : Edit} {later : LinkMap} (hregister : ∀ mapping, edit ≠ .register mapping)
      (hfrees : ∀ name id, ¬ edit.Frees name id)
      (hmapping : ∀ id, later.mapping? id = lm.mapping? id)
      (hnamed : ∀ name, later.named? name = lm.named? name) : Effect lm edit later

lemma effect_edit (lm : LinkMap) (edit : Edit) : edit.Effect lm (lm.edit edit) := by
  cases edit with
  | register mapping => exact .registers mapping
  | discard id => exact .discards id
  | publish id => exact .keeps nofun nofun (fun _ => mapping?_publish) (named?_publish id)
  | markRelocated id => exact .keeps nofun nofun (fun _ => mapping?_markRelocated) fun _ => rfl
  | markInitialized id =>
    exact .keeps nofun nofun (fun _ => mapping?_markInitialized) fun _ => rfl
  | setGlobal id isGlobal =>
    exact .keeps nofun nofun (fun _ => mapping?_modify fun _ => rfl) fun _ => rfl
  | addDep parent target =>
    exact .keeps nofun nofun (fun _ => mapping?_addDep) (named?_addDep parent target)
  | promote root =>
    exact .keeps nofun nofun (lm.alike_promote root).mapping?_eq fun _ => named?_promote

/-! ## Names that stand for a module of that name -/

/-- Every name of the index stands for a module that is there and has that name. -/
def NamesLive (lm : LinkMap) : Prop :=
  ∀ ⦃name id⦄, lm.named? name = some id →
    ∃ mapping, lm.mapping? id = some mapping ∧ mapping.name = name

namespace NamesLive

variable {edit : Edit} {later : LinkMap}

lemma empty : LinkMap.empty.NamesLive := by
  intro name id h
  simp at h

/-- No name stands for the number that the next module will have. -/
lemma ne_nextId {name : Soname} (h : lm.NamesLive) (hnamed : lm.named? name = some id) :
    id ≠ lm.nextId := by
  rintro rfl
  obtain ⟨mapping, hmapping, -⟩ := h hnamed
  simp [mapping?] at hmapping

/-- Discarding a module frees the name that stands for it, if there is one, and no other. -/
lemma named?_discard (h : lm.NamesLive) (id : ModuleId) (name : Soname) :
    (lm.discard id).named? name = if lm.named? name = some id then none else lm.named? name := by
  cases hid : lm.get? id with
  | none =>
    have hnot : lm.named? name ≠ some id := by
      intro hnamed
      obtain ⟨mapping, hmapping, -⟩ := h hnamed
      simp [mapping?, hid] at hmapping
    rw [if_neg hnot, LinkMap.discard, hid]
  | some m =>
    rw [LinkMap.named?_discard hid]
    by_cases hnamed : lm.named? name = some id
    · -- only the name of the module stands for it
      obtain ⟨mapping, hmapping, rfl⟩ := h hnamed
      obtain rfl := Option.some.inj ((mapping?_of_get? hid).symm.trans hmapping)
      simp [hnamed]
    · rw [if_neg hnamed, if_neg]
      rintro ⟨hown, rfl⟩
      exact hnamed hown

lemma of_effect (h : lm.NamesLive) (heffect : edit.Effect lm later) : later.NamesLive := by
  intro name id hnamed
  cases heffect with
  | registers new =>
    rw [named?_register] at hnamed
    rw [mapping?_register]
    split at hnamed
    · rename_i hname
      rw [if_pos (Option.some.inj hnamed).symm]
      exact ⟨new, rfl, hname.symm⟩
    · rw [if_neg (h.ne_nextId hnamed)]
      exact h hnamed
  | discards gone =>
    rw [h.named?_discard] at hnamed
    split at hnamed
    · simp at hnamed
    · rename_i hother
      have hne : id ≠ gone := by
        rintro rfl
        exact hother hnamed
      rw [mapping?_discard, if_neg hne]
      exact h hnamed
  | keeps _ _ hmapping hsame =>
    rw [hsame] at hnamed
    rw [hmapping]
    exact h hnamed

lemma edited (edits : List Edit) : (LinkMap.edited edits).NamesLive := by
  induction edits using List.reverseRecOn with
  | nil => exact empty
  | append_singleton edits last ih =>
    rw [edited_concat]
    exact ih.of_effect (effect_edit _ last)

/-- **What one edit does to the owner of a name**: a module owns its name after the edit if the edit
registers it, or if it has owned the name and the edit does not free it. -/
lemma owned_iff_of_effect (h : lm.NamesLive) (heffect : edit.Effect lm later) :
    later.named? mapping.name = some id ∧ later.mapping? id = some mapping
      ↔ (edit = .register mapping ∧ lm.nextId = id)
        ∨ (lm.named? mapping.name = some id ∧ lm.mapping? id = some mapping)
          ∧ ¬ edit.Frees mapping.name id := by
  cases heffect with
  | registers new =>
    rw [named?_register, mapping?_register]
    by_cases hname : mapping.name = new.name
    · have hfrees : (Edit.register new).Frees mapping.name id := .register hname.symm
      rw [if_pos hname]
      constructor
      · rintro ⟨hid, hmapping⟩
        rw [if_pos (Option.some.inj hid).symm] at hmapping
        exact .inl ⟨by rw [Option.some.inj hmapping], Option.some.inj hid⟩
      · rintro (⟨hedit, rfl⟩ | ⟨-, hnot⟩)
        · cases hedit
          exact ⟨rfl, if_pos rfl⟩
        · exact absurd hfrees hnot
    · have hfrees : ¬ (Edit.register new).Frees mapping.name id := by
        rintro ⟨hsame⟩
        exact hname hsame.symm
      rw [if_neg hname]
      constructor
      · rintro ⟨hnamed, hmapping⟩
        rw [if_neg (h.ne_nextId hnamed)] at hmapping
        exact .inr ⟨⟨hnamed, hmapping⟩, hfrees⟩
      · rintro (⟨hedit, -⟩ | ⟨⟨hnamed, hmapping⟩, -⟩)
        · cases hedit
          exact absurd rfl hname
        · rw [if_neg (h.ne_nextId hnamed)]
          exact ⟨hnamed, hmapping⟩
  | discards gone =>
    rw [h.named?_discard, mapping?_discard]
    by_cases hgone : id = gone
    · subst hgone
      simp [Edit.Frees.discard]
    · have hfrees : ¬ (Edit.discard gone).Frees mapping.name id := by
        rintro ⟨⟩
        exact hgone rfl
      simp only [reduceCtorEq, false_and, false_or, hfrees, not_false_eq_true, and_true,
        if_neg hgone]
      constructor
      · rintro ⟨hnamed, hmapping⟩
        split at hnamed
        · simp at hnamed
        · exact ⟨hnamed, hmapping⟩
      · rintro ⟨hnamed, hmapping⟩
        have hother : lm.named? mapping.name ≠ some gone := by
          rw [hnamed]
          exact fun hsame => hgone (Option.some.inj hsame)
        rw [if_neg hother]
        exact ⟨hnamed, hmapping⟩
  | keeps hregister hfrees hmapping hsame =>
    rw [hsame, hmapping]
    simp [hregister mapping, hfrees mapping.name id]

end NamesLive

/-- After any edits, a module owns its name under a number exactly if the name is found there and
the module is what is stored there. -/
lemma owns_iff :
    Owns edits mapping id ↔
      (edited edits).named? mapping.name = some id ∧ (edited edits).mapping? id = some mapping := by
  refine (since_iff (P := fun edits => (edited edits).named? mapping.name = some id ∧
    (edited edits).mapping? id = some mapping) ?_ (fun before edit => ?_) edits).symm
  · rintro ⟨hnamed, -⟩
    simp [edited] at hnamed
  · rw [edited_concat]
    exact (NamesLive.edited before).owned_iff_of_effect (effect_edit _ edit)

/-! ## The index after any edits -/

/-- What the name index says after edits. -/
structure IndexesOwners (edits : List Edit) : Prop where
  /-- A name is found under a number exactly if a module of that name owns it there. -/
  named?_iff {name : Soname} {id : ModuleId} :
    (edited edits).named? name = some id ↔ ∃ mapping, mapping.name = name ∧ Owns edits mapping id
  /-- The module that is found is there, has the name, and is the owner. -/
  found {name : Soname} {id : ModuleId} (hnamed : (edited edits).named? name = some id) :
    ∃ m, (edited edits).get? id = some m ∧ m.name = name ∧ Owns edits m.toMapping id
  /-- Among the loaded modules the same one is found if it is loaded, and else none. -/
  loadedNamed?_iff {name : Soname} {id : ModuleId} :
    (edited edits).loadedNamed? name = some id
      ↔ (edited edits).named? name = some id ∧ (edited edits).state? id = some .loaded

/-- **The name index gives the latest owners**, after any edits: a name is found exactly if the
module that was last registered under it has not been discarded since, however often names and
numbers were used again, and then what is found is that module. -/
theorem indexesOwners_edited (edits : List Edit) : IndexesOwners edits := by
  have hfound : ∀ {name id}, (edited edits).named? name = some id →
      ∃ m, (edited edits).get? id = some m ∧ m.name = name ∧ Owns edits m.toMapping id := by
    intro name id hnamed
    obtain ⟨mapping, hmapping, rfl⟩ := NamesLive.edited edits hnamed
    obtain ⟨m, hm, rfl⟩ := mapping?_eq_some.mp hmapping
    exact ⟨m, hm, rfl, owns_iff.mpr ⟨hnamed, hmapping⟩⟩
  refine ⟨fun {name id} => ⟨fun hnamed => ?_, ?_⟩, hfound, fun {name id} => ?_⟩
  · obtain ⟨m, -, hname, howns⟩ := hfound hnamed
    exact ⟨m.toMapping, hname, howns⟩
  · rintro ⟨mapping, rfl, howns⟩
    exact (owns_iff.mp howns).1
  · rw [loadedNamed?, Option.filter_eq_some_iff, isLoaded_iff]

/-- A module is shadowed by a second of its name, which is discarded: the name is free although the
first is still there, also once a third module has the number of the second. -/
example :
    let mapping (name : String) : Mapping := ⟨⟨name⟩, 0, .empty, false⟩
    let shadowed : List Edit := [.register (mapping "a"), .register (mapping "a")]
    let freed := shadowed ++ [.discard 1, .register (mapping "b")]
    (edited shadowed).named? ⟨"a"⟩ = some 1 ∧ (edited freed).named? ⟨"a"⟩ = none ∧
      (edited freed).mapping? 0 = some (mapping "a") ∧ (edited freed).named? ⟨"b"⟩ = some 1 := by
  decide +kernel

end DynamicLinker.LinkMap
