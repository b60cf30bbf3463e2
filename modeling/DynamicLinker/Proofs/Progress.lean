/-
# What a load has done so far

Since it began, a load has only added modules, and these are neither startup modules nor
global.  Those of them that have no frame are relocated, and the events name each of them
once, in the order in which they were relocated; the modules that wait stand in that order,
too.  No initialiser has been called.
-/
import DynamicLinker.Proofs.Soundness

namespace DynamicLinker

/-! ## The names of relocated modules -/

/-- The names of the modules whose relocation is among some events. -/
def relocations (events : List Event) : List Soname :=
  events.filterMap fun
    | .relocate name => some name
    | _ => none

lemma relocations_append (events events' : List Event) :
    relocations (events ++ events') = relocations events ++ relocations events' :=
  List.filterMap_append

/-- A relocation relocates its module and no other. -/
lemma relocations_relocate {lm : LinkMap} {id : ModuleId} {name : Soname}
    {references : List Reference} {events : List Event} {result : Except LinkError Unit}
    (h : lm.relocate id name references = (events, result)) : relocations events = [name] := by
  obtain rfl : (lm.relocate id name references).1 = events := by rw [h]
  have hnone : relocations (bindReferences name (lm.bindingOf id name) references).1 = [] := by
    refine List.filterMap_eq_nil_iff.mpr fun event hevent => ?_
    rcases mem_bindReferences hevent with ⟨_, _, rfl⟩ | ⟨_, _, rfl⟩ <;> rfl
  exact congrArg (name :: ·) hnone

/-! ## Progress -/

/-- What a load that began with a linker has done so far. -/
structure Load.Since (linker : Linker) (load : Load) : Prop where
  /-- The linker has its number. -/
  id_eq : load.linker.id = linker.id
  /-- What was loaded before is as it was. -/
  kept : linker.modules.Extends load.linker.modules
  /-- The new modules without a frame are those that were relocated. -/
  mem_relocations_iff {name : Soname} :
    name ∈ relocations load.events ↔
      ∃ id, load.linker.modules.named? name = some id ∧ linker.modules.get? id = none ∧
        id ∉ load.frames.map Frame.module
  /-- No module was relocated twice. -/
  relocations_nodup : (relocations load.events).Nodup
  /-- The modules that wait are in the order of their relocation. -/
  waiting_sublist :
    (load.linker.modules.namesOf load.linker.waiting).Sublist (relocations load.events)
  /-- No new module is global. -/
  not_global {id : ModuleId} {isGlobal : Bool} :
    load.linker.modules.global? id = some isGlobal → linker.modules.get? id = none →
      isGlobal = false
  /-- No new module is a startup module. -/
  not_startup {id : ModuleId} {mapping : Mapping} :
    load.linker.modules.mapping? id = some mapping → linker.modules.get? id = none →
      mapping.isStartup = false
  /-- No initialiser was called. -/
  no_init {name : Soname} : .init name ∉ load.events

namespace Load.Since

variable {linker : Linker} {load next : Load} {files : FileSet} {frame : Frame}
  {outer : List Frame} {name dep : Soname} {deps : List Soname} {target : ModuleId}

lemma start (hlinker : linker.InOrder []) : (Load.start linker).Since linker where
  id_eq := rfl
  kept := LinkMap.Extends.refl _
  mem_relocations_iff {name} := by
    simp only [relocations, Load.start, List.filterMap_nil, List.not_mem_nil, false_iff,
      not_exists, not_and]
    intro id hid hnone
    have hlive := hlinker.consistent.live_of_named hid
    simp [hnone] at hlive
  relocations_nodup := List.nodup_nil
  waiting_sublist := by
    have hnil : (Load.start linker).linker.waiting = [] := hlinker.waiting_eq_nil
    rw [hnil]
    exact List.nil_sublist _
  not_global hid hnone := by
    simp [Load.start, LinkMap.global?, hnone] at hid
  not_startup hid hnone := by
    simp [Load.start, LinkMap.mapping?, hnone] at hid
  no_init := List.not_mem_nil

/-- A frame is for a new module. -/
lemma get?_of_frame (h : load.Since linker) (hlinker : linker.InOrder []) (hproper : load.Proper)
    (hframe : frame ∈ load.frames) : linker.modules.get? frame.module = none := by
  by_contra hlive
  have hloaded := hlinker.state?_eq_loaded (Option.isSome_iff_ne_none.mpr hlive)
  have hloading := hproper.inOrder.loading_iff.mpr (List.mem_map_of_mem hframe)
  rw [h.kept.state?_eq hloaded] at hloading
  simp at hloading

lemma fetch (h : load.Since linker) (hproper : load.Proper)
    (hfree : load.linker.modules.named? name = none) {neededBy : Option Soname}
    (hfetch : load.fetch files neededBy name = .ok next) : next.Since linker := by
  obtain ⟨image, -, rfl⟩ := fetch_eq_ok hfetch
  have hnone : ∀ bias, relocations [.retrieve name, .decode name bias] = [] := fun _ => rfl
  have hne : ∀ {id}, (load.linker.modules.get? id).isSome → id ≠ load.linker.modules.nextId := by
    rintro id hid rfl
    simp at hid
  refine ⟨h.id_eq, h.kept.trans LinkMap.extends_register, ?_, ?_, ?_, ?_, ?_, ?_⟩
  · intro n
    rw [relocations_append, hnone, List.append_nil, h.mem_relocations_iff]
    simp only [LinkMap.named?_register, List.map_cons, List.mem_cons, not_or]
    by_cases hn : n = name
    · -- the new module is loading, and there was none of its name before
      subst hn
      simp [hfree]
    · simp only [if_neg hn]
      constructor
      · rintro ⟨id, hid, hnew, hnot⟩
        exact ⟨id, hid, hnew, hne (hproper.inOrder.consistent.live_of_named hid), hnot⟩
      · rintro ⟨id, hid, hnew, -, hnot⟩
        exact ⟨id, hid, hnew, hnot⟩
  · rw [relocations_append, hnone, List.append_nil]
    exact h.relocations_nodup
  · rw [relocations_append, hnone, List.append_nil, LinkMap.namesOf_congr fun p hp => ?_]
    · exact h.waiting_sublist
    · have hlive := LinkMap.isSome_of_state? (hproper.inOrder.waiting_iff.mpr hp)
      rw [LinkMap.mapping?_register, if_neg (hne hlive)]
  · intro id isGlobal hid hnew
    rw [LinkMap.global?_register] at hid
    split at hid
    · exact (Option.some.inj hid).symm
    · exact h.not_global hid hnew
  · intro id mapping hid hnew
    rw [LinkMap.mapping?_register] at hid
    split at hid
    · rw [← Option.some.inj hid]
    · exact h.not_startup hid hnew
  · intro n
    have hold : .init n ∉ load.events := h.no_init
    simp [hold]

lemma link (h : load.Since linker) (hproper : load.Proper)
    (hframes : load.frames = frame :: outer) :
    (load.link frame deps outer target).Since linker := by
  have hmodules : (load.link frame deps outer target).linker.modules
      = load.linker.modules.addDep frame.module target := rfl
  have hids : (load.link frame deps outer target).frames.map Frame.module
      = load.frames.map Frame.module := by
    simp [Load.link, hframes]
  have hloading : load.linker.modules.state? frame.module = some .loading :=
    hproper.inOrder.loading_iff.mpr (List.mem_map_of_mem (by simp [hframes]))
  refine ⟨h.id_eq, h.kept.trans (LinkMap.extends_addDep ?_), ?_, h.relocations_nodup, ?_, ?_, ?_,
    h.no_init⟩
  · rw [hloading]
    simp
  · intro n
    rw [hids, hmodules]
    simp only [LinkMap.named?_addDep]
    exact h.mem_relocations_iff
  · rw [hmodules, LinkMap.namesOf_congr fun _ _ => LinkMap.mapping?_addDep]
    exact h.waiting_sublist
  · intro id isGlobal hid hnew
    rw [hmodules, LinkMap.global?_addDep] at hid
    exact h.not_global hid hnew
  · intro id mapping hid hnew
    rw [hmodules, LinkMap.mapping?_addDep] at hid
    exact h.not_startup hid hnew

/-- A module that is relocated is named by the events after those that wait. -/
lemma namesOf_waiting_concat (h : load.Since linker) (hproper : load.Proper)
    (hframe : frame ∈ load.frames) :
    (load.linker.modules.namesOf (load.linker.waiting ++ [frame.module])).Sublist
      (relocations load.events ++ [frame.name]) := by
  obtain ⟨mapping, hmapping, hname⟩ := hproper.mapping?_eq hframe
  have hlast : load.linker.modules.namesOf [frame.module] = [frame.name] := by
    simp [LinkMap.namesOf_eq, hmapping, hname]
  have happend : load.linker.modules.namesOf (load.linker.waiting ++ [frame.module])
      = load.linker.modules.namesOf load.linker.waiting
        ++ load.linker.modules.namesOf [frame.module] := List.filterMap_append
  rw [happend, hlast]
  exact h.waiting_sublist.append (List.Sublist.refl _)

/-- The module that is relocated is the one that is new among the relocated ones. -/
lemma mem_relocations_relocate (h : load.Since linker) (hlinker : linker.InOrder [])
    (hproper : load.Proper) (hframes : load.frames = frame :: outer) :
    name ∈ relocations load.events ∨ name = frame.name ↔
      ∃ id, load.linker.modules.named? name = some id ∧ linker.modules.get? id = none ∧
        id ∉ outer.map Frame.module := by
  have hmem : frame ∈ load.frames := by simp [hframes]
  rw [h.mem_relocations_iff]
  constructor
  · rintro (⟨id, hid, hnew, hnone⟩ | rfl)
    · refine ⟨id, hid, hnew, fun houter => hnone ?_⟩
      rw [hframes]
      exact List.mem_cons_of_mem _ houter
    · refine ⟨frame.module, hproper.named hmem, h.get?_of_frame hlinker hproper hmem, ?_⟩
      have hnodup := hproper.inOrder.loading_nodup
      rw [hframes, List.map_cons, List.nodup_cons] at hnodup
      exact hnodup.1
  · rintro ⟨id, hid, hnew, hnone⟩
    by_cases heq : id = frame.module
    · obtain ⟨mapping, hmapping, rfl⟩ := hproper.inOrder.consistent.named_iff.mp hid
      obtain ⟨mapping', hmapping', hname⟩ := hproper.mapping?_eq hmem
      rw [heq, hmapping', Option.some.injEq] at hmapping
      rw [← hmapping]
      exact Or.inr hname
    · refine Or.inl ⟨id, hid, hnew, ?_⟩
      rw [hframes, List.map_cons, List.mem_cons, not_or]
      exact ⟨heq, hnone⟩

lemma relocate (h : load.Since linker) (hlinker : linker.InOrder []) (hproper : load.Proper)
    (hframes : load.frames = frame :: outer) {events : List Event}
    (hevents : load.linker.modules.relocate frame.module frame.name frame.references
      = (events, .ok ())) :
    Since linker ⟨load.linker.settle frame.module, outer, load.events ++ events⟩ := by
  have hmem : frame ∈ load.frames := by simp [hframes]
  have hone : relocations events = [frame.name] := relocations_relocate hevents
  have hnot : frame.name ∉ relocations load.events := by
    rw [h.mem_relocations_iff]
    rintro ⟨id, hid, -, hnone⟩
    rw [hproper.named hmem, Option.some.injEq] at hid
    exact hnone (hid ▸ List.mem_map_of_mem hmem)
  have horder := hproper.inOrder
  rw [hframes] at horder
  refine ⟨?_, h.kept.trans horder.extends_settle, ?_, ?_, ?_, ?_, ?_, ?_⟩
  · rw [← h.id_eq]
    exact load.linker.id_settle frame.module
  · intro n
    rw [relocations_append, hone, List.mem_append, List.mem_singleton]
    simp only [named?_settle]
    exact h.mem_relocations_relocate hlinker hproper hframes
  · -- a module with a frame has not been relocated before
    rw [relocations_append, hone, List.nodup_append]
    refine ⟨h.relocations_nodup, List.nodup_singleton _, fun a ha b hb => ?_⟩
    rw [List.mem_singleton] at hb
    rintro rfl
    exact hnot (hb ▸ ha)
  · rw [relocations_append, hone,
      LinkMap.namesOf_congr fun p _ => load.linker.mapping?_settle frame.module p]
    obtain ⟨ready, waiting, hsublist, heq⟩ := load.linker.settle_eq frame.module
    rw [heq]
    exact (hsublist.filterMap _).trans (h.namesOf_waiting_concat hproper hmem)
  · intro id isGlobal hid hnew
    rw [Linker.global?_settle] at hid
    exact h.not_global hid hnew
  · intro id mapping hid hnew
    rw [Linker.mapping?_settle] at hid
    exact h.not_startup hid hnew
  · intro n hinit
    rcases List.mem_append.mp hinit with hinit | hinit
    · exact h.no_init hinit
    · have hrelocated : .init n ∉ (load.linker.modules.relocate frame.module frame.name
          frame.references).1 := LinkMap.init_not_mem_relocate
      rw [hevents] at hrelocated
      exact hrelocated hinit

/-- **A step goes on with what a load has done.** -/
theorem advance (h : load.Since linker) (hlinker : linker.InOrder []) (hproper : load.Proper)
    (hadvance : Advance files load next) : next.Since linker := by
  cases hadvance with
  | fetch hfree hhead hfetch => exact h.fetch hproper hfree hfetch
  | link hframes hremaining hfound => exact h.link hproper hframes
  | relocate hframes hremaining hevents => exact h.relocate hlinker hproper hframes hevents

end Load.Since

/-- A step keeps what is mapped. -/
lemma Load.Advance.mapping?_eq {files : FileSet} {load next : Load} {id : ModuleId}
    {mapping : Mapping} (h : Load.Advance files load next)
    (hid : load.linker.modules.mapping? id = some mapping) :
    next.linker.modules.mapping? id = some mapping := by
  cases h with
  | fetch hfree hhead hfetch =>
    obtain ⟨image, -, rfl⟩ := Load.fetch_eq_ok hfetch
    have hne : id ≠ load.linker.modules.nextId := by
      rintro rfl
      simp [LinkMap.mapping?] at hid
    rwa [LinkMap.mapping?_register, if_neg hne]
  | link hframes hremaining hfound =>
    rw [← hid]
    exact LinkMap.mapping?_addDep
  | relocate hframes hremaining hevents =>
    rw [← hid]
    exact Linker.mapping?_settle _ _ _

/-- A step appends to the events. -/
lemma Load.Advance.events_grow {files : FileSet} {load next : Load}
    (h : Load.Advance files load next) : load.events <+: next.events := by
  cases h with
  | fetch hfree hhead hfetch =>
    obtain ⟨image, -, rfl⟩ := Load.fetch_eq_ok hfetch
    exact List.prefix_append _ _
  | link hframes hremaining hfound => exact List.prefix_refl _
  | relocate hframes hremaining hevents => exact List.prefix_append _ _

/-- What is done at each moment of a load. -/
lemma Linker.InOrder.since {linker : Linker} {files : FileSet} {name : Soname} {word : Int32}
    {load : Load} (h : linker.InOrder []) (hload : load ∈ linker.moments files name word) :
    load.Since linker :=
  (Linker.moments_induction h (Load.Since.start h)
    (fun _ _ hproper ha hab => ha.advance h hproper hab) hload).2

/-- What is mapped at a moment is mapped at the last. -/
lemma Linker.InOrder.mapping?_last {linker : Linker} {files : FileSet} {name : Soname}
    {word : Int32} {load last : Load} {id : ModuleId} {mapping : Mapping} (h : linker.InOrder [])
    (hload : load ∈ linker.moments files name word)
    (hlast : (linker.moments files name word).getLast? = some last)
    (hid : load.linker.modules.mapping? id = some mapping) :
    last.linker.modules.mapping? id = some mapping :=
  Linker.rel_last (R := fun a b => a.linker.modules.mapping? id = some mapping →
      b.linker.modules.mapping? id = some mapping) h (fun _ ha => ha)
    (fun _ _ _ hab hbc ha => hbc (hab ha)) (fun _ _ _ hab => hab.mapping?_eq) hload hlast hid

end DynamicLinker
