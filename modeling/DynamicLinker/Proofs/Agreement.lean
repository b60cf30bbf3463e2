/-
# Loads and their history

The history of a load says what was declared under each name and which modules have been
relocated.  The link map says the same in its own way: the modules that are done are those
without a frame, and the names of the dependencies of such a module are those that were
declared, each where it first occurs.  The module of a frame is not done, and its
dependencies are those that its frame has passed.

For the order of the dependencies it matters that a new one goes behind the others, which it
does because the positions of the dependencies of a module are numbered without gaps.
-/
import DynamicLinker.Proofs.History

namespace DynamicLinker

/-! ## Numbered dependencies -/

/-- The positions of the dependencies of a module are numbered from zero without gaps. -/
def Module.Numbered (m : Module) : Prop :=
  m.deps.list.map Dependency.position = List.range m.deps.list.length

namespace Module.Numbered

variable {m : Module} {target : ModuleId}

lemma position_lt (h : m.Numbered) {d : Dependency} (hd : d ∈ m.deps.list) :
    d.position < m.deps.list.length := by
  have hmem : d.position ∈ m.deps.list.map Dependency.position := List.mem_map_of_mem hd
  rwa [h, List.mem_range] at hmem

/-- A new dependency goes behind the others. -/
lemma list_add (h : m.Numbered) (hnew : target ∉ m.targets) :
    (m.deps.add target).list = m.deps.list ++ [⟨m.deps.list.length, target⟩] := by
  rw [Dependencies.list_add hnew]
  exact Dependencies.insertInto_eq_append fun d hd => h.position_lt hd

lemma targets_addDep (h : m.Numbered) :
    (m.addDep target).targets
      = if target ∈ m.targets then m.targets else m.targets ++ [target] := by
  split
  · rename_i hold
    rw [Module.addDep, Dependencies.add_of_mem hold]
  · rename_i hnew
    simp [Module.addDep, targets, Dependencies.targets, h.list_add hnew]

lemma addDep (h : m.Numbered) : (m.addDep target).Numbered := by
  by_cases hold : target ∈ m.targets
  · rwa [Module.addDep, Dependencies.add_of_mem hold]
  · rw [Numbered, Module.addDep, h.list_add hold, List.map_append, h, List.length_append]
    exact List.range_succ.symm

end Module.Numbered

namespace LinkMap

/-- The dependencies of every module are numbered. -/
def Numbered (lm : LinkMap) : Prop := ∀ id m, lm.get? id = some m → m.Numbered

variable {lm : LinkMap} {id i parent target : ModuleId} {ids : List ModuleId}

namespace Numbered

lemma empty : LinkMap.empty.Numbered := by
  intro id m hm
  simp at hm

lemma register (h : lm.Numbered) (mapping : Mapping) : (lm.register mapping).Numbered := by
  intro id m hm
  rw [get?_register] at hm
  split at hm
  · rw [← Option.some.inj hm]
    exact List.map_nil
  · exact h id m hm

lemma modify (h : lm.Numbered) {f : Module → Module} (hf : ∀ m, m.Numbered → (f m).Numbered) :
    (lm.modify id f).Numbered := by
  intro i m hm
  rw [get?_modify] at hm
  split at hm
  · obtain ⟨m', hm', rfl⟩ := Option.map_eq_some_iff.mp hm
    exact hf m' (h i m' hm')
  · exact h i m hm

lemma addDep (h : lm.Numbered) : (lm.addDep parent target).Numbered := by
  rcases lm.addDep_eq parent target with heq | heq
  · rwa [heq]
  · rw [heq]
    exact h.modify fun _ hm => hm.addDep

lemma publish (h : lm.Numbered) : (lm.publish id).Numbered := by
  rw [LinkMap.publish]
  split
  · exact h.modify (f := fun m => { m with state := .loaded }) fun _ hm => hm
  · exact h

lemma foldl_publish (h : lm.Numbered) : (ids.foldl LinkMap.publish lm).Numbered := by
  induction ids generalizing lm with
  | nil => exact h
  | cons id ids ih => exact ih h.publish

lemma settle {linker : Linker} (h : linker.modules.Numbered) (id : ModuleId) :
    (linker.settle id).modules.Numbered := by
  have hmarked : (linker.modules.markRelocated id).Numbered := h.modify fun _ hm => hm
  obtain ⟨ready, waiting, -, heq⟩ := linker.settle_eq id
  rw [heq]
  exact hmarked.foldl_publish

lemma promoteOne (h : lm.Numbered) : (lm.promoteOne id).Numbered := by
  rcases lm.promoteOne_eq id with heq | heq
  · rwa [heq]
  · rw [heq]
    exact h.modify (f := fun m => { m with isGlobal := true }) fun _ hm => hm

lemma promote (h : lm.Numbered) (root : ModuleId) : (lm.promote root).Numbered := by
  rw [LinkMap.promote]
  induction lm.tree root generalizing lm with
  | nil => exact h
  | cons id ids ih => exact ih h.promoteOne

lemma foldl_markInitialized (h : lm.Numbered) (ids : List ModuleId) :
    (ids.foldl LinkMap.markInitialized lm).Numbered := by
  induction ids generalizing lm with
  | nil => exact h
  | cons id ids ih => exact ih (h.modify fun _ hm => hm)

lemma initializeTree (h : lm.Numbered) (root : ModuleId) : (lm.initializeTree root).Numbered :=
  h.foldl_markInitialized (lm.uninitialized root)

end Numbered

/-! ## The names of dependencies -/

/-- The names of the direct dependencies of a module, in order. -/
def depNames (lm : LinkMap) (id : ModuleId) : List Soname := lm.namesOf (lm.deps id)

lemma namesOf_eq (lm : LinkMap) (ids : List ModuleId) :
    lm.namesOf ids = ids.filterMap fun id => (lm.mapping? id).map Mapping.name := by
  simp only [namesOf, mapping?]
  simp only [Option.map_map]
  rfl

/-- Only the mappings of modules matter for their names. -/
lemma namesOf_congr {lm' : LinkMap} (h : ∀ id ∈ ids, lm'.mapping? id = lm.mapping? id) :
    lm'.namesOf ids = lm.namesOf ids := by
  rw [namesOf_eq, namesOf_eq]
  exact List.filterMap_congr fun id hid => by rw [h id hid]

/-- The dependencies of a module go by the same names as long as they keep their mappings. -/
lemma depNames_congr {lm' : LinkMap} (hdeps : lm'.deps id = lm.deps id)
    (hmapping : ∀ t ∈ lm.deps id, lm'.mapping? t = lm.mapping? t) :
    lm'.depNames id = lm.depNames id := by
  rw [depNames, hdeps, namesOf_congr hmapping, depNames]

lemma mem_depNames {name : Soname} :
    name ∈ lm.depNames id ↔
      ∃ t ∈ lm.deps id, ∃ mapping, lm.mapping? t = some mapping ∧ mapping.name = name := by
  simp only [depNames, namesOf_eq, List.mem_filterMap, Option.map_eq_some_iff]

/-- Recording a dependency that is not recorded yet puts it behind the others. -/
lemma deps_addDep (h : lm.Numbered) (hparent : (lm.get? parent).isSome)
    (htarget : (lm.get? target).isSome) :
    (lm.addDep parent target).deps parent
      = if target ∈ lm.deps parent then lm.deps parent else lm.deps parent ++ [target] := by
  obtain ⟨m, hm⟩ := Option.isSome_iff_exists.mp hparent
  have hnew : (lm.addDep parent target).get? parent = some (m.addDep target) := by
    simp [get?_addDep, htarget, hm]
  rw [deps_of_get? hnew, deps_of_get? hm]
  exact (h parent m hm).targets_addDep

/-- Recording a dependency puts its name behind the others, unless it is there already. -/
lemma depNames_addDep {name : Soname} (h : lm.Numbered) (hconsistent : lm.Consistent)
    (hparent : (lm.get? parent).isSome) (hname : lm.named? name = some target) :
    (lm.addDep parent target).depNames parent
      = if name ∈ lm.depNames parent then lm.depNames parent
        else lm.depNames parent ++ [name] := by
  obtain ⟨found, hfound, rfl⟩ := hconsistent.named_iff.mp hname
  have hkept : (lm.addDep parent target).depNames parent
      = lm.namesOf ((lm.addDep parent target).deps parent) :=
    namesOf_congr fun _ _ => mapping?_addDep
  have hold : found.name ∈ lm.depNames parent ↔ target ∈ lm.deps parent := by
    rw [mem_depNames]
    constructor
    · rintro ⟨t, ht, mapping, hmapping, hsame⟩
      rwa [← hconsistent.id_unique hmapping hfound hsame]
    · exact fun ht => ⟨target, ht, found, hfound, rfl⟩
  rw [hkept, deps_addDep h hparent (hconsistent.live_of_named hname)]
  simp only [hold]
  split
  · rfl
  · simp [depNames, namesOf_eq, hfound]

lemma deps_addDep_of_ne (hne : i ≠ parent) : (lm.addDep parent target).deps i = lm.deps i :=
  deps_congr (by simp [get?_addDep, hne])

/-- A new dependency is recorded behind the others of its module, and changes no other module. -/
lemma Numbered.deps_prefix_addDep (h : lm.Numbered) (hparent : (lm.get? parent).isSome)
    (htarget : (lm.get? target).isSome) (id : ModuleId) :
    lm.deps id <+: (lm.addDep parent target).deps id := by
  by_cases hid : id = parent
  · rw [hid, deps_addDep h hparent htarget]
    split
    · exact List.prefix_refl _
    · exact List.prefix_append _ _
  · simp [deps_addDep_of_ne hid]

end LinkMap

/-! ## What events do to a history -/

namespace History

variable {history : History} {files : FileSet} {events : List Event} {name : Soname}

lemma after_append (history : History) (files : FileSet) (events events' : List Event) :
    history.after files (events ++ events') = (history.after files events).after files events' :=
  List.foldl_append

lemma after_eq_self (h : ∀ event ∈ events, history.note files event = history) :
    history.after files events = history := by
  induction events with
  | nil => rfl
  | cons event events ih =>
    have hhead : history.note files event = history := h event List.mem_cons_self
    rw [after, List.foldl_cons, hhead]
    exact ih fun e he => h e (List.mem_cons_of_mem _ he)

/-- A file that is fetched counts for the name under which it is decoded. -/
lemma after_fetch_self (history : History) (files : FileSet) (mapping : Mapping) (bias : UInt64)
    (hstartup : mapping.isStartup = false) :
    ¬ (history.after files
        [.retrieve mapping.name, .decode mapping.name bias]).Finished mapping ∧
      (history.after files
          [.retrieve mapping.name, .decode mapping.name bias]).declared mapping.name
        = files.declares mapping.name := by
  simp [after, note, Finished, hstartup]

/-- A file that is fetched does not count for other names. -/
lemma after_fetch_of_ne {mapping : Mapping} {bias : UInt64} (hne : mapping.name ≠ name) :
    ((history.after files [.retrieve name, .decode name bias]).Finished mapping ↔
        history.Finished mapping) ∧
      (history.after files [.retrieve name, .decode name bias]).declared mapping.name
        = history.declared mapping.name := by
  simp [after, note, Finished, Function.update_of_ne hne]

/-- A relocation is noted when it begins, and what it binds is not. -/
lemma after_relocate {lm : LinkMap} {id : ModuleId} {references : List Reference}
    {result : Except LinkError Unit} (h : lm.relocate id name references = (events, result)) :
    history.after files events = history.note files (.relocate name) := by
  obtain rfl : (lm.relocate id name references).1 = events := by rw [h]
  change (history.note files (.relocate name)).after files (bindReferences _ _ _).1 = _
  refine after_eq_self fun event hevent => ?_
  rcases mem_bindReferences hevent with ⟨_, _, rfl⟩ | ⟨_, _, rfl⟩ <;> rfl

end History

/-! ## First occurrences -/

section FirstOccurrences

variable {α : Type} [DecidableEq α]

/-- Of a list with one more element, the first occurrences are those of the list, and the
new element if it is not in the list. -/
lemma eraseDups_concat (l : List α) (a : α) :
    (l ++ [a]).eraseDups = if a ∈ l then l.eraseDups else l.eraseDups ++ [a] := by
  rw [List.eraseDups_append]
  split <;> simp_all [List.removeAll, List.eraseDups_cons]

lemma nodup_eraseDups (l : List α) : l.eraseDups.Nodup := by
  induction l using List.reverseRecOn with
  | nil => simp
  | append_singleton l a ih =>
    rw [eraseDups_concat]
    split
    · exact ih
    · rename_i hnew
      refine ih.append (List.nodup_singleton a) ?_
      simpa using hnew

end FirstOccurrences

/-! ## Agreement -/

/-- A load whose link map and frames say the same as its history. -/
structure Load.Agrees (load : Load) (history : History) : Prop where
  /-- The dependencies are numbered. -/
  numbered : load.linker.modules.Numbered
  /-- A module without a frame is done and has the declared dependencies. -/
  finished {id : ModuleId} {mapping : Mapping} :
    load.linker.modules.mapping? id = some mapping → id ∉ load.frames.map Frame.module →
      history.Finished mapping ∧
        load.linker.modules.depNames id = (history.declared mapping.name).eraseDups
  /-- The module of a frame is not done and has the dependencies that its frame has passed. -/
  unfinished {frame : Frame} {mapping : Mapping} :
    frame ∈ load.frames → load.linker.modules.mapping? frame.module = some mapping →
      ¬ history.Finished mapping ∧
        ∃ passed, history.declared mapping.name = passed ++ frame.remaining ∧
          load.linker.modules.depNames frame.module = passed.eraseDups

namespace Load

variable {files : FileSet} {load next : Load} {history : History} {frame : Frame}
  {outer : List Frame} {name dep : Soname} {deps : List Soname} {target : ModuleId}

/-- The module of a frame has been mapped under the name of the frame. -/
lemma Proper.mapping?_eq (h : load.Proper) (hframe : frame ∈ load.frames) :
    ∃ mapping, load.linker.modules.mapping? frame.module = some mapping ∧
      mapping.name = frame.name :=
  h.inOrder.consistent.named_iff.mp (h.named hframe)

/-- The frames around the innermost one are for other modules. -/
lemma Proper.module_ne (h : load.Proper) (hframes : load.frames = frame :: outer) {g : Frame}
    (hg : g ∈ outer) : g.module ≠ frame.module := by
  have hnodup := h.inOrder.loading_nodup
  rw [hframes, List.map_cons, List.nodup_cons] at hnodup
  exact fun heq => hnodup.1 (heq ▸ List.mem_map_of_mem hg)

namespace Agrees

lemma fetch (h : load.Agrees history) (hproper : load.Proper)
    (hfree : load.linker.modules.named? name = none) {neededBy : Option Soname}
    (hfetch : load.fetch files neededBy name = .ok next) :
    ∃ new, next.events = load.events ++ new ∧ next.Agrees (history.after files new) := by
  obtain ⟨image, hfile, rfl⟩ := fetch_eq_ok hfetch
  refine ⟨_, rfl, ?_⟩
  have hdeclares : files.declares name = image.deps := by simp [FileSet.declares, hfile]
  -- every module that was there before has another name and another number
  have hname : ∀ id mapping, load.linker.modules.mapping? id = some mapping →
      mapping.name ≠ name := by
    rintro id mapping hmapping rfl
    rw [hproper.inOrder.consistent.named_of_mapping hmapping] at hfree
    simp at hfree
  have hne : ∀ id, (load.linker.modules.get? id).isSome → id ≠ load.linker.modules.nextId := by
    rintro id hid rfl
    simp at hid
  have hmapping : ∀ (mapping : Mapping) id, (load.linker.modules.get? id).isSome →
      (load.linker.modules.register mapping).mapping? id = load.linker.modules.mapping? id := by
    intro mapping id hid
    rw [LinkMap.mapping?_register, if_neg (hne id hid)]
  have hnames : ∀ (mapping : Mapping) id,
      (load.linker.modules.register mapping).depNames id = load.linker.modules.depNames id := by
    intro mapping id
    refine LinkMap.depNames_congr LinkMap.deps_register fun t ht => ?_
    exact hmapping mapping t (hproper.inOrder.consistent.dep_live ht)
  refine ⟨h.numbered.register _, ?_, ?_⟩
  · intro id mapping hid hnot
    rw [List.map_cons, List.mem_cons, not_or] at hnot
    rw [LinkMap.mapping?_register, if_neg hnot.1] at hid
    obtain ⟨hdone, hdeclared⟩ := History.after_fetch_of_ne (hname id mapping hid)
    rw [hnames, hdone, hdeclared]
    exact h.finished hid hnot.2
  · intro g mapping hg hid
    rcases List.mem_cons.mp hg with rfl | hg
    · rw [LinkMap.mapping?_register, if_pos rfl, Option.some.injEq] at hid
      have hnil : load.linker.modules.depNames load.linker.modules.nextId = [] := by
        rw [LinkMap.depNames, LinkMap.deps_of_get?_none LinkMap.get?_nextId]
        rfl
      subst hid
      obtain ⟨hnot, hdeclared⟩ := history.after_fetch_self files
        ⟨name, (load.linker.space.place image.bias?).1, image.exports, false⟩
        (load.linker.space.place image.bias?).1 rfl
      refine ⟨hnot, [], hdeclared.trans hdeclares, ?_⟩
      rw [hnames, hnil]
      rfl
    · obtain ⟨old, hold, -⟩ := hproper.mapping?_eq hg
      have hlive := LinkMap.isSome_of_mapping? hold
      rw [hmapping _ _ hlive] at hid
      obtain ⟨hdone, hdeclared⟩ := History.after_fetch_of_ne (hname g.module mapping hid)
      rw [hnames, hdone, hdeclared]
      exact h.unfinished hg hid

lemma link (h : load.Agrees history) (hproper : load.Proper)
    (hframes : load.frames = frame :: outer) (hremaining : frame.remaining = dep :: deps)
    (hfound : load.linker.modules.named? dep = some target) :
    (load.link frame deps outer target).Agrees history := by
  have hmem : frame ∈ load.frames := by simp [hframes]
  have hmodules : (load.link frame deps outer target).linker.modules
      = load.linker.modules.addDep frame.module target := rfl
  have hnames : ∀ id, id ≠ frame.module →
      (load.linker.modules.addDep frame.module target).depNames id
        = load.linker.modules.depNames id := by
    intro id hne
    exact LinkMap.depNames_congr (LinkMap.deps_addDep_of_ne hne) fun _ _ => LinkMap.mapping?_addDep
  refine ⟨h.numbered.addDep, ?_, ?_⟩
  · intro id mapping hid hnot
    have hnot' : id ∉ load.frames.map Frame.module := by
      simpa [Load.link, hframes] using hnot
    have hne : id ≠ frame.module := fun heq => hnot' (heq ▸ List.mem_map_of_mem hmem)
    rw [hmodules, LinkMap.mapping?_addDep] at hid
    rw [hmodules, hnames id hne]
    exact h.finished hid hnot'
  · intro g mapping hg hid
    rw [hmodules, LinkMap.mapping?_addDep] at hid
    rw [hmodules]
    rcases List.mem_cons.mp hg with rfl | hg
    · obtain ⟨hnot, passed, hdeclared, hdeps⟩ := h.unfinished hmem hid
      refine ⟨hnot, passed ++ [dep], by simp [hdeclared, hremaining], ?_⟩
      have hparent : (load.linker.modules.get? frame.module).isSome :=
        LinkMap.isSome_of_mapping? hid
      rw [LinkMap.depNames_addDep h.numbered hproper.inOrder.consistent hparent hfound, hdeps,
        eraseDups_concat]
      simp only [List.mem_eraseDups]
    · rw [hnames g.module (hproper.module_ne hframes hg)]
      exact h.unfinished (by simp [hframes, hg]) hid

lemma relocate (h : load.Agrees history) (hproper : load.Proper)
    (hframes : load.frames = frame :: outer) (hremaining : frame.remaining = [])
    {events : List Event} :
    Agrees ⟨load.linker.settle frame.module, outer, events⟩
      (history.note files (.relocate frame.name)) := by
  have hmem : frame ∈ load.frames := by simp [hframes]
  obtain ⟨done, hdone, hname⟩ := hproper.mapping?_eq hmem
  have hnames : ∀ id, (load.linker.settle frame.module).modules.depNames id
      = load.linker.modules.depNames id := fun id =>
    LinkMap.depNames_congr (load.linker.deps_settle _ id) fun t _ => load.linker.mapping?_settle _ t
  refine ⟨h.numbered.settle frame.module, ?_, ?_⟩
  · intro id mapping hid hnot
    rw [Linker.mapping?_settle] at hid
    rw [hnames]
    by_cases heq : id = frame.module
    · -- the frame has passed all that was declared
      subst heq
      obtain ⟨-, passed, hdeclared, hdeps⟩ := h.unfinished hmem hid
      rw [hdone, Option.some.injEq] at hid
      subst hid
      rw [hremaining, List.append_nil] at hdeclared
      refine ⟨Or.inr ?_, ?_⟩
      · simp [History.note, hname]
      · rw [hdeps, ← hdeclared]
        rfl
    · have hnot' : id ∉ load.frames.map Frame.module := by
        rw [hframes, List.map_cons, List.mem_cons, not_or]
        exact ⟨heq, hnot⟩
      obtain ⟨hfinished, hdeps⟩ := h.finished hid hnot'
      refine ⟨hfinished.imp_right fun hrelocated => ?_, hdeps⟩
      by_cases hsame : mapping.name = frame.name
      · simp [History.note, hsame]
      · simp [History.note, Function.update_of_ne hsame, hrelocated]
  · intro g mapping hg hid
    rw [Linker.mapping?_settle] at hid
    rw [hnames]
    obtain ⟨hnot, hdeps⟩ := h.unfinished (by simp [hframes, hg]) hid
    have hne : mapping.name ≠ frame.name := by
      intro hsame
      rw [← hname] at hsame
      exact hproper.module_ne hframes hg
        (hproper.inOrder.consistent.id_unique hid hdone hsame)
    refine ⟨?_, hdeps⟩
    simpa only [History.note, History.Finished, Function.update_of_ne hne] using hnot

/-- **A step keeps a load in agreement with its history**, which goes on by the events of the
step. -/
theorem advance (h : load.Agrees history) (hproper : load.Proper)
    (hadvance : Advance files load next) :
    ∃ new, next.events = load.events ++ new ∧ next.Agrees (history.after files new) := by
  cases hadvance with
  | fetch hfree hhead hfetch => exact h.fetch hproper hfree hfetch
  | link hframes hremaining hfound =>
    exact ⟨[], (List.append_nil _).symm, h.link hproper hframes hremaining hfound⟩
  | @relocate frame outer events hframes hremaining hevents =>
    refine ⟨events, rfl, ?_⟩
    rw [History.after_relocate hevents]
    exact h.relocate hproper hframes hremaining

/-- What is left when a load gets stuck agrees with the history of the load. -/
lemma unwind (h : load.Agrees history) (hproper : load.Proper) :
    (Load.start load.unwind).Agrees history := by
  refine ⟨fun id m hm => ?_, ?_, ?_⟩
  · have hm' : load.unwind.modules.get? id = some m := hm
    rw [(hproper.get?_unwind (by simp [hm'])).2] at hm'
    exact h.numbered id m hm'
  · intro id mapping hid _
    have hid' : load.unwind.modules.mapping? id = some mapping := hid
    obtain ⟨hloaded, hget⟩ := hproper.get?_unwind (LinkMap.isSome_of_mapping? hid')
    have hnot : id ∉ load.frames.map Frame.module := by
      rw [← hproper.inOrder.loading_iff, hloaded]
      simp
    rw [LinkMap.mapping?, hget] at hid'
    obtain ⟨hdone, hdeps⟩ := h.finished hid' hnot
    refine ⟨hdone, Eq.trans ?_ hdeps⟩
    refine LinkMap.depNames_congr (LinkMap.deps_congr hget) fun t ht => ?_
    exact hproper.extends_unwind.mapping?_eq (hproper.inOrder.loaded_closed hloaded ht)
  · intro frame _ hframe
    simp [Load.start] at hframe

end Agrees

end Load

end DynamicLinker
