/-
# Every module is initialised once

A module carries a flag that says whether its initialiser has run.  The flag of a startup module is
set from the start, that of any other module is set when its initialiser is called, and no flag is
ever taken back.  A module that is loaded and then discarded was never initialised: initialisers
run after a load, when nothing is loading, and only what is loading is discarded.

So the flags and the initialisers that were called say the same: between calls, the modules with
the flag are the startup modules and those whose names were called.  These names are different, and
their modules are there for good.  The rest follows from the flags: what a request calls is what
has no flag in the tree of its module, in the order of the backward walk, and after it the whole
tree has the flag.
-/
import DynamicLinker.Proofs.DeclaredTrees
import DynamicLinker.Proofs.FailedLoads
import DynamicLinker.Proofs.InitializationOrder
import DynamicLinker.Proofs.LoadOrder

namespace DynamicLinker

/-! ## The flag -/

namespace LinkMap

variable {lm lm' : LinkMap} {id i root : ModuleId} {ids : List ModuleId} {mapping : Mapping}

lemma initialized?_congr (h : lm'.get? i = lm.get? i) : lm'.initialized? i = lm.initialized? i := by
  rw [initialized?, h, initialized?]

lemma initialized?_of_get? {m : Module} (h : lm.get? id = some m) :
    lm.initialized? id = some m.initialized := by
  rw [initialized?, h]
  rfl

lemma initialized?_modify {f : Module → Module} (hf : ∀ m, (f m).initialized = m.initialized) :
    (lm.modify id f).initialized? i = lm.initialized? i := by
  simp only [initialized?, get?_modify]
  split
  · cases lm.get? i <;> simp [hf]
  · rfl

lemma initialized?_register :
    (lm.register mapping).initialized? i
      = if i = lm.nextId then some mapping.isStartup else lm.initialized? i := by
  simp only [initialized?, get?_register]
  split <;> rfl

@[simp] lemma initialized?_addDep {parent target : ModuleId} :
    (lm.addDep parent target).initialized? i = lm.initialized? i := by
  obtain h | h := addDep_eq lm parent target
  · rw [h]
  · rw [h]
    exact initialized?_modify fun _ => rfl

@[simp] lemma initialized?_publish : (lm.publish id).initialized? i = lm.initialized? i := by
  simp only [initialized?, get?_publish]
  split
  · cases lm.get? i <;> rfl
  · rfl

@[simp] lemma initialized?_foldl_publish :
    (ids.foldl publish lm).initialized? i = lm.initialized? i := by
  induction ids generalizing lm with
  | nil => rfl
  | cons id ids ih => rw [List.foldl_cons, ih, initialized?_publish]

@[simp] lemma initialized?_setGlobal {isGlobal : Bool} :
    (lm.setGlobal id isGlobal).initialized? i = lm.initialized? i :=
  initialized?_modify fun _ => rfl

@[simp] lemma initialized?_promoteOne : (lm.promoteOne id).initialized? i = lm.initialized? i := by
  obtain h | h := promoteOne_eq lm id
  · rw [h]
  · rw [h]
    exact initialized?_setGlobal

@[simp] lemma initialized?_promote : (lm.promote root).initialized? i = lm.initialized? i := by
  rw [promote]
  induction lm.tree root generalizing lm with
  | nil => rfl
  | cons id ids ih => rw [List.foldl_cons, ih, initialized?_promoteOne]

end LinkMap

@[simp] lemma Linker.initialized?_settle (linker : Linker) (id i : ModuleId) :
    (linker.settle id).modules.initialized? i = linker.modules.initialized? i := by
  obtain ⟨ready, waiting, -, hsettle⟩ := linker.settle_eq id
  rw [hsettle, LinkMap.initialized?_foldl_publish]
  exact LinkMap.initialized?_modify fun _ => rfl

/-- A step of a load sets no flag. -/
lemma Load.Advance.initialized?_of_next {files : FileSet} {load next : Load} {id : ModuleId}
    (h : Load.Advance files load next) (hid : next.linker.modules.initialized? id = some true) :
    load.linker.modules.initialized? id = some true := by
  cases h with
  | fetch hfree hhead hfetch =>
    obtain ⟨image, -, rfl⟩ := fetch_eq_ok hfetch
    rw [LinkMap.initialized?_register] at hid
    split at hid
    · simp at hid
    · exact hid
  | link hframes hremaining hfound => simpa [Load.link, Linker.withModules] using hid
  | relocate hframes hremaining hevents => simpa using hid

/-! ## The flags tell what was called -/

namespace LinkMap

/-- A link map whose flags say that, of the modules that are no startup modules, those with the
given names were initialised. -/
structure Initialized (lm : LinkMap) (names : List Soname) : Prop where
  /-- No name is there twice. -/
  nodup : names.Nodup
  /-- A module has the flag if it is a startup module or has one of the names. -/
  initialized?_iff {id : ModuleId} {mapping : Mapping} : lm.mapping? id = some mapping →
    (lm.initialized? id = some true ↔ mapping.isStartup = true ∨ mapping.name ∈ names)
  /-- The names are those of modules, and of no startup modules. -/
  exists_module {name : Soname} : name ∈ names →
    ∃ id mapping, lm.mapping? id = some mapping ∧ mapping.name = name ∧ mapping.isStartup = false

variable {lm lm' : LinkMap} {id root : ModuleId} {names startup : List Soname}
  {mapping : Mapping}

/-- A startup module is known by its name. -/
lemma HasStartup.isStartup_iff (h : lm.HasStartup startup) (hconsistent : lm.Consistent)
    (hid : lm.mapping? id = some mapping) : mapping.isStartup = true ↔ mapping.name ∈ startup := by
  rw [h.mem_iff]
  constructor
  · exact fun hflag => ⟨id, mapping, hid, hflag, rfl⟩
  · rintro ⟨i, other, hi, hflag, hname⟩
    obtain rfl := hconsistent.id_unique hid hi hname.symm
    rw [hid] at hi
    rwa [Option.some.inj hi]

namespace Initialized

lemma initialized?_eq_false_iff (h : lm.Initialized names) (hid : lm.mapping? id = some mapping) :
    lm.initialized? id = some false ↔ mapping.isStartup = false ∧ mapping.name ∉ names := by
  obtain ⟨m, hm, rfl⟩ := mapping?_eq_some.mp hid
  have hiff := h.initialized?_iff hid
  rw [initialized?_of_get? hm] at hiff ⊢
  cases hflag : m.initialized <;> cases hstartup : m.isStartup <;> simp_all

/-- The initialisers that are due are those of the modules in the tree that are no startup modules
and were not called, in the order of the backward walk. -/
lemma namesOf_uninitialized (h : lm.Initialized names) (hstartup : lm.HasStartup startup)
    (hconsistent : lm.Consistent) (root : ModuleId) :
    lm.namesOf (lm.uninitialized root)
      = (lm.namesOf (lm.initializationOrder root)).filter
          fun name => name ∉ startup ∧ name ∉ names := by
  rw [uninitialized, namesOf_eq, namesOf_eq, List.filter_filterMap, List.filterMap_filter]
  refine List.filterMap_congr fun id _ => ?_
  cases hget : lm.get? id with
  | none => simp [mapping?, hget]
  | some m =>
    have hid := mapping?_of_get? hget
    have hdue : m.initialized = false ↔ m.name ∉ startup ∧ m.name ∉ names := by
      rw [← hstartup.isStartup_iff hconsistent hid, Bool.not_eq_true,
        ← h.initialized?_eq_false_iff hid, initialized?_of_get? hget, Option.some.injEq]
    rw [hid]
    by_cases hflag : m.initialized = false
    · simp [hflag, Option.filter, hdue.mp hflag]
    · have hout := mt hdue.mpr hflag
      simp only [Bool.not_eq_false] at hflag
      simp [hflag, Option.filter, hout]

/-- The names stay the right ones where modules are kept, new ones are no startup modules, and no
flag changes. -/
lemma of_retains {linker later : Linker} (h : linker.modules.Initialized names)
    (hretains : linker.Retains later) (hlater : later.modules.Consistent)
    (hnew : ∀ id mapping, later.modules.mapping? id = some mapping →
      linker.modules.get? id = none → mapping.isStartup = false)
    (hflag : ∀ id, later.modules.initialized? id = some true ↔
      linker.modules.initialized? id = some true) : later.modules.Initialized names := by
  refine ⟨h.nodup, fun {id mapping} hid => ?_, fun {name} hname => ?_⟩
  · rw [hflag]
    cases hget : linker.modules.get? id with
    | some m =>
      rw [hretains.mapping?_eq_of_live (Option.isSome_of_eq_some hget)] at hid
      exact h.initialized?_iff hid
    | none =>
      -- a new module has no flag, and a name that was not called
      simp only [initialized?, hget, Option.map_none, reduceCtorEq, false_iff, not_or,
        Bool.not_eq_true]
      refine ⟨hnew id mapping hid hget, fun hname => ?_⟩
      obtain ⟨i, other, hi, hsame, -⟩ := h.exists_module hname
      obtain rfl := hlater.id_unique hid (hretains.mapping?_eq hi) hsame.symm
      simp [mapping?, hget] at hi
  · obtain ⟨id, mapping, hid, hmapping⟩ := h.exists_module hname
    exact ⟨id, mapping, hretains.mapping?_eq hid, hmapping⟩

/-- When the initialisers of a tree have run, their names join the others. -/
lemma initializeTree (h : lm.Initialized names) (hconsistent : lm.Consistent) (root : ModuleId) :
    (lm.initializeTree root).Initialized (names ++ lm.namesOf (lm.uninitialized root)) := by
  have hdue : ∀ {id mapping}, lm.mapping? id = some mapping →
      (mapping.name ∈ lm.namesOf (lm.uninitialized root) ↔ id ∈ lm.uninitialized root) := by
    intro id mapping hid
    refine ⟨hconsistent.mem_of_mem_namesOf hid, fun hmem => ?_⟩
    rw [namesOf_eq, List.mem_filterMap]
    exact ⟨id, hmem, by rw [hid]; rfl⟩
  have hmapping := (lm.alike_initializeTree root).mapping?_eq
  refine ⟨?_, fun {id mapping} hid => ?_, fun {name} hname => ?_⟩
  · refine List.nodup_append.mpr ⟨h.nodup,
      hconsistent.namesOf_nodup (lm.uninitialized_nodup root), ?_⟩
    rintro name hname _ hnew rfl
    obtain ⟨id, mapping, hid, rfl, -⟩ := h.exists_module hname
    -- a module that was initialised before is not due
    have hflag := (mem_uninitialized.mp ((hdue hid).mp hnew)).2
    rw [h.initialized?_eq_false_iff hid] at hflag
    exact hflag.2 hname
  · rw [hmapping] at hid
    rw [LinkMap.initializeTree, initialized?_foldl_markInitialized, List.mem_append, hdue hid]
    obtain ⟨m, hm, -⟩ := mapping?_eq_some.mp hid
    split
    · rename_i hmem
      simp [initialized?_of_get? hm, hmem]
    · rename_i hmem
      rw [h.initialized?_iff hid]
      simp [hmem]
  · rcases List.mem_append.mp hname with hold | hnew
    · obtain ⟨id, mapping, hid, hsame⟩ := h.exists_module hold
      exact ⟨id, mapping, (hmapping id).trans hid, hsame⟩
    · rw [namesOf_eq, List.mem_filterMap] at hnew
      obtain ⟨id, hid, hsame⟩ := hnew
      obtain ⟨mapping, hmap, rfl⟩ := Option.map_eq_some_iff.mp hsame
      refine ⟨id, mapping, (hmapping id).trans hmap, rfl, ?_⟩
      exact ((h.initialized?_eq_false_iff hmap).mp (mem_uninitialized.mp hid).2).1

end Initialized

end LinkMap

/-! ## Startup -/

namespace LinkMap

variable {lm lm' : LinkMap}

/-- The flag of a startup module is set. -/
lemma initialized?_addStartup {startup : StartupModule} (hadd : lm.addStartup startup = .ok lm')
    (h : ∀ id, lm.initialized? id ≠ some false) (id : ModuleId) :
    lm'.initialized? id ≠ some false := by
  rw [addStartup] at hadd
  split at hadd
  · simp at hadd
  · rw [← Except.ok.inj hadd, initialized?_publish, initialized?_setGlobal, initialized?_register]
    split
    · simp
    · exact h id

lemma initialized?_foldlM_addStartup {startup : List StartupModule}
    (hadd : startup.foldlM addStartup lm = .ok lm') (h : ∀ id, lm.initialized? id ≠ some false)
    (id : ModuleId) : lm'.initialized? id ≠ some false := by
  induction startup generalizing lm with
  | nil =>
    rw [← Except.ok.inj hadd]
    exact h id
  | cons module startup ih =>
    rw [List.foldlM_cons] at hadd
    cases hfirst : lm.addStartup module with
    | error e =>
      rw [hfirst] at hadd
      cases hadd
    | ok first =>
      rw [hfirst] at hadd
      exact ih hadd (initialized?_addStartup hfirst h)

end LinkMap

/-! ## Calls -/

/-- What initialisers a request to open a module calls, when the startup modules have the given
names and some initialisers were called before. -/
structure Outcome.InitializesOnce (outcome : Outcome Handle) (startup done : List Soname) :
    Prop where
  /-- A request that fails calls none. -/
  of_error {e : LinkError} : outcome.result = .error e → initializations outcome.events = []
  /-- A request that succeeds calls them after all else, and these are the ones of the tree of the
  module that were not called before and are not of startup modules, in the order of the backward
  walk. -/
  of_ok {handle : Handle} : outcome.result = .ok handle →
    ∃ before, (∀ n, .init n ∉ before) ∧ outcome.events = before ++
      ((outcome.linker.modules.namesOf
          (outcome.linker.modules.initializationOrder handle.module)).filter
        fun n => n ∉ startup ∧ n ∉ done).map .init
  /-- Afterwards the initialisers of the whole tree have been called. -/
  tree {handle : Handle} : outcome.result = .ok handle →
    ∃ tree, outcome.linker.treeNames handle = .ok tree ∧
      ∀ n ∈ tree, n ∉ startup → n ∈ done ∨ n ∈ initializations outcome.events

/-- A load that gets stuck has called no initialiser. -/
lemma Load.StuckAt.no_init {linker : Linker} {load stuck : Load} (h : load.StuckAt stuck)
    (hsince : load.Since linker) (name : Soname) : .init name ∉ stuck.events := by
  obtain ⟨events, rfl, hevents⟩ := h
  rw [log, List.mem_append, not_or]
  exact ⟨hsince.no_init, hevents name⟩

lemma initializations_eq_nil {events : List Event} (h : ∀ name, .init name ∉ events) :
    initializations events = [] :=
  List.eq_nil_iff_forall_not_mem.mpr fun name hname => h name (mem_initializations.mp hname)

namespace Linker

variable {linker created : Linker} {history : History} {files : FileSet} {name : Soname}
  {word : Int32} {load : Load} {id : ModuleId} {mode : Mode} {names startup : List Soname}

/-- At first the modules with the flag are the startup modules. -/
lemma initialized_create {id : LinkerId} {space : AddressSpace} {startup : List StartupModule}
    (hcreate : Linker.create id space startup = .ok created) : created.modules.Initialized [] := by
  have hmodules := create_eq_ok hcreate
  have hstartup := LinkMap.AllStartup.empty.foldlM_addStartup hmodules
  refine ⟨List.nodup_nil, fun {id mapping} hid => ?_, fun {name} hname => by simp at hname⟩
  obtain ⟨m, hm, rfl⟩ := LinkMap.mapping?_eq_some.mp hid
  have hflag := LinkMap.initialized?_foldlM_addStartup hmodules (fun _ => by
    simp [LinkMap.initialized?]) id
  rw [LinkMap.initialized?_of_get? hm] at hflag ⊢
  simpa [(hstartup.startup hm).2.1] using hflag

/-- The flags at a moment of a load are those that were set before. -/
lemma InOrder.initialized?_moment (h : linker.InOrder [])
    (hload : load ∈ linker.moments files name word) :
    load.linker.modules.initialized? id = some true ↔
      linker.modules.initialized? id = some true := by
  constructor
  · exact (moments_induction (P := fun load => load.linker.modules.initialized? id = some true →
      linker.modules.initialized? id = some true) h (fun hid => hid)
      (fun _ _ _ ha hab hid => ha (hab.initialized?_of_next hid)) hload).2
  · intro hid
    obtain ⟨m, hm, -⟩ := Option.map_eq_some_iff.mp hid
    have hstate := h.state?_eq_loaded (Option.isSome_of_eq_some hm)
    rwa [LinkMap.initialized?_congr ((h.since hload).kept.get?_eq hstate)]

lemma InOrder.initialized_moment (h : linker.InOrder []) (hinit : linker.modules.Initialized names)
    (hload : load ∈ linker.moments files name word) : load.linker.modules.Initialized names :=
  hinit.of_retains (h.retains_moment hload) (proper_of_mem_moments h hload).inOrder.consistent
    (fun _ _ => (h.since hload).not_startup) fun _ => h.initialized?_moment hload

/-- A load that gets stuck discards modules without the flag only. -/
lemma InOrder.initialized_unwind (h : linker.InOrder []) (hinit : linker.modules.Initialized names)
    (hload : load ∈ linker.moments files name word) : load.unwind.modules.Initialized names := by
  have hproper := proper_of_mem_moments h hload
  have hget : ∀ {id}, (load.unwind.modules.get? id).isSome →
      load.unwind.modules.get? id = load.linker.modules.get? id := fun hlive =>
    (hproper.get?_unwind hlive).2
  refine hinit.of_retains (h.retains_unwind hload) hproper.unwind.consistent
    (fun id mapping hid hnone => ?_) fun id => ?_
  · rw [LinkMap.mapping?, hget (LinkMap.isSome_of_mapping? hid)] at hid
    exact (h.since hload).not_startup hid hnone
  · constructor
    · intro hid
      obtain ⟨m, hm, -⟩ := Option.map_eq_some_iff.mp hid
      rw [LinkMap.initialized?_congr (hget (Option.isSome_of_eq_some hm))] at hid
      exact (h.initialized?_moment hload).mp hid
    · intro hid
      obtain ⟨m, hm, -⟩ := Option.map_eq_some_iff.mp hid
      have hstate := h.state?_eq_loaded (Option.isSome_of_eq_some hm)
      have hextends := (h.since hload).kept.trans hproper.extends_unwind
      rwa [LinkMap.initialized?_congr (hextends.get?_eq hstate)]

lemma initialized_promoted (hinit : linker.modules.Initialized names)
    (id : ModuleId) (mode : Mode) : (linker.promoted id mode).modules.Initialized names := by
  have halike := linker.alike_promoted id mode
  refine ⟨hinit.nodup, fun {i mapping} hi => ?_, fun {name} hname => ?_⟩
  · rw [halike.mapping?_eq] at hi
    rw [← hinit.initialized?_iff hi, promoted]
    split
    · rw [withModules, LinkMap.initialized?_promote]
    · rfl
  · obtain ⟨i, mapping, hi, hsame⟩ := hinit.exists_module hname
    exact ⟨i, mapping, (halike.mapping?_eq i).trans hi, hsame⟩

/-- The issue of a handle calls the initialisers that are due, in the order of the backward walk,
and notes that. -/
lemma initialized_issue (hinit : linker.modules.Initialized names)
    (hconsistent : linker.modules.Consistent) (id : ModuleId) (mode : Mode) :
    (linker.issue id mode).linker.modules.Initialized
      (names ++ initializations (linker.issue id mode).events) := by
  rw [issue_eq, initializations_map_init]
  exact (initialized_promoted hinit id mode).initializeTree
    (consistent_promoted hconsistent id mode) id

lemma events_issue (hinit : linker.modules.Initialized names)
    (hstartup : linker.modules.HasStartup startup) (hconsistent : linker.modules.Consistent)
    (id : ModuleId) (mode : Mode) :
    (linker.issue id mode).events
      = (((linker.issue id mode).linker.modules.namesOf
          ((linker.issue id mode).linker.modules.initializationOrder id)).filter
            fun name => name ∉ startup ∧ name ∉ names).map .init := by
  have halike : (linker.promoted id mode).modules.Alike (linker.issue id mode).linker.modules :=
    LinkMap.alike_initializeTree _ id
  have horder : (linker.issue id mode).linker.modules.initializationOrder id
      = (linker.promoted id mode).modules.initializationOrder id := by
    rw [LinkMap.initializationOrder, LinkMap.initializationOrder,
      LinkMap.walk_congr fun x _ => halike.deps_eq x]
  rw [horder, LinkMap.namesOf_congr fun x _ => halike.mapping?_eq x, issue_eq,
    (initialized_promoted hinit id mode).namesOf_uninitialized
      (hstartup.of_alike (linker.alike_promoted id mode)) (consistent_promoted hconsistent id mode)]

/-- Between calls the flags tell what was called, since no load, be it complete or stuck, calls an
initialiser. -/
lemma Sound.initialized_openModule (h : linker.Sound history)
    (hinit : linker.modules.Initialized names) (files : FileSet) (name : Soname) (word : Int32) :
    (linker.openModule files name word).linker.modules.Initialized
      (names ++ initializations (linker.openModule files name word).events) := by
  have hopening := linker.opening files name word
  generalize linker.openModule files name word = outcome at hopening ⊢
  cases hopening with
  | refused hmoments => simpa [initializations] using hinit
  | found _ _ hmoments => exact initialized_issue hinit h.inOrder.consistent _ _
  | stuck _ hlast hstuck =>
    have hmem := List.mem_of_getLast? hlast
    rw [initializations_eq_nil (hstuck.no_init (h.inOrder.since hmem)), List.append_nil]
    exact h.inOrder.initialized_unwind hinit hmem
  | loaded _ _ hlast hframes =>
    have hmem := List.mem_of_getLast? hlast
    have hproper := (h.moment hmem).1
    rw [initializations_append, initializations_eq_nil fun _ => (h.inOrder.since hmem).no_init,
      List.nil_append]
    exact initialized_issue (h.inOrder.initialized_moment hinit hmem) hproper.inOrder.consistent _ _

/-- A request that succeeds calls initialisers after all else, in the order of the backward walk. -/
lemma Sound.exists_events_eq (h : linker.Sound history) (hinit : linker.modules.Initialized names)
    (hstartup : linker.modules.HasStartup startup) {handle : Handle}
    (hopen : (linker.openModule files name word).result = .ok handle) :
    ∃ before, (∀ n, .init n ∉ before) ∧ (linker.openModule files name word).events = before ++
      (((linker.openModule files name word).linker.modules.namesOf
        ((linker.openModule files name word).linker.modules.initializationOrder
          handle.module)).filter fun n => n ∉ startup ∧ n ∉ names).map .init := by
  have hopening := linker.opening files name word
  generalize linker.openModule files name word = outcome at hopen hopening ⊢
  cases hopening with
  | refused hmoments => simp at hopen
  | stuck _ _ _ => simp at hopen
  | @found mode id _ _ hmoments =>
    rw [← Except.ok.inj hopen]
    exact ⟨[], by simp, events_issue hinit hstartup h.inOrder.consistent id mode⟩
  | @loaded mode last _ _ hlast hframes =>
    have hmem := List.mem_of_getLast? hlast
    have hsince := h.inOrder.since hmem
    have hlater := hstartup.of_extends h.inOrder hsince.kept fun _ _ => hsince.not_startup
    rw [← Except.ok.inj hopen]
    exact ⟨last.events, fun _ => hsince.no_init, congrArg (last.events ++ ·)
      (events_issue (h.inOrder.initialized_moment hinit hmem) hlater
        (h.moment hmem).1.inOrder.consistent _ mode)⟩

/-- A request that fails calls no initialiser. -/
lemma Sound.initializations_of_error (h : linker.Sound history) {e : LinkError}
    (hfail : (linker.openModule files name word).result = .error e) :
    initializations (linker.openModule files name word).events = [] := by
  have hopening := linker.opening files name word
  generalize linker.openModule files name word = outcome at hfail hopening ⊢
  cases hopening with
  | refused hmoments => rfl
  | found _ _ hmoments => simp [Linker.issue] at hfail
  | stuck _ hlast hstuck =>
    exact initializations_eq_nil
      (hstuck.no_init (h.inOrder.since (List.mem_of_getLast? hlast)))
  | loaded _ _ _ _ => simp [Linker.issue] at hfail

lemma Sound.initializesOnce (h : linker.Sound history) (hinit : linker.modules.Initialized names)
    (hstartup : linker.modules.HasStartup startup) (files : FileSet) (name : Soname)
    (word : Int32) : (linker.openModule files name word).InitializesOnce startup names := by
  refine ⟨h.initializations_of_error, h.exists_events_eq hinit hstartup, fun {handle} hopen => ?_⟩
  obtain ⟨m, hm, -⟩ := h.moduleOf_openModule hopen
  obtain ⟨before, -, hevents⟩ := h.exists_events_eq hinit hstartup hopen
  refine ⟨_, treeNames_eq_ok hm, fun n hn hout => ?_⟩
  by_cases hdone : n ∈ names
  · exact .inl hdone
  · right
    -- the backward walk lists the same modules as the tree
    have hlisted : n ∈ (linker.openModule files name word).linker.modules.namesOf
        ((linker.openModule files name word).linker.modules.initializationOrder
          handle.module) := by
      simp only [LinkMap.namesOf, List.mem_filterMap, LinkMap.mem_tree,
        LinkMap.initializationOrder, List.mem_reverse, LinkMap.mem_walk_iff, List.mem_singleton,
        exists_eq_left] at hn ⊢
      exact hn
    rw [hevents, initializations_append, initializations_map_init, List.mem_append,
      List.mem_filter]
    exact .inr ⟨hlisted, by simp [hout, hdone]⟩

/-- **Every module is initialised once, in time, and only if it is loaded.**  Whatever calls are
made of a linker, no initialiser is called twice, and those that were called are of loaded modules
which are no startup modules.  A request that fails calls none.  A request that succeeds calls them
last, in the order of the backward walk from its module, and then all of its tree were called, by
this request or an earlier one. -/
theorem initialized_once {id : LinkerId} {space : AddressSpace} {startup : List StartupModule}
    (hcreate : Linker.create id space startup = .ok created) (calls : List (FileSet × Call)) :
    (initializations (created.eventsAfter calls)).Nodup ∧
    (∀ n ∈ initializations (created.eventsAfter calls),
      n ∉ startup.map StartupModule.name ∧ n ∈ (created.after calls).loadedNames) ∧
    ∀ files name word, ((created.after calls).openModule files name word).InitializesOnce
      (startup.map StartupModule.name) (initializations (created.eventsAfter calls)) := by
  have hreached := Reached.create hcreate
  have hinit : (created.after calls).modules.Initialized
      (initializations ([] ++ created.eventsAfter calls)) :=
    hreached.eventsAfter_induction
      (P := fun linker past => linker.modules.Initialized (initializations past))
      (show created.modules.Initialized (initializations []) from initialized_create hcreate)
      (fun before history past files name word hbefore hpast => by
        rw [initializations_append]
        exact hbefore.sound.initialized_openModule hpast files name word) calls
  rw [List.nil_append] at hinit
  have hstartup := hreached.hasStartup_after (hasStartup_create hcreate) calls
  have hsound := (hreached.after calls).sound
  refine ⟨hinit.nodup, fun n hn => ?_, hsound.initializesOnce hinit hstartup⟩
  obtain ⟨i, mapping, hi, rfl, hflag⟩ := hinit.exists_module hn
  constructor
  · rw [← hstartup.isStartup_iff hsound.inOrder.consistent hi, hflag]
    simp
  · rw [hsound.mem_loadedNames, hsound.inOrder.consistent.named_of_mapping hi]
    rfl

/-- A request for `d` loads `b` and `c`, which need each other and the startup module `s`, and
fails.  They are kept.  A later request for `e`, which takes the number of `d` and needs `c`,
initialises both of them, the farther one first.  Only its own initialiser is left for a request for
`a`, which needs them too, and a second request for `d` fails and calls none. -/
theorem initialized_once_of_kept :
    ∃ (created : Linker) (files : FileSet) (calls : List (FileSet × Call)) (e : LinkError),
      Linker.create 1 ⟨0x1000, 0x1000⟩ [⟨⟨"s"⟩, 0x10, .empty, false⟩] = .ok created ∧
      initializations (created.eventsAfter calls) = [⟨"b"⟩, ⟨"c"⟩, ⟨"e"⟩] ∧
      (initializations (created.eventsAfter calls)).Nodup ∧
      (created.after calls).loadedNames = [⟨"s"⟩, ⟨"c"⟩, ⟨"b"⟩, ⟨"e"⟩] ∧
      ((created.after calls).openModule files ⟨"a"⟩ 2).result = .ok ⟨1, 4⟩ ∧
      initializations ((created.after calls).openModule files ⟨"a"⟩ 2).events = [⟨"a"⟩] ∧
      (∃ tree, ((created.after calls).openModule files ⟨"a"⟩ 2).linker.treeNames ⟨1, 4⟩ = .ok tree ∧
        ∀ n ∈ tree, n ∉ [(⟨"s"⟩ : Soname)] → n ∈ initializations (created.eventsAfter calls) ∨
          n ∈ initializations ((created.after calls).openModule files ⟨"a"⟩ 2).events) ∧
      ((created.after calls).openModule files ⟨"d"⟩ 2).result = .error e ∧
      initializations ((created.after calls).openModule files ⟨"d"⟩ 2).events = [] := by
  let startup : List StartupModule := [⟨⟨"s"⟩, 0x10, .empty, false⟩]
  let files : FileSet := .ofDeps [(⟨"a"⟩, [⟨"b"⟩, ⟨"s"⟩]), (⟨"b"⟩, [⟨"c"⟩, ⟨"s"⟩]),
    (⟨"c"⟩, [⟨"b"⟩]), (⟨"d"⟩, [⟨"b"⟩, ⟨"z"⟩]), (⟨"e"⟩, [⟨"c"⟩])]
  let created : Linker :=
    (Linker.create 1 ⟨0x1000, 0x1000⟩ startup).toOption.getD ⟨1, ⟨0, 0⟩, .empty, []⟩
  have hcreate : Linker.create 1 ⟨0x1000, 0x1000⟩ startup = .ok created :=
    eq_ok_of_toOption (by decide +kernel)
  let calls : List (FileSet × Call) :=
    [(files, .openModule ⟨"d"⟩ 2), (files, .openModule ⟨"e"⟩ 2)]
  obtain ⟨hnodup, -, honce⟩ := initialized_once hcreate calls
  have hresult : ((created.after calls).openModule files ⟨"a"⟩ 2).result.toOption
      = some ⟨1, 4⟩ := by decide +kernel
  have hopen := eq_ok_of_toOption hresult
  have hfails : ((created.after calls).openModule files ⟨"d"⟩ 2).result.toOption = none := by
    decide +kernel
  obtain ⟨e, hfail⟩ : ∃ e, ((created.after calls).openModule files ⟨"d"⟩ 2).result = .error e := by
    cases herror : ((created.after calls).openModule files ⟨"d"⟩ 2).result with
    | error e => exact ⟨e, rfl⟩
    | ok handle => simp [herror, Except.toOption] at hfails
  refine ⟨created, files, calls, e, hcreate, ?_, hnodup, ?_, hopen, ?_, ?_, hfail, ?_⟩
  · decide +kernel
  · decide +kernel
  · decide +kernel
  · exact (honce files ⟨"a"⟩ 2).tree hopen
  · exact (honce files ⟨"d"⟩ 2).of_error hfail

end Linker

end DynamicLinker
