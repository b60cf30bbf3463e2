/-
# What holds of every linker

Between calls nothing is loading, so nothing waits and every module is loaded, and the link
map agrees with the history of the linker.  This is what soundness means here.  A linker is
sound when it has been created, and a call keeps it sound, whether it succeeds or fails:

* a load passes through moments that keep the invariant of loads, to the last;
* if it gets stuck there, unwinding leaves the loaded modules alone and no others;
* if it is complete, promotion and initialisation change flags and the order of the global
  list, and nothing that soundness speaks of.

So every linker that can be reached is sound, and all moments of its loads are known.
-/
import DynamicLinker.Proofs.Agreement

namespace DynamicLinker

/-! ## Changes of flags -/

/-- Two link maps that differ at most in the flags of their modules and in their global
lists. -/
structure LinkMap.Alike (lm lm' : LinkMap) : Prop where
  /-- Each module is linked as far in both. -/
  state?_eq (id : ModuleId) : lm'.state? id = lm.state? id
  /-- Each module has the same mapping in both. -/
  mapping?_eq (id : ModuleId) : lm'.mapping? id = lm.mapping? id
  /-- Each module has the same dependencies in both. -/
  deps_eq (id : ModuleId) : lm'.deps id = lm.deps id

namespace LinkMap

variable {lm lm' lm'' : LinkMap} {id : ModuleId} {ids : List ModuleId}

lemma Alike.refl (lm : LinkMap) : lm.Alike lm := ⟨fun _ => rfl, fun _ => rfl, fun _ => rfl⟩

lemma Alike.trans (h : lm.Alike lm') (h' : lm'.Alike lm'') : lm.Alike lm'' where
  state?_eq id := (h'.state?_eq id).trans (h.state?_eq id)
  mapping?_eq id := (h'.mapping?_eq id).trans (h.mapping?_eq id)
  deps_eq id := (h'.deps_eq id).trans (h.deps_eq id)

lemma alike_foldl {f : LinkMap → ModuleId → LinkMap}
    (hf : ∀ (lm : LinkMap) id, lm.Alike (f lm id)) :
    lm.Alike (ids.foldl f lm) := by
  induction ids generalizing lm with
  | nil => exact Alike.refl lm
  | cons id ids ih => exact (hf lm id).trans ih

lemma alike_promote (lm : LinkMap) (root : ModuleId) : lm.Alike (lm.promote root) :=
  alike_foldl fun _ _ => ⟨fun _ => state?_promoteOne, fun _ => mapping?_promoteOne,
    fun _ => deps_promoteOne⟩

lemma alike_foldl_markInitialized (lm : LinkMap) (ids : List ModuleId) :
    lm.Alike (ids.foldl markInitialized lm) :=
  alike_foldl fun _ _ => ⟨fun _ => state?_markInitialized, fun _ => mapping?_markInitialized,
    fun _ => deps_markInitialized⟩

lemma alike_initializeTree (lm : LinkMap) (root : ModuleId) : lm.Alike (lm.initializeTree root) :=
  lm.alike_foldl_markInitialized (lm.uninitialized root)

end LinkMap

/-! ## Startup modules -/

/-- A link map of startup modules only. -/
structure LinkMap.AllStartup (lm : LinkMap) : Prop where
  /-- The parts of the link map agree. -/
  consistent : lm.Consistent
  /-- Every module is a startup module, loaded and without dependencies. -/
  startup {id : ModuleId} {m : Module} :
    lm.get? id = some m → m.state = .loaded ∧ m.isStartup = true ∧ m.deps = .empty

namespace LinkMap.AllStartup

variable {lm lm' : LinkMap} {id : ModuleId}

lemma empty : LinkMap.empty.AllStartup where
  consistent := Consistent.empty
  startup h := by simp at h

lemma addStartup (h : lm.AllStartup) {startup : StartupModule}
    (hadd : lm.addStartup startup = .ok lm') : lm'.AllStartup := by
  rw [LinkMap.addStartup] at hadd
  cases hfree : lm.named? startup.name with
  | some id => simp [hfree] at hadd
  | none =>
    simp only [hfree, Except.ok.injEq] at hadd
    subst hadd
    have hmapped : (lm.register ⟨startup.name, startup.bias, startup.exports, true⟩).Consistent :=
      h.consistent.register hfree
    refine ⟨(hmapped.setGlobal startup.isGlobal).publish ?_ ?_, ?_⟩
    · simp [setGlobal, get?_modify, get?_register]
    · simp [state?, setGlobal, get?_modify, get?_register, Mapping.toModule]
    · intro id m hm
      rw [get?_publish, setGlobal, get?_modify, get?_register] at hm
      by_cases hid : id = lm.nextId
      · simp only [hid, if_true, Option.map_some, Option.some.injEq] at hm
        subst hm
        exact ⟨rfl, rfl, rfl⟩
      · -- any other module was there before
        simp only [hid, if_false] at hm
        exact h.startup hm

lemma foldlM_addStartup (h : lm.AllStartup) {startup : List StartupModule}
    (hadd : startup.foldlM LinkMap.addStartup lm = .ok lm') : lm'.AllStartup := by
  induction startup generalizing lm with
  | nil =>
    rw [← Except.ok.inj hadd]
    exact h
  | cons module startup ih =>
    rw [List.foldlM_cons] at hadd
    cases hfirst : lm.addStartup module with
    | error e =>
      rw [hfirst] at hadd
      cases hadd
    | ok first =>
      rw [hfirst] at hadd
      exact ih (h.addStartup hfirst) hadd

lemma state?_eq (h : lm.AllStartup) (hid : (lm.get? id).isSome) :
    lm.state? id = some .loaded := by
  obtain ⟨m, hm⟩ := Option.isSome_iff_exists.mp hid
  rw [state?_of_get? hm, (h.startup hm).1]

lemma deps_eq_nil (h : lm.AllStartup) (id : ModuleId) : lm.deps id = [] := by
  cases hm : lm.get? id with
  | none => exact deps_of_get?_none hm
  | some m => simp [deps_of_get? hm, Module.targets, (h.startup hm).2.2]

lemma numbered (h : lm.AllStartup) : lm.Numbered := by
  intro id m hm
  rw [Module.Numbered, (h.startup hm).2.2]
  rfl

end LinkMap.AllStartup

/-! ## Soundness -/

/-- A linker in which nothing is loading, and which agrees with its history. -/
structure Linker.Sound (linker : Linker) (history : History) : Prop where
  /-- Nothing is loading. -/
  inOrder : linker.InOrder []
  /-- The link map says the same as the history. -/
  agrees : (Load.start linker).Agrees history

namespace Linker

variable {linker linker' : Linker} {history : History} {files : FileSet} {name : Soname}
  {word : Int32} {load last : Load} {mode : Mode}

/-- A sound linker stays so when only flags and the order of the global list change. -/
lemma Sound.of_alike (h : linker.Sound history) (halike : linker.modules.Alike linker'.modules)
    (hconsistent : linker'.modules.Consistent) (hnumbered : linker'.modules.Numbered)
    (hwaiting : linker'.waiting = linker.waiting) : linker'.Sound history := by
  refine ⟨⟨hconsistent, h.inOrder.loading_nodup, ?_, ?_, ?_, ?_, ?_⟩, hnumbered, ?_, ?_⟩
  · intro id
    rw [halike.state?_eq]
    exact h.inOrder.loading_iff
  · rw [hwaiting]
    exact h.inOrder.waiting_nodup
  · intro id
    rw [halike.state?_eq, hwaiting]
    exact h.inOrder.waiting_iff
  · intro a b ha hb
    rw [halike.state?_eq] at ha ⊢
    rw [halike.deps_eq] at hb
    exact h.inOrder.loaded_closed ha hb
  · intro p hp
    rw [hwaiting, h.inOrder.waiting_eq_nil] at hp
    simp at hp
  · intro id mapping hid hnot
    have hid' : linker.modules.mapping? id = some mapping := by
      rw [← halike.mapping?_eq]
      exact hid
    have hnames : linker'.modules.depNames id = linker.modules.depNames id :=
      LinkMap.depNames_congr (halike.deps_eq id) fun t _ => halike.mapping?_eq t
    have hdone := h.agrees.finished hid' hnot
    exact ⟨hdone.1, hnames.trans hdone.2⟩
  · intro frame _ hframe
    simp [Load.start] at hframe

/-- Issuing a handle changes flags and the order of the global list. -/
lemma alike_issue (linker : Linker) (id : ModuleId) (mode : Mode) :
    linker.modules.Alike (linker.issue id mode).linker.modules := by
  rw [Linker.issue]
  split
  · exact (LinkMap.alike_promote _ id).trans (LinkMap.alike_initializeTree _ id)
  · exact LinkMap.alike_initializeTree _ id

/-- Issuing a handle keeps a linker sound. -/
lemma Sound.issue (h : linker.Sound history) (id : ModuleId) (mode : Mode) :
    (linker.issue id mode).linker.Sound history := by
  refine h.of_alike (linker.alike_issue id mode) ?_ ?_ ?_ <;> unfold Linker.issue <;> split
  · exact (h.inOrder.consistent.promote id).initializeTree id
  · exact h.inOrder.consistent.initializeTree id
  · exact (h.agrees.numbered.promote id).initializeTree id
  · exact h.agrees.numbered.initializeTree id
  · rfl
  · rfl

/-! ## Creation -/

/-- A linker is sound when it has been created. -/
lemma sound_create {id : LinkerId} {space : AddressSpace} {startup : List StartupModule}
    (hcreate : Linker.create id space startup = .ok linker) : linker.Sound .start := by
  rw [Linker.create] at hcreate
  cases hmodules : startup.foldlM LinkMap.addStartup LinkMap.empty with
  | error e =>
    rw [hmodules] at hcreate
    cases hcreate
  | ok modules =>
    rw [hmodules] at hcreate
    obtain rfl : ⟨id, space, modules, []⟩ = linker := Except.ok.inj hcreate
    have hstartup := LinkMap.AllStartup.empty.foldlM_addStartup hmodules
    have hstate : ∀ i s, modules.state? i = some s → s = .loaded := by
      intro i s hs
      rw [hstartup.state?_eq (LinkMap.isSome_of_state? hs)] at hs
      exact (Option.some.inj hs).symm
    refine ⟨⟨hstartup.consistent, List.nodup_nil, ?_, List.nodup_nil, ?_, ?_, ?_⟩,
      hstartup.numbered, ?_, ?_⟩
    · intro i
      exact ⟨fun hi => by simpa using hstate i _ hi, fun hi => by simp at hi⟩
    · intro i
      exact ⟨fun hi => by simpa using hstate i _ hi, fun hi => by simp at hi⟩
    · intro a b ha hb
      simp [hstartup.deps_eq_nil] at hb
    · intro p hp
      simp at hp
    · intro i mapping hi _
      obtain ⟨m, hm, rfl⟩ := LinkMap.mapping?_eq_some.mp hi
      refine ⟨Or.inl (hstartup.startup hm).2.1, ?_⟩
      have hnil : modules.depNames i = [] := by
        rw [LinkMap.depNames, hstartup.deps_eq_nil]
        rfl
      exact hnil
    · intro frame _ hframe
      simp [Load.start] at hframe

/-! ## Loads -/

/-- Every moment of a load keeps the invariant of loads and agrees with the history so far. -/
lemma Sound.moment (h : linker.Sound history) (hload : load ∈ linker.moments files name word) :
    load.Proper ∧ load.Agrees (history.after files load.events) := by
  refine moments_induction (P := fun load => load.Agrees (history.after files load.events))
    h.inOrder h.agrees (fun a b hproper ha hab => ?_) hload
  obtain ⟨new, hevents, hb⟩ := ha.advance hproper hab
  rwa [hevents, History.after_append]

lemma progress_of_last (hlast : (linker.moments files name word).getLast? = some last) :
    linker.progress files name word = last.events := by
  simp [progress, hlast]

lemma progress_of_nil (hmoments : linker.moments files name word = []) :
    linker.progress files name word = [] := by
  simp [progress, hmoments]

/-- A load that gets stuck leaves a sound linker. -/
lemma sound_unwind (hproper : load.Proper) (hagrees : load.Agrees history) :
    load.unwind.Sound history :=
  ⟨hproper.unwind, hagrees.unwind hproper⟩

/-- A load that is complete leaves a sound linker. -/
lemma sound_of_complete (hproper : load.Proper) (hagrees : load.Agrees history)
    (hframes : load.frames = []) : load.linker.Sound history := by
  have horder := hproper.inOrder
  rw [hframes] at horder
  refine ⟨horder, hagrees.numbered, ?_, ?_⟩
  · intro id mapping hid _
    exact hagrees.finished hid (by simp [hframes])
  · intro frame _ hframe
    simp [Load.start] at hframe

/-! ## Calls -/

/-- **A request to open a module keeps a linker sound**, whether it succeeds or fails. -/
theorem Sound.openModule (h : linker.Sound history) (files : FileSet) (name : Soname)
    (word : Int32) : (linker.openModule files name word).linker.Sound
      (history.after files (linker.progress files name word)) := by
  have hopening := linker.opening files name word
  generalize linker.openModule files name word = outcome at hopening ⊢
  cases hopening with
  | refused hmoments =>
    rw [progress_of_nil hmoments]
    exact h
  | found _ _ hmoments =>
    rw [progress_of_nil hmoments]
    exact h.issue _ _
  | stuck _ hlast _ =>
    obtain ⟨hproper, hagrees⟩ := h.moment (List.mem_of_getLast? hlast)
    rw [progress_of_last hlast]
    exact sound_unwind hproper hagrees
  | loaded _ _ hlast hframes =>
    obtain ⟨hproper, hagrees⟩ := h.moment (List.mem_of_getLast? hlast)
    rw [progress_of_last hlast]
    exact (sound_of_complete hproper hagrees hframes).issue _ _

/-- **Every linker that can be reached is sound.** -/
theorem Reached.sound (h : linker.Reached history) : linker.Sound history := by
  induction h with
  | create hcreate => exact sound_create hcreate
  | perform files call _ ih =>
    cases call with
    | openModule name word => exact ih.openModule files name word
    | lookup handle symbol => exact ih
    | close handle => exact ih
    | tree handle => exact ih
    | deps handle => exact ih
    | list => exact ih

end Linker

end DynamicLinker
