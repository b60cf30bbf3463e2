/-
# A module may be promoted at once or later

A request that makes a module global does the same as one that does not, followed by one that does.
The load is the same, since a mode has a say only before it and after it: so the same references
are bound to the same addresses.  What comes after the load is the same as well.  Promotion changes
one flag and the order of the global list, initialisation changes another flag, and each goes by the
dependencies, which both leave alone.  So the two commute, and the initialisers that are due are the
same, called in the same order, whichever comes first.

A request that fails does so before any of this, and then the mode does not matter.
-/
import DynamicLinker.Proofs.Initializations
import DynamicLinker.Proofs.Promotion
import DynamicLinker.Proofs.Repetition

namespace DynamicLinker

/-! ## Promotion and initialisation -/

/-- Two changes of values may be made in either order if they commute on each value. -/
lemma Arena.modify_comm {α : Type} (s : Arena α) {f g : α → α} (h : ∀ a, f (g a) = g (f a))
    (i j : Nat) : (s.modify i f).modify j g = (s.modify j g).modify i f := by
  simp only [Arena.modify, Arena.mk.injEq, and_true]
  refine List.ext_getElem? fun k => ?_
  simp only [List.getElem?_modify]
  cases s.slots[k]? with
  | none => rfl
  | some slot =>
    by_cases hi : i = k <;> by_cases hj : j = k <;> cases slot <;> simp [hi, hj, h]

namespace LinkMap

variable {lm : LinkMap} {id i root : ModuleId} {ids : List ModuleId}

/-- A module may be made global before or after another one is marked. -/
lemma promoteOne_markInitialized (lm : LinkMap) (id i : ModuleId) :
    (lm.markInitialized i).promoteOne id = (lm.promoteOne id).markInitialized i := by
  have hflag : (lm.markInitialized i).global? id = lm.global? id := global?_markInitialized
  by_cases hlocal : lm.global? id = some false
  · rw [promoteOne_of_local hlocal, promoteOne_of_local (hflag.trans hlocal)]
    have hmodules := lm.modules.modify_comm (f := fun m : Module => { m with initialized := true })
      (g := fun m : Module => { m with isGlobal := true }) (fun _ => rfl) i id
    simp only [markInitialized, setGlobal, modify, hmodules]
  · rw [promoteOne_eq_self hlocal, promoteOne_eq_self (hflag ▸ hlocal)]

/-- **Modules may be made global before or after others are marked.** -/
theorem foldl_promoteOne_foldl_markInitialized (lm : LinkMap) (ids marked : List ModuleId) :
    ids.foldl promoteOne (marked.foldl markInitialized lm)
      = marked.foldl markInitialized (ids.foldl promoteOne lm) := by
  have hone : ∀ (lm : LinkMap) i, (ids.foldl promoteOne lm).markInitialized i
      = ids.foldl promoteOne (lm.markInitialized i) := fun lm i =>
    (List.foldl_hom (markInitialized · i) fun lm id => lm.promoteOne_markInitialized id i).symm
  exact (List.foldl_hom (fun lm => ids.foldl promoteOne lm) hone).symm

/-- Promotion does not matter for the initialisers that are due. -/
lemma uninitialized_promote (lm : LinkMap) (root id : ModuleId) :
    (lm.promote root).uninitialized id = lm.uninitialized id := by
  have halike := alike_promote lm root
  have horder : (lm.promote root).initializationOrder id = lm.initializationOrder id := by
    rw [initializationOrder, walk_congr fun x _ => halike.deps_eq x, initializationOrder]
  rw [uninitialized, uninitialized, horder]
  refine List.filter_congr fun i _ => ?_
  have hflag : (lm.promote root).initialized? i = lm.initialized? i := initialized?_promote
  simp only [initialized?] at hflag
  cases hget : lm.get? i <;> cases hget' : (lm.promote root).get? i <;> simp_all

/-- **The initialisers of a tree may run before or after it is promoted.** -/
theorem promote_initializeTree (lm : LinkMap) (root : ModuleId) :
    (lm.initializeTree root).promote root = (lm.promote root).initializeTree root := by
  have htree : (lm.initializeTree root).tree root = lm.tree root :=
    walk_congr fun x _ => (alike_initializeTree lm root).deps_eq x
  rw [promote, htree, initializeTree, initializeTree, uninitialized_promote]
  exact lm.foldl_promoteOne_foldl_markInitialized (lm.tree root) (lm.uninitialized root)

end LinkMap

/-! ## Requests -/

/-- What a request comes to that makes a module global, compared with a first request that does not
and a second one that does. -/
structure Outcome.PromotesAtOnce (direct first second : Outcome Handle) : Prop where
  /-- If the first request gives a handle, the second gives it again, and the direct one gives the
  same. -/
  result_eq {handle : Handle} : first.result = .ok handle →
    second.result = .ok handle ∧ direct.result = .ok handle
  /-- The direct request asks of the surroundings what the two ask together. -/
  events_eq {handle : Handle} : first.result = .ok handle →
    direct.events = first.events ++ second.events
  /-- The direct request leaves the same linker as the two. -/
  linker_eq {handle : Handle} : first.result = .ok handle → direct.linker = second.linker
  /-- If the first request fails, the direct one fails in the same way, asks the same of the
  surroundings and leaves the same linker. -/
  eq_of_error {e : LinkError} : first.result = .error e → direct = first

namespace Linker

variable {linker : Linker} {history : History} {files : FileSet} {name : Soname}
  {word word' word'' : Int32} {mode mode' mode'' : Mode} {id : ModuleId}

/-- A request fails if there is no module to issue a handle of. -/
lemma openModule_of_obtain?_error {e : LinkError} {before : Linker} {events : List Event}
    (hmode : Mode.ofRaw word = .ok mode)
    (hobtain : linker.obtain? files name mode = ⟨.error e, before, events⟩) :
    linker.openModule files name word = ⟨.error e, before, events⟩ := by
  simp [openModule, hmode, hobtain]

/-- Once there is a module, a request goes on with the issue of a handle. -/
lemma openModule_of_obtain?_ok {before : Linker} {events : List Event}
    (hmode : Mode.ofRaw word = .ok mode)
    (hobtain : linker.obtain? files name mode = ⟨.ok id, before, events⟩) :
    linker.openModule files name word = ⟨.ok ⟨before.id, id⟩, (before.issue id mode).linker,
      events ++ (before.issue id mode).events⟩ := by
  simp only [openModule, hmode, hobtain]
  rfl

/-- Of a mode, only one choice matters for whether and how a module is loaded. -/
lemma obtain?_congr (linker : Linker) (files : FileSet) (name : Soname)
    (h : mode'.noload = mode.noload) :
    linker.obtain? files name mode' = linker.obtain? files name mode := by
  rw [obtain?, h, obtain?]

/-- When a handle is issued of a module that becomes global, the same happens as when it is issued
twice, and the module becomes global at the second time. -/
lemma issue_promotesAtOnce (linker : Linker) (id : ModuleId) (hlocal : mode.global = false)
    (hglobal : mode'.global = true) (hagain : mode''.global = true) :
    (linker.issue id mode').events = (linker.issue id mode).events ∧
      ((linker.issue id mode).linker.issue id mode'').events = [] ∧
      (linker.issue id mode').linker = ((linker.issue id mode).linker.issue id mode'').linker := by
  have hnames : ∀ ids, (linker.modules.promote id).namesOf ids = linker.modules.namesOf ids :=
    fun ids => LinkMap.namesOf_congr fun i _ => (LinkMap.alike_promote _ id).mapping?_eq i
  simp only [issue, hlocal, hglobal, hagain, Bool.false_eq_true, if_true, if_false, withModules,
    LinkMap.uninitialized_promote, hnames, LinkMap.promote_initializeTree,
    LinkMap.uninitialized_initializeTree, LinkMap.initializeTree_initializeTree]
  exact ⟨trivial, rfl, trivial⟩

/-- The modes matter only in that the first request does not make the module global, and the two
others do. -/
lemma Sound.promotesAtOnce_of_modes (h : linker.Sound history) (files : FileSet) (name : Soname)
    (hmode : Mode.ofRaw word = .ok mode) (hlocal : mode.global = false)
    (hmode' : Mode.ofRaw word' = .ok mode') (hglobal : mode'.global = true)
    (hload : mode'.noload = mode.noload) (hmode'' : Mode.ofRaw word'' = .ok mode'')
    (hagain : mode''.global = true) :
    (linker.openModule files name word').PromotesAtOnce (linker.openModule files name word)
      ((linker.openModule files name word).linker.openModule files name word'') := by
  have hsame := linker.obtain?_congr files name hload
  rcases hobtain : linker.obtain? files name mode with ⟨result, before, events⟩
  rw [hobtain] at hsame
  cases result with
  | error e =>
    rw [openModule_of_obtain?_error hmode' hsame, openModule_of_obtain?_error hmode hobtain]
    exact ⟨fun hok => by simp at hok, fun hok => by simp at hok, fun hok => by simp at hok,
      fun _ => rfl⟩
  | ok id =>
    have hfirst := openModule_of_obtain?_ok hmode hobtain
    -- after the first request the module is loaded, so the second one finds it
    have hnamed := (h.named?_openModule (by rw [hfirst])).2
    rw [← (h.openModule files name word).wellFormed.loadedNamed?_eq, hfirst] at hnamed
    have hfound : (before.issue id mode).linker.obtain? files name mode''
        = ⟨.ok id, (before.issue id mode).linker, []⟩ := by
      rw [obtain?, hnamed]
    obtain ⟨hevents, hnone, hlinker⟩ := before.issue_promotesAtOnce id hlocal hglobal hagain
    rw [hfirst, openModule_of_obtain?_ok hmode' hsame, openModule_of_obtain?_ok hmode'' hfound]
    refine ⟨fun hok => ?_, fun _ => ?_, fun _ => hlinker, fun hfail => by simp at hfail⟩
    · rw [← Except.ok.inj hok, id_issue]
      exact ⟨rfl, rfl⟩
    · simp [hevents, hnone]

/-- **A module may be made global by the request that loads it, or by a later one.**  A request for
a name in the mode `NOW | GLOBAL` gives the same handle as one in the mode `NOW` followed by one in
the mode `NOW | NOLOAD | GLOBAL`, asks the same of the surroundings, and leaves the same linker.  If
the request in the mode `NOW` fails, then so does the direct one, in all respects the same. -/
theorem Reached.promotesAtOnce (h : linker.Reached history) (files : FileSet) (name : Soname) :
    (linker.openModule files name 0x102).PromotesAtOnce (linker.openModule files name 0x2)
      ((linker.openModule files name 0x2).linker.openModule files name 0x106) := by
  have hload : Mode.ofRaw 0x2 = .ok ⟨.now, false, false, false⟩ := by decide +kernel
  have hdirect : Mode.ofRaw 0x102 = .ok ⟨.now, false, true, false⟩ := by decide +kernel
  have hlater : Mode.ofRaw 0x106 = .ok ⟨.now, true, true, false⟩ := by decide +kernel
  exact h.sound.promotesAtOnce_of_modes files name hload rfl hdirect rfl rfl hlater rfl

/-- A request for `d` has failed and left `k`, which is not initialised.  The modules `a` and `b`
need each other, `a` needs `k` besides, and `b` the startup module `s`.  Whether `a` becomes global
by the request that loads it or by a later one, `b` and `a` are bound to the same addresses, `k`,
`b` and `a` are initialised, and the four follow the module `g`, which was global before.  A request
for `d` fails again, with and without `GLOBAL`. -/
theorem promotesAtOnce_of_cycle :
    ∃ (linker : Linker) (history : History) (files : FileSet) (e : LinkError),
      linker.Reached history ∧ linker.loadedNames = [⟨"s"⟩, ⟨"g"⟩, ⟨"k"⟩] ∧
      (linker.openModule files ⟨"a"⟩ 0x2).result = .ok ⟨1, 2⟩ ∧
      (linker.openModule files ⟨"a"⟩ 0x2).linker.loadedNames
        = [⟨"s"⟩, ⟨"g"⟩, ⟨"k"⟩, ⟨"b"⟩, ⟨"a"⟩] ∧
      (linker.openModule files ⟨"a"⟩ 0x102).PromotesAtOnce (linker.openModule files ⟨"a"⟩ 0x2)
        ((linker.openModule files ⟨"a"⟩ 0x2).linker.openModule files ⟨"a"⟩ 0x106) ∧
      (linker.openModule files ⟨"a"⟩ 0x102).events
        = [.retrieve ⟨"a"⟩, .decode ⟨"a"⟩ 0x3000, .retrieve ⟨"b"⟩, .decode ⟨"b"⟩ 0x4000,
          .relocate ⟨"b"⟩, .bind ⟨"b"⟩ "f" 0x11, .relocate ⟨"a"⟩, .bind ⟨"a"⟩ "f" 0x11,
          .init ⟨"k"⟩, .init ⟨"b"⟩, .init ⟨"a"⟩] ∧
      (linker.openModule files ⟨"a"⟩ 0x102).linker.loadedNames
        = [⟨"g"⟩, ⟨"a"⟩, ⟨"b"⟩, ⟨"s"⟩, ⟨"k"⟩] ∧
      (linker.openModule files ⟨"d"⟩ 0x2).result = .error e ∧
      (linker.openModule files ⟨"d"⟩ 0x102).PromotesAtOnce (linker.openModule files ⟨"d"⟩ 0x2)
        ((linker.openModule files ⟨"d"⟩ 0x2).linker.openModule files ⟨"d"⟩ 0x106) := by
  let startup : List StartupModule :=
    [⟨⟨"s"⟩, 0x10, .ofList [("f", ⟨1, 8, .function⟩)], false⟩, ⟨⟨"g"⟩, 0x20, .empty, true⟩]
  let file (deps : List Soname) (references : List Reference) : StoredFile :=
    .readable (.module ⟨deps, .empty, references, none⟩)
  let files : FileSet := .ofList [(⟨"a"⟩, file [⟨"b"⟩, ⟨"k"⟩] [.required "f"]),
    (⟨"b"⟩, file [⟨"a"⟩, ⟨"s"⟩] [.probe "f"]), (⟨"k"⟩, file [] []), (⟨"d"⟩, file [⟨"k"⟩, ⟨"z"⟩] [])]
  let created : Linker :=
    (Linker.create 1 ⟨0x1000, 0x1000⟩ startup).toOption.getD ⟨1, ⟨0, 0⟩, .empty, []⟩
  have hcreate : Linker.create 1 ⟨0x1000, 0x1000⟩ startup = .ok created :=
    eq_ok_of_toOption (by decide +kernel)
  let calls : List (FileSet × Call) := [(files, .openModule ⟨"d"⟩ 0x102)]
  let linker := created.after calls
  have hreached : linker.Reached _ := (Reached.create hcreate).after calls
  have hloads : (linker.openModule files ⟨"a"⟩ 0x2).result.toOption = some ⟨1, 2⟩ := by
    decide +kernel
  have hfails : (linker.openModule files ⟨"d"⟩ 0x2).result
      = .error (.ofCause (.missingDependency ⟨"z"⟩ ⟨"d"⟩)) := by decide +kernel
  exact ⟨linker, _, files, _, hreached, by decide +kernel, eq_ok_of_toOption hloads,
    by decide +kernel, hreached.promotesAtOnce files ⟨"a"⟩, by decide +kernel, by decide +kernel,
    hfails, hreached.promotesAtOnce files ⟨"d"⟩⟩

end Linker

end DynamicLinker
