/-
# The global set is closed

The modules with the global flag are loaded, and what they need is global as well.  The flag is set
in two places.  A startup module may have it from the start, and needs nothing.  And promotion sets
it for a whole tree at once, between a load and the initialisers, when nothing is loading.

Between promotions only new modules come, without the flag.  What a new module links to keeps its
own dependencies, and no loaded module gets a new dependency.  So the tree of a global module is
what it was when the module became global, whatever links to it later, and the set stays closed:
between calls, at every moment of every load, and while initialisers run.
-/
import DynamicLinker.Proofs.FailedLoads
import DynamicLinker.Proofs.Repetition
import DynamicLinker.Proofs.Retention
import Mathlib.Data.List.Infix

namespace DynamicLinker

/-! ## Closed sets of global modules -/

namespace LinkMap

/-- A link map whose global modules are loaded and need global modules only. -/
structure GlobalClosed (lm : LinkMap) : Prop where
  /-- A global module is loaded. -/
  isLoaded {id : ModuleId} : lm.global? id = some true → lm.isLoaded id = true
  /-- A global module is in the global list. -/
  mem_order {id : ModuleId} : lm.global? id = some true → id ∈ lm.order
  /-- Every module in the tree of a global module is global. -/
  tree {a b : ModuleId} : lm.global? a = some true → b ∈ lm.tree a → lm.global? b = some true

variable {lm lm' : LinkMap} {root : ModuleId} {ids : List ModuleId}

/-- Startup modules are loaded and need nothing. -/
lemma AllStartup.globalClosed (h : lm.AllStartup) : lm.GlobalClosed := by
  have hloaded : ∀ id, lm.global? id = some true → lm.state? id = some .loaded := by
    intro id hid
    obtain ⟨m, hm, -⟩ := Option.map_eq_some_iff.mp hid
    exact h.state?_eq (Option.isSome_of_eq_some hm)
  refine ⟨fun hid => isLoaded_iff.mpr (hloaded _ hid),
    fun hid => h.consistent.mem_order_iff.mpr (hloaded _ hid), fun {a b} ha hb => ?_⟩
  refine (mem_tree.mp hb).closed (P := fun x => lm.global? x = some true) (fun x _ y hy => ?_) ha
  rw [h.deps_eq_nil] at hy
  simp at hy

namespace GlobalClosed

lemma state?_eq (h : lm.GlobalClosed) {id : ModuleId} (hid : lm.global? id = some true) :
    lm.state? id = some .loaded :=
  isLoaded_iff.mp (h.isLoaded hid)

/-- The set stays closed where loaded modules stay as they are and no module becomes global. -/
lemma of_extends (h : lm.GlobalClosed) (hextends : lm.Extends lm')
    (hglobal : ∀ id, lm'.global? id = some true → lm.global? id = some true) :
    lm'.GlobalClosed := by
  refine ⟨fun hid => ?_, fun hid => ?_, fun {a b} ha hb => ?_⟩
  · exact isLoaded_iff.mpr (hextends.state?_eq (h.state?_eq (hglobal _ hid)))
  · exact hextends.order_grows.subset (h.mem_order (hglobal _ hid))
  · have hkept : ∀ x, lm.global? x = some true → lm'.get? x = lm.get? x := fun x hx =>
      hextends.get?_eq (h.state?_eq hx)
    -- the tree is followed in the new link map; as it is global it is that of the old one
    have hold : lm.global? b = some true := by
      refine (mem_tree.mp hb).closed (P := fun x => lm.global? x = some true)
        (fun x hx y hy => ?_) (hglobal a ha)
      rw [deps_congr (hkept x hx)] at hy
      exact h.tree hx (mem_tree.mpr (.of_mem_deps hy))
    rw [global?, hkept b hold]
    exact hold

/-- The set stays closed where only flags of another kind change. -/
lemma of_alike (h : lm.GlobalClosed) (halike : lm.Alike lm') (horder : lm'.order = lm.order)
    (hglobal : ∀ id, lm'.global? id = lm.global? id) : lm'.GlobalClosed := by
  refine ⟨fun hid => ?_, fun hid => ?_, fun {a b} ha hb => ?_⟩
  · rw [hglobal] at hid
    rw [isLoaded_iff, halike.state?_eq]
    exact h.state?_eq hid
  · rw [hglobal] at hid
    rw [horder]
    exact h.mem_order hid
  · rw [hglobal] at ha ⊢
    rw [mem_tree, reaches_congr halike.deps_eq] at hb
    exact h.tree ha (mem_tree.mpr hb)

lemma foldl_markInitialized (h : lm.GlobalClosed) (ids : List ModuleId) :
    (ids.foldl markInitialized lm).GlobalClosed :=
  h.of_alike (lm.alike_foldl_markInitialized ids) order_foldl_markInitialized
    fun _ => global?_foldl_markInitialized

end GlobalClosed

end LinkMap

/-! ## The linkers that callbacks meet -/

namespace Linker

variable {linker before seen : Linker} {history : History} {files : FileSet} {name : Soname}
  {word : Int32} {id root : ModuleId} {mode : Mode} {handle : Handle}

/-- The linkers while a handle of a module is issued: after the promotion, and at the call of each
initialiser.  A module is marked before its initialiser is called. -/
def issuing (linker : Linker) (id : ModuleId) (mode : Mode) : List Linker :=
  ((linker.promoted id mode).modules.uninitialized id).inits.map fun marked =>
    (linker.promoted id mode).withModules fun lm => marked.foldl LinkMap.markInitialized lm

/-- The linkers that the callbacks of a request to open a module meet: those of the moments of the
load, if there is one, and then those of the issue of a handle, if there is one. -/
def observed (linker : Linker) (files : FileSet) (name : Soname) (word : Int32) : List Linker :=
  (linker.moments files name word).map Load.linker ++
    match Mode.ofRaw word with
    | .error _ => []
    | .ok mode =>
      match linker.obtain? files name mode with
      | ⟨.error _, _, _⟩ => []
      | ⟨.ok id, before, _⟩ => before.issuing id mode

lemma mem_issuing :
    seen ∈ linker.issuing id mode ↔
      ∃ marked, marked <+: (linker.promoted id mode).modules.uninitialized id ∧
        (linker.promoted id mode).withModules
          (fun lm => marked.foldl LinkMap.markInitialized lm) = seen := by
  simp only [issuing, List.mem_map, List.mem_inits]

/-- While a handle is issued, only flags and the order of the global list change. -/
lemma alike_issuing (hseen : seen ∈ linker.issuing id mode) :
    linker.modules.Alike seen.modules := by
  obtain ⟨marked, -, rfl⟩ := mem_issuing.mp hseen
  exact (linker.alike_promoted id mode).trans (LinkMap.alike_foldl_markInitialized _ marked)

/-- When all initialisers have been called, the linker is the one that the issue leaves. -/
lemma issue_mem_issuing (linker : Linker) (id : ModuleId) (mode : Mode) :
    (linker.issue id mode).linker ∈ linker.issuing id mode :=
  mem_issuing.mpr ⟨_, List.prefix_refl _, rfl⟩

/-- What the callbacks of a request meet is a moment of its load, or it comes with the issue of a
handle: of the linker as it was, or as the load has left it. -/
lemma mem_observed (hseen : seen ∈ linker.observed files name word) :
    (∃ load ∈ linker.moments files name word, load.linker = seen) ∨
      ∃ before id mode, seen ∈ before.issuing id mode ∧
        (before = linker ∨ ∃ last, (linker.moments files name word).getLast? = some last ∧
          last.frames = [] ∧ before = last.linker) := by
  rcases List.mem_append.mp hseen with hload | hissuing
  · exact .inl (by simpa using hload)
  · right
    cases hmode : Mode.ofRaw word with
    | error e => simp [hmode] at hissuing
    | ok mode =>
      simp only [hmode, obtain?] at hissuing
      cases hfound : linker.modules.loadedNamed? name with
      | some id =>
        rw [hfound] at hissuing
        exact ⟨linker, id, mode, hissuing, .inl rfl⟩
      | none =>
        rw [hfound] at hissuing
        by_cases hnoload : mode.noload = true
        · simp [hnoload] at hissuing
        · have hstarts : linker.startsLoad name word = true := by
            simp [startsLoad, hmode, hfound, hnoload]
          obtain ⟨last, hlast, ⟨hframes, hload⟩ | ⟨e, stuck, -, hload⟩⟩ :=
            linker.load_eq files hstarts
          · simp only [hnoload, hload] at hissuing
            exact ⟨last.linker, _, mode, hissuing, .inr ⟨last, hlast, hframes, rfl⟩⟩
          · simp [hnoload, hload] at hissuing

/-! ## The set stays closed -/

/-- Between calls, promotion makes a tree global whose modules are all loaded. -/
lemma InOrder.globalClosed_promote (h : linker.InOrder []) (hclosed : linker.modules.GlobalClosed)
    (root : ModuleId) : (linker.modules.promote root).GlobalClosed := by
  have halike := LinkMap.alike_promote linker.modules root
  have hloaded : ∀ id, (linker.modules.promote root).global? id = some true →
      (linker.modules.promote root).state? id = some .loaded := by
    intro id hid
    obtain ⟨m, hm, -⟩ := Option.map_eq_some_iff.mp hid
    have hlive := (LinkMap.isSome_congr (halike.mapping?_eq id)).symm.trans
      (Option.isSome_of_eq_some hm)
    rw [halike.state?_eq]
    exact h.state?_eq_loaded hlive
  refine ⟨fun hid => LinkMap.isLoaded_iff.mpr (hloaded _ hid),
    fun hid => (h.consistent.promote root).mem_order_iff.mpr (hloaded _ hid),
    fun {a b} ha hb => ?_⟩
  rw [LinkMap.mem_tree, LinkMap.reaches_congr halike.deps_eq] at hb
  rw [LinkMap.global?_promote] at ha ⊢
  split at ha
  · -- the whole tree of the root has become global
    rename_i hroot
    have hreaches := (LinkMap.mem_tree.mp hroot).trans hb
    obtain ⟨isGlobal, hisGlobal, -⟩ := Option.map_eq_some_iff.mp ha
    obtain ⟨m, hm, -⟩ := Option.map_eq_some_iff.mp hisGlobal
    obtain ⟨m', hm'⟩ := Option.isSome_iff_exists.mp
      (h.consistent.live_of_reaches hb (Option.isSome_of_eq_some hm))
    rw [if_pos (LinkMap.mem_tree.mpr hreaches), LinkMap.global?, hm']
    rfl
  · have hold := hclosed.tree ha (LinkMap.mem_tree.mpr hb)
    rw [hold]
    split <;> rfl

lemma InOrder.globalClosed_issuing (h : linker.InOrder []) (hclosed : linker.modules.GlobalClosed)
    (hseen : seen ∈ linker.issuing id mode) : seen.modules.GlobalClosed := by
  obtain ⟨marked, -, rfl⟩ := mem_issuing.mp hseen
  refine LinkMap.GlobalClosed.foldl_markInitialized ?_ marked
  rw [promoted]
  split
  · exact h.globalClosed_promote hclosed id
  · exact hclosed

/-- During a load no module becomes global. -/
lemma InOrder.globalClosed_moment (h : linker.InOrder []) (hclosed : linker.modules.GlobalClosed)
    {load : Load} (hload : load ∈ linker.moments files name word) :
    load.linker.modules.GlobalClosed := by
  have hsince := h.since hload
  refine hclosed.of_extends hsince.kept fun i hi => ?_
  cases hold : linker.modules.get? i with
  | none => simpa using hsince.not_global hi hold
  | some m =>
    have hstate := h.state?_eq_loaded (Option.isSome_of_eq_some hold)
    rwa [LinkMap.global?, hsince.kept.get?_eq hstate] at hi

lemma Sound.globalClosed_openModule (h : linker.Sound history)
    (hclosed : linker.modules.GlobalClosed) (files : FileSet) (name : Soname) (word : Int32) :
    (linker.openModule files name word).linker.modules.GlobalClosed := by
  refine (linker.openModule_cases
    (P := fun after => (∃ history, after.Sound history) ∧ after.modules.GlobalClosed)
    files name word (fun _ => ?_) (fun last hlast => ?_) (fun last hlast hframes => ?_)
    fun before id mode hbefore => ?_).2
  · exact ⟨⟨history, h⟩, hclosed⟩
  · have hmem := List.mem_of_getLast? hlast
    obtain ⟨hproper, hagrees⟩ := h.moment hmem
    have hsince := h.inOrder.since hmem
    exact ⟨⟨_, sound_unwind hproper hagrees⟩, hclosed.of_extends
      (hsince.kept.trans hproper.extends_unwind) fun _ => h.global?_unwind hproper hsince⟩
  · have hmem := List.mem_of_getLast? hlast
    obtain ⟨hproper, hagrees⟩ := h.moment hmem
    exact ⟨⟨_, sound_of_complete hproper hagrees hframes⟩,
      h.inOrder.globalClosed_moment hclosed hmem⟩
  · obtain ⟨⟨history', hsound⟩, hclosed'⟩ := hbefore
    exact ⟨⟨history', hsound.issue id mode⟩,
      hsound.inOrder.globalClosed_issuing hclosed' (before.issue_mem_issuing id mode)⟩

lemma Reached.globalClosed (h : linker.Reached history) : linker.modules.GlobalClosed := by
  induction h with
  | create hcreate =>
    exact (LinkMap.AllStartup.empty.foldlM_addStartup (create_eq_ok hcreate)).globalClosed
  | perform files call hreached ih =>
    cases call with
    | openModule name word => exact hreached.sound.globalClosed_openModule ih files name word
    | lookup handle symbol => exact ih
    | close handle => exact ih
    | tree handle => exact ih
    | deps handle => exact ih
    | list => exact ih

lemma Sound.globalClosed_observed (h : linker.Sound history)
    (hclosed : linker.modules.GlobalClosed) (hseen : seen ∈ linker.observed files name word) :
    seen.modules.GlobalClosed := by
  obtain ⟨load, hload, rfl⟩ | ⟨before, id, mode, hissuing, rfl | ⟨last, hlast, hframes, rfl⟩⟩ :=
    mem_observed hseen
  · exact h.inOrder.globalClosed_moment hclosed hload
  · exact h.inOrder.globalClosed_issuing hclosed hissuing
  · have hmem := List.mem_of_getLast? hlast
    obtain ⟨hproper, hagrees⟩ := h.moment hmem
    exact (sound_of_complete hproper hagrees hframes).inOrder.globalClosed_issuing
      (h.inOrder.globalClosed_moment hclosed hmem) hissuing

/-- The issue of a handle in the global mode sets the flag of all modules of the tree. -/
lemma global?_issue (hglobal : mode.global = true) (i : ModuleId) :
    (linker.issue id mode).linker.modules.global? i
      = if i ∈ linker.modules.tree id then (linker.modules.global? i).map fun _ => true
        else linker.modules.global? i := by
  simp only [issue, hglobal, if_true, withModules, LinkMap.initializeTree,
    LinkMap.global?_foldl_markInitialized, LinkMap.global?_promote]

/-- A request that asks for it makes the module global. -/
lemma Sound.global?_openModule (h : linker.Sound history) (hmode : Mode.ofRaw word = .ok mode)
    (hglobal : mode.global = true)
    (hopen : (linker.openModule files name word).result = .ok handle) :
    (linker.openModule files name word).linker.modules.global? handle.module = some true := by
  have hlive := (h.openModule files name word).inOrder.consistent.live_of_named
    (h.named?_openModule hopen).2
  obtain ⟨mode', before, hmode', -, hissue⟩ := exists_issue hopen
  obtain rfl : mode = mode' := Except.ok.inj (hmode.symm.trans hmode')
  obtain ⟨m, hm⟩ := Option.isSome_iff_exists.mp hlive
  have hflag : (linker.openModule files name word).linker.modules.global? handle.module
      = (before.modules.global? handle.module).map fun _ => true := by
    rw [hissue, global?_issue hglobal, if_pos (LinkMap.mem_tree.mpr (.refl _ _))]
  have hthere : (linker.openModule files name word).linker.modules.global? handle.module
      = some m.isGlobal := by rw [LinkMap.global?, hm]; rfl
  rw [hthere] at hflag
  obtain ⟨_, -, htrue⟩ := Option.map_eq_some_iff.mp hflag.symm
  rw [hthere, ← htrue]

/-- **The global set is closed under dependencies**, whatever startup modules the linker was created
with and whatever was opened before, in any modes and with any result.  It is closed between calls,
at every callback of a request to open a module, and after the request.  And a request in the global
mode that succeeds brings the whole tree of its module into the set. -/
theorem Reached.globalClosed_throughout (h : linker.Reached history) :
    linker.modules.GlobalClosed ∧
      ∀ files name word,
        (∀ seen ∈ linker.observed files name word, seen.modules.GlobalClosed) ∧
        (linker.openModule files name word).linker.modules.GlobalClosed ∧
        ∀ mode handle, Mode.ofRaw word = .ok mode → mode.global = true →
          (linker.openModule files name word).result = .ok handle →
            ∀ t ∈ (linker.openModule files name word).linker.modules.tree handle.module,
              (linker.openModule files name word).linker.modules.global? t = some true := by
  refine ⟨h.globalClosed, fun files name word => ?_⟩
  have hafter := h.sound.globalClosed_openModule h.globalClosed files name word
  refine ⟨fun seen hseen => h.sound.globalClosed_observed h.globalClosed hseen, hafter, ?_⟩
  intro mode handle hmode hglobal hopen t ht
  exact hafter.tree (h.sound.global?_openModule hmode hglobal hopen) ht

/-- Of the startup modules `s` and `t` the first is global.  A cycle of `a` and `b`, which needs
`t`, becomes global; then a request for `d` loads `c`, which needs `a`, and fails.  A last request
promotes `c`, and before its initialiser is called the set is closed, as it is when all is done. -/
theorem globalClosed_throughout_of_overlap :
    ∃ (linker : Linker) (history : History) (files : FileSet) (mode : Mode) (seen : Linker),
      linker.Reached history ∧
      linker.loadedModules.map (fun info => (info.name, info.isGlobal))
        = [(⟨"s"⟩, true), (⟨"a"⟩, true), (⟨"b"⟩, true), (⟨"t"⟩, true), (⟨"c"⟩, false)] ∧
      linker.modules.GlobalClosed ∧
      seen ∈ linker.observed files ⟨"c"⟩ 0x102 ∧ seen.modules.globalScope = [0, 2, 3, 1, 5] ∧
      seen.modules.initialized? 5 = some false ∧ seen.modules.GlobalClosed ∧
      Mode.ofRaw 0x102 = .ok mode ∧ mode.global = true ∧
      (linker.openModule files ⟨"c"⟩ 0x102).result = .ok ⟨1, 5⟩ ∧
      (linker.openModule files ⟨"c"⟩ 0x102).linker.modules.tree 5 = [5, 2, 3, 1] ∧
      ∀ t ∈ (linker.openModule files ⟨"c"⟩ 0x102).linker.modules.tree 5,
        (linker.openModule files ⟨"c"⟩ 0x102).linker.modules.global? t = some true := by
  let startup : List StartupModule :=
    [⟨⟨"s"⟩, 0x10, .empty, true⟩, ⟨⟨"t"⟩, 0x20, .empty, false⟩]
  let files : FileSet := .ofDeps [(⟨"a"⟩, [⟨"b"⟩]), (⟨"b"⟩, [⟨"t"⟩, ⟨"a"⟩]), (⟨"c"⟩, [⟨"a"⟩]),
    (⟨"d"⟩, [⟨"c"⟩, ⟨"z"⟩])]
  let created : Linker :=
    (Linker.create 1 ⟨0x1000, 0x1000⟩ startup).toOption.getD ⟨1, ⟨0, 0⟩, .empty, []⟩
  have hcreate : Linker.create 1 ⟨0x1000, 0x1000⟩ startup = .ok created :=
    eq_ok_of_toOption (by decide +kernel)
  let calls : List (FileSet × Call) :=
    [(files, .openModule ⟨"a"⟩ 0x102), (files, .openModule ⟨"d"⟩ 0x102)]
  let linker := created.after calls
  have hreached : linker.Reached _ := (Reached.create hcreate).after calls
  let isPromoted (seen : Linker) : Bool :=
    seen.modules.globalScope = [0, 2, 3, 1, 5] ∧ seen.modules.initialized? 5 = some false
  have hpromoted : (linker.observed files ⟨"c"⟩ 0x102).any isPromoted = true := by decide +kernel
  obtain ⟨seen, hseen, hat⟩ := List.any_eq_true.mp hpromoted
  obtain ⟨hscope, hdue⟩ := of_decide_eq_true hat
  let mode : Mode := ⟨.now, false, true, false⟩
  have hmode : Mode.ofRaw 0x102 = .ok mode := by decide +kernel
  have hresult : (linker.openModule files ⟨"c"⟩ 0x102).result.toOption = some ⟨1, 5⟩ := by
    decide +kernel
  have hopen := eq_ok_of_toOption hresult
  have hclosed := hreached.globalClosed_throughout
  obtain ⟨hobserved, -, htree⟩ := hclosed.2 files ⟨"c"⟩ 0x102
  refine ⟨linker, _, files, mode, seen, hreached, ?_, hclosed.1, hseen, hscope, hdue,
    hobserved seen hseen, hmode, rfl, hopen, ?_, ?_⟩
  · decide +kernel
  · decide +kernel
  · exact htree mode ⟨1, 5⟩ hmode rfl hopen

end Linker

end DynamicLinker
