/-
# What a failed request leaves

A request to open a module that fails keeps what it has loaded on the way, as far as that is
complete: a module that was relocated stays if all that it needs was loaded before or has been
relocated, too.  What it needs is told by names, along the dependencies that the decoded files
declared; the link map itself has lost, by then, every dependency on what is gone.

Both directions go through the last moment of the load, where every module that will be kept
is loaded, and what is loaded there is what has no path to a frame.
-/
import DynamicLinker.Proofs.Progress
import DynamicLinker.Proofs.Representation

namespace DynamicLinker

/-- One name was declared as a direct dependency of another. -/
def History.Declares (history : History) (name dep : Soname) : Prop := dep ∈ history.declared name

/-- One name is needed by another, along declared dependencies. -/
def History.NeedsName (history : History) : Soname → Soname → Prop :=
  Relation.ReflTransGen history.Declares

namespace Load

variable {linker : Linker} {load : Load} {history : History} {name dep : Soname} {id : ModuleId}

/-! ## Names at a moment of a load -/

/-- A name was loaded before or has been relocated since if and only if it is that of a module
without a frame. -/
lemma Since.finishedName_iff (h : load.Since linker) (hlinker : linker.InOrder [])
    (hproper : load.Proper) :
    (linker.modules.loadedNamed? name).isSome ∨ name ∈ relocations load.events ↔
      ∃ t, load.linker.modules.named? name = some t ∧ t ∉ load.frames.map Frame.module := by
  have hold : ∀ t, (linker.modules.get? t).isSome →
      linker.modules.state? t = some .loaded ∧
        load.linker.modules.mapping? t = linker.modules.mapping? t := by
    intro t ht
    have hloaded := hlinker.state?_eq_loaded ht
    exact ⟨hloaded, h.kept.mapping?_eq hloaded⟩
  rw [h.mem_relocations_iff]
  constructor
  · rintro (hbefore | ⟨t, ht, -, hnot⟩)
    · obtain ⟨t, ht⟩ := Option.isSome_iff_exists.mp hbefore
      obtain ⟨hnamed, -⟩ := Option.filter_eq_some_iff.mp ht
      obtain ⟨hloaded, hmapping⟩ := hold t (hlinker.consistent.live_of_named hnamed)
      refine ⟨t, ?_, ?_⟩
      · rw [hproper.inOrder.consistent.named_iff, hmapping]
        exact hlinker.consistent.named_iff.mp hnamed
      · rw [← hproper.inOrder.loading_iff, h.kept.state?_eq hloaded]
        simp
    · exact ⟨t, ht, hnot⟩
  · rintro ⟨t, ht, hnot⟩
    cases hget : linker.modules.get? t with
    | none => exact Or.inr ⟨t, ht, hget, hnot⟩
    | some m =>
      obtain ⟨hloaded, hmapping⟩ := hold t (by simp [hget])
      rw [hproper.inOrder.consistent.named_iff, hmapping, ← hlinker.consistent.named_iff] at ht
      left
      simp [LinkMap.loadedNamed?, ht, LinkMap.isLoaded_iff.mpr hloaded]

/-- What a loaded module needs by name is loaded. -/
lemma Agrees.loaded_of_needsName (h : load.Agrees history) (hproper : load.Proper)
    (hid : load.linker.modules.named? name = some id)
    (hloaded : load.linker.modules.state? id = some .loaded) (hneeds : history.NeedsName name dep) :
    ∃ t, load.linker.modules.named? dep = some t ∧
      load.linker.modules.state? t = some .loaded := by
  induction hneeds with
  | refl => exact ⟨id, hid, hloaded⟩
  | tail _ hdeclares ih =>
    obtain ⟨t, ht, hstate⟩ := ih
    obtain ⟨mapping, hmapping, rfl⟩ := hproper.inOrder.consistent.named_iff.mp ht
    have hnot : t ∉ load.frames.map Frame.module := by
      rw [← hproper.inOrder.loading_iff, hstate]
      simp
    obtain ⟨-, hdeps⟩ := h.finished hmapping hnot
    rw [History.Declares, ← List.mem_eraseDups, ← hdeps, LinkMap.mem_depNames] at hdeclares
    obtain ⟨u, hu, mapping', hmapping', rfl⟩ := hdeclares
    exact ⟨u, hproper.inOrder.consistent.named_of_mapping hmapping',
      hproper.inOrder.loaded_closed hstate hu⟩

/-- A module is loaded if no name that it needs is that of a frame. -/
lemma Agrees.loaded_of_forall_needsName (h : load.Agrees history) (hproper : load.Proper)
    (hid : load.linker.modules.named? name = some id)
    (hneeds : ∀ dep, history.NeedsName name dep →
      ∃ t, load.linker.modules.named? dep = some t ∧ t ∉ load.frames.map Frame.module) :
    load.linker.modules.state? id = some .loaded := by
  have hconsistent := hproper.inOrder.consistent
  -- as long as a path stays among modules whose names are needed it meets no frame, and without
  -- a frame the dependencies of a module are those declared, so the path goes on like this
  let needed (x : ModuleId) : Prop :=
    ∃ mapping, load.linker.modules.mapping? x = some mapping ∧ history.NeedsName name mapping.name
  have hnot : ∀ x, needed x → x ∉ load.frames.map Frame.module := by
    rintro x ⟨mapping, hmapping, hname⟩
    obtain ⟨t, ht, hframe⟩ := hneeds _ hname
    rw [hconsistent.named_of_mapping hmapping, Option.some.injEq] at ht
    rwa [ht]
  have hclosed : ∀ x, needed x → ∀ y ∈ load.linker.modules.deps x, needed y := by
    intro x hx y hy
    have hframe := hnot x hx
    obtain ⟨mapping, hmapping, hname⟩ := hx
    obtain ⟨m, hm⟩ := Option.isSome_iff_exists.mp (hconsistent.dep_live hy)
    have hmapping' : load.linker.modules.mapping? y = some m.toMapping :=
      LinkMap.mapping?_of_get? hm
    refine ⟨m.toMapping, hmapping', hname.tail ?_⟩
    rw [History.Declares, ← List.mem_eraseDups, ← (h.finished hmapping hframe).2,
      LinkMap.mem_depNames]
    exact ⟨y, hy, m.toMapping, hmapping', rfl⟩
  obtain ⟨mapping, hmapping, rfl⟩ := hconsistent.named_iff.mp hid
  have hstart : needed id := ⟨mapping, hmapping, Relation.ReflTransGen.refl⟩
  refine (hproper.inOrder.loaded_iff (hconsistent.live_of_named hid)).mpr
    fun b hreach hloading => ?_
  exact hnot b (hreach.closed hclosed hstart) (hproper.inOrder.loading_iff.mp hloading)

/-- After unwinding, the names are those of the modules that were loaded. -/
lemma Proper.named?_unwind (hproper : load.Proper) :
    load.unwind.modules.named? name = some id ↔
      load.linker.modules.named? name = some id ∧
        load.linker.modules.state? id = some .loaded := by
  rw [hproper.unwind.consistent.named_iff, hproper.inOrder.consistent.named_iff]
  constructor
  · rintro ⟨mapping, hmapping, hname⟩
    obtain ⟨hloaded, hget⟩ := hproper.get?_unwind (LinkMap.isSome_of_mapping? hmapping)
    rw [LinkMap.mapping?, hget] at hmapping
    exact ⟨⟨mapping, hmapping, hname⟩, hloaded⟩
  · rintro ⟨⟨mapping, hmapping, hname⟩, hloaded⟩
    refine ⟨mapping, ?_, hname⟩
    rw [hproper.extends_unwind.mapping?_eq hloaded, hmapping]

/-- A module that has a frame is gone after unwinding, and its name is free. -/
lemma Proper.named?_unwind_of_frame (hproper : load.Proper) {frame : Frame}
    (hframe : frame ∈ load.frames) : load.unwind.modules.named? frame.name = none := by
  rw [Option.eq_none_iff_forall_ne_some]
  intro id hid
  obtain ⟨hnamed, hloaded⟩ := hproper.named?_unwind.mp hid
  rw [hproper.named hframe, Option.some.injEq] at hnamed
  have hloading := hproper.inOrder.loading_iff.mpr (List.mem_map_of_mem hframe)
  rw [hnamed, hloaded] at hloading
  simp at hloading

end Load

/-! ## What is kept -/

/-- The loaded modules are those from before, and the new ones behind them. -/
lemma LinkMap.Extends.loadedModules_eq {lm lm' : LinkMap} (h : lm.Extends lm')
    (hconsistent : lm.Consistent) :
    ∃ new, lm'.order = lm.order ++ new ∧
      lm'.loadedModules = lm.loadedModules ++ new.filterMap lm'.get? := by
  obtain ⟨new, hnew⟩ := h.order_grows
  refine ⟨new, hnew.symm, ?_⟩
  have hold : lm.order.filterMap lm'.get? = lm.order.filterMap lm.get? :=
    List.filterMap_congr fun id hid => h.get?_eq (hconsistent.mem_order_iff.mp hid)
  rw [loadedModules, ← hnew, List.filterMap_append, hold, loadedModules]

namespace Linker

variable {linker after : Linker} {history history' : History} {last : Load}

/-- What is listed between two points between calls is what is new at the second. -/
lemma Sound.exists_kept (h : linker.Sound history) (hafter : after.Sound history')
    (hextends : linker.modules.Extends after.modules) (hid : after.id = linker.id) :
    ∃ kept, after.loadedModules = linker.loadedModules ++ kept ∧
      (kept.map ModuleInfo.name).Nodup ∧
      ∀ info, info ∈ kept ↔ ∃ id m, after.modules.get? id = some m ∧
        linker.modules.get? id = none ∧ after.info m = info := by
  obtain ⟨new, horder, hloaded⟩ := hextends.loadedModules_eq h.inOrder.consistent
  have hnodup := hafter.wellFormed.order_nodup
  rw [horder, List.nodup_append] at hnodup
  obtain ⟨-, hnew, hdisjoint⟩ := hnodup
  refine ⟨(new.filterMap after.modules.get?).map after.info, ?_, ?_, fun info => ?_⟩
  · have hinfo : after.info = linker.info := by
      funext m
      simp only [info, hid]
    rw [loadedModules_eq, loadedModules_eq, hloaded, List.map_append, hinfo]
  · rw [List.map_map, List.map_filterMap]
    refine hnew.filterMap fun a b n ha hb => ?_
    obtain ⟨m, hm, hname⟩ := Option.map_eq_some_iff.mp ha
    obtain ⟨m', hm', hname'⟩ := Option.map_eq_some_iff.mp hb
    exact hafter.inOrder.consistent.id_unique (LinkMap.mapping?_of_get? hm)
      (LinkMap.mapping?_of_get? hm') (hname.trans hname'.symm)
  · simp only [List.mem_map, List.mem_filterMap]
    constructor
    · rintro ⟨m, ⟨id, hid, hm⟩, rfl⟩
      refine ⟨id, m, hm, ?_, rfl⟩
      by_contra hlive
      have hmem := h.wellFormed.mem_order_iff.mpr (Option.isSome_iff_ne_none.mpr hlive)
      exact hdisjoint id hmem id hid rfl
    · rintro ⟨id, m, hm, hnone, rfl⟩
      have hmem : id ∈ after.modules.order := hafter.wellFormed.mem_order_iff.mpr (by simp [hm])
      rw [horder, List.mem_append, h.wellFormed.mem_order_iff, hnone] at hmem
      exact ⟨m, ⟨id, hmem.resolve_left (by simp), hm⟩, rfl⟩

/-- After a request that failed, exactly the modules are kept that finished on their own. -/
structure KeepsFinished (linker : Linker) (moments : List Load) (history : History)
    (relocated : List Soname) (after : Linker) (kept : List ModuleInfo) : Prop where
  /-- The loaded modules are those from before, unchanged, and the kept ones behind them. -/
  loadedModules_eq : after.loadedModules = linker.loadedModules ++ kept
  /-- No module is kept twice. -/
  names_nodup : (kept.map ModuleInfo.name).Nodup
  /-- A module is kept if and only if it was relocated, and every name that it needs was loaded
  before or has been relocated, too. -/
  mem_names_iff {name : Soname} : name ∈ kept.map ModuleInfo.name ↔
    name ∈ relocated ∧ ∀ dep, history.NeedsName name dep →
      (linker.modules.loadedNamed? dep).isSome ∨ dep ∈ relocated
  /-- What is kept is neither global nor from startup. -/
  flags {info : ModuleInfo} : info ∈ kept → info.isGlobal = false ∧ info.isStartup = false
  /-- No module became global. -/
  global {id : ModuleId} :
    after.modules.global? id = some true → linker.modules.global? id = some true
  /-- Any other module that was there at some moment of the load, and not before, is gone, and so
  are its name and every dependency on it. -/
  discarded {load : Load} {id : ModuleId} {m : Module} : load ∈ moments →
    load.linker.modules.get? id = some m → linker.modules.get? id = none →
      m.name ∉ kept.map ModuleInfo.name →
        after.modules.get? id = none ∧ after.modules.named? m.name = none ∧
          ∀ a, id ∉ after.modules.deps a

/-- The new modules that are left when a load gets stuck are those that were relocated, and need
only what was loaded before or was relocated, too. -/
lemma Sound.named?_unwind_iff (h : linker.Sound history) (hproper : last.Proper)
    (hagrees : last.Agrees history') (hsince : last.Since linker) {n : Soname} :
    (∃ id, last.unwind.modules.named? n = some id ∧ linker.modules.get? id = none) ↔
      n ∈ relocations last.events ∧ ∀ dep, history'.NeedsName n dep →
        (linker.modules.loadedNamed? dep).isSome ∨ dep ∈ relocations last.events := by
  simp only [hsince.finishedName_iff h.inOrder hproper, hproper.named?_unwind]
  constructor
  · rintro ⟨id, ⟨hid, hstate⟩, hnone⟩
    have hframe : ∀ t, last.linker.modules.state? t = some .loaded →
        t ∉ last.frames.map Frame.module := by
      intro t ht
      rw [← hproper.inOrder.loading_iff, ht]
      simp
    refine ⟨hsince.mem_relocations_iff.mpr ⟨id, hid, hnone, hframe id hstate⟩, ?_⟩
    intro dep hneeds
    obtain ⟨t, ht, htstate⟩ := hagrees.loaded_of_needsName hproper hid hstate hneeds
    exact ⟨t, ht, hframe t htstate⟩
  · rintro ⟨hrelocated, hneeds⟩
    obtain ⟨id, hid, hnone, -⟩ := hsince.mem_relocations_iff.mp hrelocated
    exact ⟨id, ⟨hid, hagrees.loaded_of_forall_needsName hproper hid hneeds⟩, hnone⟩

/-- A load that gets stuck makes no module global. -/
lemma Sound.global?_unwind (h : linker.Sound history) (hproper : last.Proper)
    (hsince : last.Since linker) {id : ModuleId}
    (hid : last.unwind.modules.global? id = some true) : linker.modules.global? id = some true := by
  obtain ⟨m, hm, hglobal⟩ := Option.map_eq_some_iff.mp hid
  have hget := (hproper.get?_unwind (Option.isSome_of_eq_some hm)).2
  cases hold : linker.modules.get? id with
  | none =>
    have hlast : last.linker.modules.global? id = some true := by
      rw [LinkMap.global?, ← hget]
      exact hid
    simpa using hsince.not_global hlast hold
  | some m' =>
    have hstate := h.inOrder.state?_eq_loaded (Option.isSome_of_eq_some hold)
    rw [LinkMap.global?, ← hsince.kept.get?_eq hstate, ← hget]
    exact hid

/-- A module whose name is free when a load got stuck is gone, with every dependency on it. -/
lemma gone_of_named?_unwind (hproper : last.Proper) {id : ModuleId} {mapping : Mapping}
    (hmapping : last.linker.modules.mapping? id = some mapping)
    (hfree : last.unwind.modules.named? mapping.name = none) :
    last.unwind.modules.get? id = none ∧ ∀ a, id ∉ last.unwind.modules.deps a := by
  have hconsistent := hproper.unwind.consistent
  have hgone : last.unwind.modules.get? id = none := by
    by_contra hlive
    obtain ⟨m, hm⟩ := Option.ne_none_iff_exists'.mp hlive
    obtain ⟨-, hget⟩ := hproper.get?_unwind (Option.isSome_of_eq_some hm)
    have hkept : last.unwind.modules.mapping? id = some mapping := by
      rw [LinkMap.mapping?, hget]
      exact hmapping
    rw [hconsistent.named_of_mapping hkept] at hfree
    simp at hfree
  refine ⟨hgone, fun a ha => ?_⟩
  have hlive := hconsistent.dep_live ha
  rw [hgone] at hlive
  simp at hlive

/-- What a load that gets stuck leaves is what finished on its own. -/
lemma Sound.keepsFinished_unwind (h : linker.Sound history) {files : FileSet} {name : Soname}
    {word : Int32} (hlast : (linker.moments files name word).getLast? = some last) :
    ∃ kept, linker.KeepsFinished (linker.moments files name word)
      (history.after files last.events) (relocations last.events) last.unwind kept := by
  have hmem := List.mem_of_getLast? hlast
  obtain ⟨hproper, hagrees⟩ := h.moment hmem
  have hsince := h.inOrder.since hmem
  have hafter := sound_unwind hproper hagrees
  obtain ⟨kept, hloaded, hnodup, hmem_kept⟩ := h.exists_kept hafter
    (hsince.kept.trans hproper.extends_unwind) (last.id_unwind.trans hsince.id_eq)
  -- the kept modules are the new ones among those that are loaded at the last moment
  have hnames : ∀ n, n ∈ kept.map ModuleInfo.name ↔
      ∃ id, last.unwind.modules.named? n = some id ∧ linker.modules.get? id = none := by
    intro n
    simp only [List.mem_map, hmem_kept]
    constructor
    · rintro ⟨_, ⟨id, m, hm, hnone, rfl⟩, rfl⟩
      exact ⟨id, hafter.wellFormed.named_iff.mpr ⟨m, hm, rfl⟩, hnone⟩
    · rintro ⟨id, hid, hnone⟩
      obtain ⟨m, hm, rfl⟩ := hafter.wellFormed.named_iff.mp hid
      exact ⟨_, ⟨id, m, hm, hnone, rfl⟩, rfl⟩
  refine ⟨kept, hloaded, hnodup, fun {n} => ?_, fun {info} hinfo => ?_,
    h.global?_unwind hproper hsince, fun {load id m} hload hm hnone hnot => ?_⟩
  · rw [hnames]
    exact h.named?_unwind_iff hproper hagrees hsince
  · obtain ⟨id, m, hm, hnone, rfl⟩ := (hmem_kept info).mp hinfo
    have hget := (hproper.get?_unwind (Option.isSome_of_eq_some hm)).2
    rw [hm] at hget
    exact ⟨hsince.not_global (by simp [LinkMap.global?, ← hget, info]) hnone,
      hsince.not_startup (LinkMap.mapping?_of_get? hget.symm) hnone⟩
  · have hmapping := h.inOrder.mapping?_last hload hlast (LinkMap.mapping?_of_get? hm)
    have hfree : last.unwind.modules.named? m.name = none := by
      rw [Option.eq_none_iff_forall_ne_some]
      intro i hi
      obtain ⟨hi', -⟩ := hproper.named?_unwind.mp hi
      rw [hproper.inOrder.consistent.named_of_mapping hmapping, Option.some.injEq] at hi'
      exact hnot ((hnames _).mpr ⟨id, hi' ▸ hi, hnone⟩)
    obtain ⟨hgone, hdeps⟩ := gone_of_named?_unwind hproper hmapping hfree
    exact ⟨hgone, hfree, hdeps⟩

/-- **A request that fails keeps exactly the modules that finished on their own**, behind those
that were loaded before, and calls no initialiser. -/
theorem Reached.keepsFinished (h : linker.Reached history) (files : FileSet) (name : Soname)
    (word : Int32) {e : LinkError}
    (hfails : (linker.openModule files name word).result = .error e) :
    (∃ kept, linker.KeepsFinished (linker.moments files name word)
      (history.after files (linker.progress files name word))
      (relocations (linker.progress files name word))
      (linker.openModule files name word).linker kept) ∧
      ∀ n, .init n ∉ (linker.openModule files name word).events := by
  have hopening := linker.opening files name word
  generalize linker.openModule files name word = outcome at hopening hfails ⊢
  cases hopening with
  | refused hmoments =>
    rw [progress_of_nil hmoments, hmoments]
    refine ⟨⟨[], ⟨(List.append_nil _).symm, List.nodup_nil, ?_, ?_, fun hid => hid, ?_⟩⟩, by simp⟩
    · simp [relocations]
    · simp
    · simp
  | found _ _ _ => simp [Linker.issue] at hfails
  | stuck hstarts hlast hstuck =>
    rw [progress_of_last hlast]
    refine ⟨h.sound.keepsFinished_unwind hlast, fun n hinit => ?_⟩
    obtain ⟨events, rfl, hnone⟩ := hstuck
    rcases List.mem_append.mp hinit with hinit | hinit
    · exact (h.sound.inOrder.since (List.mem_of_getLast? hlast)).no_init hinit
    · exact hnone n hinit
  | loaded _ _ _ _ => simp [Linker.issue] at hfails

/-- A module that needs a file which is not there fails to load.  Of the two other modules that
it needs, and that are relocated, the one that needs nothing is kept, and the one that needs
the failing module is not. -/
theorem keepsFinished_of_missing :
    ∃ (linker : Linker) (files : FileSet) (kept : List ModuleInfo),
      relocations (linker.progress files ⟨"a"⟩ 2) = [⟨"b"⟩, ⟨"d"⟩] ∧
      (linker.openModule files ⟨"a"⟩ 2).linker.modules.order = [1] ∧
      linker.KeepsFinished (linker.moments files ⟨"a"⟩ 2)
        (History.start.after files (linker.progress files ⟨"a"⟩ 2))
        (relocations (linker.progress files ⟨"a"⟩ 2))
        (linker.openModule files ⟨"a"⟩ 2).linker kept := by
  let linker : Linker := ⟨1, ⟨0x1000, 0x1000⟩, .empty, []⟩
  let files : FileSet :=
    .ofDeps [(⟨"a"⟩, [⟨"b"⟩, ⟨"d"⟩, ⟨"c"⟩]), (⟨"b"⟩, []), (⟨"d"⟩, [⟨"a"⟩])]
  have hcreate : Linker.create 1 ⟨0x1000, 0x1000⟩ [] = .ok linker := rfl
  have hrelocated : relocations (linker.progress files ⟨"a"⟩ 2) = [⟨"b"⟩, ⟨"d"⟩] := by
    decide +kernel
  have horder : (linker.openModule files ⟨"a"⟩ 2).linker.modules.order = [1] := by decide +kernel
  have hfails : (linker.openModule files ⟨"a"⟩ 2).result.toBool = false := by decide +kernel
  cases hresult : (linker.openModule files ⟨"a"⟩ 2).result with
  | ok handle => simp [hresult, Except.toBool] at hfails
  | error e =>
    obtain ⟨⟨kept, hkept⟩, -⟩ := (Reached.create hcreate).keepsFinished files ⟨"a"⟩ 2 hresult
    exact ⟨linker, files, kept, hrelocated, horder, hkept⟩

end Linker

end DynamicLinker
