/-
# The positions of dependencies

A module numbers a new dependency by how many it has, and its dependencies are listed by these
numbers.  If a dependency were ever taken out of the middle, the next number would be one that is
in use, and the order of declaration would be lost without notice.

Only discarding takes dependencies out, and it never does so for a module that stays.  A request
discards modules only when its load gets stuck.  What it leaves then are modules that were loaded,
and a loaded module depends on loaded modules only.  So a module that is still there after a
request has kept, since any callback of the request, the dependencies that it had then, and at most
got more behind them: that is `Sound.deps_prefix_openModule`.

That no dependency is recorded twice follows from the names.  The names of the dependencies of a
module are first occurrences of declared names, so no name stands there twice, and no module.
-/
import DynamicLinker.Proofs.DeclaredTrees
import DynamicLinker.Proofs.GlobalSet

namespace DynamicLinker

namespace LinkMap

/-- A link map in which the position of a dependency tells it from the others of its module. -/
structure Positioned (lm : LinkMap) : Prop where
  /-- The positions of the dependencies of a module are zero, one, two and so on, each once. -/
  positions {id : ModuleId} {m : Module} :
    lm.get? id = some m → m.deps.list.map Dependency.position = List.range m.deps.list.length
  /-- No two dependencies of a module are on the same module. -/
  targets_nodup {id : ModuleId} {m : Module} : lm.get? id = some m → m.targets.Nodup
  /-- A new dependency gets a position that no other has, and comes behind them. -/
  addDep {id target : ModuleId} {m : Module} :
    lm.get? id = some m → (lm.get? target).isSome → target ∉ m.targets →
      (∀ d ∈ m.deps.list, d.position ≠ m.deps.list.length) ∧
        ∃ deps : Dependencies, deps.list = m.deps.list ++ [⟨m.deps.list.length, target⟩] ∧
          (lm.addDep id target).get? id = some { m with deps }

variable {lm : LinkMap} {id : ModuleId}

/-- Numbered dependencies of which none is recorded twice have positions of their own. -/
lemma Numbered.positioned (h : lm.Numbered) (hnodup : ∀ id, (lm.deps id).Nodup) :
    lm.Positioned where
  positions hm := h _ _ hm
  targets_nodup {id m} hm := by
    rw [← deps_of_get? hm]
    exact hnodup id
  addDep {id target m} hm htarget hnew := by
    refine ⟨fun d hd => Nat.ne_of_lt ((h id m hm).position_lt hd), m.deps.add target,
      (h id m hm).list_add hnew, ?_⟩
    rw [get?_addDep, if_pos ⟨rfl, htarget⟩, hm, Option.map_some, Module.addDep]

/-- Modules that have names of their own are themselves different. -/
lemma Consistent.nodup_deps (h : lm.Consistent) (hnames : (lm.depNames id).Nodup) :
    (lm.deps id).Nodup := by
  rw [depNames, namesOf_eq_map fun _ ht => h.dep_live ht] at hnames
  exact hnames.of_map lm.nameOf

end LinkMap

namespace Load

variable {load : Load} {history : History}

/-- At a moment of a load no module has a dependency twice. -/
lemma Agrees.nodup_deps (h : load.Agrees history) (hproper : load.Proper) (id : ModuleId) :
    (load.linker.modules.deps id).Nodup := by
  cases hmapping : load.linker.modules.mapping? id with
  | none =>
    have hget : load.linker.modules.get? id = none := by
      simpa [LinkMap.mapping?] using hmapping
    rw [LinkMap.deps_of_get?_none hget]
    exact List.nodup_nil
  | some mapping =>
    refine hproper.inOrder.consistent.nodup_deps ?_
    by_cases hframe : id ∈ load.frames.map Frame.module
    · obtain ⟨frame, hmem, rfl⟩ := List.mem_map.mp hframe
      obtain ⟨-, passed, -, hnames⟩ := h.unfinished hmem hmapping
      rw [hnames]
      exact nodup_eraseDups passed
    · rw [(h.finished hmapping hframe).2]
      exact nodup_eraseDups _

end Load

namespace Linker

variable {linker seen : Linker} {history : History} {files : FileSet} {name : Soname}
  {word : Int32} {load : Load} {id : ModuleId} {mode : Mode}

/-! ## Positions at callbacks and between calls -/

/-- At a moment of a load dependencies have positions of their own. -/
lemma Sound.positioned_moment (h : linker.Sound history)
    (hload : load ∈ linker.moments files name word) : load.linker.modules.Positioned := by
  obtain ⟨hproper, hagrees⟩ := h.moment hload
  exact hagrees.numbered.positioned (hagrees.nodup_deps hproper)

lemma Sound.positioned (h : linker.Sound history) : linker.modules.Positioned :=
  h.agrees.numbered.positioned (h.agrees.nodup_deps (.start h.inOrder))

/-- A linker is sound while a handle is issued, at the call of each initialiser. -/
lemma Sound.issuing (h : linker.Sound history) (hseen : seen ∈ linker.issuing id mode) :
    seen.Sound history := by
  have halike := alike_issuing hseen
  obtain ⟨marked, -, rfl⟩ := mem_issuing.mp hseen
  have hpromoted : (linker.promoted id mode).modules.Numbered ∧
      (linker.promoted id mode).waiting = linker.waiting := by
    rw [promoted]
    split
    · exact ⟨h.agrees.numbered.promote id, rfl⟩
    · exact ⟨h.agrees.numbered, rfl⟩
  exact h.of_alike halike
    (consistent_promoted h.inOrder.consistent id mode).foldl_markInitialized
    (hpromoted.1.foldl_markInitialized marked) hpromoted.2

/-! ## Dependencies of modules that stay -/

/-- **A request takes no dependency from a module that stays**: what the module has at a moment of
the load is what it has first after the request. -/
lemma Sound.deps_prefix_openModule (h : linker.Sound history)
    (hload : load ∈ linker.moments files name word)
    (hlive : ((linker.openModule files name word).linker.modules.get? id).isSome) :
    load.linker.modules.deps id
      <+: (linker.openModule files name word).linker.modules.deps id := by
  refine linker.openModule_cases (P := fun after => (after.modules.get? id).isSome →
    load.linker.modules.deps id <+: after.modules.deps id) files name word
    (fun hmoments => ?_) (fun last hlast hlive => ?_) (fun last hlast _ _ => ?_)
    (fun before i mode hbefore hlive => ?_) hlive
  · simp [hmoments] at hload
  · -- only loaded modules are left, as they were
    obtain ⟨hproper, -⟩ := h.moment (List.mem_of_getLast? hlast)
    rw [LinkMap.deps_congr (hproper.get?_unwind hlive).2]
    exact h.deps_prefix_last hload hlast id
  · exact h.deps_prefix_last hload hlast id
  · have halike := before.alike_issue i mode
    rw [LinkMap.isSome_congr (halike.mapping?_eq id)] at hlive
    rw [halike.deps_eq]
    exact hbefore hlive

/-- What a module has before a request it has first after the request. -/
lemma Sound.deps_prefix (h : linker.Sound history) (files : FileSet) (name : Soname)
    (word : Int32) (id : ModuleId) :
    linker.modules.deps id <+: (linker.openModule files name word).linker.modules.deps id := by
  cases hget : linker.modules.get? id with
  | none =>
    rw [LinkMap.deps_of_get?_none hget]
    exact List.nil_prefix
  | some m =>
    rw [(h.inOrder.retains_openModule files name word).deps_eq (Option.isSome_of_eq_some hget)]

/-- **The positions of dependencies never collide.**  In every linker that can be reached, at every
callback of a request to open a module, and after the request, the dependencies of each module are
at the positions from zero on, each once, on different modules, and a new one gets a position of its
own.  A module that is there after the request has lost none of the dependencies that it had at a
callback. -/
theorem Reached.positioned_throughout (h : linker.Reached history) :
    linker.modules.Positioned ∧
      ∀ files name word,
        (linker.openModule files name word).linker.modules.Positioned ∧
        ∀ seen ∈ linker.observed files name word,
          seen.modules.Positioned ∧
            ∀ id, ((linker.openModule files name word).linker.modules.get? id).isSome →
              seen.modules.deps id
                <+: (linker.openModule files name word).linker.modules.deps id := by
  have hsound := h.sound
  refine ⟨hsound.positioned, fun files name word => ?_⟩
  refine ⟨(hsound.openModule files name word).positioned, fun seen hseen => ?_⟩
  obtain ⟨load, hload, rfl⟩ | ⟨before, id, mode, hissuing, rfl | ⟨last, hlast, hframes, rfl⟩⟩ :=
    mem_observed hseen
  · exact ⟨hsound.positioned_moment hload, fun id => hsound.deps_prefix_openModule hload⟩
  · refine ⟨(hsound.issuing hissuing).positioned, fun id _ => ?_⟩
    rw [(alike_issuing hissuing).deps_eq]
    exact hsound.deps_prefix files name word id
  · have hmem := List.mem_of_getLast? hlast
    obtain ⟨hproper, hagrees⟩ := hsound.moment hmem
    refine ⟨((sound_of_complete hproper hagrees hframes).issuing hissuing).positioned,
      fun id hlive => ?_⟩
    rw [(alike_issuing hissuing).deps_eq]
    exact hsound.deps_prefix_openModule hmem hlive

/-- The module `s` needs `t`.  A request for `d` loads `c` and `d`, which need each other and `s`,
and fails: both are discarded, and `s` keeps its dependency.  Their numbers go to `a` and `b`, which
need each other as well; `a` declares `b` twice, and gets `s` behind it when `b` is done. -/
theorem positioned_throughout_of_reused_numbers :
    ∃ (linker : Linker) (history : History) (files : FileSet) (seen : Linker),
      linker.Reached history ∧
      linker.loadedModules.map (fun info => (info.handle.module, info.name))
        = [(1, ⟨"t"⟩), (0, ⟨"s"⟩)] ∧
      linker.modules.deps 0 = [1] ∧ linker.modules.Positioned ∧
      seen ∈ linker.observed files ⟨"a"⟩ 2 ∧
      seen.modules.deps 2 = [3] ∧ seen.modules.deps 3 = [2, 1] ∧ seen.modules.Positioned ∧
      (linker.openModule files ⟨"a"⟩ 2).linker.modules.deps 2 = [3, 0] ∧
      (linker.openModule files ⟨"a"⟩ 2).linker.modules.Positioned ∧
      seen.modules.deps 2 <+: (linker.openModule files ⟨"a"⟩ 2).linker.modules.deps 2 := by
  let files : FileSet := .ofDeps [(⟨"s"⟩, [⟨"t"⟩]), (⟨"t"⟩, []), (⟨"d"⟩, [⟨"s"⟩, ⟨"c"⟩, ⟨"z"⟩]),
    (⟨"c"⟩, [⟨"d"⟩, ⟨"s"⟩]), (⟨"a"⟩, [⟨"b"⟩, ⟨"s"⟩, ⟨"b"⟩]), (⟨"b"⟩, [⟨"a"⟩, ⟨"t"⟩])]
  let created : Linker := ⟨1, ⟨0x1000, 0x1000⟩, .empty, []⟩
  let calls : List (FileSet × Call) := [(files, .openModule ⟨"s"⟩ 2), (files, .openModule ⟨"d"⟩ 2)]
  let linker := created.after calls
  have hcreate : Linker.create 1 ⟨0x1000, 0x1000⟩ [] = .ok created := rfl
  have hreached : linker.Reached _ := (Reached.create hcreate).after calls
  let isHalfway (seen : Linker) : Bool := seen.modules.deps 2 = [3] ∧ seen.modules.deps 3 = [2, 1]
  have hhalfway : (linker.observed files ⟨"a"⟩ 2).any isHalfway = true := by decide +kernel
  obtain ⟨seen, hseen, hat⟩ := List.any_eq_true.mp hhalfway
  obtain ⟨hfirst, hsecond⟩ := of_decide_eq_true hat
  obtain ⟨hbetween, hrequest⟩ := hreached.positioned_throughout
  obtain ⟨hafter, hobserved⟩ := hrequest files ⟨"a"⟩ 2
  obtain ⟨hpositioned, hgrows⟩ := hobserved seen hseen
  refine ⟨linker, _, files, seen, hreached, ?_, ?_, hbetween, hseen, hfirst, hsecond, hpositioned,
    ?_, hafter, hgrows 2 ?_⟩
  all_goals decide +kernel

end Linker

end DynamicLinker
