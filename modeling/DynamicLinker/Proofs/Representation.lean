/-
# Linkers between calls

The arena, the index of names, the global list and the list of waiting modules are changed by
different operations, and discarding a module leaves the global list alone.  Between calls
they nevertheless describe one and the same set of modules, because only modules that are not
loaded are ever discarded.

So it makes no difference whether a name is looked up among all modules, among the loaded
ones, or in the list of the loaded modules that callers see.
-/
import DynamicLinker.Proofs.Soundness

namespace DynamicLinker

namespace Linker

/-- What callers see of a module. -/
def info (linker : Linker) (m : Module) : ModuleInfo :=
  ⟨⟨linker.id, m.id⟩, m.name, m.bias, m.isGlobal, m.isStartup⟩

lemma loadedModules_eq (linker : Linker) :
    linker.loadedModules = linker.modules.loadedModules.map linker.info := rfl

/-- A linker whose parts describe one set of modules, all of them loaded. -/
structure WellFormed (linker : Linker) : Prop where
  /-- No module waits. -/
  waiting_eq_nil : linker.waiting = []
  /-- Every module is loaded. -/
  isLoaded {id : ModuleId} {m : Module} : linker.modules.get? id = some m → m.isLoaded = true
  /-- A module is stored under its number. -/
  id_eq {id : ModuleId} {m : Module} : linker.modules.get? id = some m → m.id = id
  /-- The global list has no module twice. -/
  order_nodup : linker.modules.order.Nodup
  /-- The global list has all modules and nothing else. -/
  mem_order_iff {id : ModuleId} : id ∈ linker.modules.order ↔ (linker.modules.get? id).isSome
  /-- The index has the names of all modules, each with its module, and nothing else. -/
  named_iff {name : Soname} {id : ModuleId} :
    linker.modules.named? name = some id ↔
      ∃ m, linker.modules.get? id = some m ∧ m.name = name
  /-- Dependencies are between modules. -/
  dep_live {a b : ModuleId} : b ∈ linker.modules.deps a →
    (linker.modules.get? a).isSome ∧ (linker.modules.get? b).isSome
  /-- A name is found among the loaded modules if and only if it is found at all. -/
  loadedNamed?_eq (name : Soname) : linker.modules.loadedNamed? name = linker.modules.named? name
  /-- The list of loaded modules has exactly the module that is found by a name. -/
  listed (name : Soname) :
    (linker.loadedModules.filter fun info => info.name = name).map ModuleInfo.handle
      = (linker.modules.named? name).toList.map fun id => ⟨linker.id, id⟩

variable {linker : Linker} {history : History} {name : Soname}

/-- The listed modules of a name are the modules of that name in the global list. -/
lemma handles_of_name (h : linker.modules.Consistent) (ids : List ModuleId) :
    (((ids.filterMap linker.modules.get?).map linker.info).filter
        fun info => info.name = name).map ModuleInfo.handle
      = (ids.filter fun id => (linker.modules.get? id).any fun m => m.name = name).map
          fun id => ⟨linker.id, id⟩ := by
  induction ids with
  | nil => rfl
  | cons id ids ih =>
    cases hget : linker.modules.get? id with
    | none => simpa [hget] using ih
    | some m =>
      by_cases hname : m.name = name
      · simpa [hget, info, hname, h.id_eq hget] using ih
      · simpa [hget, info, hname] using ih

/-- Of a list without repetitions, the elements with a property that one of them alone has
are just that one. -/
lemma filter_eq_singleton {ids : List ModuleId} {p : ModuleId → Bool} {id : ModuleId}
    (hnodup : ids.Nodup) (hmem : id ∈ ids) (hp : ∀ i, p i = true ↔ i = id) :
    ids.filter p = [id] := by
  have hsame : p = fun i => decide (i = id) := by
    funext i
    rw [Bool.eq_iff_iff, hp, decide_eq_true_iff]
  rw [hsame, List.filter_eq, List.count_eq_one_of_mem hnodup hmem]
  rfl

/-- The index has the names of the modules, each with its module. -/
lemma named?_eq_some_iff (h : linker.modules.Consistent) {id : ModuleId} :
    linker.modules.named? name = some id ↔
      ∃ m, linker.modules.get? id = some m ∧ m.name = name := by
  rw [h.named_iff]
  constructor
  · rintro ⟨mapping, hmapping, rfl⟩
    obtain ⟨m, hm, rfl⟩ := LinkMap.mapping?_eq_some.mp hmapping
    exact ⟨m, hm, rfl⟩
  · rintro ⟨m, hm, rfl⟩
    exact ⟨m.toMapping, LinkMap.mapping?_of_get? hm, rfl⟩

/-- If the global list has all modules, the modules of a name in it are the one that is found by
the name. -/
lemma filter_order_of_name (h : linker.modules.Consistent)
    (horder : ∀ {id}, id ∈ linker.modules.order ↔ (linker.modules.get? id).isSome) :
    linker.modules.order.filter (fun id => (linker.modules.get? id).any fun m => m.name = name)
      = (linker.modules.named? name).toList := by
  have hany : ∀ i, ((linker.modules.get? i).any fun m => m.name = name) = true ↔
      linker.modules.named? name = some i := by
    intro i
    rw [named?_eq_some_iff h, Option.any_eq_true]
    simp
  cases hfound : linker.modules.named? name with
  | none =>
    rw [Option.toList_none, List.filter_eq_nil_iff]
    intro i _
    rw [hany, hfound]
    simp
  | some id =>
    refine filter_eq_singleton h.order_nodup (horder.mpr (h.live_of_named hfound)) fun i => ?_
    rw [hany, hfound, Option.some.injEq, eq_comm]

/-- A sound linker is well-formed. -/
lemma Sound.wellFormed (h : linker.Sound history) : linker.WellFormed := by
  have hconsistent := h.inOrder.consistent
  have hloaded : ∀ {id m}, linker.modules.get? id = some m → m.isLoaded = true := by
    intro id m hm
    have hstate := h.inOrder.state?_eq_loaded (Option.isSome_of_eq_some hm)
    rw [LinkMap.state?_of_get? hm, Option.some.injEq] at hstate
    simp [Module.isLoaded, hstate]
  have horder : ∀ {id}, id ∈ linker.modules.order ↔ (linker.modules.get? id).isSome := by
    intro id
    rw [hconsistent.mem_order_iff]
    exact ⟨LinkMap.isSome_of_state?, h.inOrder.state?_eq_loaded⟩
  refine ⟨h.inOrder.waiting_eq_nil, hloaded, hconsistent.id_eq, hconsistent.order_nodup,
    horder, named?_eq_some_iff hconsistent, fun {a b} hb => ?_, fun name => ?_, fun name => ?_⟩
  · exact ⟨LinkMap.isSome_of_mem_deps hb, hconsistent.dep_live hb⟩
  · cases hfound : linker.modules.named? name with
    | none => simp [LinkMap.loadedNamed?, hfound]
    | some id =>
      obtain ⟨m, hm, -⟩ := (named?_eq_some_iff hconsistent).mp hfound
      simp [LinkMap.loadedNamed?, hfound, LinkMap.isLoaded, hm, hloaded hm]
  · rw [loadedModules_eq, LinkMap.loadedModules, handles_of_name hconsistent,
      filter_order_of_name hconsistent horder]

end Linker

namespace Session

/-- **Between requests every linker of a session is well-formed**, whatever the requests were
and whether they succeeded. -/
theorem linkers_wellFormed (requests : List Request) (place : Nat) (linker : Linker)
    (hlinker : (start.after requests).linker? place = some linker) : linker.WellFormed := by
  obtain ⟨history, hreached⟩ := linkersReached requests place linker hlinker
  exact hreached.sound.wellFormed

/-- A linker is well-formed after a request that failed because a dependency has no file, and
of the two modules that were mapped only one is left. -/
theorem linkers_wellFormed_of_missing :
    ∃ requests linker, (start.after requests).linker? 0 = some linker ∧
      linker.modules.order = [1] ∧ linker.WellFormed := by
  let file (deps : List Soname) : StoredFile := .readable (.module ⟨deps, .empty, [], none⟩)
  let requests : List Request :=
    [.create ⟨0x1000, 0x1000⟩ [], .store ⟨"a"⟩ (some (file [⟨"b"⟩, ⟨"c"⟩])),
      .store ⟨"b"⟩ (some (file [])), .direct 0 (.openModule ⟨"a"⟩ 2)]
  let isLeft (linker : Linker) : Bool := linker.modules.order = [1]
  have hleft : (((start.after requests).linker? 0).any isLeft) = true := by decide +kernel
  obtain ⟨linker, hlinker, horder⟩ := (Option.any_eq_true _ _).mp hleft
  exact ⟨requests, linker, hlinker, of_decide_eq_true horder,
    linkers_wellFormed requests 0 linker hlinker⟩

end Session

end DynamicLinker
