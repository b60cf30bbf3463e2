/-
# What a linker retains

No module is ever unloaded.  Whatever calls are made, a module keeps its number, what was mapped
for it, and its dependencies, from the first moment between calls at which it is there.  A load
leaves the loaded modules alone, whether it succeeds or fails, and between calls every module is
loaded; the issue of a handle changes flags and the order of the global list, and none of these.

So whatever depends only on a module and on what it reaches stays as it is: its tree, and the
address of every symbol in it.
-/
import DynamicLinker.Proofs.Issuing
import DynamicLinker.Proofs.RelocationScopes

namespace DynamicLinker

namespace Linker

/-- A later linker has all modules of a linker, with the same numbers and dependencies. -/
structure Retains (linker later : Linker) : Prop where
  /-- It is the same linker. -/
  id_eq : later.id = linker.id
  /-- A module keeps its number and its mapping. -/
  mapping?_eq {id : ModuleId} {mapping : Mapping} :
    linker.modules.mapping? id = some mapping → later.modules.mapping? id = some mapping
  /-- A module keeps its dependencies. -/
  deps_eq {id : ModuleId} : (linker.modules.get? id).isSome →
    later.modules.deps id = linker.modules.deps id

variable {linker later : Linker} {history : History} {id root : ModuleId} {mapping : Mapping}

namespace Retains

lemma refl (linker : Linker) : linker.Retains linker := ⟨rfl, fun h => h, fun _ => rfl⟩

lemma trans {last : Linker} (h : linker.Retains later) (h' : later.Retains last) :
    linker.Retains last where
  id_eq := h'.id_eq.trans h.id_eq
  mapping?_eq hid := h'.mapping?_eq (h.mapping?_eq hid)
  deps_eq {id} hid := by
    obtain ⟨m, hm⟩ := Option.isSome_iff_exists.mp hid
    have hlive := LinkMap.isSome_of_mapping? (h.mapping?_eq (LinkMap.mapping?_of_get? hm))
    rw [h'.deps_eq hlive, h.deps_eq hid]

/-- Between calls every module is loaded, so a linker that has kept what was loaded has kept
everything. -/
lemma of_extends (hlinker : linker.InOrder []) (hid : later.id = linker.id)
    (hextends : linker.modules.Extends later.modules) : linker.Retains later where
  id_eq := hid
  mapping?_eq {id mapping} hmapping := by
    rw [← hmapping]
    exact hextends.mapping?_eq (hlinker.state?_eq_loaded (LinkMap.isSome_of_mapping? hmapping))
  deps_eq hlive := LinkMap.deps_congr (hextends.get?_eq (hlinker.state?_eq_loaded hlive))

/-- Flags and the order of the global list do not matter. -/
lemma of_alike (hid : later.id = linker.id) (halike : linker.modules.Alike later.modules) :
    linker.Retains later where
  id_eq := hid
  mapping?_eq hmapping := (halike.mapping?_eq _).trans hmapping
  deps_eq _ := halike.deps_eq _

/-- Where a linker has a module, the later linker has the same. -/
lemma mapping?_eq_of_live (h : linker.Retains later) (hid : (linker.modules.get? id).isSome) :
    later.modules.mapping? id = linker.modules.mapping? id := by
  obtain ⟨m, hm⟩ := Option.isSome_iff_exists.mp hid
  rw [LinkMap.mapping?_of_get? hm, h.mapping?_eq (LinkMap.mapping?_of_get? hm)]

/-- A module keeps its name, and the name its module. -/
lemma named? (h : linker.Retains later) (hlinker : linker.modules.Consistent)
    (hlater : later.modules.Consistent) {name : Soname}
    (hname : linker.modules.named? name = some id) : later.modules.named? name = some id := by
  obtain ⟨mapping, hmapping, rfl⟩ := hlinker.named_iff.mp hname
  exact hlater.named_of_mapping (h.mapping?_eq hmapping)

/-- A name that is known stays known. -/
lemma isSome_named? (h : linker.Retains later) (hlinker : linker.modules.Consistent)
    (hlater : later.modules.Consistent) {name : Soname}
    (hname : (linker.modules.named? name).isSome) : (later.modules.named? name).isSome := by
  obtain ⟨id, hid⟩ := Option.isSome_iff_exists.mp hname
  exact Option.isSome_of_eq_some (h.named? hlinker hlater hid)

/-- A module with a name that was free is new. -/
lemma get?_eq_none (h : linker.Retains later) (hlinker : linker.modules.Consistent)
    (hid : later.modules.mapping? id = some mapping)
    (hfree : linker.modules.named? mapping.name = none) : linker.modules.get? id = none := by
  by_contra hlive
  rw [h.mapping?_eq_of_live (Option.isSome_iff_ne_none.mpr hlive)] at hid
  simp [hlinker.named_of_mapping hid] at hfree

/-- A module keeps its tree. -/
lemma tree_eq (h : linker.Retains later) (hlinker : linker.modules.Consistent)
    (hroot : (linker.modules.get? root).isSome) :
    later.modules.tree root = linker.modules.tree root := by
  refine LinkMap.walk_congr fun x hx => h.deps_eq ?_
  exact hlinker.live_of_reaches (LinkMap.mem_tree.mp hx) hroot

end Retains

/-! ## Calls -/

/-- A load that has begun has retained all modules. -/
lemma InOrder.retains_moment (h : linker.InOrder []) {files : FileSet} {name : Soname}
    {word : Int32} {load : Load} (hload : load ∈ linker.moments files name word) :
    linker.Retains load.linker :=
  .of_extends h (h.since hload).id_eq (h.since hload).kept

/-- A load that got stuck has retained all modules. -/
lemma InOrder.retains_unwind (h : linker.InOrder []) {files : FileSet} {name : Soname}
    {word : Int32} {load : Load} (hload : load ∈ linker.moments files name word) :
    linker.Retains load.unwind :=
  .of_extends h (load.id_unwind.trans (h.since hload).id_eq)
    ((h.since hload).kept.trans (proper_of_mem_moments h hload).extends_unwind)

/-- A request to open a module retains all modules. -/
lemma InOrder.retains_openModule (h : linker.InOrder []) (files : FileSet) (name : Soname)
    (word : Int32) : linker.Retains (linker.openModule files name word).linker :=
  linker.openModule_cases (P := linker.Retains) files name word (fun _ => .refl linker)
    (fun _ hlast => h.retains_unwind (List.mem_of_getLast? hlast))
    (fun _ hlast _ => h.retains_moment (List.mem_of_getLast? hlast))
    fun before id mode hbefore =>
      hbefore.trans (.of_alike (before.id_issue id mode) (before.alike_issue id mode))

/-- A call retains all modules. -/
lemma InOrder.retains_perform (h : linker.InOrder []) (files : FileSet) (call : Call) :
    linker.Retains (linker.perform files call).linker := by
  cases call with
  | openModule name word => exact h.retains_openModule files name word
  | lookup handle symbol => exact .refl linker
  | close handle => exact .refl linker
  | tree handle => exact .refl linker
  | deps handle => exact .refl linker
  | list => exact .refl linker

/-- **Calls retain all modules.** -/
theorem Reached.retains_after (h : linker.Reached history) (calls : List (FileSet × Call)) :
    linker.Retains (linker.after calls) :=
  h.after_induction (P := fun later _ => linker.Retains later) (.refl linker)
    fun _ _ files name word _ hreached hbefore =>
      hbefore.trans (hreached.sound.inOrder.retains_openModule files name word)

end Linker

end DynamicLinker
