/-
# The global scope over time

Promotion moves modules within the global list, and loads append to it.  Neither puts anything in
front of a module that is global, or takes such a module away.  So the global scope at one moment
between calls is a prefix of the global scope at any later one, and during a load it is what it was
before.

The first definition of a symbol decides.  A symbol that is defined in the global scope is
therefore found in the same module by every later relocation.
-/
import DynamicLinker.Proofs.Retention

namespace DynamicLinker

namespace LinkMap

variable {lm lm' : LinkMap} {scope rest : Scope} {symbol : String} {found : ResolvedSymbol}

/-- A definition is found again where a scope goes on behind it, and its modules are what they
were. -/
lemma Consistent.resolve?_append (h : lm.Consistent) (h' : lm'.Consistent)
    (hmapping : ∀ id mapping, lm.mapping? id = some mapping → lm'.mapping? id = some mapping)
    (hscope : ∀ id ∈ scope, (lm.get? id).isSome) (hfound : lm.resolve? scope symbol = some found) :
    ∃ found', lm'.resolve? (scope ++ rest) symbol = some found' ∧
      found'.module.id = found.module.id ∧
      found'.module.toMapping = found.module.toMapping ∧ found'.symbol = found.symbol := by
  obtain ⟨front, id, back, rfl, hdefinition, hnone⟩ := List.findSome?_eq_some_iff.mp hfound
  obtain ⟨hm, hsymbol⟩ := definition?_eq_some.mp hdefinition
  -- what a module defines follows from its mapping
  have hexports : ∀ i m, lm.get? i = some m →
      ∃ m', lm'.get? i = some m' ∧ m'.toMapping = m.toMapping := fun i m hi =>
    mapping?_eq_some.mp (hmapping i m.toMapping (mapping?_of_get? hi))
  obtain ⟨m', hm', hsame⟩ := hexports id found.module hm
  refine ⟨⟨m', found.symbol⟩, ?_, ?_, hsame, rfl⟩
  · rw [resolve?, List.append_assoc, List.findSome?_append]
    have hfront : front.findSome? (lm'.definition? symbol) = none := by
      rw [List.findSome?_eq_none_iff]
      intro i hi
      obtain ⟨m, hget⟩ := Option.isSome_iff_exists.mp (hscope i (by simp [hi]))
      obtain ⟨n, hget', hsame'⟩ := hexports i m hget
      have hundefined := hnone i hi
      simp only [definition?, hget, Option.map_eq_none_iff] at hundefined
      simp [definition?, hget', hsame', hundefined]
    have hid : lm'.definition? symbol id = some ⟨m', found.symbol⟩ :=
      definition?_eq_some.mpr ⟨hm', by rw [hsame]; exact hsymbol⟩
    simp [hfront, hid]
  · rw [h'.id_eq hm', h.id_eq hm]

/-- The modules of the global scope are there. -/
lemma Consistent.isSome_of_mem_globalScope (h : lm.Consistent) {id : ModuleId}
    (hid : id ∈ lm.globalScope) : (lm.get? id).isSome :=
  isSome_of_state? (h.mem_order_iff.mp (List.mem_filter.mp hid).1)

/-- A later definition in the relocation scope does not matter if the global scope has one. -/
lemma resolve?_relocationScope (lm : LinkMap) (root : ModuleId) (symbol : String) :
    lm.resolve? (lm.relocationScope root) symbol
      = lm.resolve? (lm.globalScope ++ lm.tree root) symbol :=
  findSome?_eraseDups _ _

end LinkMap

namespace Linker

variable {linker : Linker} {history : History} {files : FileSet} {name : Soname} {word : Int32}
  {load : Load} {symbol : String} {found : ResolvedSymbol}

/-- A load that got stuck has left the global scope as it was. -/
lemma InOrder.globalScope_unwind (h : linker.InOrder [])
    (hload : load ∈ linker.moments files name word) :
    load.unwind.modules.globalScope = linker.modules.globalScope := by
  have hproper := proper_of_mem_moments h hload
  rw [← (h.since hload).globalScope_eq h hproper, LinkMap.globalScope, LinkMap.globalScope,
    load.order_unwind]
  refine List.filter_congr fun id hid => ?_
  rw [hproper.extends_unwind.get?_eq (hproper.inOrder.consistent.mem_order_iff.mp hid)]

/-- A request to open a module only appends to the global scope. -/
lemma Sound.globalScope_openModule (h : linker.Sound history) (files : FileSet) (name : Soname)
    (word : Int32) : linker.modules.globalScope <+:
      (linker.openModule files name word).linker.modules.globalScope := by
  refine (linker.openModule_cases (P := fun after => after.modules.Consistent ∧
    linker.modules.globalScope <+: after.modules.globalScope) files name word (fun _ => ?_)
    (fun last hlast => ?_) (fun last hlast _ => ?_) fun before id mode hbefore => ?_).2
  · exact ⟨h.inOrder.consistent, List.prefix_refl _⟩
  · have hmem := List.mem_of_getLast? hlast
    rw [h.inOrder.globalScope_unwind hmem]
    exact ⟨(h.moment hmem).1.unwind.consistent, List.prefix_refl _⟩
  · have hmem := List.mem_of_getLast? hlast
    have hproper := (h.moment hmem).1
    rw [(h.inOrder.since hmem).globalScope_eq h.inOrder hproper]
    exact ⟨hproper.inOrder.consistent, List.prefix_refl _⟩
  · exact ⟨consistent_issue hbefore.1 id mode,
      hbefore.2.trans (globalScope_issue hbefore.1.order_nodup id mode)⟩

/-- **The global scope grows at its end only.**  Whatever calls are made, the global scope of a
linker is a prefix of the one that it has afterwards.  And a symbol that is defined in it is found
in the same module by every relocation of every later load. -/
theorem Reached.globalScope_grows (h : linker.Reached history) (calls : List (FileSet × Call)) :
    linker.modules.globalScope <+: (linker.after calls).modules.globalScope ∧
    ∀ symbol found, linker.modules.resolve? linker.modules.globalScope symbol = some found →
      ∀ files name word, ∀ load ∈ (linker.after calls).moments files name word, ∀ root,
        ∃ found', load.linker.modules.resolve? (load.linker.modules.relocationScope root) symbol
            = some found' ∧
          found'.module.id = found.module.id ∧
          found'.module.toMapping = found.module.toMapping ∧ found'.symbol = found.symbol := by
  have hgrows : linker.modules.globalScope <+: (linker.after calls).modules.globalScope :=
    h.after_induction
      (P := fun after _ => linker.modules.globalScope <+: after.modules.globalScope)
      (List.prefix_refl _) fun _ _ files name word _ hreached hbefore =>
        hbefore.trans (hreached.sound.globalScope_openModule files name word)
  refine ⟨hgrows, fun symbol found hfound files name word load hload root => ?_⟩
  have hafter := (h.after calls).sound.inOrder
  have hproper := proper_of_mem_moments hafter hload
  obtain ⟨rest, hrest⟩ := hgrows
  rw [LinkMap.resolve?_relocationScope, (hafter.since hload).globalScope_eq hafter hproper, ← hrest,
    List.append_assoc]
  have hconsistent := h.sound.inOrder.consistent
  exact hconsistent.resolve?_append hproper.inOrder.consistent
    (fun _ _ => ((h.retains_after calls).trans (hafter.retains_moment hload)).mapping?_eq)
    (fun _ => hconsistent.isSome_of_mem_globalScope) hfound

/-- Module `a` is global and defines a symbol.  A request for `b`, which needs `a` and `c`, loads
`c` and fails; one for `d`, which needs `c` and `a`, makes both of these global.  They stand behind
`a`, although `c` was loaded before `d`, and also `d` finds the symbol in `a` while it is loaded,
although `c` has a definition as well. -/
theorem globalScope_grows_of_overlap :
    ∃ (linker : Linker) (history : History) (files : FileSet) (found : ResolvedSymbol),
      linker.Reached history ∧ linker.modules.globalScope = [0] ∧
      (linker.after [(files, .openModule ⟨"b"⟩ 0x102)]).modules.order = [0, 2] ∧
      (linker.after [(files, .openModule ⟨"b"⟩ 0x102),
        (files, .openModule ⟨"d"⟩ 0x102)]).modules.globalScope = [0, 1, 2] ∧
      linker.modules.globalScope <+: (linker.after
        [(files, .openModule ⟨"b"⟩ 0x102), (files, .openModule ⟨"d"⟩ 0x102)]).modules.globalScope ∧
      linker.modules.resolve? linker.modules.globalScope "s" = some found ∧
      ∃ load ∈ (linker.after [(files, .openModule ⟨"b"⟩ 0x102)]).moments files ⟨"d"⟩ 0x102,
        load.linker.modules.deps 1 = [2, 0] ∧
        ∃ found', load.linker.modules.resolve? (load.linker.modules.relocationScope 1) "s"
            = some found' ∧ found'.module.id = found.module.id ∧
          found'.module.toMapping = found.module.toMapping ∧ found'.symbol = found.symbol := by
  let defining (deps : List Soname) : StoredFile :=
    .readable (.module ⟨deps, .ofList [("s", ⟨1, 8, .function⟩)], [.required "s"], none⟩)
  let files : FileSet := .ofList [(⟨"a"⟩, defining []), (⟨"b"⟩, defining [⟨"a"⟩, ⟨"c"⟩, ⟨"z"⟩]),
    (⟨"c"⟩, defining []), (⟨"d"⟩, defining [⟨"c"⟩, ⟨"a"⟩])]
  let created : Linker := ⟨1, ⟨0x1000, 0x1000⟩, .empty, []⟩
  let linker := (created.perform files (.openModule ⟨"a"⟩ 0x102)).linker
  let calls : List (FileSet × Call) :=
    [(files, .openModule ⟨"b"⟩ 0x102), (files, .openModule ⟨"d"⟩ 0x102)]
  have hcreate : Linker.create 1 ⟨0x1000, 0x1000⟩ [] = .ok created := rfl
  have hreached := (Reached.create hcreate).perform files (.openModule ⟨"a"⟩ 0x102)
  have hresolves : (linker.modules.resolve? linker.modules.globalScope "s").isSome = true := by
    decide +kernel
  obtain ⟨found, hfound⟩ := Option.isSome_iff_exists.mp hresolves
  -- the moment at which the dependencies of the second module are recorded
  let isRelocated (load : Load) : Bool := load.linker.modules.deps 1 = [2, 0]
  have hmoment : ((linker.after [(files, .openModule ⟨"b"⟩ 0x102)]).moments files ⟨"d"⟩ 0x102).any
      isRelocated = true := by decide +kernel
  obtain ⟨load, hload, hdeps⟩ := List.any_eq_true.mp hmoment
  refine ⟨linker, _, files, found, hreached, by decide +kernel, by decide +kernel,
    by decide +kernel, (hreached.globalScope_grows calls).1, hfound, load, hload,
    of_decide_eq_true hdeps, ?_⟩
  exact (hreached.globalScope_grows [(files, .openModule ⟨"b"⟩ 0x102)]).2 "s" found hfound files
    ⟨"d"⟩ 0x102 load hload 1

end Linker

end DynamicLinker
