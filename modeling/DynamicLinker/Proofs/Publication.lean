/-
# When modules are published

A module is published, that is loaded and put into the global list, as soon as every module
of its tree is relocated, and never before.  The tree is the one along the dependencies that
are recorded at the moment, so it grows during a load.

That a module is relocated is told by the history, and that it is loading by its state.
These fit together at every moment of a load, and from then on the matter is one of
reachability: a module is loaded exactly when it reaches no loading module.
-/
import DynamicLinker.Proofs.Soundness

namespace DynamicLinker

/-- A link map in which exactly those modules are published whose trees are relocated. -/
structure LinkMap.PublishedExactly (lm : LinkMap) (history : History) : Prop where
  /-- A module is loaded if and only if every module of its tree is there and relocated. -/
  loaded_iff {id : ModuleId} : (lm.get? id).isSome →
    (lm.isLoaded id = true ↔
      ∀ t ∈ lm.tree id, ∃ m, lm.get? t = some m ∧ history.Finished m.toMapping)
  /-- The global list has the loaded modules. -/
  mem_order_iff {id : ModuleId} : id ∈ lm.order ↔ lm.isLoaded id = true
  /-- A loaded module reaches loaded modules only, and so depends on no others. -/
  loaded_of_reaches {a b : ModuleId} : lm.isLoaded a = true → lm.Reaches a b → lm.isLoaded b = true
  /-- A module that is kept waiting reaches one that is loading. -/
  reaches_loading {id : ModuleId} : lm.state? id = some .relocated →
    ∃ t, lm.Reaches id t ∧ lm.state? t = some .loading

namespace Load

variable {load : Load} {history : History}

/-- A module is done with its relocation exactly when it is not loading. -/
lemma Agrees.finished_iff (h : load.Agrees history) (hproper : load.Proper) {id : ModuleId}
    {mapping : Mapping} (hid : load.linker.modules.mapping? id = some mapping) :
    history.Finished mapping ↔ load.linker.modules.state? id ≠ some .loading := by
  rw [ne_eq, hproper.inOrder.loading_iff]
  constructor
  · intro hdone hmem
    obtain ⟨frame, hframe, rfl⟩ := List.mem_map.mp hmem
    exact (h.unfinished hframe hid).1 hdone
  · exact fun hnot => (h.finished hid hnot).1

lemma Agrees.publishedExactly_of_proper (h : load.Agrees history) (hproper : load.Proper) :
    load.linker.modules.PublishedExactly history where
  loaded_iff {id} hid := by
    rw [LinkMap.isLoaded_iff, hproper.inOrder.loaded_iff hid]
    -- on both sides, a condition on all modules within reach
    simp only [LinkMap.mem_tree]
    constructor
    · intro hnone t ht
      have hlive := hproper.inOrder.consistent.live_of_reaches ht hid
      obtain ⟨m, hm⟩ := Option.isSome_iff_exists.mp hlive
      have hmapping := LinkMap.mapping?_of_get? hm
      exact ⟨m, hm, (h.finished_iff hproper hmapping).mpr (hnone t ht)⟩
    · intro hdone t ht
      obtain ⟨m, hm, hfinished⟩ := hdone t ht
      exact (h.finished_iff hproper (LinkMap.mapping?_of_get? hm)).mp hfinished
  mem_order_iff := by
    intro id
    rw [LinkMap.isLoaded_iff]
    exact hproper.inOrder.consistent.mem_order_iff
  loaded_of_reaches ha hab := by
    rw [LinkMap.isLoaded_iff] at ha ⊢
    exact hproper.inOrder.loaded_of_reaches hab ha
  reaches_loading hid := by
    obtain ⟨f, hf, hreach⟩ := hproper.inOrder.waiting_reaches (hproper.inOrder.waiting_iff.mp hid)
    exact ⟨f, hreach, hproper.inOrder.loading_iff.mpr hf⟩

end Load

namespace Linker

/-- **Publication is exact**, between calls and at every moment of every load: whatever the
linker started from, the files were and the calls before, a module is loaded if and only if
every module of its tree has been relocated. -/
theorem Reached.publishedExactly {linker : Linker} {history : History}
    (h : linker.Reached history) :
    linker.modules.PublishedExactly history ∧
      ∀ files name word load, load ∈ linker.moments files name word →
        load.linker.modules.PublishedExactly (history.after files load.events) := by
  refine ⟨h.sound.agrees.publishedExactly_of_proper (Load.Proper.start h.sound.inOrder), ?_⟩
  intro files name word load hload
  obtain ⟨hproper, hagrees⟩ := h.sound.moment hload
  exact hagrees.publishedExactly_of_proper hproper

/-- While two modules that depend on each other are loaded, one of them is relocated and
waits: it is not published, since the module that it reaches is not relocated. -/
theorem publishedExactly_of_waiting :
    ∃ load : Load, load.linker.waiting = [1] ∧ load.linker.modules.order = [] ∧
      load.linker.modules.PublishedExactly
        (History.start.after (.ofDeps [(⟨"a"⟩, [⟨"b"⟩]), (⟨"b"⟩, [⟨"a"⟩])]) load.events) := by
  let linker : Linker := ⟨1, ⟨0x1000, 0x1000⟩, .empty, []⟩
  let files : FileSet := .ofDeps [(⟨"a"⟩, [⟨"b"⟩]), (⟨"b"⟩, [⟨"a"⟩])]
  let waits (load : Load) : Bool := load.linker.waiting = [1] ∧ load.linker.modules.order = []
  have hcreate : Linker.create 1 ⟨0x1000, 0x1000⟩ [] = .ok linker := rfl
  have hwaits : ((linker.moments files ⟨"a"⟩ 2).any waits) = true := by decide +kernel
  obtain ⟨load, hload, hat⟩ := List.any_eq_true.mp hwaits
  obtain ⟨hwaiting, horder⟩ := of_decide_eq_true hat
  refine ⟨load, hwaiting, horder, ?_⟩
  exact (Reached.publishedExactly (.create hcreate)).2 files ⟨"a"⟩ 2 load hload

end Linker

end DynamicLinker
