/-
# Room in the lists of a linker

Two lists of a linker grow while it works: the global list, and the list of the modules that wait.
A list is refused room for more entries when with them it would take more bytes than a signed word
counts (`LinkMap.reserve`).  Here modules are settled and published with a check wherever a list
grows, and the checks turn out to be idle as long as the numbers of modules fit in 32 bits.  So it
is sound to leave them out, as `Linker.settle` and `LinkMap.addStartup` do.

The reason is that every entry has a slot of the arena to itself.  The modules that wait, and the
one that is settled, are different modules, and none of them is in the global list already.  So
there are never more entries, those to come included, than there are slots.
-/
import DynamicLinker.Proofs.Soundness

namespace DynamicLinker

/-- Different slots that hold values are no more than the slots of an arena. -/
lemma Arena.length_le_size {α : Type} {s : Arena α} {ids : List Nat} (hnodup : ids.Nodup)
    (hlive : ∀ i ∈ ids, (s.get? i).isSome) : ids.length ≤ s.size := by
  have hsubset : ids ⊆ List.range s.size := by
    intro i hi
    obtain ⟨a, ha⟩ := Option.isSome_iff_exists.mp (hlive i hi)
    exact List.mem_range.mpr (lt_size_of_get? ha)
  simpa using hnodup.length_le_of_subset hsubset

namespace LinkMap

variable {lm : LinkMap} {ids : List ModuleId} {n : Nat}

/-! ## Checks -/

/-- Put a module at the back of the global list, if that has room for it. -/
def publishChecked (lm : LinkMap) (id : ModuleId) : Except LinkError LinkMap := do
  lm.reserve 1
  return lm.publish id

/-- Register and publish a startup module, if the global list has room for it. -/
def addStartupChecked (lm : LinkMap) (startup : StartupModule) : Except LinkError LinkMap :=
  match lm.named? startup.name with
  | some _ => .error (.ofCause (.nameAlreadyExists startup.name))
  | none =>
    let id := lm.nextId
    let mapped := lm.register ⟨startup.name, startup.bias, startup.exports, true⟩
    (mapped.setGlobal id startup.isGlobal).publishChecked id

end LinkMap

/-- Settle a module with a check wherever a list grows: for the module among those that wait, and
in the global list for the modules that are ready, first for all of them and then for each. -/
def Linker.settleChecked (linker : Linker) (id : ModuleId) : Except LinkError Linker := do
  if LinkMap.maxListBytes < (linker.waiting.length + 1) * LinkMap.entryBytes then
    throw .listFull
  let modules := linker.modules.markRelocated id
  let waiting := linker.waiting ++ [id]
  if modules.awaitsLoading id then
    return { linker with modules, waiting }
  let ready := waiting.filter fun p => p ∈ modules.tree id
  modules.reserve ready.length
  let published ← ready.foldlM LinkMap.publishChecked modules
  return { linker with
    modules := published
    waiting := waiting.filter fun p => p ∉ modules.tree id }

/-! ## The checks are idle -/

namespace LinkMap

variable {lm : LinkMap} {ids : List ModuleId} {n : Nat}

/-- A list of no more entries than there are 32-bit numbers is short enough. -/
lemma entries_le (h : n ≤ UInt32.size) : n * entryBytes ≤ maxListBytes := by
  have hbytes : UInt32.size * entryBytes ≤ maxListBytes := by decide
  exact (Nat.mul_le_mul_right entryBytes h).trans hbytes

lemma reserve_eq_ok (h : lm.order.length + n ≤ UInt32.size) : lm.reserve n = .ok () :=
  if_pos (entries_le h)

lemma publishChecked_eq (id : ModuleId) (h : lm.order.length + 1 ≤ UInt32.size) :
    lm.publishChecked id = .ok (lm.publish id) := by
  rw [publishChecked, reserve_eq_ok h]
  rfl

/-- To publish a module is to put at most one more into the global list. -/
lemma length_order_publish_le (id : ModuleId) :
    (lm.publish id).order.length ≤ lm.order.length + 1 := by
  rw [publish]
  split
  · exact (List.length_append ..).le
  · exact Nat.le_succ _

lemma foldlM_publishChecked (h : lm.order.length + ids.length ≤ UInt32.size) :
    ids.foldlM publishChecked lm = .ok (ids.foldl publish lm) := by
  induction ids generalizing lm with
  | nil => rfl
  | cons id ids ih =>
    rw [List.length_cons] at h
    have hfirst : lm.publishChecked id = .ok (lm.publish id) := publishChecked_eq id (by omega)
    have hgrown := lm.length_order_publish_le id
    rw [List.foldlM_cons, hfirst, List.foldl_cons]
    exact ih (by omega)

/-- **Startup modules always find room**: a linker starts with the checks as it does without. -/
theorem foldlM_addStartupChecked {startup : List StartupModule}
    (h : lm.order.length + startup.length ≤ UInt32.size) :
    startup.foldlM addStartupChecked lm = startup.foldlM addStartup lm := by
  induction startup generalizing lm with
  | nil => rfl
  | cons first rest ih =>
    rw [List.length_cons] at h
    rw [List.foldlM_cons, List.foldlM_cons]
    cases hfree : lm.named? first.name with
    | some id =>
      simp only [addStartupChecked, addStartup, hfree]
      rfl
    | none =>
      let mapped := lm.register ⟨first.name, first.bias, first.exports, true⟩
      let flagged := mapped.setGlobal lm.nextId first.isGlobal
      have hchecked : lm.addStartupChecked first = .ok (flagged.publish lm.nextId) := by
        have hroom : flagged.order.length + 1 ≤ UInt32.size := by
          have horder : flagged.order = lm.order := rfl
          rw [horder]
          omega
        rw [← publishChecked_eq lm.nextId hroom]
        simp only [addStartupChecked, hfree]
        rfl
      have hadd : lm.addStartup first = .ok (flagged.publish lm.nextId) := by
        simp only [addStartup, hfree]
        rfl
      have hgrown : (flagged.publish lm.nextId).order.length ≤ lm.order.length + 1 :=
        flagged.length_order_publish_le lm.nextId
      rw [hchecked, hadd]
      exact ih (by omega)

end LinkMap

namespace Linker

variable {linker : Linker} {history : History} {f : ModuleId} {rest : List ModuleId}

/-- The modules that wait, and the one that is settled, are different modules that are not
loaded. -/
lemma InOrder.not_loaded (h : linker.InOrder (f :: rest)) :
    (linker.waiting ++ [f]).Nodup ∧
      ∀ id ∈ linker.waiting ++ [f], (linker.modules.get? id).isSome ∧
        linker.modules.state? id ≠ some .loaded := by
  have hnew : f ∉ linker.waiting := fun hwaiting =>
    h.not_mem_loading_of_waiting hwaiting List.mem_cons_self
  refine ⟨h.waiting_nodup.append (List.nodup_singleton f) (by simpa using hnew), fun id hid => ?_⟩
  have hstate : linker.modules.state? id = some .relocated ∨
      linker.modules.state? id = some .loading := by
    rcases List.mem_append.mp hid with hwaiting | hid
    · exact .inl (h.waiting_iff.mpr hwaiting)
    · rw [List.mem_singleton.mp hid]
      exact .inr h.state?_head
  rcases hstate with hstate | hstate
  · exact ⟨LinkMap.isSome_of_state? hstate, by simp [hstate]⟩
  · exact ⟨LinkMap.isSome_of_state? hstate, by simp [hstate]⟩

/-- The global list and the modules that wait, with the one that is settled, are together no more
than the slots of the arena. -/
lemma InOrder.entries_le_size (h : linker.InOrder (f :: rest)) :
    linker.modules.order.length + (linker.waiting.length + 1) ≤ linker.modules.modules.size := by
  obtain ⟨hnodup, hnot⟩ := h.not_loaded
  have hdisjoint : linker.modules.order.Disjoint (linker.waiting ++ [f]) := fun id horder hid =>
    (hnot id hid).2 (h.consistent.mem_order_iff.mp horder)
  have hentries : (linker.modules.order ++ (linker.waiting ++ [f])).length
      ≤ linker.modules.modules.size := by
    refine Arena.length_le_size (h.consistent.order_nodup.append hnodup hdisjoint) fun id hid => ?_
    rcases List.mem_append.mp hid with horder | hid
    · exact LinkMap.isSome_of_state? (h.consistent.mem_order_iff.mp horder)
    · exact (hnot id hid).1
  simpa using hentries

/-- The innermost of the modules that are loading is settled with the checks as without. -/
lemma InOrder.settleChecked_eq (h : linker.InOrder (f :: rest))
    (hsize : linker.modules.modules.size ≤ UInt32.size) :
    linker.settleChecked f = .ok (linker.settle f) := by
  have hentries := h.entries_le_size.trans hsize
  have hwaiting : ¬ LinkMap.maxListBytes < (linker.waiting.length + 1) * LinkMap.entryBytes :=
    Nat.not_lt.mpr (LinkMap.entries_le (by omega))
  let marked := linker.modules.markRelocated f
  let ready := (linker.waiting ++ [f]).filter fun p => p ∈ marked.tree f
  have hready : ready.length ≤ linker.waiting.length + 1 :=
    (List.length_filter_le _ _).trans_eq List.length_append
  have hroom : marked.order.length + ready.length ≤ UInt32.size := by
    have horder : marked.order = linker.modules.order := rfl
    rw [horder]
    omega
  have hreserve : marked.reserve ready.length = .ok () := LinkMap.reserve_eq_ok hroom
  have hpublish : ready.foldlM LinkMap.publishChecked marked
      = .ok (ready.foldl LinkMap.publish marked) := LinkMap.foldlM_publishChecked hroom
  rw [settleChecked, settle, publishReady, if_neg hwaiting]
  by_cases hawaits : marked.awaitsLoading f = true
  · simp only [marked] at hawaits
    simp only [hawaits, if_true]
    rfl
  · simp only [marked, ready] at hawaits hreserve hpublish
    simp only [hawaits, hreserve, hpublish]
    rfl

/-- **Loads always find room**: at every moment of a load at which the numbers of modules fit in 32
bits, the module of the innermost frame is settled with the checks as it is without. -/
theorem Reached.settleChecked_eq (h : linker.Reached history) {files : FileSet} {name : Soname}
    {word : Int32} {load : Load} {frame : Frame} {outer : List Frame}
    (hload : load ∈ linker.moments files name word) (hframes : load.frames = frame :: outer)
    (hsize : load.linker.modules.modules.size ≤ UInt32.size) :
    load.linker.settleChecked frame.module = .ok (load.linker.settle frame.module) := by
  have horder := (proper_of_mem_moments h.sound.inOrder hload).inOrder
  rw [hframes] at horder
  exact InOrder.settleChecked_eq horder hsize

end Linker

/-- The check does refuse a list that would be too long. -/
example : LinkMap.empty.reserve 0x2000000000000000 = .error .listFull :=
  if_neg (by decide)

end DynamicLinker
