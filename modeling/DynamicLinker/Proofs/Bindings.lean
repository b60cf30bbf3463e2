/-
# Loaded modules are bound to loaded modules

When a member of a dependency cycle is relocated, it is bound to modules that are still loading.
These may fail later; then they are discarded, and their numbers and names are taken by other
modules.  Still no loaded module is ever bound to one that is gone.

To say so, a ledger is kept beside the linker.  It counts the modules that have been mapped under
each number, so that a module can be told apart from those that had its number before, and it
lists what the references of each module were bound to, and which module was found then.

What carries the proof is that a module reaches whatever it is bound to, unless that was loaded
before.  When a module is loaded, then so is all that it reaches; and whatever reaches a module
that fails is discarded with it.
-/
import DynamicLinker.Proofs.Runs
import DynamicLinker.Proofs.Scopes

namespace DynamicLinker

/-! ## The ledger -/

/-- A module, told apart from the others that have had its number or will have it. -/
structure Instance where
  /-- The number of the module. -/
  id : ModuleId
  /-- How many modules have been mapped under the number, up to this one. -/
  generation : Nat
deriving DecidableEq

/-- A reference that was bound. -/
structure BoundReference where
  /-- The symbol that is referred to. -/
  symbol : String
  /-- The address that the reference was bound to. -/
  address : UInt64
  /-- The module in which the definition was found at that time. -/
  definer? : Option Instance
deriving DecidableEq

/-- What was mapped under each number, and how the references of the modules were bound. -/
structure Ledger where
  /-- How many modules have been mapped under a number. -/
  generation : ModuleId → Nat
  /-- How the references were bound of the module that was last mapped under a number. -/
  bindings : ModuleId → List BoundReference

namespace Ledger

/-- The ledger of a linker that has mapped nothing. -/
def start : Ledger := ⟨fun _ => 0, fun _ => []⟩

/-- The module that was last mapped under a number. -/
def current (ledger : Ledger) (id : ModuleId) : Instance := ⟨id, ledger.generation id⟩

/-- A module has been mapped under a number, and nothing in it is bound yet. -/
def map (ledger : Ledger) (id : ModuleId) : Ledger where
  generation := Function.update ledger.generation id (ledger.generation id + 1)
  bindings := Function.update ledger.bindings id []

/-- References of a module have been bound. -/
def bind (ledger : Ledger) (id : ModuleId) (bounds : List BoundReference) : Ledger :=
  { ledger with bindings := Function.update ledger.bindings id (ledger.bindings id ++ bounds) }

/-- A reference that is bound when a module is relocated in a link map, with the module that is
found in its relocation scope. -/
def boundIn (ledger : Ledger) (lm : LinkMap) (id : ModuleId) (symbol : String)
    (address : UInt64) : BoundReference :=
  let found? := lm.resolve? (lm.relocationScope id) symbol
  ⟨symbol, address, found?.map fun found => ledger.current found.module.id⟩

/-- The ledger after an event of the step that a load takes.  A module is mapped under the next
number, and bound is a reference of the module of the innermost frame. -/
def note (load : Load) (ledger : Ledger) : Event → Ledger
  | .decode _ _ => ledger.map load.linker.modules.nextId
  | .bind _ symbol address =>
    match load.frames with
    | [] => ledger
    | frame :: _ =>
      ledger.bind frame.module [ledger.boundIn load.linker.modules frame.module symbol address]
  | _ => ledger

/-- The ledger after the step from one moment of a load to the next. -/
def afterStep (ledger : Ledger) (load next : Load) : Ledger :=
  (next.events.drop load.events.length).foldl (note load) ledger

/-- The ledger after the steps from each moment of a load to the next. -/
def after (ledger : Ledger) : List Load → Ledger
  | load :: next :: later => (ledger.afterStep load next).after (next :: later)
  | _ => ledger

end Ledger

namespace Linker

/-- The moments of the load that a call starts, if it starts one. -/
def callMoments (linker : Linker) (files : FileSet) : Call → List Load
  | .openModule name word => linker.moments files name word
  | _ => []

/-- The ledger after calls, each made with the given files. -/
def ledgerAfter (linker : Linker) (ledger : Ledger) : List (FileSet × Call) → Ledger
  | [] => ledger
  | (files, call) :: calls =>
    (linker.perform files call).linker.ledgerAfter
      (ledger.after (linker.callMoments files call)) calls

end Linker

/-! ## What a step does to the ledger -/

namespace Ledger

variable {files : FileSet} {load next : Load} {frame : Frame} {outer : List Frame}
  {lm : LinkMap} {id : ModuleId} {bounds : List BoundReference} {bound : BoundReference}
  {events : List Event}

/-- The reference that an event binds, if it does, when a module is relocated in a link map. -/
def bound? (ledger : Ledger) (lm : LinkMap) (id : ModuleId) : Event → Option BoundReference
  | .bind _ symbol address => some (ledger.boundIn lm id symbol address)
  | _ => none

lemma bound?_eq_some {ledger : Ledger} {event : Event} :
    ledger.bound? lm id event = some bound ↔ ∃ name symbol address,
      event = .bind name symbol address ∧ bound = ledger.boundIn lm id symbol address := by
  cases event <;> simp [bound?, eq_comm]

lemma mem_bindings_bind {ledger : Ledger} {i : ModuleId} :
    bound ∈ (ledger.bind i bounds).bindings id ↔
      bound ∈ ledger.bindings id ∨ id = i ∧ bound ∈ bounds := by
  simp only [bind, Function.update_apply]
  by_cases hid : id = i <;> simp [hid]

/-- What is bound in a relocation is noted for its module, and nothing else changes. -/
lemma foldl_note (hframes : load.frames = frame :: outer)
    (hnone : ∀ event ∈ events, ∀ name bias, event ≠ .decode name bias) (ledger : Ledger) :
    events.foldl (note load) ledger
      = ledger.bind frame.module
          (events.filterMap (ledger.bound? load.linker.modules frame.module)) := by
  induction events generalizing ledger with
  | nil => simp [bind]
  | cons event events ih =>
    obtain ⟨hevent, hevents⟩ := List.forall_mem_cons.mp hnone
    rw [List.foldl_cons, ih hevents]
    cases event with
    | decode name bias => exact absurd rfl (hevent name bias)
    | bind name symbol address =>
      -- the modules that the numbers stand for are the same before and after
      have hsame : ∀ reference, (ledger.bind frame.module [reference]).bound?
          load.linker.modules frame.module = ledger.bound? load.linker.modules frame.module :=
        fun _ => rfl
      simp only [note, hframes, hsame, List.filterMap_cons, bound?]
      simp [bind]
    | _ => rfl

/-- No module is mapped in a relocation. -/
lemma ne_decode_of_relocate {module : Soname} {references : List Reference}
    {result : Except LinkError Unit} {event : Event}
    (h : lm.relocate id module references = (events, result)) (hevent : event ∈ events)
    (name : Soname) (bias : UInt64) : event ≠ .decode name bias := by
  obtain rfl : (lm.relocate id module references).1 = events := by rw [h]
  rcases List.mem_cons.mp hevent with rfl | h
  · simp
  · rcases mem_bindReferences h with ⟨_, _, rfl⟩ | ⟨_, _, rfl⟩ <;> simp

lemma afterStep_fetch (ledger : Ledger) {neededBy : Option Soname} {name : Soname}
    (hfetch : load.fetch files neededBy name = .ok next) :
    ledger.afterStep load next = ledger.map load.linker.modules.nextId := by
  obtain ⟨image, -, rfl⟩ := Load.fetch_eq_ok hfetch
  simp [afterStep, note]

lemma afterStep_link (ledger : Ledger) (load : Load) (frame : Frame) (deps : List Soname)
    (outer : List Frame) (target : ModuleId) :
    ledger.afterStep load (load.link frame deps outer target) = ledger := by
  simp [afterStep, Load.link]

lemma afterStep_relocate (ledger : Ledger) (hframes : load.frames = frame :: outer)
    (hevents : load.linker.modules.relocate frame.module frame.name frame.references
      = (events, .ok ())) (linker : Linker) :
    ledger.afterStep load ⟨linker, outer, load.events ++ events⟩
      = ledger.bind frame.module
          (events.filterMap (ledger.bound? load.linker.modules frame.module)) := by
  rw [afterStep, List.drop_left]
  exact foldl_note hframes (fun _ => ne_decode_of_relocate hevents) ledger

end Ledger

/-! ## Bound references -/

namespace LinkMap

/-- A module defines a symbol at an address. -/
def Provides (lm : LinkMap) (id : ModuleId) (symbol : String) (address : UInt64) : Prop :=
  ∃ mapping definition, lm.mapping? id = some mapping ∧
    mapping.exports.find? symbol = some definition ∧ definition.isTls = false ∧
    definition.value + mapping.bias = address

variable {lm lm' : LinkMap} {ledger ledger' : Ledger} {bound : BoundReference} {t : ModuleId}

/-- What a reference is bound to is provided by the module that is found, and that is loaded or
within reach. -/
lemma Consistent.provides_of_bindingOf (h : lm.Consistent) {root : ModuleId} {name : Soname}
    {symbol : String} {address : UInt64} (hbinding : lm.bindingOf root name symbol = .ok address) :
    ∃ found, lm.resolve? (lm.relocationScope root) symbol = some found ∧
      lm.Provides found.module.id symbol address ∧
      (lm.Reaches root found.module.id ∨ lm.state? found.module.id = some .loaded) := by
  obtain ⟨found, hfound, haddress⟩ := addressIn_eq_ok.mp hbinding
  obtain ⟨t, ht, hdefinition⟩ := exists_of_resolve? hfound
  obtain ⟨hget, hfind⟩ := definition?_eq_some.mp hdefinition
  obtain rfl : found.module.id = t := h.id_eq hget
  refine ⟨found, hfound, ?_, ?_⟩
  · obtain ⟨htls, hvalue⟩ := ResolvedSymbol.address_eq_ok.mp haddress
    exact ⟨found.module.toMapping, found.symbol, mapping?_of_get? hget, hfind, htls, hvalue⟩
  · rw [relocationScope, List.mem_eraseDups, List.mem_append, mem_tree] at ht
    rcases ht with hglobal | hreach
    · exact Or.inr (h.mem_order_iff.mp (List.mem_of_mem_filter hglobal))
    · exact Or.inl hreach

/-- A reference is bound to a module that is still the one that was found. -/
structure BoundTo (lm : LinkMap) (ledger : Ledger) (bound : BoundReference) (t : ModuleId) :
    Prop where
  /-- The module defines the symbol at the address. -/
  provides : lm.Provides t bound.symbol bound.address
  /-- The module is the one in which the definition was found. -/
  definer?_eq : bound.definer? = some (ledger.current t)

/-- A reference stays bound to a module as long as that keeps its number. -/
lemma BoundTo.congr (h : lm.BoundTo ledger bound t) (hmapping : lm'.mapping? t = lm.mapping? t)
    (hgeneration : ledger'.generation t = ledger.generation t) : lm'.BoundTo ledger' bound t := by
  refine ⟨?_, ?_⟩
  · rw [Provides, hmapping]
    exact h.provides
  · rw [h.definer?_eq, Ledger.current, Ledger.current, hgeneration]

lemma BoundTo.live (h : lm.BoundTo ledger bound t) : (lm.get? t).isSome := by
  obtain ⟨mapping, -, hmapping, -⟩ := h.provides
  exact isSome_of_mapping? hmapping

end LinkMap

/-- Every module reaches what it is bound to, or that is loaded. -/
def Linker.Bound (linker : Linker) (ledger : Ledger) : Prop :=
  ∀ id bound, (linker.modules.get? id).isSome → bound ∈ ledger.bindings id →
    ∃ t, linker.modules.BoundTo ledger bound t ∧
      (linker.modules.Reaches id t ∨ linker.modules.state? t = some .loaded)

namespace Load

variable {files : FileSet} {load next : Load} {ledger : Ledger} {frame : Frame}
  {outer : List Frame} {name : Soname}

/-- When a module is mapped, nothing in it is bound, and no other module has its number. -/
lemma bound_fetch (h : load.linker.Bound ledger) {neededBy : Option Soname}
    (hfetch : load.fetch files neededBy name = .ok next) :
    next.linker.Bound (ledger.map load.linker.modules.nextId) := by
  obtain ⟨image, -, rfl⟩ := fetch_eq_ok hfetch
  intro id bound hlive hbound
  simp only [Ledger.map, Function.update_apply] at hbound
  split at hbound
  · simp at hbound
  · rename_i hid
    rw [LinkMap.get?_register, if_neg hid] at hlive
    obtain ⟨t, hto, hneeds⟩ := h id bound hlive hbound
    have hne : t ≠ load.linker.modules.nextId := by
      rintro rfl
      simpa using hto.live
    refine ⟨t, hto.congr ?_ (Function.update_of_ne hne _ _), hneeds.imp ?_ ?_⟩
    · rw [LinkMap.mapping?_register, if_neg hne]
    · exact (LinkMap.reaches_congr fun _ => LinkMap.deps_register).mpr
    · exact LinkMap.extends_register.state?_eq

/-- When a dependency is recorded, modules reach what they did. -/
lemma Proper.bound_link (hproper : load.Proper) (h : load.linker.Bound ledger)
    (hframes : load.frames = frame :: outer) {dep : Soname} {deps : List Soname}
    {target : ModuleId} (hfound : load.linker.modules.named? dep = some target) :
    (load.link frame deps outer target).linker.Bound ledger := by
  intro id bound hlive hbound
  have hmapping : ∀ i, (load.link frame deps outer target).linker.modules.mapping? i
      = load.linker.modules.mapping? i := fun _ => LinkMap.mapping?_addDep
  rw [LinkMap.isSome_congr (hmapping id)] at hlive
  obtain ⟨t, hto, hneeds⟩ := h id bound hlive hbound
  refine ⟨t, hto.congr (hmapping t) rfl, hneeds.imp (fun hreach => ?_) (fun hloaded => ?_)⟩
  · exact hreach.mono fun _ _ hy => (hproper.mem_deps_link hframes hfound).mpr (Or.inl hy)
  · exact LinkMap.state?_addDep.trans hloaded

/-- When a module is relocated, it is bound to modules within its reach or of the global scope. -/
lemma Proper.bound_relocate (hproper : load.Proper) (h : load.linker.Bound ledger)
    (hframes : load.frames = frame :: outer) {events : List Event}
    (hevents : load.linker.modules.relocate frame.module frame.name frame.references
      = (events, .ok ())) :
    (load.linker.settle frame.module).Bound (ledger.bind frame.module
      (events.filterMap (ledger.bound? load.linker.modules frame.module))) := by
  have horder := hproper.inOrder
  rw [hframes] at horder
  intro id bound hlive hbound
  rw [LinkMap.isSome_congr (load.linker.mapping?_settle frame.module id)] at hlive
  have hbefore : ∃ t, load.linker.modules.BoundTo ledger bound t ∧
      (load.linker.modules.Reaches id t ∨ load.linker.modules.state? t = some .loaded) := by
    rcases Ledger.mem_bindings_bind.mp hbound with hold | ⟨rfl, hnew⟩
    · exact h id bound hlive hold
    · obtain ⟨event, hevent, hsome⟩ := List.mem_filterMap.mp hnew
      obtain ⟨name, symbol, address, rfl, rfl⟩ := Ledger.bound?_eq_some.mp hsome
      obtain ⟨found, hfound, hprovides, hneeds⟩ := horder.consistent.provides_of_bindingOf
        (LinkMap.bindingOf_of_relocate hevents hevent).2
      exact ⟨found.module.id, ⟨hprovides, by simp [Ledger.boundIn, hfound]⟩, hneeds⟩
  obtain ⟨t, hto, hneeds⟩ := hbefore
  refine ⟨t, hto.congr (load.linker.mapping?_settle _ t) rfl, hneeds.imp ?_ ?_⟩
  · exact (LinkMap.reaches_congr (load.linker.deps_settle frame.module)).mpr
  · exact horder.extends_settle.state?_eq

/-- **A step keeps modules bound to what they reach or what is loaded.** -/
theorem Proper.bound_advance (hproper : load.Proper) (h : load.linker.Bound ledger)
    (hadvance : Advance files load next) : next.linker.Bound (ledger.afterStep load next) := by
  cases hadvance with
  | fetch hfree hhead hfetch =>
    rw [ledger.afterStep_fetch hfetch]
    exact bound_fetch h hfetch
  | link hframes hremaining hfound =>
    rw [ledger.afterStep_link]
    exact hproper.bound_link h hframes hfound
  | relocate hframes hremaining hevents =>
    rw [ledger.afterStep_relocate hframes hevents]
    exact hproper.bound_relocate h hframes hevents

/-- A load that gets stuck leaves loaded modules, which reach loaded modules only. -/
lemma Proper.bound_unwind (hproper : load.Proper) (h : load.linker.Bound ledger) :
    load.unwind.Bound ledger := by
  intro id bound hlive hbound
  obtain ⟨hloaded, hget⟩ := hproper.get?_unwind hlive
  obtain ⟨t, hto, hneeds⟩ := h id bound (LinkMap.isSome_of_state? hloaded) hbound
  have ht : load.linker.modules.state? t = some .loaded :=
    hneeds.elim (fun hreach => hproper.inOrder.loaded_of_reaches hreach hloaded) fun ht => ht
  refine ⟨t, hto.congr (hproper.extends_unwind.mapping?_eq ht) rfl, Or.inr ?_⟩
  exact hproper.extends_unwind.state?_eq ht

/-- What holds of the first moment of a load and its ledger, and is kept by each step, holds of the
last. -/
lemma ledger_induction {P : Load → Ledger → Prop} {moments : List Load} {first last : Load}
    (hchain : moments.IsChain (Advance files)) (hproper : ∀ load ∈ moments, load.Proper)
    (hfirst : moments.head? = some first) (hlast : moments.getLast? = some last)
    (hadvance : ∀ a b ledger, a.Proper → P a ledger → Advance files a b →
      P b (ledger.afterStep a b))
    (h : P first ledger) : P last (ledger.after moments) := by
  induction moments generalizing first ledger with
  | nil => simp at hfirst
  | cons load moments ih =>
    obtain rfl : load = first := by simpa using hfirst
    cases moments with
    | nil =>
      obtain rfl : load = last := by simpa using hlast
      exact h
    | cons next moments =>
      rw [List.isChain_cons_cons] at hchain
      rw [List.getLast?_cons_cons] at hlast
      obtain ⟨hload, hrest⟩ := List.forall_mem_cons.mp hproper
      exact ih hchain.2 hrest rfl hlast (hadvance load next ledger hload h hchain.1)

/-! ## Every reference that is bound is noted -/

/-- Every reference that a load has bound is in the ledger, with the module that it belongs to. -/
def Noted (load : Load) (ledger : Ledger) : Prop :=
  ∀ name symbol address, .bind name symbol address ∈ load.events →
    ∃ id definer?, load.linker.modules.named? name = some id ∧
      ⟨symbol, address, definer?⟩ ∈ ledger.bindings id

/-- A step keeps it that every bound reference is in the ledger. -/
lemma Proper.noted_advance (hproper : load.Proper) (h : load.Noted ledger)
    (hadvance : Advance files load next) : next.Noted (ledger.afterStep load next) := by
  intro n symbol address hbind
  cases hadvance with
  | @fetch name _ hfree hhead hfetch =>
    rw [ledger.afterStep_fetch hfetch]
    obtain ⟨image, -, rfl⟩ := fetch_eq_ok hfetch
    obtain ⟨id, definer?, hnamed, hnoted⟩ := h n symbol address (by simpa using hbind)
    have hname : n ≠ name := by
      rintro rfl
      simp [hfree] at hnamed
    have hid : id ≠ load.linker.modules.nextId := by
      rintro rfl
      simpa using hproper.inOrder.consistent.live_of_named hnamed
    refine ⟨id, definer?, ?_, ?_⟩
    · rwa [LinkMap.named?_register, if_neg hname]
    · simpa only [Ledger.map, Function.update_of_ne hid] using hnoted
  | link hframes hremaining hfound =>
    rw [ledger.afterStep_link]
    obtain ⟨id, definer?, hnamed, hnoted⟩ := h n symbol address hbind
    exact ⟨id, definer?, (LinkMap.named?_addDep _ _ _).trans hnamed, hnoted⟩
  | @relocate frame outer events hframes hremaining hevents =>
    rw [ledger.afterStep_relocate hframes hevents]
    simp only [named?_settle, Ledger.mem_bindings_bind]
    rcases List.mem_append.mp hbind with hold | hnew
    · obtain ⟨id, definer?, hnamed, hnoted⟩ := h n symbol address hold
      exact ⟨id, definer?, hnamed, Or.inl hnoted⟩
    · obtain ⟨rfl, -⟩ := LinkMap.bindingOf_of_relocate hevents hnew
      have hnoted : ledger.boundIn load.linker.modules frame.module symbol address ∈
          events.filterMap (ledger.bound? load.linker.modules frame.module) :=
        List.mem_filterMap.mpr ⟨_, hnew, rfl⟩
      exact ⟨frame.module, _, hproper.named (by simp [hframes]), Or.inr ⟨rfl, hnoted⟩⟩

end Load

/-! ## Calls -/

namespace Linker

variable {linker linker' : Linker} {history : History} {ledger : Ledger}

/-- Flags and the order of the global list do not matter for what references are bound to. -/
lemma Bound.of_alike (h : linker.Bound ledger) (halike : linker.modules.Alike linker'.modules) :
    linker'.Bound ledger := by
  intro id bound hlive hbound
  rw [LinkMap.isSome_congr (halike.mapping?_eq id)] at hlive
  obtain ⟨t, hto, hneeds⟩ := h id bound hlive hbound
  refine ⟨t, hto.congr (halike.mapping?_eq t) rfl, hneeds.imp ?_ ?_⟩
  · exact (LinkMap.reaches_congr halike.deps_eq).mpr
  · exact (halike.state?_eq t).trans

/-- What holds when a load begins, and is kept by each step, holds at the last moment. -/
lemma Sound.ledger_last {P : Load → Ledger → Prop} (h : linker.Sound history) {files : FileSet}
    {name : Soname} {word : Int32} {last : Load}
    (hlast : (linker.moments files name word).getLast? = some last)
    (hadvance : ∀ a b ledger, a.Proper → P a ledger → Load.Advance files a b →
      P b (ledger.afterStep a b))
    (hstart : P (Load.start linker) ledger) :
    P last (ledger.after (linker.moments files name word)) := by
  obtain ⟨first, hfirst⟩ : ∃ first, (linker.moments files name word).head? = some first :=
    ⟨_, List.head?_eq_some_head (List.ne_nil_of_mem (List.mem_of_getLast? hlast))⟩
  obtain rfl := head?_moments hfirst
  exact Load.ledger_induction (isChain_moments h.inOrder) (fun _ hload => (h.moment hload).1)
    hfirst hlast hadvance hstart

/-- A request to open a module leaves modules bound to what they reach or what is loaded. -/
lemma Sound.bound_openModule (h : linker.Sound history) (hbound : linker.Bound ledger)
    (files : FileSet) (name : Soname) (word : Int32) :
    (linker.openModule files name word).linker.Bound
      (ledger.after (linker.moments files name word)) := by
  have hend : ∀ last, (linker.moments files name word).getLast? = some last →
      last.linker.Bound (ledger.after (linker.moments files name word)) := fun last hlast =>
    h.ledger_last (P := fun load ledger => load.linker.Bound ledger) hlast
      (fun _ _ _ hproper ha hab => hproper.bound_advance ha hab) hbound
  refine linker.openModule_cases (P := fun after => after.Bound
    (ledger.after (linker.moments files name word))) files name word
    (fun hnil => ?_) (fun last hlast => ?_) (fun last hlast _ => hend last hlast)
    fun before id mode hbefore => hbefore.of_alike (before.alike_issue id mode)
  · rw [hnil]
    exact hbound
  · exact (h.moment (List.mem_of_getLast? hlast)).1.bound_unwind (hend last hlast)

/-- Every reference that a request binds when it succeeds is in the ledger. -/
lemma Sound.noted_openModule (h : linker.Sound history) (ledger : Ledger) {files : FileSet}
    {name : Soname} {word : Int32} {handle : Handle}
    (hopen : (linker.openModule files name word).result = .ok handle) {n : Soname}
    {symbol : String} {address : UInt64}
    (hbind : .bind n symbol address ∈ (linker.openModule files name word).events) :
    ∃ id definer?, (linker.openModule files name word).linker.modules.named? n = some id ∧
      ⟨symbol, address, definer?⟩ ∈
        (ledger.after (linker.moments files name word)).bindings id := by
  have hafter := (h.openModule files name word).inOrder.consistent
  have hopening := linker.opening files name word
  generalize linker.openModule files name word = outcome at hopening hopen hbind hafter ⊢
  cases hopening with
  | refused hmoments => simp at hopen
  | found _ _ hmoments => simp [Linker.issue] at hbind
  | stuck _ hlast _ => simp at hopen
  | @loaded mode last _ _ hlast hframes =>
    have hbind' : .bind n symbol address ∈ last.events := by
      simpa [Linker.issue] using hbind
    have hstart : (Load.start linker).Noted ledger := fun _ _ _ hnone =>
      absurd hnone List.not_mem_nil
    obtain ⟨id, definer?, hnamed, hnoted⟩ := h.ledger_last (P := Load.Noted) hlast
      (fun _ _ _ hproper ha hab => hproper.noted_advance ha hab) hstart n symbol address hbind'
    have hlast := (h.moment (List.mem_of_getLast? hlast)).1.inOrder.consistent
    refine ⟨id, definer?, ?_, hnoted⟩
    rw [hafter.named_iff]
    simp only [(last.linker.alike_issue _ mode).mapping?_eq]
    exact hlast.named_iff.mp hnamed

lemma Reached.bound_after (h : linker.Reached history) (hbound : linker.Bound ledger)
    (calls : List (FileSet × Call)) :
    (linker.after calls).Bound (linker.ledgerAfter ledger calls) := by
  induction calls generalizing linker history ledger with
  | nil => exact hbound
  | cons head calls ih =>
    obtain ⟨files, call⟩ := head
    refine ih (h.perform files call) ?_
    cases call with
    | openModule name word => exact h.sound.bound_openModule hbound files name word
    | lookup handle symbol => exact hbound
    | close handle => exact hbound
    | tree handle => exact hbound
    | deps handle => exact hbound
    | list => exact hbound

/-- **No loaded module is bound to a discarded one.**  Whatever calls were made, with whatever
files, every reference of a loaded module that was bound when the module was relocated is bound to
the address at which a loaded module defines the symbol, and that is the very module in which the
definition was found at the time.  The ledger that says so has every reference that a request
binds. -/
theorem bound_to_loaded {id : LinkerId} {space : AddressSpace} {startup : List StartupModule}
    {created : Linker} (hcreate : Linker.create id space startup = .ok created)
    (calls : List (FileSet × Call)) :
    (∀ module ∈ (created.after calls).modules.order,
      ∀ bound ∈ (created.ledgerAfter .start calls).bindings module,
        ∃ definer ∈ (created.after calls).modules.order, ∃ m definition,
          (created.after calls).modules.get? definer = some m ∧
          m.exports.find? bound.symbol = some definition ∧ definition.isTls = false ∧
          definition.value + m.bias = bound.address ∧
          bound.definer? = some ((created.ledgerAfter .start calls).current definer)) ∧
    ∀ files name word handle,
      ((created.after calls).openModule files name word).result = .ok handle →
      ∀ n symbol address,
        .bind n symbol address ∈ ((created.after calls).openModule files name word).events →
        ∃ module definer?,
          ((created.after calls).openModule files name word).linker.modules.named? n
            = some module ∧
          ⟨symbol, address, definer?⟩ ∈ ((created.ledgerAfter .start calls).after
            ((created.after calls).moments files name word)).bindings module := by
  have hreached := (Reached.create hcreate).after calls
  refine ⟨fun module hmodule bound hbound => ?_,
    fun files name word handle hopen n symbol address => hreached.sound.noted_openModule _ hopen⟩
  have hnothing : created.Bound .start := fun _ _ _ hbound => absurd hbound List.not_mem_nil
  have hafter := hreached.sound.inOrder
  have hloaded := hafter.consistent.mem_order_iff.mp hmodule
  obtain ⟨t, hto, -⟩ := (Reached.create hcreate).bound_after hnothing calls module bound
    (LinkMap.isSome_of_state? hloaded) hbound
  have ht : t ∈ (created.after calls).modules.order :=
    hafter.consistent.mem_order_iff.mpr (hafter.state?_eq_loaded hto.live)
  obtain ⟨mapping, definition, hmapping, hfind, htls, hvalue⟩ := hto.provides
  obtain ⟨m, hm, rfl⟩ := LinkMap.mapping?_eq_some.mp hmapping
  exact ⟨t, ht, m, definition, hm, hfind, htls, hvalue, hto.definer?_eq⟩

/-- Of two modules that need each other, the inner one is bound to the outer one, which then fails
for want of a file.  When the file of the outer one no longer asks for that, both are loaded under
the numbers that they had before, and the inner one is bound to the second module that has had
the number, not to the first. -/
theorem bound_to_loaded_of_reused_numbers :
    ∃ (created : Linker) (calls : List (FileSet × Call)),
      1 ∈ (created.after calls).modules.order ∧
      ⟨"s", 0x3001, some ⟨0, 2⟩⟩ ∈ (created.ledgerAfter .start calls).bindings 1 ∧
      ∃ definer ∈ (created.after calls).modules.order, ∃ m definition,
        (created.after calls).modules.get? definer = some m ∧
        m.exports.find? "s" = some definition ∧ definition.isTls = false ∧
        definition.value + m.bias = 0x3001 ∧
        some ⟨0, 2⟩ = some ((created.ledgerAfter .start calls).current definer) := by
  let created : Linker := ⟨1, ⟨0x1000, 0x1000⟩, .empty, []⟩
  let outer (deps : List Soname) : StoredFile :=
    .readable (.module ⟨deps, .ofList [("s", ⟨1, 8, .function⟩)], [], none⟩)
  let inner : StoredFile := .readable (.module ⟨[⟨"a"⟩], .empty, [.required "s"], none⟩)
  let calls : List (FileSet × Call) :=
    [(.ofList [(⟨"a"⟩, outer [⟨"b"⟩, ⟨"c"⟩]), (⟨"b"⟩, inner)], .openModule ⟨"a"⟩ 2),
      (.ofList [(⟨"a"⟩, outer [⟨"b"⟩]), (⟨"b"⟩, inner)], .openModule ⟨"a"⟩ 2)]
  have hcreate : Linker.create 1 ⟨0x1000, 0x1000⟩ [] = .ok created := rfl
  have hmodule : 1 ∈ (created.after calls).modules.order := by decide +kernel
  have hbound : ⟨"s", 0x3001, some ⟨0, 2⟩⟩ ∈ (created.ledgerAfter .start calls).bindings 1 := by
    decide +kernel
  exact ⟨created, calls, hmodule, hbound, (bound_to_loaded hcreate calls).1 1 hmodule _ hbound⟩

end Linker

end DynamicLinker
