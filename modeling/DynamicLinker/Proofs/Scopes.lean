/-
# Scopes and bindings

An address that a scope gives a symbol depends on what is mapped for the modules of the scope and
on nothing else, so it may be computed in any link map that still has them.  That a relocation
scope lists each module once makes no difference either: a module that was passed over once
defines nothing the second time.

A reference is bound when its module is relocated, and then to the address that the global scope
gives it, followed by the tree of the module.  The global scope is at every moment of a load what
it was before, as the modules that a load adds are not global.
-/
import DynamicLinker.Proofs.Progress

namespace DynamicLinker

/-! ## Addresses -/

/-- What is found has an address exactly when it is not thread-local. -/
lemma ResolvedSymbol.address_eq_ok {found : ResolvedSymbol} {name : String} {address : UInt64} :
    found.address name = .ok address ↔
      found.symbol.isTls = false ∧ found.symbol.value + found.module.bias = address := by
  rw [ResolvedSymbol.address, Symbol.address?]
  cases found.symbol.isTls <;> simp

namespace LinkMap

variable {lm lm' : LinkMap} {scope front back back' : Scope} {symbol : String} {id : ModuleId}
  {found : ResolvedSymbol} {address : UInt64} {undefined : Cause}

lemma definition?_eq_some :
    lm.definition? symbol id = some found ↔
      lm.get? id = some found.module ∧ found.module.exports.find? symbol = some found.symbol := by
  rw [definition?]
  cases lm.get? id with
  | none => simp
  | some m =>
    simp only [Option.map_eq_some_iff, Option.some.injEq]
    constructor
    · rintro ⟨definition, hfind, rfl⟩
      exact ⟨rfl, hfind⟩
    · rintro ⟨rfl, hfind⟩
      exact ⟨found.symbol, hfind, rfl⟩

/-- What is found for a symbol is the definition by a module of the scope. -/
lemma exists_of_resolve? (h : lm.resolve? scope symbol = some found) :
    ∃ id ∈ scope, lm.definition? symbol id = some found :=
  List.exists_of_findSome?_eq_some h

lemma addressIn_eq_ok :
    lm.addressIn scope symbol undefined = .ok address ↔
      ∃ found, lm.resolve? scope symbol = some found ∧ found.address symbol = .ok address := by
  rw [addressIn]
  cases lm.resolve? scope symbol <;> simp

/-- What a module has to say on a symbol: nothing, if it does not define it, and else an address
or that there is none. -/
def meaning? (lm : LinkMap) (symbol : String) (id : ModuleId) : Option (Except LinkError UInt64) :=
  (lm.definition? symbol id).map fun found => found.address symbol

/-- The first module of a scope that has something to say on a symbol decides. -/
lemma addressIn_eq (lm : LinkMap) (scope : Scope) (symbol : String) (undefined : Cause) :
    lm.addressIn scope symbol undefined
      = (scope.findSome? (lm.meaning? symbol)).getD (.error (.ofCause undefined)) := by
  have hmap : scope.findSome? (lm.meaning? symbol)
      = (lm.resolve? scope symbol).map fun found => found.address symbol :=
    List.map_findSome?.symm
  rw [hmap, addressIn]
  cases lm.resolve? scope symbol <;> rfl

/-- Only the mapping of a module matters for what it has to say. -/
lemma meaning?_congr (h : lm'.mapping? id = lm.mapping? id) :
    lm'.meaning? symbol id = lm.meaning? symbol id := by
  cases hget : lm.get? id with
  | none =>
    have hnone : lm'.get? id = none := by simpa [mapping?, hget] using h
    simp [meaning?, definition?, hget, hnone]
  | some m =>
    obtain ⟨m', hm', hsame⟩ := mapping?_eq_some.mp (h.trans (mapping?_of_get? hget))
    simp only [meaning?, definition?, hget, hm', hsame, Option.map_map]
    congr 1
    funext definition
    simp only [Function.comp_apply, ResolvedSymbol.address, hsame]

/-- Only the mappings of the modules of a scope matter for the address of a symbol. -/
lemma addressIn_congr (h : ∀ id ∈ scope, lm'.mapping? id = lm.mapping? id) :
    lm'.addressIn scope symbol undefined = lm.addressIn scope symbol undefined := by
  have hfind : scope.findSome? (lm'.meaning? symbol) = scope.findSome? (lm.meaning? symbol) := by
    rw [← List.head?_filterMap, ← List.head?_filterMap,
      List.filterMap_congr fun id hid => meaning?_congr (h id hid)]
  rw [addressIn_eq, addressIn_eq, hfind]

/-- Behind a module that defines a symbol a scope may go on as it likes. -/
lemma addressIn_eq_of_definition? (h : (lm.definition? symbol id).isSome) :
    lm.addressIn (front ++ id :: back) symbol undefined
      = lm.addressIn (front ++ id :: back') symbol undefined := by
  obtain ⟨found, hfound⟩ := Option.isSome_iff_exists.mp h
  have hmeaning : lm.meaning? symbol id = some (found.address symbol) := by
    rw [meaning?, hfound]
    rfl
  simp only [addressIn_eq, List.findSome?_append, List.findSome?_cons, hmeaning]

/-- An address that a scope gives a symbol does not depend on the cause that is reported when it
gives none. -/
lemma addressIn_eq_ok_of_cause {undefined' : Cause}
    (h : lm.addressIn scope symbol undefined = .ok address) :
    lm.addressIn scope symbol undefined' = .ok address := by
  rwa [addressIn_eq_ok] at h ⊢

/-! ## Relocation scopes -/

/-- A module that has nothing to say may be left out. -/
lemma findSome?_filter_ne {β : Type} {f : ModuleId → Option β} (hid : f id = none)
    (scope : Scope) : (scope.filter fun i => !i == id).findSome? f = scope.findSome? f := by
  rw [← List.head?_filterMap, ← List.head?_filterMap, List.filterMap_filter]
  congr 1
  refine List.filterMap_congr fun i _ => ?_
  by_cases hi : i = id
  · simp [hi, hid]
  · simp [hi]

/-- It does not matter that a module occurs again. -/
lemma findSome?_eraseDups {β : Type} (f : ModuleId → Option β) (scope : Scope) :
    scope.eraseDups.findSome? f = scope.findSome? f := by
  cases scope with
  | nil => rfl
  | cons id rest =>
    have hshort : (rest.filter fun i => !i == id).length < rest.length + 1 :=
      Nat.lt_succ_of_le (List.length_filter_le _ _)
    rw [List.eraseDups_cons, List.findSome?_cons, List.findSome?_cons]
    cases hid : f id with
    | some b => rfl
    | none => exact (findSome?_eraseDups f _).trans (findSome?_filter_ne hid rest)
termination_by scope.length

/-- The address that a reference is bound to is the one that the global scope gives it, followed
by the tree of its module. -/
theorem bindingOf_eq (lm : LinkMap) (root : ModuleId) (name : Soname) (symbol : String) :
    lm.bindingOf root name symbol
      = lm.addressIn (lm.globalScope ++ lm.tree root) symbol (.missingSymbol name symbol) := by
  rw [bindingOf, addressIn_eq, addressIn_eq, relocationScope, findSome?_eraseDups]

end LinkMap

/-! ## References that are bound -/

/-- A reference is bound to what it resolves to. -/
lemma bind_mem_bindReferences {module name : Soname} {resolve : String → Except LinkError UInt64}
    {references : List Reference} {symbol : String} {address : UInt64}
    (h : .bind name symbol address ∈ (bindReferences module resolve references).1) :
    name = module ∧ resolve symbol = .ok address := by
  obtain ⟨r, -, hmeets⟩ := (meetsAll_bindReferences module resolve references).exists_of_mem h
  cases hmeets with
  | bound hresolve => exact ⟨rfl, hresolve⟩
  | probed hresolve => exact ⟨rfl, hresolve⟩

/-- A reference that is bound in a relocation belongs to the module that is relocated. -/
lemma LinkMap.bindingOf_of_relocate {lm : LinkMap} {id : ModuleId} {module name : Soname}
    {references : List Reference} {events : List Event} {result : Except LinkError Unit}
    {symbol : String} {address : UInt64} (h : lm.relocate id module references = (events, result))
    (hbind : .bind name symbol address ∈ events) :
    name = module ∧ lm.bindingOf id module symbol = .ok address := by
  obtain rfl : (lm.relocate id module references).1 = events := by rw [h]
  rcases List.mem_cons.mp hbind with h | h
  · simp at h
  · exact bind_mem_bindReferences h

/-! ## The global scope during a load -/

/-- A load leaves the global scope as it was. -/
lemma Load.Since.globalScope_eq {linker : Linker} {load : Load} (h : load.Since linker)
    (hlinker : linker.InOrder []) (hproper : load.Proper) :
    load.linker.modules.globalScope = linker.modules.globalScope := by
  obtain ⟨new, hnew⟩ := h.kept.order_grows
  have hold : ∀ id ∈ linker.modules.order,
      load.linker.modules.get? id = linker.modules.get? id := fun id hid =>
    h.kept.get?_eq (hlinker.consistent.mem_order_iff.mp hid)
  have hnodup := hproper.inOrder.consistent.order_nodup
  rw [← hnew] at hnodup
  rw [LinkMap.globalScope, ← hnew, List.filter_append, LinkMap.globalScope,
    List.filter_congr fun id hid => by rw [hold id hid]]
  refine List.append_right_eq_self.mpr (List.filter_eq_nil_iff.mpr fun id hid hglobal => ?_)
  -- what is new in the list was not there before, so it is not global
  obtain ⟨m, hm, hflag⟩ := Option.any_eq_true _ _ |>.mp hglobal
  have hnone : linker.modules.get? id = none := by
    by_contra hlive
    have hmem := hlinker.consistent.mem_order_iff.mpr
      (hlinker.state?_eq_loaded (Option.isSome_iff_ne_none.mpr hlive))
    exact (List.nodup_append.mp hnodup).2.2 id hmem id hid rfl
  have hmoment : load.linker.modules.global? id = some m.isGlobal := by simp [LinkMap.global?, hm]
  have hlocal : m.isGlobal = false := h.not_global hmoment hnone
  rw [hlocal] at hflag
  simp at hflag

end DynamicLinker
