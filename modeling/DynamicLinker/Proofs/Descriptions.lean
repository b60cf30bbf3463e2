/-
# Modules described by name

The number of a module and its load bias depend on what was loaded before it.  Whether it can be
relocated does not: a symbol is found, or has no address, whatever the numbers and the load biases
of modules are.  So it is enough to know, for each name, the exports of its module and the names of
its dependencies.  If two link maps have the same to say in this respect, then the trees of a name
have the same names in both, and a relocation succeeds in both or fails in both with the same error.
-/
import DynamicLinker.Proofs.DeclaredTrees
import DynamicLinker.Proofs.Scopes

namespace DynamicLinker

/-- What there is to say of a module, apart from its number and its load bias. -/
structure Description where
  /-- The symbols that the module exports. -/
  exports : SymbolTable
  /-- The names of the dependencies. -/
  deps : List Soname

namespace LinkMap

/-- The description of the module of a name. -/
def described? (lm : LinkMap) (name : Soname) : Option Description :=
  (lm.named? name).bind fun id =>
    (lm.mapping? id).map fun mapping => ⟨mapping.exports, lm.depNames id⟩

variable {lm lm' : LinkMap} {id id' : ModuleId} {mapping mapping' : Mapping} {name : Soname}
  {scope scope' : Scope} {symbol : String} {undefined : Cause} {ids : List ModuleId}

lemma Consistent.described?_eq (h : lm.Consistent) (hid : lm.mapping? id = some mapping) :
    lm.described? mapping.name = some ⟨mapping.exports, lm.depNames id⟩ := by
  simp [described?, h.named_of_mapping hid, hid]

/-- Names of modules are known. -/
lemma Consistent.isSome_named?_of_mem_namesOf (h : lm.Consistent) (hname : name ∈ lm.namesOf ids) :
    (lm.named? name).isSome := by
  rw [namesOf_eq, List.mem_filterMap] at hname
  obtain ⟨id, -, hid⟩ := hname
  obtain ⟨mapping, hmapping, rfl⟩ := Option.map_eq_some_iff.mp hid
  exact Option.isSome_of_eq_some (h.named_of_mapping hmapping)

/-! ## Trees -/

/-- The names of a tree are what the recursive walk over described dependencies finds. -/
lemma Consistent.preorder_described (h : lm.Consistent) (hid : lm.mapping? id = some mapping) :
    Preorder (fun name => ((lm.described? name).map Description.deps).getD []) [] [mapping.name]
      (lm.namesOf (lm.tree id)) := by
  refine h.preorder_names (fun i found hfound => ?_) hid
  simp [h.described?_eq hfound]

/-- **Trees have the same names where modules have the same descriptions.** -/
theorem Consistent.namesOf_tree_eq (h : lm.Consistent) (h' : lm'.Consistent)
    (hsame : ∀ n, (lm.named? n).isSome → lm'.described? n = lm.described? n)
    (hid : lm.mapping? id = some mapping) (hid' : lm'.mapping? id' = some mapping')
    (hname : mapping'.name = mapping.name) :
    lm'.namesOf (lm'.tree id') = lm.namesOf (lm.tree id) := by
  have hwalk := (h.preorder_described hid).congr_next fun n hn =>
    congrArg (fun d => (Option.map Description.deps d).getD [])
      (hsame n (h.isSome_named?_of_mem_namesOf hn))
  have hwalk' := h'.preorder_described hid'
  rw [hname] at hwalk'
  exact hwalk'.unique hwalk

/-! ## Relocations -/

/-- What the module of a name has to say on a symbol, apart from its address: nothing, if it does
not export the symbol, and else whether that has an address. -/
def verdict? (lm : LinkMap) (symbol : String) (name : Soname) : Option (Except LinkError Unit) :=
  (lm.described? name).bind fun description =>
    (description.exports.find? symbol).map fun definition =>
      if definition.isTls then .error (.ofCause (.unsupportedTls name symbol)) else .ok ()

/-- An address is given by a module if and only if it is given under the name of the module. -/
lemma Consistent.map_meaning? (h : lm.Consistent) (hid : lm.mapping? id = some mapping)
    (symbol : String) :
    (lm.meaning? symbol id).map (Except.map fun _ => ()) = lm.verdict? symbol mapping.name := by
  obtain ⟨m, hm, rfl⟩ := mapping?_eq_some.mp hid
  rw [verdict?, h.described?_eq hid, meaning?, definition?, hm]
  simp only [Option.map_map, Option.bind_some]
  congr 1
  funext definition
  cases htls : definition.isTls <;> simp [ResolvedSymbol.address, Symbol.address?, htls, Except.map]

/-- The first module of a scope that exports a symbol is found by its name. -/
lemma Consistent.findSome?_verdict? (h : lm.Consistent) (symbol : String) (scope : Scope) :
    (scope.findSome? (lm.meaning? symbol)).map (Except.map fun _ => ())
      = (lm.namesOf scope).findSome? (lm.verdict? symbol) := by
  induction scope with
  | nil => rfl
  | cons id scope ih =>
    rw [namesOf_eq] at ih ⊢
    cases hid : lm.mapping? id with
    | none =>
      have hnone : lm.meaning? symbol id = none := by
        have hget : lm.get? id = none := by simpa [mapping?] using hid
        simp [meaning?, definition?, hget]
      simpa [List.findSome?_cons, hnone, hid] using ih
    | some mapping =>
      have hverdict := h.map_meaning? hid symbol
      rw [List.findSome?_cons, List.filterMap_cons_some (by rw [hid]; rfl), List.findSome?_cons,
        ← hverdict]
      cases lm.meaning? symbol id with
      | none => exact ih
      | some meaning => rfl

/-- Whether a scope gives a symbol an address depends on the names of its modules and on what is
known of them. -/
lemma Consistent.map_addressIn_eq (h : lm.Consistent) (h' : lm'.Consistent)
    (hsame : ∀ n, (lm.named? n).isSome → lm'.described? n = lm.described? n)
    (hnames : lm'.namesOf scope' = lm.namesOf scope) :
    (lm'.addressIn scope' symbol undefined).map (fun _ => ())
      = (lm.addressIn scope symbol undefined).map fun _ => () := by
  have hmap : ∀ {lm : LinkMap} {scope : Scope}, lm.Consistent →
      (lm.addressIn scope symbol undefined).map (fun _ => ())
        = ((lm.namesOf scope).findSome? (lm.verdict? symbol)).getD
            (.error (.ofCause undefined)) := by
    intro lm scope hconsistent
    rw [addressIn_eq, ← hconsistent.findSome?_verdict?]
    cases scope.findSome? (lm.meaning? symbol) <;> rfl
  have hverdict : ∀ n ∈ lm.namesOf scope, lm'.verdict? symbol n = lm.verdict? symbol n := by
    intro n hn
    rw [verdict?, hsame n (h.isSome_named?_of_mem_namesOf hn), verdict?]
  rw [hmap h', hmap h, hnames, ← List.head?_filterMap, ← List.head?_filterMap,
    List.filterMap_congr hverdict]

end LinkMap

/-- Only whether references resolve, and with which errors they do not, matters for how a relocation
ends. -/
lemma result_bindReferences_eq {module : Soname}
    {resolve resolve' : String → Except LinkError UInt64}
    (h : ∀ symbol, (resolve' symbol).map (fun _ => ()) = (resolve symbol).map fun _ => ())
    (references : List Reference) :
    (bindReferences module resolve' references).2
      = (bindReferences module resolve references).2 := by
  induction references with
  | nil => rfl
  | cons reference references ih =>
    cases reference with
    | required symbol =>
      have hsymbol := h symbol
      cases hold : resolve symbol <;> cases hnew : resolve' symbol <;>
        simp [hold, hnew, Except.map, bindReferences, ih] at hsymbol ⊢
      exact hsymbol
    | probe symbol =>
      cases hold : resolve symbol <;> cases hnew : resolve' symbol <;>
        simp [hold, hnew, bindReferences, ih]
    | broken e => rfl

/-- **A relocation ends in the same way where modules have the same descriptions**, and the global
scopes have the same names. -/
theorem LinkMap.Consistent.result_relocate_eq {lm lm' : LinkMap} (h : lm.Consistent)
    (h' : lm'.Consistent) (hsame : ∀ n, (lm.named? n).isSome → lm'.described? n = lm.described? n)
    (hglobal : lm'.namesOf lm'.globalScope = lm.namesOf lm.globalScope) {id id' : ModuleId}
    {mapping mapping' : Mapping} (hid : lm.mapping? id = some mapping)
    (hid' : lm'.mapping? id' = some mapping') (hname : mapping'.name = mapping.name)
    (references : List Reference) :
    (lm'.relocate id' mapping.name references).2 = (lm.relocate id mapping.name references).2 := by
  have hscope : lm'.namesOf (lm'.globalScope ++ lm'.tree id')
      = lm.namesOf (lm.globalScope ++ lm.tree id) := by
    have happend : ∀ (lm : LinkMap) (ids ids' : List ModuleId),
        lm.namesOf (ids ++ ids') = lm.namesOf ids ++ lm.namesOf ids' := fun _ _ _ =>
      List.filterMap_append
    rw [happend, happend, hglobal, h.namesOf_tree_eq h' hsame hid hid' hname]
  refine result_bindReferences_eq (fun symbol => ?_) references
  rw [LinkMap.bindingOf_eq, LinkMap.bindingOf_eq]
  exact h.map_addressIn_eq h' hsame hscope

end DynamicLinker
