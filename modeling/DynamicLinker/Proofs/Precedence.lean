/-
# Precedence of definitions

A symbol is looked for in a scope, which is a list of modules, and the first module that defines it
decides: by the address of its definition, or, where that is thread-local, by an error that names
the module.  A definition further on is not considered in either case, and only if there is none at
all is the symbol undefined.  This is `FirstWins`, said on the scope without the search.

The law holds on both paths on which symbols are looked for.  A lookup through a handle has the tree
of the module as its scope.  A relocation has the global modules in the order of the global list,
followed by the tree as it is then, where modules may be loading or wait for others.  The second
scope lists a module that is in both parts only once, which makes no difference.

A relocation puts this question for one reference after the other, and what it logs, and whether it
fails, are the answers (`MeetsAll`).
-/
import DynamicLinker.Proofs.DeclaredTrees
import DynamicLinker.Proofs.GlobalSet

namespace DynamicLinker

namespace LinkMap

/-- A module has the first definition of a symbol in a scope. -/
def FirstDefines (lm : LinkMap) (scope : Scope) (symbol : String) (m : Module)
    (definition : Symbol) : Prop :=
  ∃ front id back, scope = front ++ id :: back ∧ lm.get? id = some m ∧
    m.exports.find? symbol = some definition ∧
    ∀ i ∈ front, ∀ passed, lm.get? i = some passed → passed.exports.find? symbol = none

/-- The answer to the question for a symbol is what its first definition in a scope says. -/
structure FirstWins (lm : LinkMap) (scope : Scope) (symbol : String) (undefined : Cause)
    (answer : Except LinkError UInt64) : Prop where
  /-- There is an address exactly if there is a first definition that is not thread-local. -/
  isOk_iff : (∃ address, answer = .ok address) ↔
    ∃ m definition, lm.FirstDefines scope symbol m definition ∧ definition.kind ≠ .tls
  /-- The address is the value of the definition plus the bias of its module, modulo the number of
  64-bit words. -/
  address {m : Module} {definition : Symbol} : lm.FirstDefines scope symbol m definition →
    definition.kind ≠ .tls →
      ∃ address, answer = .ok address ∧
        address.toNat = (definition.value.toNat + m.bias.toNat) % UInt64.size
  /-- A thread-local definition hides those behind it. -/
  threadLocal {m : Module} {definition : Symbol} : lm.FirstDefines scope symbol m definition →
    definition.kind = .tls → answer = .error (.ofCause (.unsupportedTls m.name symbol))
  /-- Without any definition the symbol is undefined. -/
  undefined : (∀ id ∈ scope, ∀ m, lm.get? id = some m → m.exports.find? symbol = none) →
    answer = .error (.ofCause undefined)

variable {lm : LinkMap} {scope : Scope} {symbol name : String} {id root : ModuleId} {m : Module}
  {definition : Symbol}

lemma definition?_eq_none :
    lm.definition? symbol id = none ↔
      ∀ m, lm.get? id = some m → m.exports.find? symbol = none := by
  rw [definition?]
  cases lm.get? id <;> simp

/-- The search finds the first definition. -/
lemma firstDefines_iff :
    lm.FirstDefines scope symbol m definition
      ↔ lm.resolve? scope symbol = some ⟨m, definition⟩ := by
  simp only [FirstDefines, resolve?, List.findSome?_eq_some_iff, definition?_eq_none,
    definition?_eq_some, and_assoc]

/-- **An address in a scope is that of the first definition.** -/
theorem firstWins_addressIn (lm : LinkMap) (scope : Scope) (symbol : String) (undefined : Cause) :
    lm.FirstWins scope symbol undefined (lm.addressIn scope symbol undefined) := by
  have hfound : ∀ m definition, lm.FirstDefines scope symbol m definition →
      lm.addressIn scope symbol undefined = ResolvedSymbol.address ⟨m, definition⟩ symbol := by
    intro m definition hfirst
    rw [addressIn, firstDefines_iff.mp hfirst]
  have hok : ∀ m definition, lm.FirstDefines scope symbol m definition → definition.kind ≠ .tls →
      lm.addressIn scope symbol undefined = .ok (definition.value + m.bias) := by
    intro m definition hfirst hkind
    rw [hfound m definition hfirst, ResolvedSymbol.address_eq_ok]
    exact ⟨decide_eq_false hkind, rfl⟩
  have hlocal : ∀ m definition, lm.FirstDefines scope symbol m definition →
      definition.kind = .tls →
        lm.addressIn scope symbol undefined
          = .error (.ofCause (.unsupportedTls m.name symbol)) := by
    intro m definition hfirst hkind
    rw [hfound m definition hfirst]
    simp [ResolvedSymbol.address, Symbol.address?, Symbol.isTls, hkind]
  refine ⟨⟨?_, ?_⟩, fun {m definition} hfirst hkind => ⟨_, hok m definition hfirst hkind, ?_⟩,
    fun {m definition} => hlocal m definition, fun hnone => ?_⟩
  · rintro ⟨address, haddress⟩
    obtain ⟨⟨m, definition⟩, hresolve, -⟩ := addressIn_eq_ok.mp haddress
    have hfirst := firstDefines_iff.mpr hresolve
    refine ⟨m, definition, hfirst, fun hkind => ?_⟩
    rw [hlocal m definition hfirst hkind] at haddress
    simp at haddress
  · rintro ⟨m, definition, hfirst, hkind⟩
    exact ⟨_, hok m definition hfirst hkind⟩
  · exact UInt64.toNat_add _ _
  · have hresolve : lm.resolve? scope symbol = none := by
      rw [resolve?, List.findSome?_eq_none_iff]
      exact fun id hid => definition?_eq_none.mpr (hnone id hid)
    rw [addressIn, hresolve]

end LinkMap

/-! ## Relocations -/

/-- What comes of the relocation of the innermost frame of a load. -/
inductive Load.Relocation (load : Load) (frame : Frame) (outer : List Frame) :
    Except Load.Stuck Load → Prop where
  /-- All references are met, and the module is settled. -/
  | settled {events : List Event}
      (hmeets : MeetsAll frame.name (load.linker.modules.bindingOf frame.module frame.name)
        frame.references events (.ok ())) :
    Relocation load frame outer
      (.ok ⟨load.linker.settle frame.module, outer,
        load.events ++ .relocate frame.name :: events⟩)
  /-- A reference gives an error, and the load is stuck. -/
  | stuck {events : List Event} {e : LinkError}
      (hmeets : MeetsAll frame.name (load.linker.modules.bindingOf frame.module frame.name)
        frame.references events (.error e)) :
    Relocation load frame outer (.error (e, load.log (.relocate frame.name :: events)))

lemma Load.relocation_relocate (load : Load) (frame : Frame) (outer : List Frame) :
    load.Relocation frame outer (load.relocate frame outer) := by
  have hmeets := meetsAll_bindReferences frame.name
    (load.linker.modules.bindingOf frame.module frame.name) frame.references
  rw [Load.relocate, LinkMap.relocate]
  generalize bindReferences frame.name
    (load.linker.modules.bindingOf frame.module frame.name) frame.references = bound at hmeets ⊢
  obtain ⟨events, result⟩ := bound
  cases result with
  | ok _ => exact .settled hmeets
  | error e => exact .stuck hmeets

/-! ## The two scopes -/

namespace LinkMap

variable {lm : LinkMap} {root : ModuleId}

/-- How the references of a module are bound when it is relocated. -/
structure BindsFirst (lm : LinkMap) (root : ModuleId) (name : Soname) : Prop where
  /-- The global scope has the global modules, all of them. -/
  mem_globalScope {id : ModuleId} : id ∈ lm.globalScope ↔ lm.global? id = some true
  /-- They stand in the order of the global list. -/
  globalScope_sublist : lm.globalScope.Sublist lm.order
  /-- The tree of the module is in depth-first order. -/
  preorder : Preorder lm.deps [] [root] (lm.tree root)
  /-- The first definition in the global scope and then in the tree decides. -/
  firstWins (symbol : String) :
    lm.FirstWins (lm.globalScope ++ lm.tree root) symbol (.missingSymbol name symbol)
      (lm.bindingOf root name symbol)
  /-- The scope that is searched has no module twice. -/
  nodup : (lm.relocationScope root).Nodup
  /-- It has the modules of both parts. -/
  mem_relocationScope {id : ModuleId} :
    id ∈ lm.relocationScope root ↔ id ∈ lm.globalScope ∨ id ∈ lm.tree root
  /-- To leave out those that occur again changes no answer. -/
  addressIn_eq (symbol : String) (undefined : Cause) :
    lm.addressIn (lm.relocationScope root) symbol undefined
      = lm.addressIn (lm.globalScope ++ lm.tree root) symbol undefined

/-- The references of a module are bound by precedence wherever the global modules are in the
global list. -/
lemma GlobalClosed.bindsFirst (h : lm.GlobalClosed) (root : ModuleId) (name : Soname) :
    lm.BindsFirst root name where
  mem_globalScope {id} := by
    rw [globalScope_eq, List.mem_filter, decide_eq_true_eq]
    exact ⟨fun hid => hid.2, fun hid => ⟨h.mem_order hid, hid⟩⟩
  globalScope_sublist := List.filter_sublist
  preorder := lm.preorder_tree root
  firstWins symbol := by
    rw [bindingOf_eq]
    exact lm.firstWins_addressIn _ symbol _
  nodup := nodup_eraseDups _
  mem_relocationScope {id} := by rw [relocationScope, List.mem_eraseDups, List.mem_append]
  addressIn_eq symbol undefined := by
    rw [addressIn, addressIn, resolve?_relocationScope]

end LinkMap

namespace Linker

variable {linker : Linker} {history : History}

/-- How a symbol is looked up through a handle. -/
structure LooksUpFirst (linker : Linker) (handle : Handle) (symbol : String) : Prop where
  /-- The first definition in the tree of the module decides, which is in depth-first order. -/
  firstWins {m : Module} : handle.linker = linker.id →
    linker.modules.get? handle.module = some m →
      Preorder linker.modules.deps [] [handle.module] (linker.modules.tree handle.module) ∧
        linker.modules.FirstWins (linker.modules.tree handle.module) symbol
          (.undefinedSymbol m.name symbol) (linker.lookup handle symbol)
  /-- A handle of another linker, or of no module, is refused. -/
  invalid : handle.linker ≠ linker.id ∨ linker.modules.get? handle.module = none →
    linker.lookup handle symbol = .error (.ofCause (.invalidHandle handle))

lemma Sound.looksUpFirst (h : linker.Sound history) (handle : Handle) (symbol : String) :
    linker.LooksUpFirst handle symbol where
  firstWins {m} hlinker hm := by
    obtain ⟨number, id⟩ := handle
    obtain rfl : number = linker.id := hlinker
    refine ⟨linker.modules.preorder_tree id, ?_⟩
    rw [lookup, h.moduleOf_eq hm]
    exact linker.modules.firstWins_addressIn _ symbol _
  invalid hinvalid := by
    have hmodule : linker.moduleOf handle = .error (.ofCause (.invalidHandle handle)) := by
      rw [moduleOf]
      split
      · rename_i hlinker
        rw [hinvalid.resolve_left (not_not_intro hlinker)]
      · rfl
    rw [lookup, hmodule]
    rfl

/-- **The first definition of a scope wins**, in every linker that can be reached: in the tree of a
handle, for every lookup through it, and in the global modules followed by the tree of a module, for
every reference that is bound when the module is relocated.  A relocation goes by these answers. -/
theorem Reached.first_definition_wins (h : linker.Reached history) :
    (∀ handle symbol, linker.LooksUpFirst handle symbol) ∧
      ∀ files name word, ∀ load ∈ linker.moments files name word,
        ∀ frame outer, load.frames = frame :: outer → frame.remaining = [] →
          load.step? files = some (load.relocate frame outer) ∧
            load.Relocation frame outer (load.relocate frame outer) ∧
            (∃ m, load.linker.modules.get? frame.module = some m ∧ m.name = frame.name) ∧
            load.linker.modules.BindsFirst frame.module frame.name := by
  have horder := h.sound.inOrder
  refine ⟨h.sound.looksUpFirst, ?_⟩
  intro files name word load hload frame outer hframes hremaining
  refine ⟨by simp [Load.step?, hframes, hremaining], load.relocation_relocate frame outer, ?_, ?_⟩
  · have hframe : frame ∈ load.frames := by simp [hframes]
    obtain ⟨mapping, hmapping, hname⟩ := (proper_of_mem_moments horder hload).mapping?_eq hframe
    obtain ⟨m, hm, rfl⟩ := LinkMap.mapping?_eq_some.mp hmapping
    exact ⟨m, hm, hname⟩
  · exact (horder.globalClosed_moment h.globalClosed hload).bindsFirst _ _

/-- The startup module `g` is global and defines `f`, as `a` does.  Modules `a` and `b` need each
other, and a lookup of `t` through `a` meets the thread-local definition of `a`, which hides that of
`b`.  While `c` is loading, which needs `d` and is needed by it, `d` is relocated: there `f` is that
of `g`, with an address beyond the last one, and `g`, which the tree has as well, counts once.  The
reference of `d` is bound to that address. -/
theorem first_definition_wins_of_cycles :
    ∃ (linker : Linker) (history : History) (files : FileSet) (load : Load) (frame : Frame)
        (outer : List Frame),
      linker.Reached history ∧
      linker.modules.tree 1 = [1, 2, 0] ∧
      (linker.modules.get? 2).bind (fun m => m.exports.find? "t") = some ⟨2, 4, .function⟩ ∧
      linker.lookup ⟨1, 1⟩ "t" = .error (.ofCause (.unsupportedTls ⟨"a"⟩ "t")) ∧
      load ∈ linker.moments files ⟨"c"⟩ 2 ∧ load.frames = frame :: outer ∧
      frame.remaining = [] ∧ frame.module = 4 ∧ frame.name = ⟨"d"⟩ ∧
      load.linker.modules.state? 3 = some .loading ∧
      load.linker.modules.globalScope ++ load.linker.modules.tree 4 = [0, 4, 3, 1, 2, 0] ∧
      load.linker.modules.relocationScope 4 = [0, 4, 3, 1, 2] ∧
      ∃ address next, load.linker.modules.bindingOf 4 ⟨"d"⟩ "f" = .ok address ∧
        address.toNat = 0x10 ∧ load.step? files = some (.ok next) ∧
        next.events = load.events ++ [.relocate ⟨"d"⟩, .bind ⟨"d"⟩ "f" address] := by
  let startup : List StartupModule :=
    [⟨⟨"g"⟩, 0x20, .ofList [("f", ⟨0xfffffffffffffff0, 4, .function⟩)], true⟩]
  let a : Image :=
    ⟨[⟨"b"⟩], .ofList [("f", ⟨1, 4, .function⟩), ("t", ⟨8, 4, .tls⟩)], [], none⟩
  let b : Image := ⟨[⟨"a"⟩, ⟨"g"⟩], .ofList [("t", ⟨2, 4, .function⟩)], [], none⟩
  let c : Image := ⟨[⟨"d"⟩], .empty, [], none⟩
  let d : Image := ⟨[⟨"c"⟩, ⟨"a"⟩], .empty, [.required "f"], none⟩
  let files : FileSet := .ofList [(⟨"a"⟩, .readable (.module a)), (⟨"b"⟩, .readable (.module b)),
    (⟨"c"⟩, .readable (.module c)), (⟨"d"⟩, .readable (.module d))]
  let created : Linker :=
    (Linker.create 1 ⟨0x1000, 0x1000⟩ startup).toOption.getD ⟨1, ⟨0, 0⟩, .empty, []⟩
  have hcreate : Linker.create 1 ⟨0x1000, 0x1000⟩ startup = .ok created :=
    eq_ok_of_toOption (by decide +kernel)
  let linker := created.after [(files, .openModule ⟨"a"⟩ 2)]
  have hreached : linker.Reached _ := (Reached.create hcreate).after [(files, .openModule ⟨"a"⟩ 2)]
  obtain ⟨hlookup, hrelocation⟩ := hreached.first_definition_wins
  -- the lookup
  have htree : linker.modules.tree 1 = [1, 2, 0] := by decide +kernel
  have hname : (linker.modules.get? 1).map (fun m => m.name) = some ⟨"a"⟩ := by decide +kernel
  have hlocal : (linker.modules.get? 1).bind (fun m => m.exports.find? "t")
      = some ⟨8, 4, .tls⟩ := by decide +kernel
  obtain ⟨m, hm, hname⟩ := Option.map_eq_some_iff.mp hname
  rw [hm, Option.bind_some] at hlocal
  obtain ⟨-, hwins⟩ := (hlookup ⟨1, 1⟩ "t").firstWins (by decide +kernel) hm
  rw [htree] at hwins
  have htls := hwins.threadLocal ⟨[], 1, [2, 0], rfl, hm, hlocal, by simp⟩ rfl
  rw [hname] at htls
  -- the relocation
  let isRelocating (load : Load) : Bool :=
    load.frames.head?.any (fun frame => frame.remaining = [] ∧ frame.module = 4 ∧
      frame.name = ⟨"d"⟩ ∧ frame.references = [.required "f"]) ∧
    load.linker.modules.state? 3 = some .loading ∧
    load.linker.modules.globalScope ++ load.linker.modules.tree 4 = [0, 4, 3, 1, 2, 0] ∧
    load.linker.modules.relocationScope 4 = [0, 4, 3, 1, 2] ∧
    (load.linker.modules.get? 0).map (fun m => m.bias) = some 0x20 ∧
    (load.linker.modules.get? 0).bind (fun m => m.exports.find? "f")
      = some ⟨0xfffffffffffffff0, 4, .function⟩
  have hrelocating : (linker.moments files ⟨"c"⟩ 2).any isRelocating = true := by decide +kernel
  obtain ⟨load, hload, hat⟩ := List.any_eq_true.mp hrelocating
  obtain ⟨hhead, hloading, hscope, hrelocationScope, hbias, hdefined⟩ := of_decide_eq_true hat
  obtain ⟨frame, hframe, hdone⟩ := Option.any_eq_true _ _ |>.mp hhead
  obtain ⟨hremaining, hmodule, hframeName, hreferences⟩ := of_decide_eq_true hdone
  obtain ⟨outer, hframes⟩ := List.head?_eq_some_iff.mp hframe
  obtain ⟨hstep, hrelocated, -, hbinds⟩ :=
    hrelocation files ⟨"c"⟩ 2 load hload frame outer hframes hremaining
  rw [hmodule, hframeName] at hbinds
  have hfirst := hbinds.firstWins "f"
  rw [hscope] at hfirst
  obtain ⟨g, hg, hbias⟩ := Option.map_eq_some_iff.mp hbias
  rw [hg, Option.bind_some] at hdefined
  obtain ⟨address, haddress, hvalue⟩ := hfirst.address
    ⟨[], 0, [4, 3, 1, 2, 0], rfl, hg, hdefined, by simp⟩ (by decide)
  rw [hbias] at hvalue
  have hbound : bindReferences ⟨"d"⟩ (load.linker.modules.bindingOf 4 ⟨"d"⟩) [.required "f"]
      = ([.bind ⟨"d"⟩ "f" address], .ok ()) := by simp [bindReferences, haddress]
  -- the one reference is met, so the relocation is not stuck
  have hnext : ∃ next, load.relocate frame outer = .ok next ∧
      next.events = load.events ++ [.relocate ⟨"d"⟩, .bind ⟨"d"⟩ "f" address] := by
    generalize load.relocate frame outer = relocated at hrelocated
    cases hrelocated with
    | settled hmeets =>
      rw [hmodule, hframeName, hreferences] at hmeets
      obtain ⟨rfl, -⟩ := Prod.mk.inj (hbound.symm.trans (meetsAll_iff.mp hmeets))
      exact ⟨_, rfl, by rw [hframeName]⟩
    | stuck hmeets =>
      rw [hmodule, hframeName, hreferences] at hmeets
      simpa using hbound.symm.trans (meetsAll_iff.mp hmeets)
  obtain ⟨next, hnext, hevents⟩ := hnext
  exact ⟨linker, _, files, load, frame, outer, hreached, htree, by decide +kernel, htls, hload,
    hframes, hremaining, hmodule, hframeName, hloading, hscope, hrelocationScope, address, next,
    haddress, hvalue, hstep.trans (congrArg some hnext), hevents⟩

end Linker

end DynamicLinker
