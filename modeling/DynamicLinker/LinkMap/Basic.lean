/-
# The link map

The link map holds every module of a linker.  It has three parts:

* an arena with the modules, each of which lists the modules that it directly depends on;
* an index of the modules by name, in which modules are found while they are loading;
* the global list, the loaded modules in the order in which they were loaded, of which
  the global modules form the global scope.

A module is registered when it has been mapped, published at the back of the global list
when it is loaded, and discarded when its load fails.
-/
import DynamicLinker.Arena
import DynamicLinker.LinkError
import DynamicLinker.Module

namespace DynamicLinker

/-- The modules of a linker, their names and the global list. -/
structure LinkMap where
  /-- The modules, in the slots that number them. -/
  modules : Arena Module
  /-- The module that has a name. -/
  names : KeyMap Soname ModuleId
  /-- The global list. -/
  order : List ModuleId
deriving DecidableEq

namespace LinkMap

/-- The link map without modules. -/
def empty : LinkMap := ⟨.empty, .empty, []⟩

instance : Inhabited LinkMap := ⟨empty⟩

/-! ## Looking up modules -/

/-- The module of a number. -/
def get? (lm : LinkMap) (id : ModuleId) : Option Module := lm.modules.get? id

/-- The number that the next module will have. -/
def nextId (lm : LinkMap) : ModuleId := lm.modules.nextIndex

/-- Is a number that of a loaded module? -/
def isLoaded (lm : LinkMap) (id : ModuleId) : Bool := (lm.get? id).any Module.isLoaded

/-- The module that has a name, loaded or not. -/
def named? (lm : LinkMap) (name : Soname) : Option ModuleId := lm.names.find? name

/-- The loaded module that has a name. -/
def loadedNamed? (lm : LinkMap) (name : Soname) : Option ModuleId :=
  (lm.named? name).filter lm.isLoaded

/-- The direct dependencies of a module, in the order of declaration. -/
def deps (lm : LinkMap) (id : ModuleId) : List ModuleId :=
  match lm.get? id with
  | none => []
  | some m => m.targets

/-- The modules of the global list. -/
def loadedModules (lm : LinkMap) : List Module := lm.order.filterMap lm.get?

/-- The global modules of the global list. -/
def globalScope (lm : LinkMap) : List ModuleId :=
  lm.order.filter fun id => (lm.get? id).any Module.isGlobal

/-- The names of numbered modules. -/
def namesOf (lm : LinkMap) (ids : List ModuleId) : List Soname :=
  ids.filterMap fun id => (lm.get? id).map fun m => m.name

/-! ## Changing modules -/

/-- Change a module in place. -/
def modify (lm : LinkMap) (id : ModuleId) (f : Module → Module) : LinkMap :=
  { lm with modules := lm.modules.modify id f }

/-- Put a module into the global scope or take it out, wherever it stands in the list. -/
def setGlobal (lm : LinkMap) (id : ModuleId) (isGlobal : Bool) : LinkMap :=
  lm.modify id fun m => { m with isGlobal }

/-- Record that a module has been relocated. -/
def markRelocated (lm : LinkMap) (id : ModuleId) : LinkMap :=
  lm.modify id fun m => { m with state := .relocated }

/-- Record that the initialiser of a module has run. -/
def markInitialized (lm : LinkMap) (id : ModuleId) : LinkMap :=
  lm.modify id fun m => { m with initialized := true }

/-- Record that a module depends on another. -/
def addDep (lm : LinkMap) (parent target : ModuleId) : LinkMap :=
  if (lm.get? target).isSome then lm.modify parent fun m => m.addDep target else lm

/-! ## Registering, publishing and discarding -/

/-- Register a module that has been mapped.  It owns its name from now on, whoever did
before, and takes the next number. -/
def register (lm : LinkMap) (mapping : Mapping) : LinkMap where
  modules := lm.modules.insert (mapping.toModule lm.nextId)
  names := lm.names.insert mapping.name lm.nextId
  order := lm.order

/-- The greatest number of bytes that the global list may take: the greatest signed word. -/
def maxListBytes : Nat := 0x7fffffffffffffff

/-- The bytes that an entry of the global list takes. -/
def entryBytes : Nat := 4

/-- Check that the global list has room for more entries: that with them it is not longer than
any list can be.  Running out of memory is not modelled. -/
def reserve (lm : LinkMap) (additional : Nat) : Except LinkError Unit :=
  if (lm.order.length + additional) * entryBytes ≤ maxListBytes then .ok ()
  else .error .listFull

/-- Put a module at the back of the global list. -/
def publish (lm : LinkMap) (id : ModuleId) : LinkMap :=
  if (lm.get? id).isSome then
    { lm.modify id fun m => { m with state := .loaded } with order := lm.order ++ [id] }
  else lm

/-- Remove a module together with all dependencies of it and on it.  Its name becomes
free, unless another module has taken it over. -/
def discard (lm : LinkMap) (id : ModuleId) : LinkMap :=
  match lm.get? id with
  | none => lm
  | some m =>
    { modules := (lm.modules.erase id).map fun other => other.removeDep id
      names := if lm.names.find? m.name = some id then lm.names.erase m.name else lm.names
      order := lm.order }

/-! ## What the operations do to modules -/

variable {lm : LinkMap}

@[simp] theorem get?_empty (id : ModuleId) : empty.get? id = none :=
  Arena.get?_empty id

@[simp] theorem get?_nextId : lm.get? lm.nextId = none :=
  Arena.get?_nextIndex lm.modules

theorem get?_modify (id : ModuleId) (f : Module → Module) (i : ModuleId) :
    (lm.modify id f).get? i = if i = id then (lm.get? i).map f else lm.get? i :=
  Arena.get?_modify lm.modules id f i

theorem get?_register (mapping : Mapping) (i : ModuleId) :
    (lm.register mapping).get? i
      = if i = lm.nextId then some (mapping.toModule lm.nextId) else lm.get? i :=
  Arena.get?_insert lm.modules _ i

theorem get?_publish (id i : ModuleId) :
    (lm.publish id).get? i
      = if i = id then (lm.get? i).map fun m => { m with state := .loaded } else lm.get? i := by
  unfold publish
  split
  · exact get?_modify id _ i
  · rename_i h
    by_cases hi : i = id
    · subst hi
      have hnone : lm.get? i = none := by simpa using h
      simp [hnone]
    · simp [hi]

theorem get?_addDep (parent target i : ModuleId) :
    (lm.addDep parent target).get? i
      = if i = parent ∧ (lm.get? target).isSome then (lm.get? i).map fun m => m.addDep target
        else lm.get? i := by
  unfold addDep
  split <;> simp_all [get?_modify]

theorem get?_discard (id i : ModuleId) :
    (lm.discard id).get? i
      = if i = id ∨ (lm.get? id).isNone then if i = id then none else lm.get? i
        else (lm.get? i).map fun m => m.removeDep id := by
  unfold discard
  cases hid : lm.get? id with
  | none =>
    by_cases hi : i = id
    · simp [hi, hid]
    · simp [hi]
  | some m =>
    by_cases hi : i = id
    · simp [get?, hi, Arena.get?_erase]
    · simp [get?, hi, Arena.get?_erase]

/-! ## What the operations do to names -/

@[simp] theorem named?_empty (name : Soname) : empty.named? name = none := rfl

@[simp] theorem named?_modify (id : ModuleId) (f : Module → Module) (name : Soname) :
    (lm.modify id f).named? name = lm.named? name := rfl

@[simp] theorem named?_markRelocated (id : ModuleId) (name : Soname) :
    (lm.markRelocated id).named? name = lm.named? name := rfl

@[simp] theorem named?_addDep (parent target : ModuleId) (name : Soname) :
    (lm.addDep parent target).named? name = lm.named? name := by
  unfold addDep
  split <;> rfl

@[simp] theorem named?_publish (id : ModuleId) (name : Soname) :
    (lm.publish id).named? name = lm.named? name := by
  unfold publish
  split <;> rfl

theorem named?_register (mapping : Mapping) (name : Soname) :
    (lm.register mapping).named? name
      = if name = mapping.name then some lm.nextId else lm.named? name :=
  KeyMap.find?_insert lm.names _ _ _

end LinkMap

end DynamicLinker
