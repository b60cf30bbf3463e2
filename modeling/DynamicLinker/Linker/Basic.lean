/-
# Linkers

A linker owns a link map and the address space into which it maps modules.  It also keeps
the modules that are relocated but wait for others: members of a dependency cycle are
bound to a module that is still loading, and are published together with it or discarded
together with it.  Between operations no module waits.
-/
import DynamicLinker.LinkMap.Walk

namespace DynamicLinker

/-- The places at which modules are mapped. -/
structure AddressSpace where
  /-- The load bias of the next module that asks for none. -/
  nextBias : UInt64
  /-- The distance from one such bias to the next. -/
  stride : UInt64
deriving DecidableEq

/-- The load bias of the next module, which may ask for one, and the space afterwards. -/
def AddressSpace.place (space : AddressSpace) : Option UInt64 → UInt64 × AddressSpace
  | some bias => (bias, space)
  | none => (space.nextBias, { space with nextBias := space.nextBias + space.stride })

/-- A module that is part of the process image before the linker exists. -/
structure StartupModule where
  /-- The name of the module. -/
  name : Soname
  /-- Where the module is mapped. -/
  bias : UInt64
  /-- The symbols that the module exports. -/
  exports : SymbolTable
  /-- Is the module part of the global scope? -/
  isGlobal : Bool
deriving DecidableEq

/-- The state of a linker. -/
structure Linker where
  /-- The number of the linker. -/
  id : LinkerId
  /-- Where modules are mapped. -/
  space : AddressSpace
  /-- The modules. -/
  modules : LinkMap
  /-- The modules that are relocated but wait for one that is loading, in the order in
  which they were relocated. -/
  waiting : List ModuleId
deriving DecidableEq

/-! ## Startup -/

/-- Register and publish a startup module.  The global list always has room for it, by
`LinkMap.foldlM_addStartupChecked`. -/
def LinkMap.addStartup (lm : LinkMap) (startup : StartupModule) : Except LinkError LinkMap :=
  match lm.named? startup.name with
  | some _ => .error (.ofCause (.nameAlreadyExists startup.name))
  | none =>
    let id := lm.nextId
    let mapped := lm.register ⟨startup.name, startup.bias, startup.exports, true⟩
    .ok ((mapped.setGlobal id startup.isGlobal).publish id)

namespace Linker

/-- A linker whose global list holds the startup modules in the given order. -/
def create (id : LinkerId) (space : AddressSpace) (startup : List StartupModule) :
    Except LinkError Linker := do
  let modules ← startup.foldlM LinkMap.addStartup .empty
  return ⟨id, space, modules, []⟩

variable (linker : Linker)

/-- Change the link map of a linker. -/
def withModules (f : LinkMap → LinkMap) : Linker := { linker with modules := f linker.modules }

/-! ## Publishing and discarding -/

/-- Publish the waiting modules of the tree of a module, in the order in which they were
relocated, unless the tree still reaches a module that is loading. -/
def publishReady (id : ModuleId) : Linker :=
  if linker.modules.awaitsLoading id then linker
  else
    let tree := linker.modules.tree id
    let ready := linker.waiting.filter fun p => p ∈ tree
    { linker with
      modules := ready.foldl LinkMap.publish linker.modules
      waiting := linker.waiting.filter fun p => p ∉ tree }

/-- Take note that a module has been relocated, and publish what that makes ready.

No check is made that the waiting modules and the global list have room (`LinkMap.reserve`).
While modules have 32-bit numbers no such check fails, by `Linker.Reached.settleChecked_eq`.
Running out of memory is not modelled. -/
def settle (id : ModuleId) : Linker :=
  publishReady { linker with
    modules := linker.modules.markRelocated id
    waiting := linker.waiting ++ [id] } id

/-- Discard a module whose load failed, and before it every waiting module whose tree
reaches it. -/
def abandon (id : ModuleId) : Linker :=
  let isBound (p : ModuleId) : Bool := id ∈ linker.modules.tree p
  let doomed := linker.waiting.filter isBound
  { linker with
    modules := (doomed ++ [id]).foldl LinkMap.discard linker.modules
    waiting := linker.waiting.filter fun p => !isBound p }

end Linker

end DynamicLinker
