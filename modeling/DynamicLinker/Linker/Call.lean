/-
# Calls of a linker

The operations that a linker offers: to open a module by name, and to use the handle of
an open module.  A handle is checked before anything else: it must have been issued by
this linker and stand for a loaded module.

A call that opens a module proceeds in this order: the mode is checked; the module is
found or loaded; it is promoted if the mode says so; and the initialisers that are still
due in its tree run.
-/
import DynamicLinker.Linker.Load
import DynamicLinker.LinkMap.Initialization
import DynamicLinker.LinkMap.Promotion
import DynamicLinker.Mode

namespace DynamicLinker

/-- What came of an operation: its result, the linker afterwards, and what it asked of
the surroundings. -/
structure Outcome (α : Type) where
  /-- The result, or why there is none. -/
  result : Except LinkError α
  /-- The linker afterwards. -/
  linker : Linker
  /-- What was asked of the surroundings, in order. -/
  events : List Event

/-- What callers see of a module of the global list. -/
structure ModuleInfo where
  /-- The handle of the module. -/
  handle : Handle
  /-- The name of the module. -/
  name : Soname
  /-- Where the module is mapped. -/
  bias : UInt64
  /-- Is the module part of the global scope? -/
  isGlobal : Bool
  /-- Was the module part of the process image from the start? -/
  isStartup : Bool
deriving DecidableEq

namespace Linker

variable (linker : Linker)

/-! ## Opening -/

/-- Load a module that is not in the link map, and all that it depends on. -/
def load (files : FileSet) (name : Soname) : Outcome ModuleId :=
  let id := linker.modules.nextId
  match (Load.start linker).fetch files none name >>= Load.run files with
  | .ok done => ⟨.ok id, done.linker, done.events⟩
  | .error (e, stuck) => ⟨.error e, stuck.unwind, stuck.events⟩

/-- Find a loaded module by its name, or load it, unless the mode forbids to. -/
def obtain? (files : FileSet) (name : Soname) (mode : Mode) : Outcome ModuleId :=
  match linker.modules.loadedNamed? name with
  | some id => ⟨.ok id, linker, []⟩
  | none =>
    if mode.noload then ⟨.error (.ofCause (.notFound name)), linker, []⟩
    else linker.load files name

/-- Issue a handle of a loaded module: promote the module if the mode says so, and run the
initialisers that are due. -/
def issue (id : ModuleId) (mode : Mode) : Outcome Handle :=
  let promoted := if mode.global then linker.withModules fun lm => lm.promote id else linker
  let due := promoted.modules.namesOf (promoted.modules.uninitialized id)
  ⟨.ok ⟨linker.id, id⟩, promoted.withModules fun lm => lm.initializeTree id, due.map .init⟩

/-- Open a module by its name, in the mode that a word stands for. -/
def openModule (files : FileSet) (name : Soname) (word : Int32) : Outcome Handle :=
  match Mode.ofRaw word with
  | .error e => ⟨.error e, linker, []⟩
  | .ok mode =>
    match linker.obtain? files name mode with
    | ⟨.error e, after, events⟩ => ⟨.error e, after, events⟩
    | ⟨.ok id, after, events⟩ =>
      let issued := after.issue id mode
      { issued with events := events ++ issued.events }

/-! ## Using handles -/

/-- The loaded module that a handle stands for. -/
def moduleOf (handle : Handle) : Except LinkError Module :=
  let invalid : LinkError := .ofCause (.invalidHandle handle)
  if handle.linker = linker.id then
    match linker.modules.get? handle.module with
    | some m => if m.isLoaded then .ok m else .error invalid
    | none => .error invalid
  else .error invalid

/-- The address of a symbol in the local scope of an open module. -/
def lookup (handle : Handle) (symbol : String) : Except LinkError UInt64 := do
  let m ← linker.moduleOf handle
  linker.modules.lookup handle.module m.name symbol

/-- Give a handle back.  Modules stay loaded, so nothing changes. -/
def close (handle : Handle) : Except LinkError Unit := do
  let _ ← linker.moduleOf handle

/-- The names of the tree of an open module, in the order of its local scope. -/
def treeNames (handle : Handle) : Except LinkError (List Soname) := do
  let _ ← linker.moduleOf handle
  return linker.modules.namesOf (linker.modules.tree handle.module)

/-- The names of the direct dependencies of an open module, in the order of declaration. -/
def depNames (handle : Handle) : Except LinkError (List Soname) := do
  let _ ← linker.moduleOf handle
  return linker.modules.namesOf (linker.modules.deps handle.module)

/-- The global list. -/
def loadedModules : List ModuleInfo :=
  linker.modules.loadedModules.map fun m =>
    ⟨⟨linker.id, m.id⟩, m.name, m.bias, m.isGlobal, m.isStartup⟩

end Linker

/-! ## Calls as data -/

/-- A call of a linker. -/
inductive Call where
  /-- Open a module by its name, in the mode that a word stands for. -/
  | openModule (name : Soname) (word : Int32)
  /-- Look up a symbol through a handle. -/
  | lookup (handle : Handle) (symbol : String)
  /-- Give a handle back. -/
  | close (handle : Handle)
  /-- List the tree of a module. -/
  | tree (handle : Handle)
  /-- List the direct dependencies of a module. -/
  | deps (handle : Handle)
  /-- List the loaded modules. -/
  | list
deriving DecidableEq

/-- The result of a call that succeeds. -/
inductive Answer where
  | handle (handle : Handle)
  | address (address : UInt64)
  | done
  | names (names : List Soname)
  | modules (modules : List ModuleInfo)
deriving DecidableEq

/-- Make a call of a linker. -/
def Linker.perform (linker : Linker) (files : FileSet) : Call → Outcome Answer
  | .openModule name word =>
    let opened := linker.openModule files name word
    ⟨opened.result.map .handle, opened.linker, opened.events⟩
  | .lookup handle symbol => ⟨(linker.lookup handle symbol).map .address, linker, []⟩
  | .close handle => ⟨(linker.close handle).map fun _ => .done, linker, []⟩
  | .tree handle => ⟨(linker.treeNames handle).map .names, linker, []⟩
  | .deps handle => ⟨(linker.depNames handle).map .names, linker, []⟩
  | .list => ⟨.ok (.modules linker.loadedModules), linker, []⟩

end DynamicLinker
