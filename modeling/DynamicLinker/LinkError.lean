/-
# Errors of linking

An error has a cause and may carry the errors that led to it.  Its message is that of
its cause alone; callers compare these messages, so the wording is fixed here and
nowhere else.
-/
import DynamicLinker.Handle
import DynamicLinker.Soname

namespace DynamicLinker

/-- The reasons for which an operation of a linker fails. -/
inductive Cause where
  /-- The requested module is not loaded, or has no file. -/
  | notFound (name : Soname)
  /-- The word of an open request is not a valid mode. -/
  | invalidMode (word : Int32)
  /-- A dependency has no file. -/
  | missingDependency (name neededBy : Soname)
  /-- A reference of a module has no definition in its relocation scope. -/
  | missingSymbol (module : Soname) (symbol : String)
  /-- A symbol has no definition in the local scope of the module it is looked up in. -/
  | undefinedSymbol (root : Soname) (symbol : String)
  /-- The definition that was found is thread-local and has no address. -/
  | unsupportedTls (module : Soname) (symbol : String)
  /-- The handle was issued by another linker, or names no loaded module. -/
  | invalidHandle (handle : Handle)
  /-- There is no room for what has to be stored. -/
  | allocationFailure (what : String)
  /-- There may be a file, but it cannot be read. -/
  | retrieveFailed (name : Soname) (reason : String)
  /-- The file is not a module. -/
  | decodeFailed (module : Soname) (reason : String)
  /-- A relocation cannot be applied. -/
  | relocationFailed (module : Soname) (reason : String)
  /-- Two startup modules have the same name. -/
  | nameAlreadyExists (name : Soname)
deriving DecidableEq

namespace Cause

/-- The wording of a cause. -/
def message : Cause → String
  | notFound name => name.text ++ " not found"
  | invalidMode _ => "invalid mode parameter"
  | missingDependency name _ => "cannot open dependency: " ++ name.text
  | missingSymbol module symbol => module.text ++ ": undefined symbol: " ++ symbol
  | undefinedSymbol root symbol => root.text ++ ": undefined symbol: " ++ symbol
  | unsupportedTls module symbol =>
    module.text ++ ": thread-local symbol '" ++ symbol ++ "' is not supported"
  | invalidHandle handle => "invalid handle " ++ handle.text
  | allocationFailure what => "cannot allocate " ++ what
  | retrieveFailed name reason => "cannot open " ++ name.text ++ ": " ++ reason
  | decodeFailed module reason => module.text ++ ": " ++ reason
  | relocationFailed module reason => module.text ++ ": " ++ reason
  | nameAlreadyExists name => "name already exists: " ++ name.text

end Cause

/-- An error: its cause, and the errors that are reported along with it. -/
structure LinkError where
  /-- Why the operation failed. -/
  cause : Cause
  /-- The errors that led to this one. -/
  related : List LinkError

namespace LinkError

/-- The error of a cause, with nothing related to it. -/
def ofCause (cause : Cause) : LinkError := ⟨cause, []⟩

/-- The message of an error is the wording of its cause. -/
def message (error : LinkError) : String := error.cause.message

/-- The error of an outer cause, which keeps the given error as its only related one. -/
def context (error : LinkError) (outer : Cause) : LinkError := ⟨outer, [error]⟩

/-- The error of a global list that cannot grow. -/
def listFull : LinkError := ofCause (.allocationFailure "module list entry")

/-! ## Equality is decidable -/

mutual

/-- Decide whether two errors are the same. -/
def decideEq : (a b : LinkError) → Decidable (a = b)
  | ⟨c, r⟩, ⟨c', r'⟩ =>
    match decEq c c', decideEqList r r' with
    | isTrue hc, isTrue hr => isTrue (by rw [hc, hr])
    | isFalse hc, _ => isFalse fun h => hc (congrArg cause h)
    | _, isFalse hr => isFalse fun h => hr (congrArg related h)

/-- Decide whether two lists of errors are the same. -/
def decideEqList : (as bs : List LinkError) → Decidable (as = bs)
  | [], [] => isTrue rfl
  | [], _ :: _ => isFalse (by simp)
  | _ :: _, [] => isFalse (by simp)
  | a :: as, b :: bs =>
    match decideEq a b, decideEqList as bs with
    | isTrue h, isTrue hs => isTrue (by rw [h, hs])
    | isFalse h, _ => isFalse fun e => h (List.cons.inj e).1
    | _, isFalse hs => isFalse fun e => hs (List.cons.inj e).2

end

instance : DecidableEq LinkError := decideEq

end LinkError

end DynamicLinker
