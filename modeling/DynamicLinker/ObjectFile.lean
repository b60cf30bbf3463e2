/-
# Object files

The files from which modules are loaded, as far as linking is concerned.  A file that
can be read and decoded gives an image: the names it depends on, the symbols it exports
and the references that its relocations make.  A file can fail in two places.  It cannot
be retrieved, because there is none or because it cannot be read; or it is retrieved and
turns out not to be a module.
-/
import DynamicLinker.LinkError
import DynamicLinker.Symbol

namespace DynamicLinker

/-- A reference that the relocation of a module makes. -/
inductive Reference where
  /-- The symbol must resolve; otherwise the relocation fails. -/
  | required (symbol : String)
  /-- The symbol may resolve; if it does not, relocation goes on without it. -/
  | probe (symbol : String)
  /-- The relocation cannot be applied and fails with the given error. -/
  | broken (error : LinkError)
deriving DecidableEq

/-- What decoding a file yields. -/
structure Image where
  /-- The names of the direct dependencies, in the order in which the file declares them. -/
  deps : List Soname
  /-- The symbols that the module exports. -/
  exports : SymbolTable
  /-- The references of the module, in the order in which they are relocated. -/
  references : List Reference
  /-- The load bias that the file asks for, if it does. -/
  bias? : Option UInt64
deriving DecidableEq

/-- The contents of a file that was retrieved. -/
inductive ObjectFile where
  /-- The file is no module, for the given reason. -/
  | malformed (error : LinkError)
  /-- The file is a module. -/
  | module (image : Image)
deriving DecidableEq

/-- Read the headers of a file. -/
def ObjectFile.decode : ObjectFile → Except LinkError Image
  | malformed error => .error error
  | module image => .ok image

/-- A file as it is stored. -/
inductive StoredFile where
  /-- The file cannot be opened, for the given reason. -/
  | unreadable (reason : String)
  /-- The file has contents. -/
  | readable (contents : ObjectFile)
deriving DecidableEq

/-- The files that can be retrieved, by name. -/
abbrev FileSet := KeyMap Soname StoredFile

/-! ## Retrieval -/

/-- Why no file is retrieved for a name. -/
inductive RetrievalFailure where
  /-- There is no file of that name. -/
  | notFound
  /-- There may be a file, but it cannot be opened. -/
  | unreadable (reason : String)
deriving DecidableEq

namespace RetrievalFailure

/-- The wording of a failed retrieval. -/
def text : RetrievalFailure → String
  | notFound => "not found"
  | unreadable reason => reason

/-- The cause that a failed retrieval is reported as.  A file that does not exist is a
missing dependency if some module needs it, and else just not found. -/
def cause (failure : RetrievalFailure) (name : Soname) (neededBy : Option Soname) : Cause :=
  match failure, neededBy with
  | notFound, none => .notFound name
  | notFound, some parent => .missingDependency name parent
  | unreadable reason, _ => .retrieveFailed name reason

end RetrievalFailure

/-- The contents of the file of a name. -/
def FileSet.retrieve (files : FileSet) (name : Soname) : Except RetrievalFailure ObjectFile :=
  match files.find? name with
  | none => .error .notFound
  | some (.unreadable reason) => .error (.unreadable reason)
  | some (.readable contents) => .ok contents

end DynamicLinker
