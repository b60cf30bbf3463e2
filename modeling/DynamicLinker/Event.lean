/-
# What a linker asks of its surroundings

While a module is loaded, the linker retrieves files, has them decoded and mapped, has
references bound and initialisers run.  Each of these requests is an event, and the
events of an operation are listed in the order in which they happen.
-/
import DynamicLinker.LinkError

namespace DynamicLinker

/-- A request of the linker, and what came of it. -/
inductive Event where
  /-- The file of a name was asked for. -/
  | retrieve (name : Soname)
  /-- The file of a name turned out not to be a module. -/
  | malformed (name : Soname)
  /-- The file of a name was decoded, and the module mapped at a load bias. -/
  | decode (name : Soname) (bias : UInt64)
  /-- The relocation of a module began. -/
  | relocate (name : Soname)
  /-- A reference of a module was bound to an address. -/
  | bind (name : Soname) (symbol : String) (address : UInt64)
  /-- A reference of a module that need not resolve did not. -/
  | unbound (name : Soname) (symbol : String) (error : LinkError)
  /-- The initialiser of a module ran. -/
  | init (name : Soname)
deriving DecidableEq

end DynamicLinker
