/-
# Handles

A handle stands for a loaded module of one linker.  It names the linker as well as the
module, so a handle of one linker means nothing to another.
-/

namespace DynamicLinker

/-- The number of a module within its linker: the slot of the arena that holds it.  An arena is
as large as it has to be; one that is limited to 32-bit numbers holds the same modules until it
is full. -/
abbrev ModuleId := Nat

/-- The number of a linker.  Linkers are counted from one on without bound, so no two have the
same number; a counter of 64 bits begins again only after 2^64 linkers, which no program creates. -/
abbrev LinkerId := Nat

/-- A reference to a loaded module, as it is given to callers. -/
structure Handle where
  /-- The linker that issued the handle. -/
  linker : LinkerId
  /-- The module that the handle stands for. -/
  module : ModuleId
deriving DecidableEq, Inhabited

/-- The text of a handle: linker and module with a colon between them. -/
def Handle.text (handle : Handle) : String :=
  toString handle.linker ++ ":" ++ toString handle.module

end DynamicLinker
