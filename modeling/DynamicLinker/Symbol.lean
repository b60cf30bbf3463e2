/-
# Exported symbols

A module exports symbols.  The value of a symbol is relative to the place where its
module is mapped, so its address is the value plus the load bias of the module, in
64-bit arithmetic.  A thread-local symbol is the exception: its value is an offset into
a block that each thread has of its own, and no address follows from it.
-/
import DynamicLinker.KeyMap

namespace DynamicLinker

/-- What an exported symbol is. -/
inductive SymbolKind where
  | noType
  | function
  | object
  | tls
deriving DecidableEq

/-- An exported symbol, before its module is mapped. -/
structure Symbol where
  /-- The value of the symbol, relative to the load bias of its module. -/
  value : UInt64
  /-- The number of bytes that the symbol stands for. -/
  size : UInt64
  /-- What the symbol is. -/
  kind : SymbolKind
deriving DecidableEq

namespace Symbol

/-- Is the symbol thread-local? -/
def isTls (symbol : Symbol) : Bool := symbol.kind = .tls

/-- The address of a symbol of a module with the given load bias, if it has one. -/
def address? (symbol : Symbol) (bias : UInt64) : Option UInt64 :=
  if symbol.isTls then none else some (symbol.value + bias)

end Symbol

/-- The symbols that a module exports, by name. -/
abbrev SymbolTable := KeyMap String Symbol

end DynamicLinker
