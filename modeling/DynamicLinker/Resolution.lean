/-
# Scopes and resolution

A scope is a list of modules in which a symbol is looked for; the first module that
defines it wins.  The local scope of a module is its tree.  When the module is relocated,
the global scope is searched first, then the tree, and a module that occurs in both
counts where it comes first.

What is found is a symbol together with the module that defines it, and only then is it
asked for its address.  So a thread-local definition hides those behind it, although it
has no address itself.
-/
import DynamicLinker.LinkMap.Walk

namespace DynamicLinker

/-- The modules to search for a symbol, in order. -/
abbrev Scope := List ModuleId

/-- A symbol and the module that defines it. -/
structure ResolvedSymbol where
  /-- The defining module. -/
  module : Module
  /-- The definition. -/
  symbol : Symbol

/-- The address of a symbol that was looked up by the given name. -/
def ResolvedSymbol.address (found : ResolvedSymbol) (name : String) : Except LinkError UInt64 :=
  match found.symbol.address? found.module.bias with
  | some address => .ok address
  | none => .error (.ofCause (.unsupportedTls found.module.name name))

namespace LinkMap

variable (lm : LinkMap)

/-- The scope of lookups through a module. -/
def localScope (root : ModuleId) : Scope := lm.tree root

/-- The scope of the references that the relocation of a module binds. -/
def relocationScope (root : ModuleId) : Scope := (lm.globalScope ++ lm.tree root).eraseDups

/-- The definition of a symbol by a given module. -/
def definition? (symbol : String) (id : ModuleId) : Option ResolvedSymbol :=
  match lm.get? id with
  | none => none
  | some m => (m.exports.find? symbol).map fun s => ⟨m, s⟩

/-- The first definition of a symbol in a scope. -/
def resolve? (scope : Scope) (symbol : String) : Option ResolvedSymbol :=
  scope.findSome? (lm.definition? symbol)

/-- The address that a symbol has in a scope.  The cause is that of a symbol which no
module of the scope defines. -/
def addressIn (scope : Scope) (symbol : String) (undefined : Cause) : Except LinkError UInt64 :=
  match lm.resolve? scope symbol with
  | some found => found.address symbol
  | none => .error (.ofCause undefined)

/-- The address that a reference of a module is bound to when the module is relocated. -/
def bindingOf (root : ModuleId) (name : Soname) (symbol : String) : Except LinkError UInt64 :=
  lm.addressIn (lm.relocationScope root) symbol (.missingSymbol name symbol)

/-- The address that a symbol has when it is looked up through a module. -/
def lookup (root : ModuleId) (name : Soname) (symbol : String) : Except LinkError UInt64 :=
  lm.addressIn (lm.localScope root) symbol (.undefinedSymbol name symbol)

end LinkMap

end DynamicLinker
