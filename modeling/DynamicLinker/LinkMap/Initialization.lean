/-
# Running initialisers

When a module is opened, the initialisers of its tree run that have not run before.  They
run in the order of a breadth-first walk from the module, backwards, so that the module
itself comes last.
-/
import DynamicLinker.LinkMap.Walk

namespace DynamicLinker.LinkMap

variable (lm : LinkMap)

/-- The order in which the tree of a module is initialised: a breadth-first walk over its
dependencies, backwards. -/
def initializationOrder (root : ModuleId) : List ModuleId :=
  (lm.walk .breadthFirst [] [root]).reverse

/-- The modules of a tree whose initialisers have not run, in the order in which they will. -/
def uninitialized (root : ModuleId) : List ModuleId :=
  (lm.initializationOrder root).filter fun id => (lm.get? id).any fun m => !m.initialized

/-- Record that all initialisers of a tree have run. -/
def initializeTree (root : ModuleId) : LinkMap :=
  (lm.uninitialized root).foldl markInitialized lm

end DynamicLinker.LinkMap
