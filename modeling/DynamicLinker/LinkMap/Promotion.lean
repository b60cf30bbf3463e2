/-
# Promotion to the global scope

To promote a module is to make every module of its tree global.  The modules that become
global move to the back of the global list, one after the other in the order of the
tree; those that were global before keep their places.  A module that is not in the
global list becomes global as well, but does not enter the list.
-/
import DynamicLinker.LinkMap.Walk

namespace DynamicLinker.LinkMap

/-- Move the first occurrence of a module in a list to the back. -/
def moveToBack (order : List ModuleId) (id : ModuleId) : List ModuleId :=
  if id ∈ order then order.erase id ++ [id] else order

/-- Make one module global, unless it is. -/
def promoteOne (lm : LinkMap) (id : ModuleId) : LinkMap :=
  match lm.get? id with
  | none => lm
  | some m =>
    if m.isGlobal then lm
    else { lm.setGlobal id true with order := moveToBack lm.order id }

/-- Make every module of the tree of a module global. -/
def promote (lm : LinkMap) (root : ModuleId) : LinkMap :=
  (lm.tree root).foldl promoteOne lm

end DynamicLinker.LinkMap
