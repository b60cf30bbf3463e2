/-
# Relocation

To relocate a module is to go through its references in order and to bind each of them
to an address.  A reference that must resolve and does not ends the relocation with an
error, and so does a relocation that cannot be applied; a reference that need not
resolve is passed over.
-/
import DynamicLinker.Event
import DynamicLinker.ObjectFile
import DynamicLinker.Resolution

namespace DynamicLinker

/-- Bind the references of a module: the events, and the error that ended the relocation,
if one did. -/
def bindReferences (module : Soname) (resolve : String → Except LinkError UInt64) :
    List Reference → List Event × Except LinkError Unit
  | [] => ([], .ok ())
  | .required symbol :: rest =>
    match resolve symbol with
    | .ok address =>
      let (events, result) := bindReferences module resolve rest
      (.bind module symbol address :: events, result)
    | .error e => ([], .error e)
  | .probe symbol :: rest =>
    let (events, result) := bindReferences module resolve rest
    match resolve symbol with
    | .ok address => (.bind module symbol address :: events, result)
    | .error e => (.unbound module symbol e :: events, result)
  | .broken e :: _ => ([], .error e)

/-- Relocate a module against the global scope and its tree as they are now. -/
def LinkMap.relocate (lm : LinkMap) (id : ModuleId) (name : Soname) (references : List Reference) :
    List Event × Except LinkError Unit :=
  let (events, result) := bindReferences name (lm.bindingOf id name) references
  (.relocate name :: events, result)

end DynamicLinker
