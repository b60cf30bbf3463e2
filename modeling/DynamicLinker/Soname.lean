/-
# Names of loadable modules

A shared object is known by its *soname*.  Two sonames are the same when their texts are
the same, code point by code point; nothing is normalised.  Sonames are ordered by their
texts, that is by code points, which for UTF-8 is also the order of their bytes.
-/
import DynamicLinker.Text.Quoted

namespace DynamicLinker

/-- The name of a loadable module. -/
structure Soname where
  /-- The text of the name. -/
  text : String
deriving DecidableEq, Inhabited

namespace Soname

instance : Ord Soname := ⟨fun a b => compare a.text b.text⟩

/-- The length of a name in UTF-8 bytes. -/
def utf8Size (name : Soname) : Nat := name.text.utf8ByteSize

/-- A list of names in ascending order. -/
def sort (names : List Soname) : List Soname :=
  names.mergeSort fun a b => (compare a b).isLE

/-- The form in which diagnostics show a name. -/
def debugText (name : Soname) : String := "Soname(" ++ Text.quoted name.text ++ ")"

end Soname

end DynamicLinker
