/-
# Modes of opening a module

An open request carries a word of flags.  A mode is a valid word: it has exactly one of
the two flags for the time of binding, any of the three others, and no bit besides.  So
a mode is a record of choices, and `bits` and `ofBits?` pass between it and its word.
-/
import DynamicLinker.LinkError

namespace DynamicLinker

/-- The flags of an open request. -/
inductive Flag where
  /-- Bind references when they are first used; accepted, although all are bound at once. -/
  | lazy
  /-- Bind all references before the request returns. -/
  | now
  /-- Fail unless the module is already loaded. -/
  | noload
  /-- Make the module and its tree part of the global scope. -/
  | global
  /-- Never unload the module; accepted, as nothing is unloaded anyway. -/
  | nodelete
deriving DecidableEq

namespace Flag

/-- The bit that stands for a flag. -/
def bit : Flag → UInt32
  | lazy => 0x1
  | now => 0x2
  | noload => 0x4
  | global => 0x100
  | nodelete => 0x1000

/-- The name of a flag. -/
def name : Flag → String
  | lazy => "LAZY"
  | now => "NOW"
  | noload => "NOLOAD"
  | global => "GLOBAL"
  | nodelete => "NODELETE"

/-- All flags, in the order of their bits. -/
def all : List Flag := [lazy, now, noload, global, nodelete]

/-- Does a word have the bit of a flag? -/
def isSetIn (flag : Flag) (word : UInt32) : Bool := word &&& flag.bit ≠ 0

end Flag

/-- The time at which references are bound. -/
inductive Binding where
  | lazy
  | now
deriving DecidableEq

/-- A valid mode of opening a module. -/
structure Mode where
  /-- When references are bound. -/
  binding : Binding
  /-- Is the request refused for a module that is not loaded? -/
  noload : Bool
  /-- Does the tree of the module join the global scope? -/
  global : Bool
  /-- Is the module never to be unloaded? -/
  nodelete : Bool
deriving DecidableEq

namespace Mode

/-- Does a mode have a flag? -/
def has (mode : Mode) : Flag → Bool
  | .lazy => mode.binding = .lazy
  | .now => mode.binding = .now
  | .noload => mode.noload
  | .global => mode.global
  | .nodelete => mode.nodelete

/-- The flags of a mode, in the order of their bits. -/
def flags (mode : Mode) : List Flag := Flag.all.filter mode.has

/-- The word of a mode: the bits of its flags. -/
def bits (mode : Mode) : UInt32 := (mode.flags.map Flag.bit).foldl (· ||| ·) 0

/-- The bits that a word may have. -/
def knownBits : UInt32 := (Flag.all.map Flag.bit).foldl (· ||| ·) 0

/-- The mode of a word, unless it has an unknown bit, both binding flags or neither. -/
def ofBits? (word : UInt32) : Option Mode :=
  if word &&& ~~~knownBits ≠ 0 then none
  else
    let withBinding (binding : Binding) : Mode :=
      { binding
        noload := Flag.noload.isSetIn word
        global := Flag.global.isSetIn word
        nodelete := Flag.nodelete.isSetIn word }
    match Flag.lazy.isSetIn word, Flag.now.isSetIn word with
    | true, false => some (withBinding .lazy)
    | false, true => some (withBinding .now)
    | _, _ => none

/-- The word of a mode is valid and stands for that mode. -/
theorem ofBits?_bits (mode : Mode) : ofBits? mode.bits = some mode := by
  obtain ⟨binding, noload, global, nodelete⟩ := mode
  cases binding <;> cases noload <;> cases global <;> cases nodelete <;> decide

/-- The mode of the word of an open request, which is read as 32 bits. -/
def ofRaw (word : Int32) : Except LinkError Mode :=
  match ofBits? word.toUInt32 with
  | some mode => .ok mode
  | none => .error (.ofCause (.invalidMode word))

end Mode

end DynamicLinker
