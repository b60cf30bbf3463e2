/-
# Sessions

A session is a program that uses linkers: a set of files that all its linkers load from,
the linkers in the order of their creation, and for each thread the last error that has
not been asked for.  It advances by requests.

A linker can be called directly, and then the caller gets the error of a call that fails.
Or it is called through `dlopen`, `dlsym` and `dlclose`, which say only that a call
failed: the error is kept for the calling thread until that asks for its message with
`dlerror`.  Each thread has room for one error.  A later failure takes the place of an
earlier one, and a call that succeeds leaves it.
-/
import DynamicLinker.Linker.Call

namespace DynamicLinker

/-- The number of a thread. -/
abbrev ThreadId := Nat

/-- The state of a program that uses linkers. -/
structure Session where
  /-- The files that modules are loaded from. -/
  files : FileSet
  /-- The linkers, by the order of their creation; one whose creation failed is absent. -/
  linkers : List (Option Linker)
  /-- The number of linkers that were created, which is the number of the last one.  It has no
  bound, as `LinkerId` says. -/
  created : Nat
  /-- The last error of each thread that has not been asked for. -/
  errors : KeyMap ThreadId LinkError

namespace Session

/-- The session before its first request. -/
def start : Session := ⟨.empty, [], 0, .empty⟩

instance : Inhabited Session := ⟨start⟩

variable (session : Session)

/-- The linker at a place in the order of creation. -/
def linker? (place : Nat) : Option Linker := session.linkers[place]?.join

/-- Create a linker.  It takes the next place even if its creation fails, but a number
only if it succeeds. -/
def createLinker (space : AddressSpace) (startup : List StartupModule) :
    Except LinkError Nat × Session :=
  match Linker.create (session.created + 1) space startup with
  | .ok linker =>
    (.ok session.linkers.length,
      { session with
        linkers := session.linkers ++ [some linker]
        created := session.created + 1 })
  | .error e => (.error e, { session with linkers := session.linkers ++ [none] })

/-- Store a file under a name, or remove the file of that name. -/
def store (name : Soname) (file : Option StoredFile) : Session :=
  match file with
  | some file => { session with files := session.files.insert name file }
  | none => { session with files := session.files.erase name }

/-- Call the linker at a place. -/
def call (place : Nat) (call : Call) : Option (Outcome Answer × Session) :=
  match session.linker? place with
  | none => none
  | some linker =>
    let outcome := linker.perform session.files call
    some (outcome, { session with linkers := session.linkers.set place (some outcome.linker) })

/-- Keep the error of a failed operation for a thread; say only whether it succeeded. -/
def record (thread : ThreadId) {α : Type} (result : Except LinkError α) : Option α × Session :=
  match result with
  | .ok a => (some a, session)
  | .error e => (none, { session with errors := session.errors.insert thread e })

/-- Call the linker at a place, and keep the error of a call that fails for the thread. -/
def callRecorded (thread : ThreadId) (place : Nat) (call : Call) :
    Option (Option Answer × List Event × Session) :=
  match session.call place call with
  | none => none
  | some (outcome, after) =>
    let (answer, recorded) := after.record thread outcome.result
    some (answer, outcome.events, recorded)

/-- The message of the error that is kept for a thread, which is forgotten thereby. -/
def takeError (thread : ThreadId) : Option String × Session :=
  ((session.errors.find? thread).map LinkError.message,
    { session with errors := session.errors.erase thread })

end Session

/-! ## Requests -/

/-- A call that keeps the error of a failure for the calling thread. -/
inductive DlCall where
  /-- Open a module by its name. -/
  | dlopen (name : Soname) (word : Int32)
  /-- Look up a symbol through a handle. -/
  | dlsym (handle : Handle) (symbol : String)
  /-- Give a handle back. -/
  | dlclose (handle : Handle)
deriving DecidableEq

/-- The call of a linker that a recorded call stands for. -/
def DlCall.call : DlCall → Call
  | dlopen name word => .openModule name word
  | dlsym handle symbol => .lookup handle symbol
  | dlclose handle => .close handle

/-- A request to a session. -/
inductive Request where
  /-- Create a linker. -/
  | create (space : AddressSpace) (startup : List StartupModule)
  /-- Store a file, or remove one. -/
  | store (name : Soname) (file : Option StoredFile)
  /-- Call a linker directly. -/
  | direct (place : Nat) (call : Call)
  /-- Call a linker and keep the error for the thread. -/
  | recorded (thread : ThreadId) (place : Nat) (call : DlCall)
  /-- Ask for the error that is kept for the thread. -/
  | dlerror (thread : ThreadId)
deriving DecidableEq

/-- Results are the same if they give the same or fail with the same error. -/
local instance decidableEqResult {α : Type} [DecidableEq α] : DecidableEq (Except LinkError α)
  | .ok a, .ok b => decidable_of_iff (a = b) (by simp)
  | .error e, .error e' => decidable_of_iff (e = e') (by simp)
  | .ok _, .error _ => isFalse (by simp)
  | .error _, .ok _ => isFalse (by simp)

/-- The reply to a request. -/
inductive Reply where
  /-- The place of the linker that was created, or why none was. -/
  | created (result : Except LinkError Nat)
  /-- The files are changed. -/
  | stored
  /-- The result of a direct call. -/
  | answered (result : Except LinkError Answer) (events : List Event)
  /-- The result of a recorded call, if it succeeded. -/
  | recorded (answer : Option Answer) (events : List Event)
  /-- The message that was kept, if there was one. -/
  | message (text : Option String)
  /-- There is no linker at that place. -/
  | noLinker
deriving DecidableEq

/-- The number by which a recorded call that gives nothing back says whether it
succeeded. -/
def statusOf (answer : Option Answer) : Int :=
  if answer.isSome then 0 else -1

/-- Meet a request. -/
def Session.step (session : Session) : Request → Reply × Session
  | .create space startup =>
    let (result, after) := session.createLinker space startup
    (.created result, after)
  | .store name file => (.stored, session.store name file)
  | .direct place call =>
    match session.call place call with
    | none => (.noLinker, session)
    | some (outcome, after) => (.answered outcome.result outcome.events, after)
  | .recorded thread place call =>
    match session.callRecorded thread place call.call with
    | none => (.noLinker, session)
    | some (answer, events, after) => (.recorded answer events, after)
  | .dlerror thread =>
    let (text, after) := session.takeError thread
    (.message text, after)

end DynamicLinker
