/-
# Histories of linkers

A linker is reached by its creation and any calls, each with any files.  Its history says for
every name what was declared by the file that was decoded last under that name, and whether
the module has been relocated since.  It follows from the events of steps that succeeded, and
from the files that were there at the time.

Every linker of a session is reached in this sense.
-/
import DynamicLinker.Proofs.Moments
import DynamicLinker.Session
import Mathlib.Logic.Function.Basic

namespace DynamicLinker

/-- What a file declares as the direct dependencies of its module. -/
def FileSet.declares (files : FileSet) (name : Soname) : List Soname :=
  match files.retrieve name with
  | .ok (.module image) => image.deps
  | _ => []

/-- Files that declare the given dependencies and have nothing else in them. -/
def FileSet.ofDeps (deps : List (Soname × List Soname)) : FileSet :=
  .ofList <| deps.map fun entry => (entry.1, .readable (.module ⟨entry.2, .empty, [], none⟩))

/-- What became of the names that a linker loaded. -/
structure History where
  /-- What the file declared that was decoded last under a name. -/
  declared : Soname → List Soname
  /-- Has the module that was decoded last under a name been relocated? -/
  relocated : Soname → Bool

namespace History

/-- The history of a linker that has loaded nothing. -/
def start : History := ⟨fun _ => [], fun _ => false⟩

/-- The history after one more event of a step that succeeded. -/
def note (files : FileSet) (history : History) : Event → History
  | .decode name _ =>
    { declared := Function.update history.declared name (files.declares name)
      relocated := Function.update history.relocated name false }
  | .relocate name => { history with relocated := Function.update history.relocated name true }
  | _ => history

/-- The history after more events of steps that succeeded. -/
def after (files : FileSet) (history : History) (events : List Event) : History :=
  events.foldl (note files) history

/-- Is a module done with its relocation?  A startup module was so from the start. -/
def Finished (history : History) (mapping : Mapping) : Prop :=
  mapping.isStartup = true ∨ history.relocated mapping.name = true

end History

/-! ## Linkers that can be reached -/

/-- The events of the steps that succeed in the load that a call starts, if it starts one. -/
def Linker.callProgress (linker : Linker) (files : FileSet) : Call → List Event
  | .openModule name word => linker.progress files name word
  | _ => []

/-- A linker that comes about by its creation and calls, with its history. -/
inductive Linker.Reached : Linker → History → Prop where
  /-- The linker has just been created. -/
  | create {id : LinkerId} {space : AddressSpace} {startup : List StartupModule}
      {linker : Linker} (hcreate : Linker.create id space startup = .ok linker) :
      Reached linker .start
  /-- A call has been made, which may have failed. -/
  | perform {linker : Linker} {history : History} (files : FileSet) (call : Call)
      (hreached : Reached linker history) :
      Reached (linker.perform files call).linker
        (history.after files (linker.callProgress files call))

namespace Session

/-- The session after requests. -/
def after (session : Session) (requests : List Request) : Session :=
  requests.foldl (fun session request => (session.step request).2) session

lemma after_concat (session : Session) (requests : List Request) (request : Request) :
    session.after (requests ++ [request]) = ((session.after requests).step request).2 := by
  simp [after]

/-- What a request can do to the linkers of a session. -/
inductive Change (session : Session) : Session → Prop where
  /-- The linkers stay as they are, also if the creation of one fails. -/
  | same {later : Session} (hlinker? : ∀ place, later.linker? place = session.linker? place)
      (hcreated : later.created = session.created) : Change session later
  /-- A linker is created, with the next number. -/
  | created {later : Session} {new : Nat} {space : AddressSpace} {startup : List StartupModule}
      {linker : Linker} (hfree : session.linker? new = none)
      (hcreate : Linker.create (session.created + 1) space startup = .ok linker)
      (hlinker? : ∀ place, later.linker? place
        = if place = new then some linker else session.linker? place)
      (hcreated : later.created = session.created + 1) : Change session later
  /-- A linker is called. -/
  | called {later : Session} {called : Nat} {linker : Linker} {call : Call}
      (hcalled : session.linker? called = some linker)
      (hlinker? : ∀ place, later.linker? place
        = if place = called then some (linker.perform session.files call).linker
          else session.linker? place)
      (hcreated : later.created = session.created) : Change session later

variable {session : Session}

lemma linker?_append (linkers : List (Option Linker)) (last : Option Linker) (place : Nat) :
    (linkers ++ [last])[place]?.join
      = if place = linkers.length then last else linkers[place]?.join := by
  rcases Nat.lt_trichotomy place linkers.length with hlt | rfl | hgt
  · rw [List.getElem?_append_left hlt, if_neg (Nat.ne_of_lt hlt)]
  · simp
  · have hlong : (linkers ++ [last]).length ≤ place := by
      rw [List.length_append]
      exact hgt
    rw [if_neg (Nat.ne_of_gt hgt), List.getElem?_eq_none (Nat.le_of_lt hgt),
      List.getElem?_eq_none hlong]

lemma change_createLinker (session : Session) (space : AddressSpace)
    (startup : List StartupModule) :
    session.Change (session.createLinker space startup).2 := by
  have hfree : session.linker? session.linkers.length = none := by simp [linker?]
  rw [createLinker]
  split
  · rename_i linker hcreate
    exact .created hfree hcreate (linker?_append session.linkers (some linker)) rfl
  · refine .same (fun place => ?_) rfl
    refine (linker?_append session.linkers none place).trans ?_
    split
    · rename_i hplace
      rw [hplace, hfree]
    · rfl

lemma change_call {place : Nat} {call : Call} {outcome : Outcome Answer} {later : Session}
    (hcall : session.call place call = some (outcome, later)) :
    ∃ linker, session.linker? place = some linker ∧ outcome = linker.perform session.files call ∧
      later.created = session.created ∧
      ∀ place', later.linker? place'
        = if place' = place then some outcome.linker else session.linker? place' := by
  rw [Session.call] at hcall
  split at hcall
  · simp at hcall
  · rename_i linker hlinker
    simp only [Option.some.injEq, Prod.mk.injEq] at hcall
    obtain ⟨rfl, rfl⟩ := hcall
    refine ⟨linker, hlinker, rfl, rfl, fun place' => ?_⟩
    have hplace : place < session.linkers.length := by
      by_contra hle
      simp [linker?, List.getElem?_eq_none (Nat.not_lt.mp hle)] at hlinker
    by_cases heq : place' = place
    · simp [linker?, heq, hplace]
    · simp [linker?, heq, Ne.symm heq]

/-- To record the error of a call leaves the linkers as the call has left them. -/
lemma record_linkers (session : Session) (thread : ThreadId) {α : Type}
    (result : Except LinkError α) (place : Nat) :
    (session.record thread result).2.linker? place = session.linker? place ∧
      (session.record thread result).2.created = session.created := by
  cases result <;> exact ⟨rfl, rfl⟩

/-- **What a request does to the linkers of a session**: none, one that is created, or one that is
called. -/
theorem change_step (session : Session) (request : Request) :
    session.Change (session.step request).2 := by
  cases request with
  | create space startup => exact session.change_createLinker space startup
  | store name file => cases file <;> exact .same (fun _ => rfl) rfl
  | direct place call =>
    simp only [Session.step]
    cases hcall : session.call place call with
    | none => exact .same (fun _ => rfl) rfl
    | some called =>
      obtain ⟨linker, hlinker, houtcome, hcreated, hlater⟩ := change_call hcall
      rw [houtcome] at hlater
      exact .called hlinker hlater hcreated
  | recorded thread place call =>
    simp only [Session.step, callRecorded]
    cases hcall : session.call place call.call with
    | none => exact .same (fun _ => rfl) rfl
    | some called =>
      obtain ⟨linker, hlinker, houtcome, hcreated, hlater⟩ := change_call hcall
      rw [houtcome] at hlater
      have hrecord := called.2.record_linkers thread called.1.result
      exact .called hlinker (fun place' => (hrecord place').1.trans (hlater place'))
        ((hrecord place).2.trans hcreated)
  | dlerror thread => exact .same (fun _ => rfl) rfl

/-- Every linker of a session can be reached. -/
def LinkersReached (session : Session) : Prop :=
  ∀ place linker, session.linker? place = some linker → ∃ history, linker.Reached history

lemma LinkersReached.step (h : session.LinkersReached) (request : Request) :
    (session.step request).2.LinkersReached := by
  intro place linker hlinker
  cases session.change_step request with
  | same hlinker? hcreated => exact h place linker ((hlinker? place).symm.trans hlinker)
  | created hfree hcreate hlinker? hcreated =>
    rw [hlinker?] at hlinker
    split at hlinker
    · rw [← Option.some.inj hlinker]
      exact ⟨.start, .create hcreate⟩
    · exact h place linker hlinker
  | called hcalled hlinker? hcreated =>
    rw [hlinker?] at hlinker
    split at hlinker
    · obtain ⟨history, hreached⟩ := h _ _ hcalled
      rw [← Option.some.inj hlinker]
      exact ⟨_, hreached.perform session.files _⟩
    · exact h place linker hlinker

lemma LinkersReached.after (h : session.LinkersReached) (requests : List Request) :
    (session.after requests).LinkersReached := by
  induction requests generalizing session with
  | nil => exact h
  | cons request requests ih => exact ih (h.step request)

/-- **Every linker of a session can be reached**, whatever the requests were. -/
theorem linkersReached (requests : List Request) : (start.after requests).LinkersReached := by
  refine LinkersReached.after (fun place linker hlinker => ?_) requests
  simp [linker?, start] at hlinker

end Session

end DynamicLinker
