/-
# The kept errors of threads

A session keeps, for each thread, the error of a `dlopen`, `dlsym` or `dlclose` that failed on the
thread, until the thread asks for it with `dlerror`.  What a thread is told depends on nothing
else: which linkers were called, what other threads did, direct calls that failed and calls that
succeeded make no difference.

A request does one of three things to the kept errors: it leaves them as they are, it keeps the
error of a failure for one thread, in place of an older one, or it forgets the error of the thread
that asks (`ErrorChange`).  So the error of a thread is the last one that was kept and has neither
been replaced nor asked for since, by `since_iff`.

The recorded calls are the operations of linkers and nothing more: `Records` compares each with the
operation and with the direct call.
-/
import DynamicLinker.Proofs.History
import DynamicLinker.Proofs.Since

namespace DynamicLinker.Session

/-- A request fails on a thread with an error: it is a recorded call of a linker that is there, made
on the thread, and the operation of the linker fails. -/
inductive FailsOn (session : Session) (thread : ThreadId) : Request → LinkError → Prop where
  /-- A module cannot be opened. -/
  | dlopen {place : Nat} {linker : Linker} {name : Soname} {word : Int32} {e : LinkError}
      (hlinker : session.linker? place = some linker)
      (hfails : (linker.openModule session.files name word).result = .error e) :
      FailsOn session thread (.recorded thread place (.dlopen name word)) e
  /-- A symbol cannot be looked up. -/
  | dlsym {place : Nat} {linker : Linker} {handle : Handle} {symbol : String} {e : LinkError}
      (hlinker : session.linker? place = some linker)
      (hfails : linker.lookup handle symbol = .error e) :
      FailsOn session thread (.recorded thread place (.dlsym handle symbol)) e
  /-- A handle cannot be given back. -/
  | dlclose {place : Nat} {linker : Linker} {handle : Handle} {e : LinkError}
      (hlinker : session.linker? place = some linker)
      (hfails : linker.close handle = .error e) :
      FailsOn session thread (.recorded thread place (.dlclose handle)) e

variable {session : Session} {request : Request} {requests : List Request}
  {thread thread' : ThreadId} {place : Nat} {linker : Linker} {call : DlCall} {e e' : LinkError}

lemma map_eq_error_iff {α β : Type} {f : α → β} {result : Except LinkError α} :
    result.map f = .error e ↔ result = .error e := by
  cases result <;> simp [Except.map]

/-- A recorded call fails if the call of the linker does that it stands for. -/
lemma failsOn_recorded_iff (hlinker : session.linker? place = some linker) :
    session.FailsOn thread (.recorded thread' place call) e
      ↔ thread' = thread ∧ (linker.perform session.files call.call).result = .error e := by
  constructor
  · intro hfails
    cases hfails with
    | dlopen hfound hfails =>
      obtain rfl := Option.some.inj (hlinker.symm.trans hfound)
      exact ⟨rfl, map_eq_error_iff.mpr hfails⟩
    | dlsym hfound hfails =>
      obtain rfl := Option.some.inj (hlinker.symm.trans hfound)
      exact ⟨rfl, map_eq_error_iff.mpr hfails⟩
    | dlclose hfound hfails =>
      obtain rfl := Option.some.inj (hlinker.symm.trans hfound)
      exact ⟨rfl, map_eq_error_iff.mpr hfails⟩
  · rintro ⟨rfl, hfails⟩
    cases call with
    | dlopen name word => exact .dlopen hlinker (map_eq_error_iff.mp hfails)
    | dlsym handle symbol => exact .dlsym hlinker (map_eq_error_iff.mp hfails)
    | dlclose handle => exact .dlclose hlinker (map_eq_error_iff.mp hfails)

lemma FailsOn.isSome_linker? (h : session.FailsOn thread (.recorded thread' place call) e) :
    (session.linker? place).isSome := by
  cases h with
  | dlopen hlinker _ => simp [hlinker]
  | dlsym hlinker _ => simp [hlinker]
  | dlclose hlinker _ => simp [hlinker]

/-- Only recorded calls fail on a thread. -/
lemma FailsOn.exists_recorded (h : session.FailsOn thread request e) :
    ∃ place call, request = .recorded thread place call := by
  cases h <;> exact ⟨_, _, rfl⟩

/-- A request fails on one thread, with one error. -/
lemma FailsOn.unique (h : session.FailsOn thread request e)
    (h' : session.FailsOn thread' request e') : thread' = thread ∧ e' = e := by
  obtain ⟨place, call, rfl⟩ := h.exists_recorded
  obtain ⟨linker, hlinker⟩ := Option.isSome_iff_exists.mp h.isSome_linker?
  obtain ⟨-, he⟩ := (failsOn_recorded_iff hlinker).mp h
  obtain ⟨hthread, he'⟩ := (failsOn_recorded_iff hlinker).mp h'
  exact ⟨hthread.symm, Except.error.inj (he'.symm.trans he)⟩

/-! ## What a request does to the kept errors -/

/-- What a request does to the errors that are kept. -/
inductive ErrorChange (session : Session) : Request → Session → Prop where
  /-- All are kept, and none is added. -/
  | same {request : Request} {later : Session} (herrors : later.errors = session.errors)
      (hfails : ∀ thread e, ¬ session.FailsOn thread request e)
      (hasks : ∀ thread, request ≠ .dlerror thread) : ErrorChange session request later
  /-- A failure is kept for its thread. -/
  | failed {request : Request} {later : Session} {thread : ThreadId} {e : LinkError}
      (hfails : session.FailsOn thread request e)
      (herrors : later.errors = session.errors.insert thread e)
      (hasks : ∀ thread, request ≠ .dlerror thread) : ErrorChange session request later
  /-- A thread asks for its error. -/
  | asked {later : Session} {thread : ThreadId}
      (herrors : later.errors = session.errors.erase thread) :
      ErrorChange session (.dlerror thread) later

lemma errors_createLinker (session : Session) (space : AddressSpace)
    (startup : List StartupModule) :
    (session.createLinker space startup).2.errors = session.errors := by
  rw [createLinker]
  split <;> rfl

/-- A call of a linker that is there is made, and leaves errors and files alone. -/
lemma exists_call (hlinker : session.linker? place = some linker) (call : Call) :
    ∃ later, session.call place call = some (linker.perform session.files call, later) ∧
      later.errors = session.errors ∧ later.files = session.files ∧
      ∀ place', later.linker? place'
        = if place' = place then some (linker.perform session.files call).linker
          else session.linker? place' := by
  cases hcall : session.call place call with
  | none => simp [Session.call, hlinker] at hcall
  | some called =>
    obtain ⟨outcome, later⟩ := called
    obtain ⟨found, hfound, rfl, -, hlater⟩ := change_call hcall
    obtain rfl := Option.some.inj (hlinker.symm.trans hfound)
    refine ⟨later, rfl, ?_, ?_, hlater⟩
    all_goals
      simp only [Session.call, hlinker, Option.some.injEq, Prod.mk.injEq] at hcall
      rw [← hcall.2]

lemma step_direct {call : Call} {outcome : Outcome Answer} {later : Session}
    (hcall : session.call place call = some (outcome, later)) :
    session.step (.direct place call) = (.answered outcome.result outcome.events, later) := by
  simp [Session.step, hcall]

lemma step_recorded {outcome : Outcome Answer} {later : Session}
    (hcall : session.call place call.call = some (outcome, later)) (thread : ThreadId) :
    session.step (.recorded thread place call)
      = (.recorded outcome.result.toOption outcome.events,
          (later.record thread outcome.result).2) := by
  simp only [Session.step, callRecorded, hcall]
  cases outcome.result <;> rfl

lemma files_record (session : Session) (thread : ThreadId) {α : Type}
    (result : Except LinkError α) : (session.record thread result).2.files = session.files := by
  cases result <;> rfl

/-- A request that is neither a recorded call nor a question for an error changes no errors. -/
lemma ErrorChange.of_errors_eq {later : Session} (herrors : later.errors = session.errors)
    (hrecorded : ∀ thread place call, request ≠ .recorded thread place call)
    (hasks : ∀ thread, request ≠ .dlerror thread) : session.ErrorChange request later := by
  refine .same herrors (fun thread e hfails => ?_) hasks
  obtain ⟨place, call, hrequest⟩ := hfails.exists_recorded
  exact hrecorded thread place call hrequest

lemma errorChange_step (session : Session) (request : Request) :
    session.ErrorChange request (session.step request).2 := by
  cases request with
  | create space startup =>
    exact .of_errors_eq (session.errors_createLinker space startup) (by simp) (by simp)
  | store name file => cases file <;> exact .of_errors_eq rfl (by simp) (by simp)
  | direct place call =>
    cases hlinker : session.linker? place with
    | none =>
      have hcall : session.call place call = none := by simp [Session.call, hlinker]
      exact .of_errors_eq (by simp [Session.step, hcall]) (by simp) (by simp)
    | some linker =>
      obtain ⟨later, hcall, herrors, -⟩ := exists_call hlinker call
      rw [step_direct hcall]
      exact .of_errors_eq herrors (by simp) (by simp)
  | recorded thread place call =>
    cases hlinker : session.linker? place with
    | none =>
      have hcall : session.call place call.call = none := by simp [Session.call, hlinker]
      refine .same (by simp [Session.step, callRecorded, hcall]) (fun thread' e hfails => ?_)
        (by simp)
      simpa [hlinker] using hfails.isSome_linker?
    | some linker =>
      obtain ⟨later, hcall, herrors, -⟩ := exists_call hlinker call.call
      rw [step_recorded hcall]
      cases hresult : (linker.perform session.files call.call).result with
      | ok answer =>
        refine .same herrors (fun thread' e hfails => ?_) (by simp)
        simpa [hresult] using ((failsOn_recorded_iff hlinker).mp hfails).2
      | error e =>
        refine .failed ((failsOn_recorded_iff hlinker).mpr ⟨rfl, hresult⟩) ?_ (by simp)
        rw [← herrors]
        rfl
  | dlerror thread => exact .asked rfl

/-- **What a request does to the error of one thread**: afterwards an error is kept if the request
fails with it on the thread, or if it was kept before and the request neither fails on the thread
nor asks for its error. -/
lemma find?_errors_step (session : Session) (request : Request) (thread : ThreadId)
    (e : LinkError) :
    (session.step request).2.errors.find? thread = some e
      ↔ session.FailsOn thread request e
        ∨ session.errors.find? thread = some e
          ∧ ¬ ((∃ e', session.FailsOn thread request e') ∨ request = .dlerror thread) := by
  cases session.errorChange_step request with
  | same herrors hfails hasks => simp [herrors, hfails, hasks]
  | @failed _ _ failing e' hfails herrors hasks =>
    rw [herrors, KeyMap.find?_insert]
    by_cases hthread : thread = failing
    · subst hthread
      rw [if_pos rfl]
      constructor
      · intro hsame
        exact .inl (Option.some.inj hsame ▸ hfails)
      · rintro (hfails' | ⟨-, hnot⟩)
        · rw [(hfails.unique hfails').2]
        · exact absurd (.inl ⟨e', hfails⟩) hnot
    · have hnone : ∀ e'', ¬ session.FailsOn thread request e'' :=
        fun _ hfails' => hthread (hfails.unique hfails').1
      simp [hthread, hnone, hasks]
  | @asked _ asking herrors =>
    have hnone : ∀ thread e', ¬ session.FailsOn thread (.dlerror asking) e' := fun _ _ hfails => by
      simpa using hfails.exists_recorded
    rw [herrors, KeyMap.find?_erase]
    by_cases hthread : thread = asking
    · simp [hthread, hnone]
    · simp [hthread, hnone, Ne.symm hthread]

/-- The error that is kept for a thread is that of its last failure, unless the thread has asked for
it since. -/
lemma find?_errors_after (requests : List Request) (thread : ThreadId) (e : LinkError) :
    (start.after requests).errors.find? thread = some e
      ↔ Since (fun before request => (start.after before).FailsOn thread request e)
          (fun before request => (∃ e', (start.after before).FailsOn thread request e')
            ∨ request = .dlerror thread) requests := by
  refine since_iff (P := fun requests => (start.after requests).errors.find? thread = some e)
    (by simp [after, start]) (fun before request => ?_) requests
  rw [after_concat]
  exact find?_errors_step _ request thread e

/-- Some error is kept for a thread if something has failed on it since it last asked. -/
lemma exists_find?_errors_after (requests : List Request) (thread : ThreadId) :
    (∃ e, (start.after requests).errors.find? thread = some e)
      ↔ Since (fun before request => ∃ e, (start.after before).FailsOn thread request e)
          (fun _ request => request = .dlerror thread) requests := by
  refine since_iff (P := fun requests => ∃ e, (start.after requests).errors.find? thread = some e)
    (by simp [after, start]) (fun before request => ?_) requests
  simp only [after_concat, find?_errors_step]
  constructor
  · rintro ⟨e, hfails | ⟨hkept, hnot⟩⟩
    · exact .inl ⟨e, hfails⟩
    · exact .inr ⟨⟨e, hkept⟩, fun hasks => hnot (.inr hasks)⟩
  · rintro (⟨e, hfails⟩ | ⟨⟨e, hkept⟩, hasks⟩)
    · exact ⟨e, .inl hfails⟩
    · -- the request may fail, and then its error takes the place of the one that was kept
      by_cases hfails : ∃ e', (start.after before).FailsOn thread request e'
      · obtain ⟨e', hfails⟩ := hfails
        exact ⟨e', .inl hfails⟩
      · exact ⟨e, .inr ⟨hkept, fun hends => hends.elim hfails hasks⟩⟩

/-! ## Recorded calls and the operations of linkers -/

/-- A recorded call of the linker at a place has the result and the effect of an operation, which
are those of the direct call as well; only the error of a failure is kept and not given back. -/
structure Records (session : Session) (thread : ThreadId) (place : Nat) (call : DlCall)
    (outcome : Outcome Answer) : Prop where
  /-- The direct call gives the result of the operation. -/
  direct : (session.step (.direct place call.call)).1 = .answered outcome.result outcome.events
  /-- The recorded call gives the same result, less the error. -/
  recorded : (session.step (.recorded thread place call)).1
    = .recorded outcome.result.toOption outcome.events
  /-- Both leave the linker as the operation does, and all others as they are. -/
  linker? (place' : Nat) :
    (session.step (.recorded thread place call)).2.linker? place'
        = (if place' = place then some outcome.linker else session.linker? place') ∧
      (session.step (.direct place call.call)).2.linker? place'
        = if place' = place then some outcome.linker else session.linker? place'
  /-- Neither changes files. -/
  files : (session.step (.recorded thread place call)).2.files = session.files ∧
    (session.step (.direct place call.call)).2.files = session.files

lemma records_perform (hlinker : session.linker? place = some linker) (thread : ThreadId)
    (call : DlCall) :
    session.Records thread place call (linker.perform session.files call.call) := by
  obtain ⟨later, hcall, -, hfiles, hlater⟩ := exists_call hlinker call.call
  have hdirect := step_direct hcall
  have hrecorded := step_recorded hcall thread
  refine ⟨by rw [hdirect], by rw [hrecorded], fun place' => ⟨?_, ?_⟩, ?_, ?_⟩
  · rw [hrecorded, (later.record_linkers thread _ place').1, hlater]
  · rw [hdirect, hlater]
  · rw [hrecorded, files_record, hfiles]
  · rw [hdirect, hfiles]

/-! ## What threads are told -/

/-- What a thread is told of its errors after requests, and what a recorded call does that is made
then. -/
structure KeepsErrors (requests : List Request) (thread : ThreadId) : Prop where
  /-- The thread is told a message exactly if something has failed on it since it last asked. -/
  told_iff : (∃ text, ((start.after requests).step (.dlerror thread)).1 = .message (some text))
    ↔ Since (fun before request => ∃ e, (start.after before).FailsOn thread request e)
        (fun _ request => request = .dlerror thread) requests
  /-- The message is that of the last failure on the thread. -/
  message_iff {text : String} :
    ((start.after requests).step (.dlerror thread)).1 = .message (some text)
      ↔ ∃ e, e.message = text ∧
          Since (fun before request => (start.after before).FailsOn thread request e)
            (fun before request => (∃ e', (start.after before).FailsOn thread request e')
              ∨ request = .dlerror thread) requests
  /-- A further request that neither fails on the thread nor asks for its error does not change what
  it is told. -/
  unaffected {request : Request} (hfails : ∀ e, ¬ (start.after requests).FailsOn thread request e)
    (hasks : request ≠ .dlerror thread) :
    ((start.after (requests ++ [request])).step (.dlerror thread)).1
      = ((start.after requests).step (.dlerror thread)).1
  /-- To open a module on a thread is to open it with the linker. -/
  dlopen {place : Nat} {linker : Linker}
    (hlinker : (start.after requests).linker? place = some linker) (name : Soname) (word : Int32) :
    let opened := linker.openModule (start.after requests).files name word
    (start.after requests).Records thread place (.dlopen name word)
      ⟨opened.result.map .handle, opened.linker, opened.events⟩
  /-- To look up a symbol on a thread is to look it up with the linker. -/
  dlsym {place : Nat} {linker : Linker}
    (hlinker : (start.after requests).linker? place = some linker) (handle : Handle)
    (symbol : String) :
    (start.after requests).Records thread place (.dlsym handle symbol)
      ⟨(linker.lookup handle symbol).map .address, linker, []⟩
  /-- To close a handle on a thread is to give it back to the linker. -/
  dlclose {place : Nat} {linker : Linker}
    (hlinker : (start.after requests).linker? place = some linker) (handle : Handle) :
    (start.after requests).Records thread place (.dlclose handle)
      ⟨(linker.close handle).map fun _ => .done, linker, []⟩
  /-- The number that comes back from closing is zero if the linker takes the handle. -/
  status (linker : Linker) (handle : Handle) :
    statusOf ((linker.close handle).map fun _ => Answer.done).toOption
      = if (linker.close handle).isOk then 0 else -1

lemma step_dlerror (session : Session) (thread : ThreadId) :
    (session.step (.dlerror thread)).1
      = .message ((session.errors.find? thread).map LinkError.message) := rfl

lemma told_eq_some_iff {text : String} :
    (session.step (.dlerror thread)).1 = .message (some text)
      ↔ ∃ e, session.errors.find? thread = some e ∧ e.message = text := by
  rw [step_dlerror, Reply.message.injEq, Option.map_eq_some_iff]

/-- **A thread is told its own last failure, once**, after any requests: a message is there exactly
if a recorded call on the thread has failed since the thread last asked, and it is that of the last
such failure.  Nothing else changes it, and the recorded calls are otherwise the operations of the
linkers. -/
theorem keepsErrors (requests : List Request) (thread : ThreadId) :
    KeepsErrors requests thread := by
  refine ⟨?_, ?_, fun {request} hfails hasks => ?_, ?_, ?_, ?_, fun linker handle => ?_⟩
  · rw [← exists_find?_errors_after]
    constructor
    · rintro ⟨text, htold⟩
      obtain ⟨e, he, -⟩ := told_eq_some_iff.mp htold
      exact ⟨e, he⟩
    · rintro ⟨e, he⟩
      exact ⟨e.message, told_eq_some_iff.mpr ⟨e, he, rfl⟩⟩
  · intro text
    rw [told_eq_some_iff]
    simp only [← find?_errors_after, and_comm]
  · have hkept : ((start.after requests).step request).2.errors.find? thread
        = (start.after requests).errors.find? thread := by
      refine Option.ext fun e => ?_
      rw [find?_errors_step]
      simp [hfails, hasks]
    rw [after_concat, step_dlerror, step_dlerror, hkept]
  · exact fun hlinker name word => records_perform hlinker thread (.dlopen name word)
  · exact fun hlinker handle symbol => records_perform hlinker thread (.dlsym handle symbol)
  · exact fun hlinker handle => records_perform hlinker thread (.dlclose handle)
  · cases linker.close handle <;> rfl

/-- Two threads fail on two linkers.  The first fails to open a file that is missing, and then with
a handle of the other linker; a direct call that fails and a recorded one that succeeds come after,
and it is told of the handle.  The second has asked for its error already and is told nothing. -/
theorem keepsErrors_of_two_threads :
    let exported : SymbolTable := .ofList [("f", ⟨0x10, 4, .function⟩)]
    let requests : List Request :=
      [.create ⟨0x10000, 0x1000⟩ [⟨⟨"a"⟩, 0x500, exported, false⟩], .create ⟨0x10000, 0x1000⟩ [],
        .recorded 0 0 (.dlopen ⟨"x"⟩ 2), .recorded 1 1 (.dlclose ⟨1, 0⟩),
        .recorded 0 1 (.dlsym ⟨1, 0⟩ "f"), .direct 0 (.openModule ⟨"y"⟩ 2),
        .recorded 0 0 (.dlsym ⟨1, 0⟩ "f"), .dlerror 1]
    ((start.after requests).step (.dlerror 0)).1 = .message (some "invalid handle 1:0") ∧
      ((start.after requests).step (.dlerror 1)).1 = .message none ∧
      (∃ e, e.message = "invalid handle 1:0" ∧
        Since (fun before request => (start.after before).FailsOn 0 request e)
          (fun before request => (∃ e', (start.after before).FailsOn 0 request e')
            ∨ request = .dlerror 0) requests) ∧
      ¬ Since (fun before request => ∃ e, (start.after before).FailsOn 1 request e)
        (fun _ request => request = .dlerror 1) requests := by
  intro exported requests
  have hfirst : ((start.after requests).errors.find? 0).map LinkError.message
      = some "invalid handle 1:0" := by decide +kernel
  have hsecond : ((start.after requests).errors.find? 1).map LinkError.message = none := by
    decide +kernel
  clear_value requests
  have htold : ((start.after requests).step (.dlerror 0)).1
      = .message (some "invalid handle 1:0") := by rw [step_dlerror, hfirst]
  have hnone : ((start.after requests).step (.dlerror 1)).1 = .message none := by
    rw [step_dlerror, hsecond]
  refine ⟨htold, hnone, (keepsErrors requests 0).message_iff.mp htold, fun hsince => ?_⟩
  obtain ⟨text, hsome⟩ := (keepsErrors requests 1).told_iff.mpr hsince
  rw [hnone] at hsome
  simp at hsome

end DynamicLinker.Session
