/-
# Series of calls

A linker is used by one call after the other, each made with the files that are there at the
time.  A request to open a module leaves the linker as it was, or as the load has left it that
the request started, but for what the issue of a handle changes.  Other calls change nothing.
So what holds of a linker and its history, and is kept by every request to open a module,
holds after any series of calls.
-/
import DynamicLinker.Proofs.Soundness

namespace DynamicLinker

/-- What an operation gives, if it gives anything, is its result. -/
lemma eq_ok_of_toOption {ε α : Type} {result : Except ε α} {a : α}
    (h : result.toOption = some a) : result = .ok a := by
  cases result with
  | error e => simp [Except.toOption] at h
  | ok b => simpa [Except.toOption] using h

namespace Linker

/-- The linker after calls, each made with the given files. -/
def after (linker : Linker) : List (FileSet × Call) → Linker
  | [] => linker
  | (files, call) :: calls => (linker.perform files call).linker.after calls

/-- The history after calls, each made with the given files. -/
def historyAfter (linker : Linker) (history : History) : List (FileSet × Call) → History
  | [] => history
  | (files, call) :: calls =>
    (linker.perform files call).linker.historyAfter
      (history.after files (linker.callProgress files call)) calls

/-- What calls ask of the surroundings, each made with the given files. -/
def eventsAfter (linker : Linker) : List (FileSet × Call) → List Event
  | [] => []
  | (files, call) :: calls =>
    (linker.perform files call).events ++ (linker.perform files call).linker.eventsAfter calls

variable {linker : Linker} {history : History} {calls : List (FileSet × Call)}

lemma Reached.after (h : linker.Reached history) (calls : List (FileSet × Call)) :
    (linker.after calls).Reached (linker.historyAfter history calls) := by
  induction calls generalizing linker history with
  | nil => exact h
  | cons call calls ih => exact ih (h.perform call.1 call.2)

/-- What holds of a linker before a request to open a module, of what its load leaves, and after
the issue of a handle, holds after the request. -/
lemma openModule_cases {P : Linker → Prop} (linker : Linker) (files : FileSet) (name : Soname)
    (word : Int32) (hsame : linker.moments files name word = [] → P linker)
    (hstuck : ∀ last, (linker.moments files name word).getLast? = some last → P last.unwind)
    (hcomplete : ∀ last, (linker.moments files name word).getLast? = some last →
      last.frames = [] → P last.linker)
    (hissue : ∀ before id mode, P before → P (before.issue id mode).linker) :
    P (linker.openModule files name word).linker := by
  have hopening := linker.opening files name word
  generalize linker.openModule files name word = outcome at hopening ⊢
  cases hopening with
  | refused hmoments => exact hsame hmoments
  | found _ _ hmoments => exact hissue _ _ _ (hsame hmoments)
  | stuck _ hlast _ => exact hstuck _ hlast
  | loaded _ _ hlast hframes => exact hissue _ _ _ (hcomplete _ hlast hframes)

/-- **What holds of a linker and its history, and is kept by every request to open a module, holds
after a series of calls.** -/
theorem Reached.after_induction {P : Linker → History → Prop} (h : linker.Reached history)
    (hstart : P linker history)
    (hopen : ∀ before history files name word, (files, Call.openModule name word) ∈ calls →
      before.Reached history → P before history →
        P (before.openModule files name word).linker
          (history.after files (before.progress files name word))) :
    P (linker.after calls) (linker.historyAfter history calls) := by
  induction calls generalizing linker history with
  | nil => exact hstart
  | cons head calls ih =>
    obtain ⟨files, call⟩ := head
    refine ih (h.perform files call) ?_ fun before history files name word hmem =>
      hopen before history files name word (List.mem_cons_of_mem _ hmem)
    cases call with
    | openModule name word => exact hopen _ _ _ _ _ List.mem_cons_self h hstart
    | lookup handle symbol => exact hstart
    | close handle => exact hstart
    | tree handle => exact hstart
    | deps handle => exact hstart
    | list => exact hstart

/-- **What holds of a linker and the events so far, and is kept by every request to open a module,
holds after a series of calls.** -/
theorem Reached.eventsAfter_induction {P : Linker → List Event → Prop} {past : List Event}
    (h : linker.Reached history) (hstart : P linker past)
    (hopen : ∀ before history past files name word, before.Reached history → P before past →
      P (before.openModule files name word).linker
        (past ++ (before.openModule files name word).events))
    (calls : List (FileSet × Call)) :
    P (linker.after calls) (past ++ linker.eventsAfter calls) := by
  induction calls generalizing linker history past with
  | nil => simpa [Linker.after, eventsAfter] using hstart
  | cons head calls ih =>
    obtain ⟨files, call⟩ := head
    rw [eventsAfter, ← List.append_assoc]
    refine ih (h.perform files call) ?_
    -- all other calls leave the linker alone and ask for nothing
    cases call with
    | openModule name word => exact hopen _ _ _ _ _ _ h hstart
    | lookup handle symbol => simpa [Linker.perform] using hstart
    | close handle => simpa [Linker.perform] using hstart
    | tree handle => simpa [Linker.perform] using hstart
    | deps handle => simpa [Linker.perform] using hstart
    | list => simpa [Linker.perform] using hstart

end Linker

end DynamicLinker
