/-
# The course of a recursive load

A recursive load goes through the names that it is given, one after the other.  A name that is known
is passed over.  The file of any other name is retrieved and decoded, the names that it declares are
gone through in the same way, and then its module is relocated.  At the first callback that fails
everything ends.

`Course` is this load told over names alone, with no linker behind it: what the files hold is given,
and so is what the relocation of each module answers.  It says in which order callbacks are made,
and with what the load ends: with the names that are known then, or with an error and the modules
that were being loaded, each of which was needed by the next.  There is only one course, no callback
is made twice in it, and its error tells the callback that failed.
-/
import DynamicLinker.Proofs.History
import Mathlib.Data.List.Nodup

namespace DynamicLinker

/-- What a load and the issue of a handle ask of the surroundings. -/
inductive Callback where
  /-- Retrieve the file of a name. -/
  | retrieve (name : Soname)
  /-- Decode the file of a name and map it. -/
  | decode (name : Soname)
  /-- Relocate the module of a name. -/
  | relocate (name : Soname)
  /-- Initialise the module of a name. -/
  | init (name : Soname)
deriving DecidableEq

/-- The name that a callback is about. -/
def Callback.name : Callback → Soname
  | retrieve name => name
  | decode name => name
  | relocate name => name
  | init name => name

/-- How a recursive load fails. -/
structure Failure where
  /-- What is reported. -/
  error : LinkError
  /-- The modules that were being loaded, the innermost one in front. -/
  chain : List Soname

/-- The course of a recursive load through the names of an agenda, when some names are known and a
chain of modules is being loaded: the callbacks that it makes, and how it ends. -/
inductive Course (files : FileSet) (answers : Soname → Except LinkError Unit) :
    List Soname → List Soname → List Soname → List Callback → Except Failure (List Soname) →
      Prop where
  /-- Without a name nothing is done. -/
  | done (known chain : List Soname) : Course files answers known chain [] [] (.ok known)
  /-- A name that is known is passed over. -/
  | skip {known chain rest : List Soname} {name : Soname} {trace : List Callback}
      {ending : Except Failure (List Soname)} (hknown : name ∈ known)
      (hrest : Course files answers known chain rest trace ending) :
      Course files answers known chain (name :: rest) trace ending
  /-- The file cannot be retrieved.  What is reported depends on whether a module needs it. -/
  | unretrieved {known chain rest : List Soname} {name : Soname} {failure : RetrievalFailure}
      (hnew : name ∉ known) (hfile : files.retrieve name = .error failure) :
      Course files answers known chain (name :: rest) [.retrieve name]
        (.error ⟨.ofCause (failure.cause name chain.head?), chain⟩)
  /-- The file is no module. -/
  | malformed {known chain rest : List Soname} {name : Soname} {e : LinkError}
      (hnew : name ∉ known) (hfile : files.retrieve name = .ok (.malformed e)) :
      Course files answers known chain (name :: rest) [.retrieve name, .decode name]
        (.error ⟨e, chain⟩)
  /-- The load of a dependency fails. -/
  | stuck {known chain rest : List Soname} {name : Soname} {image : Image}
      {trace : List Callback} {failure : Failure}
      (hnew : name ∉ known) (hfile : files.retrieve name = .ok (.module image))
      (hbelow : Course files answers (name :: known) (name :: chain) image.deps trace
        (.error failure)) :
      Course files answers known chain (name :: rest) (.retrieve name :: .decode name :: trace)
        (.error failure)
  /-- The relocation of the module fails. -/
  | broken {known chain rest known' : List Soname} {name : Soname} {image : Image}
      {trace : List Callback} {e : LinkError}
      (hnew : name ∉ known) (hfile : files.retrieve name = .ok (.module image))
      (hbelow : Course files answers (name :: known) (name :: chain) image.deps trace (.ok known'))
      (hanswer : answers name = .error e) :
      Course files answers known chain (name :: rest)
        (.retrieve name :: .decode name :: trace ++ [.relocate name])
        (.error ⟨e, name :: chain⟩)
  /-- The module is relocated, and the load goes on. -/
  | loaded {known chain rest known' : List Soname} {name : Soname} {image : Image}
      {trace trace' : List Callback} {ending : Except Failure (List Soname)}
      (hnew : name ∉ known) (hfile : files.retrieve name = .ok (.module image))
      (hbelow : Course files answers (name :: known) (name :: chain) image.deps trace (.ok known'))
      (hanswer : answers name = .ok ())
      (hrest : Course files answers known' chain rest trace' ending) :
      Course files answers known chain (name :: rest)
        (.retrieve name :: .decode name :: trace ++ .relocate name :: trace') ending

namespace Course

variable {files : FileSet} {answers : Soname → Except LinkError Unit}
  {known known' chain agenda rest : List Soname} {name n : Soname} {image : Image}
  {trace trace' : List Callback} {ending ending' : Except Failure (List Soname)}
  {callback : Callback} {failure : Failure}

/-! ## There is one course -/

/-- What a course through a known name does is a course through the others. -/
lemma of_known (h : Course files answers known chain (name :: rest) trace ending)
    (hknown : name ∈ known) : Course files answers known chain rest trace ending := by
  cases h with
  | skip _ hrest => exact hrest
  | unretrieved hnew _ => exact absurd hknown hnew
  | malformed hnew _ => exact absurd hknown hnew
  | stuck hnew _ _ => exact absurd hknown hnew
  | broken hnew _ _ _ => exact absurd hknown hnew
  | loaded hnew _ _ _ _ => exact absurd hknown hnew

/-- A course that comes to a new name with a module goes through what the module needs, and then it
ends or goes on, by what has come of that. -/
lemma of_module (h : Course files answers known chain (name :: rest) trace ending)
    (hnew : name ∉ known) (hfile : files.retrieve name = .ok (.module image)) :
    ∃ below ended, Course files answers (name :: known) (name :: chain) image.deps below ended ∧
      ((∃ failure, ended = .error failure ∧ trace = .retrieve name :: .decode name :: below ∧
          ending = .error failure) ∨
        (∃ known' e, ended = .ok known' ∧ answers name = .error e ∧
          trace = .retrieve name :: .decode name :: below ++ [.relocate name] ∧
          ending = .error ⟨e, name :: chain⟩) ∨
        ∃ known' trace', ended = .ok known' ∧ answers name = .ok () ∧
          Course files answers known' chain rest trace' ending ∧
          trace = .retrieve name :: .decode name :: below ++ .relocate name :: trace') := by
  cases h with
  | skip hknown _ => exact absurd hknown hnew
  | unretrieved _ hfile' | malformed _ hfile' => simp [hfile] at hfile'
  | stuck _ hfile' hbelow =>
    rw [hfile, Except.ok.injEq, ObjectFile.module.injEq] at hfile'
    subst hfile'
    exact ⟨_, _, hbelow, .inl ⟨_, rfl, rfl, rfl⟩⟩
  | broken _ hfile' hbelow hanswer =>
    rw [hfile, Except.ok.injEq, ObjectFile.module.injEq] at hfile'
    subst hfile'
    exact ⟨_, _, hbelow, .inr (.inl ⟨_, _, rfl, hanswer, rfl, rfl⟩)⟩
  | loaded _ hfile' hbelow hanswer hrest =>
    rw [hfile, Except.ok.injEq, ObjectFile.module.injEq] at hfile'
    subst hfile'
    exact ⟨_, _, hbelow, .inr (.inr ⟨_, _, rfl, hanswer, hrest, rfl⟩)⟩

/-- **The course is determined** by what is known, what the files hold, and what relocations
answer. -/
theorem unique (h : Course files answers known chain agenda trace ending)
    (h' : Course files answers known chain agenda trace' ending') :
    trace = trace' ∧ ending = ending' := by
  induction h generalizing trace' ending' with
  | done =>
    cases h'
    exact ⟨rfl, rfl⟩
  | skip hknown _ ih => exact ih (h'.of_known hknown)
  | unretrieved hnew hfile =>
    cases h' with
    | skip hknown _ => exact absurd hknown hnew
    | unretrieved _ hfile' =>
      rw [hfile, Except.error.injEq] at hfile'
      subst hfile'
      exact ⟨rfl, rfl⟩
    | malformed _ hfile' | stuck _ hfile' _ | broken _ hfile' _ _ | loaded _ hfile' _ _ _ =>
      simp [hfile] at hfile'
  | malformed hnew hfile =>
    cases h' with
    | skip hknown _ => exact absurd hknown hnew
    | malformed _ hfile' =>
      rw [hfile, Except.ok.injEq, ObjectFile.malformed.injEq] at hfile'
      subst hfile'
      exact ⟨rfl, rfl⟩
    | unretrieved _ hfile' | stuck _ hfile' _ | broken _ hfile' _ _ | loaded _ hfile' _ _ _ =>
      simp [hfile] at hfile'
  | stuck hnew hfile _ ih =>
    obtain ⟨below, ended, hbelow, hend⟩ := h'.of_module hnew hfile
    obtain ⟨rfl, rfl⟩ := ih hbelow
    rcases hend with ⟨_, hended, rfl, rfl⟩ | ⟨_, _, hended, -⟩ | ⟨_, _, hended, -⟩
    · exact ⟨rfl, hended⟩
    · simp at hended
    · simp at hended
  | broken hnew hfile _ hanswer ih =>
    obtain ⟨below, ended, hbelow, hend⟩ := h'.of_module hnew hfile
    obtain ⟨rfl, rfl⟩ := ih hbelow
    rcases hend with ⟨_, hended, -⟩ | ⟨_, _, -, hanswer', rfl, rfl⟩ | ⟨_, _, -, hanswer', -⟩
    · simp at hended
    · rw [hanswer, Except.error.injEq] at hanswer'
      exact ⟨rfl, by rw [hanswer']⟩
    · simp [hanswer] at hanswer'
  | loaded hnew hfile _ hanswer _ ihbelow ihrest =>
    obtain ⟨below, ended, hbelow, hend⟩ := h'.of_module hnew hfile
    obtain ⟨rfl, rfl⟩ := ihbelow hbelow
    rcases hend with ⟨_, hended, -⟩ | ⟨_, _, -, hanswer', -⟩ | ⟨_, _, hended, -, hrest, rfl⟩
    · simp at hended
    · simp [hanswer] at hanswer'
    · rw [Except.ok.injEq] at hended
      subst hended
      obtain ⟨rfl, rfl⟩ := ihrest hrest
      exact ⟨rfl, rfl⟩

/-! ## What becomes known -/

/-- What is known at the end was known before, or its file was decoded. -/
lemma mem_known_iff (h : Course files answers known chain agenda trace (.ok known')) :
    n ∈ known' ↔ n ∈ known ∨ .decode n ∈ trace := by
  generalize hending : (Except.ok known' : Except Failure (List Soname)) = ending at h
  induction h generalizing known' with
  | done =>
    cases hending
    simp
  | skip _ _ ih => exact ih hending
  | unretrieved | malformed | stuck | broken => cases hending
  | loaded _ _ _ _ _ ihbelow ihrest =>
    rw [ihrest hending, ihbelow rfl]
    simp only [List.mem_cons, List.cons_append, List.mem_append, reduceCtorEq, false_or,
      Callback.decode.injEq]
    tauto

/-- What a course that succeeds is about is known at its end. -/
lemma name_mem_known (h : Course files answers known chain agenda trace (.ok known'))
    (hcallback : callback ∈ trace) : callback.name ∈ known' := by
  generalize hending : (Except.ok known' : Except Failure (List Soname)) = ending at h
  induction h generalizing known' with
  | done => simp at hcallback
  | skip _ _ ih => exact ih hcallback hending
  | unretrieved | malformed | stuck | broken => cases hending
  | @loaded _ _ _ known'' name _ _ _ _ _ _ hbelow _ hrest ihbelow ihrest =>
    subst hending
    have hname : name ∈ known'' := hbelow.mem_known_iff.mpr (.inl List.mem_cons_self)
    have hkept : ∀ {m}, m ∈ known'' → m ∈ known' := fun hm => hrest.mem_known_iff.mpr (.inl hm)
    simp only [List.cons_append, List.mem_cons, List.mem_append] at hcallback
    obtain rfl | rfl | hcallback | rfl | hcallback := hcallback
    · exact hkept hname
    · exact hkept hname
    · exact hkept (ihbelow hcallback rfl)
    · exact hkept hname
    · exact ihrest hcallback rfl

/-- No callback is about a name that was known. -/
lemma name_not_mem_known (h : Course files answers known chain agenda trace ending)
    (hcallback : callback ∈ trace) : callback.name ∉ known := by
  induction h with
  | done => simp at hcallback
  | skip _ _ ih => exact ih hcallback
  | unretrieved hnew _ =>
    obtain rfl := List.mem_singleton.mp hcallback
    exact hnew
  | malformed hnew _ =>
    obtain rfl | rfl := List.mem_pair.mp hcallback <;> exact hnew
  | stuck hnew _ _ ih =>
    simp only [List.mem_cons] at hcallback
    obtain rfl | rfl | hcallback := hcallback
    · exact hnew
    · exact hnew
    · exact fun hmem => ih hcallback (List.mem_cons_of_mem _ hmem)
  | broken hnew _ _ _ ih =>
    simp only [List.cons_append, List.mem_cons, List.mem_append, List.not_mem_nil,
      or_false] at hcallback
    obtain rfl | rfl | hcallback | rfl := hcallback
    · exact hnew
    · exact hnew
    · exact fun hmem => ih hcallback (List.mem_cons_of_mem _ hmem)
    · exact hnew
  | loaded hnew _ hbelow _ _ ihbelow ihrest =>
    simp only [List.cons_append, List.mem_cons, List.mem_append] at hcallback
    obtain rfl | rfl | hcallback | rfl | hcallback := hcallback
    · exact hnew
    · exact hnew
    · exact fun hmem => ihbelow hcallback (List.mem_cons_of_mem _ hmem)
    · exact hnew
    · exact fun hmem =>
        ihrest hcallback (hbelow.mem_known_iff.mpr (.inl (List.mem_cons_of_mem _ hmem)))

/-- The callbacks for a module are none of those for the names that it declares. -/
lemma nodup_module (h : Course files answers (name :: known) chain agenda trace ending)
    (htrace : trace.Nodup) :
    (.retrieve name :: .decode name :: trace ++ [Callback.relocate name]).Nodup := by
  have hother : ∀ callback ∈ trace, callback.name ≠ name := fun callback hcallback hname =>
    h.name_not_mem_known hcallback (hname ▸ List.mem_cons_self)
  have hretrieve : .retrieve name ∉ trace := fun hmem => hother _ hmem rfl
  have hdecode : .decode name ∉ trace := fun hmem => hother _ hmem rfl
  have hrelocate : .relocate name ∉ trace := fun hmem => hother _ hmem rfl
  rw [List.cons_append, List.cons_append, List.nodup_cons, List.nodup_cons, ← List.concat_eq_append,
    List.nodup_concat]
  simp [hretrieve, hdecode, hrelocate, htrace]

/-- **No callback is made twice.** -/
theorem nodup (h : Course files answers known chain agenda trace ending) : trace.Nodup := by
  induction h with
  | done => exact List.nodup_nil
  | skip _ _ ih => exact ih
  | unretrieved => exact List.nodup_singleton _
  | malformed => simp
  | stuck _ _ hbelow ih => exact (hbelow.nodup_module ih).of_append_left
  | broken _ _ hbelow _ ih => exact hbelow.nodup_module ih
  | @loaded _ _ _ known' name _ trace trace' _ _ _ hbelow _ hrest ihbelow ihrest =>
    rw [List.append_cons]
    refine (hbelow.nodup_module ihbelow).append ihrest fun callback hfront hback => ?_
    -- what the first module was about is known when the others follow
    refine hrest.name_not_mem_known hback ?_
    have hname : name ∈ known' := hbelow.mem_known_iff.mpr (.inl List.mem_cons_self)
    simp only [List.cons_append, List.mem_cons, List.mem_append, List.not_mem_nil,
      or_false] at hfront
    obtain rfl | rfl | hfront | rfl := hfront
    · exact hname
    · exact hname
    · exact hbelow.name_mem_known hfront
    · exact hname

/-! ## The failure -/

/-- A file cannot be fetched: the callback for it comes last and fails. -/
inductive FetchFails (files : FileSet) (n : Soname) (chain : List Soname) (trace : List Callback) :
    LinkError → Prop where
  /-- The file cannot be retrieved. -/
  | retrieve {front : List Callback} {failure : RetrievalFailure}
      (htrace : trace = front ++ [.retrieve n]) (hfile : files.retrieve n = .error failure) :
      FetchFails files n chain trace (.ofCause (failure.cause n chain.head?))
  /-- The file is no module. -/
  | decode {front : List Callback} {e : LinkError} (htrace : trace = front ++ [.decode n])
      (hfile : files.retrieve n = .ok (.malformed e)) : FetchFails files n chain trace e

/-- While an agenda is gone through, a file cannot be fetched, and all names in front of it were
known or have been decoded. -/
def ScanFails (files : FileSet) (known agenda chain : List Soname) (trace : List Callback)
    (e : LinkError) : Prop :=
  ∃ passed n rest, agenda = passed ++ n :: rest ∧ (∀ d ∈ passed, d ∈ known ∨ .decode d ∈ trace) ∧
    FetchFails files n chain trace e

lemma FetchFails.append {e : LinkError} (h : FetchFails files n chain trace e)
    (front : List Callback) : FetchFails files n chain (front ++ trace) e := by
  cases h with
  | retrieve htrace hfile => exact .retrieve (by rw [htrace, List.append_assoc]) hfile
  | decode htrace hfile => exact .decode (by rw [htrace, List.append_assoc]) hfile

/-- The names that were passed may have been passed earlier in a course. -/
lemma ScanFails.append {e : LinkError} (h : ScanFails files known' agenda chain trace e)
    (front : List Callback) (hknown : ∀ d ∈ known', d ∈ known ∨ .decode d ∈ front) :
    ScanFails files known agenda chain (front ++ trace) e := by
  obtain ⟨passed, n, rest, hagenda, hpassed, hfails⟩ := h
  refine ⟨passed, n, rest, hagenda, fun d hd => ?_, hfails.append front⟩
  rw [List.mem_append]
  rcases hpassed d hd with hold | hnew
  · exact (hknown d hold).imp_right .inl
  · exact .inr (.inr hnew)

/-- One more name has been passed. -/
lemma ScanFails.cons {e : LinkError} (h : ScanFails files known rest chain trace e)
    (hname : name ∈ known ∨ .decode name ∈ trace) :
    ScanFails files known (name :: rest) chain trace e := by
  obtain ⟨passed, n, rest', rfl, hpassed, hfails⟩ := h
  refine ⟨name :: passed, n, rest', rfl, fun d hd => ?_, hfails⟩
  rcases List.mem_cons.mp hd with rfl | hd
  · exact hname
  · exact hpassed d hd

/-- The innermost module of a chain is where a course fails: at a name that it declares, or at its
relocation. -/
def ModuleFails (files : FileSet) (answers : Soname → Except LinkError Unit)
    (known : List Soname) (trace : List Callback) (failure : Failure) : Prop :=
  ∃ m above, failure.chain = m :: above ∧
    (ScanFails files known (files.declares m) failure.chain trace failure.error ∨
      answers m = .error failure.error ∧ ∃ front, trace = front ++ [.relocate m])

lemma ModuleFails.append (h : ModuleFails files answers known' trace failure)
    (front : List Callback) (hknown : ∀ d ∈ known', d ∈ known ∨ .decode d ∈ front) :
    ModuleFails files answers known (front ++ trace) failure := by
  obtain ⟨m, above, hchain, hfails⟩ := h
  refine ⟨m, above, hchain, hfails.imp (fun hscan => hscan.append front hknown) ?_⟩
  rintro ⟨hanswer, front', rfl⟩
  exact ⟨hanswer, front ++ front', by rw [List.append_assoc]⟩

/-- **A course that fails ends with the callback that fails**: at a name of its agenda, or at the
innermost module of the chain. -/
theorem fails (h : Course files answers known chain agenda trace (.error failure)) :
    failure.chain = chain ∧ ScanFails files known agenda chain trace failure.error ∨
      ModuleFails files answers known trace failure := by
  generalize hending : (Except.error failure : Except Failure (List Soname)) = ending at h
  induction h with
  | done => cases hending
  | skip hknown _ ih =>
    exact (ih hending).imp_left fun hscan => ⟨hscan.1, hscan.2.cons (.inl hknown)⟩
  | @unretrieved _ _ rest name _ _ hfile =>
    cases hending
    exact .inl ⟨rfl, [], name, rest, rfl, by simp, .retrieve (List.nil_append _).symm hfile⟩
  | @malformed _ _ rest name _ _ hfile =>
    cases hending
    have htrace : [Callback.retrieve name, .decode name] = [.retrieve name] ++ [.decode name] := rfl
    exact .inl ⟨rfl, [], name, rest, rfl, by simp, .decode htrace hfile⟩
  | @stuck known chain _ name image trace _ _ hfile _ ih =>
    have hdeclares : files.declares name = image.deps := by simp [FileSet.declares, hfile]
    have hknown : ∀ d ∈ name :: known,
        d ∈ known ∨ .decode d ∈ [.retrieve name, Callback.decode name] := by
      intro d hd
      rcases List.mem_cons.mp hd with rfl | hd
      · exact .inr (by simp)
      · exact .inl hd
    right
    rcases ih hending with ⟨hchain, hscan⟩ | hmodule
    · refine ⟨name, chain, hchain, .inl ?_⟩
      rw [hdeclares, hchain]
      exact hscan.append [.retrieve name, .decode name] hknown
    · exact hmodule.append [.retrieve name, .decode name] hknown
  | @broken _ chain _ _ name _ _ _ _ _ _ hanswer =>
    cases hending
    exact .inr ⟨name, chain, rfl, .inr ⟨hanswer, _, rfl⟩⟩
  | @loaded known _ _ known' name _ trace _ _ _ _ hbelow _ _ _ ihrest =>
    -- the names that became known on the way are those that were decoded
    have hknown : ∀ d ∈ known',
        d ∈ known ∨ .decode d ∈ .retrieve name :: .decode name :: trace ++ [.relocate name] := by
      intro d hd
      rw [hbelow.mem_known_iff, List.mem_cons] at hd
      simp only [List.cons_append, List.mem_cons, List.mem_append, Callback.decode.injEq,
        reduceCtorEq, false_or]
      tauto
    rw [List.append_cons]
    rcases ihrest hending with ⟨hchain, hscan⟩ | hmodule
    · exact .inl ⟨hchain, (hscan.append _ hknown).cons (.inr (by simp))⟩
    · exact .inr (hmodule.append _ hknown)

/-- What a load of one name reports when it fails: which callback came last, and why it failed. -/
inductive Reported (files : FileSet) (answers : Soname → Except LinkError Unit)
    (known : List Soname) (name : Soname) (trace : List Callback) : Failure → Prop where
  /-- There is no file of the name that was asked for. -/
  | notFound {front : List Callback} (htrace : trace = front ++ [.retrieve name])
      (hfile : files.retrieve name = .error .notFound) :
      Reported files answers known name trace ⟨.ofCause (.notFound name), []⟩
  /-- There is no file of a dependency.  The module that needs it declares it, and all names that it
  declares earlier were known or have been decoded. -/
  | missing {front : List Callback} {n m : Soname} {above passed rest : List Soname}
      (htrace : trace = front ++ [.retrieve n]) (hfile : files.retrieve n = .error .notFound)
      (hdeclares : files.declares m = passed ++ n :: rest)
      (hpassed : ∀ d ∈ passed, d ∈ known ∨ .decode d ∈ trace) :
      Reported files answers known name trace ⟨.ofCause (.missingDependency n m), m :: above⟩
  /-- A file cannot be read. -/
  | unreadable {front : List Callback} {n : Soname} {reason : String} {chain : List Soname}
      (htrace : trace = front ++ [.retrieve n])
      (hfile : files.retrieve n = .error (.unreadable reason)) :
      Reported files answers known name trace ⟨.ofCause (.retrieveFailed n reason), chain⟩
  /-- A file is no module, and the error is that of decoding it. -/
  | malformed {front : List Callback} {n : Soname} {e : LinkError} {chain : List Soname}
      (htrace : trace = front ++ [.decode n]) (hfile : files.retrieve n = .ok (.malformed e)) :
      Reported files answers known name trace ⟨e, chain⟩
  /-- A module cannot be relocated, and the error is that of relocating it. -/
  | unrelocated {front : List Callback} {n : Soname} {e : LinkError} {above : List Soname}
      (htrace : trace = front ++ [.relocate n]) (hanswer : answers n = .error e) :
      Reported files answers known name trace ⟨e, n :: above⟩

/-- **A load of one name that fails reports the callback that failed.** -/
theorem reported (h : Course files answers known [] [name] trace (.error failure)) :
    Reported files answers known name trace failure := by
  obtain ⟨e, chain⟩ := failure
  rcases h.fails with ⟨hchain, passed, n, rest, hagenda, -, hfails⟩ |
    ⟨m, above, hchain, ⟨passed, n, rest, hdeclares, hpassed, hfails⟩ | ⟨hanswer, front, htrace⟩⟩
  · obtain rfl : chain = [] := hchain
    obtain ⟨rfl, rfl, rfl⟩ : passed = [] ∧ n = name ∧ rest = [] := by
      cases passed with
      | nil => simpa [eq_comm] using hagenda
      | cons => simp at hagenda
    dsimp only at hfails
    cases hfails with
    | @retrieve front failure htrace hfile =>
      cases failure with
      | notFound => exact .notFound htrace hfile
      | unreadable reason => exact .unreadable htrace hfile
    | decode htrace hfile => exact .malformed htrace hfile
  · obtain rfl : chain = m :: above := hchain
    dsimp only at hfails
    cases hfails with
    | @retrieve front failure htrace hfile =>
      cases failure with
      | notFound => exact .missing htrace hfile hdeclares hpassed
      | unreadable reason => exact .unreadable htrace hfile
    | decode htrace hfile => exact .malformed htrace hfile
  · obtain rfl : chain = m :: above := hchain
    exact .unrelocated htrace hanswer

/-! ## The chain -/

/-- The chain of a failure goes on from the one before it: each module is needed by the next, and
the outermost of the new ones is of the agenda. -/
theorem chain_eq (h : Course files answers known chain agenda trace (.error failure))
    (hagenda : ∀ m ∈ chain.head?, ∀ n ∈ agenda, n ∈ files.declares m)
    (hchain : chain.IsChain fun inner outer => inner ∈ files.declares outer) :
    (failure.chain.IsChain fun inner outer => inner ∈ files.declares outer) ∧
      ∃ inner, failure.chain = inner ++ chain ∧ ∀ n ∈ inner.getLast?, n ∈ agenda := by
  generalize hending : (Except.error failure : Except Failure (List Soname)) = ending at h
  induction h with
  | done => cases hending
  | skip _ _ ih =>
    obtain ⟨hfailure, inner, heq, hlast⟩ := ih
      (fun m hm n hn => hagenda m hm n (List.mem_cons_of_mem _ hn)) hchain hending
    exact ⟨hfailure, inner, heq, fun n hn => List.mem_cons_of_mem _ (hlast n hn)⟩
  | unretrieved _ _ =>
    cases hending
    exact ⟨hchain, [], rfl, by simp⟩
  | malformed _ _ =>
    cases hending
    exact ⟨hchain, [], rfl, by simp⟩
  | @stuck _ _ _ name image _ _ _ hfile _ ih =>
    have hdeclares : files.declares name = image.deps := by simp [FileSet.declares, hfile]
    have hlonger := List.isChain_cons.mpr
      ⟨fun m hm => hagenda m hm name List.mem_cons_self, hchain⟩
    obtain ⟨hfailure, inner, heq, -⟩ := ih (by simp [hdeclares]) hlonger hending
    exact ⟨hfailure, inner ++ [name], by simp [heq], by simp⟩
  | @broken _ _ _ _ name _ _ _ _ _ _ _ _ =>
    cases hending
    exact ⟨List.isChain_cons.mpr ⟨fun m hm => hagenda m hm name List.mem_cons_self, hchain⟩,
      [name], rfl, by simp⟩
  | loaded _ _ _ _ _ _ ihrest =>
    obtain ⟨hfailure, inner, heq, hlast⟩ := ihrest
      (fun m hm n hn => hagenda m hm n (List.mem_cons_of_mem _ hn)) hchain hending
    exact ⟨hfailure, inner, heq, fun n hn => List.mem_cons_of_mem _ (hlast n hn)⟩

end Course

end DynamicLinker
