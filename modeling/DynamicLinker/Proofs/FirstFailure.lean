/-
# A load stops at the first failure

A load keeps its place in frames.  What its frames lead to is told by courses: the innermost frame
goes through the names that remain, its module is relocated, and then the next frame does the same.
So a load that is run does what a course does, step by step, whether it succeeds or fails: the known
names of the course are those that have a module, its chain is the names of the frames, and what it
takes relocations to answer is what they answer at the one moment at which each is made.

When a step fails nothing more is asked of the surroundings.  Every module that has a frame is
discarded, which asks for nothing, and the error is passed on as it is.
-/
import DynamicLinker.Proofs.Courses
import DynamicLinker.Proofs.LoadOrder
import DynamicLinker.Proofs.Retries

namespace DynamicLinker

/-! ## Callbacks of events -/

/-- The callback that an event tells of.  Binding references is part of a relocation. -/
def Event.callback? : Event → Option Callback
  | .retrieve name => some (.retrieve name)
  | .malformed name => some (.decode name)
  | .decode name _ => some (.decode name)
  | .relocate name => some (.relocate name)
  | .bind _ _ _ => none
  | .unbound _ _ _ => none
  | .init name => some (.init name)

/-- The callbacks that events tell of, in order. -/
def callbacks (events : List Event) : List Callback := events.filterMap Event.callback?

lemma callbacks_append (events events' : List Event) :
    callbacks (events ++ events') = callbacks events ++ callbacks events' :=
  List.filterMap_append

lemma callbacks_relocate {lm : LinkMap} {id : ModuleId} {name : Soname}
    {references : List Reference} {events : List Event} {result : Except LinkError Unit}
    (h : lm.relocate id name references = (events, result)) :
    callbacks events = [.relocate name] := by
  obtain rfl : (lm.relocate id name references).1 = events := by rw [h]
  have hrest : callbacks (bindReferences name (lm.bindingOf id name) references).1 = [] := by
    refine List.filterMap_eq_nil_iff.mpr fun event hevent => ?_
    rcases mem_bindReferences hevent with ⟨_, _, rfl⟩ | ⟨_, _, rfl⟩ <;> rfl
  exact congrArg (Callback.relocate name :: ·) hrest

namespace Load

variable {files : FileSet} {answers : Soname → Except LinkError Unit} {known : List Soname}
  {load next stuck last : Load} {frame new : Frame} {outer : List Frame} {name dep : Soname}
  {deps : List Soname} {image : Image} {trace : List Callback}
  {ending : Except Failure (List Soname)} {e : LinkError}

/-! ## Steps that fail -/

/-- The fetch of a file fails at its retrieval or at its decoding. -/
lemma fetch_fails {neededBy : Option Soname}
    (h : load.fetch files neededBy name = .error (e, stuck)) :
    (∃ failure, files.retrieve name = .error failure ∧ e = .ofCause (failure.cause name neededBy) ∧
        stuck = load.log [.retrieve name]) ∨
      files.retrieve name = .ok (.malformed e) ∧
        stuck = load.log [.retrieve name, .malformed name] := by
  rw [fetch] at h
  cases hfile : files.retrieve name with
  | error failure =>
    simp only [hfile, Except.error.injEq, Prod.mk.injEq] at h
    exact .inl ⟨failure, rfl, h.1.symm, h.2.symm⟩
  | ok file =>
    cases file with
    | malformed e' =>
      simp only [hfile, ObjectFile.decode, Except.error.injEq, Prod.mk.injEq] at h
      obtain ⟨rfl, rfl⟩ := h
      exact .inr ⟨rfl, by simp [log]⟩
    | module image => simp [hfile, ObjectFile.decode] at h

/-- A step that fails: it fetches the dependency at which the innermost frame is, or relocates the
module of that frame. -/
inductive Fails (files : FileSet) (load : Load) : LinkError → Load → Prop where
  /-- The file of the dependency cannot be retrieved. -/
  | retrieve {frame : Frame} {outer : List Frame} {dep : Soname} {deps : List Soname}
      {failure : RetrievalFailure}
      (hframes : load.frames = frame :: outer) (hremaining : frame.remaining = dep :: deps)
      (hfree : load.linker.modules.named? dep = none)
      (hfile : files.retrieve dep = .error failure) :
      Fails files load (.ofCause (failure.cause dep (some frame.name))) (load.log [.retrieve dep])
  /-- The file of the dependency is no module. -/
  | decode {frame : Frame} {outer : List Frame} {dep : Soname} {deps : List Soname} {e : LinkError}
      (hframes : load.frames = frame :: outer) (hremaining : frame.remaining = dep :: deps)
      (hfree : load.linker.modules.named? dep = none)
      (hfile : files.retrieve dep = .ok (.malformed e)) :
      Fails files load e (load.log [.retrieve dep, .malformed dep])
  /-- The module cannot be relocated. -/
  | relocate {frame : Frame} {outer : List Frame} {events : List Event} {e : LinkError}
      (hframes : load.frames = frame :: outer) (hremaining : frame.remaining = [])
      (hevents : load.linker.modules.relocate frame.module frame.name frame.references
        = (events, .error e)) : Fails files load e (load.log events)

lemma fails_of_step? (h : load.step? files = some (.error (e, stuck))) :
    Fails files load e stuck := by
  obtain ⟨frame, outer, hframes⟩ := exists_frame_of_step? h
  cases hremaining : frame.remaining with
  | nil =>
    rw [step?_of_done files hframes hremaining, Option.some.injEq, Load.relocate] at h
    rcases hevents : load.linker.modules.relocate frame.module frame.name frame.references
      with ⟨events, result⟩
    rw [hevents] at h
    cases result with
    | ok _ => simp at h
    | error e' =>
      simp only [Except.error.injEq, Prod.mk.injEq] at h
      obtain ⟨rfl, rfl⟩ := h
      exact .relocate hframes hremaining hevents
  | cons dep deps =>
    cases hfree : load.linker.modules.named? dep with
    | some target =>
      rw [step?_of_named files hframes hremaining hfree] at h
      simp at h
    | none =>
      rw [step?_of_free files hframes hremaining hfree, Option.some.injEq] at h
      rcases fetch_fails h with ⟨failure, hfile, rfl, rfl⟩ | ⟨hfile, rfl⟩
      · exact .retrieve hframes hremaining hfree hfile
      · exact .decode hframes hremaining hfree hfile

/-! ## What the frames lead to -/

/-- What the frames of a load lead to, when some names are known: the innermost one goes through the
names that remain, its module is relocated, and then come the others. -/
inductive Ahead (files : FileSet) (answers : Soname → Except LinkError Unit) :
    List Soname → List Frame → List Callback → Except Failure (List Soname) → Prop where
  /-- Without a frame nothing is left to do. -/
  | nil (known : List Soname) : Ahead files answers known [] [] (.ok known)
  /-- The load of a name that remains fails. -/
  | stuck {known : List Soname} {frame : Frame} {outer : List Frame} {trace : List Callback}
      {failure : Failure}
      (hbelow : Course files answers known (frame.name :: outer.map Frame.name) frame.remaining
        trace (.error failure)) : Ahead files answers known (frame :: outer) trace (.error failure)
  /-- The relocation of the module fails. -/
  | broken {known known' : List Soname} {frame : Frame} {outer : List Frame}
      {trace : List Callback} {e : LinkError}
      (hbelow : Course files answers known (frame.name :: outer.map Frame.name) frame.remaining
        trace (.ok known')) (hanswer : answers frame.name = .error e) :
      Ahead files answers known (frame :: outer) (trace ++ [.relocate frame.name])
        (.error ⟨e, frame.name :: outer.map Frame.name⟩)
  /-- The module is relocated, and the other frames follow. -/
  | done {known known' : List Soname} {frame : Frame} {outer : List Frame}
      {trace trace' : List Callback} {ending : Except Failure (List Soname)}
      (hbelow : Course files answers known (frame.name :: outer.map Frame.name) frame.remaining
        trace (.ok known')) (hanswer : answers frame.name = .ok ())
      (houter : Ahead files answers known' outer trace' ending) :
      Ahead files answers known (frame :: outer) (trace ++ .relocate frame.name :: trace') ending

/-- A frame may have one more dependency if that is known. -/
lemma Ahead.link (h : Ahead files answers known ({ frame with remaining := deps } :: outer) trace
    ending) (hdep : dep ∈ known) (hremaining : frame.remaining = dep :: deps) :
    Ahead files answers known (frame :: outer) trace ending := by
  have hskip : ∀ {trace ending},
      Course files answers known (frame.name :: outer.map Frame.name) deps trace ending →
      Course files answers known (frame.name :: outer.map Frame.name) frame.remaining trace
        ending :=
    fun hrest => hremaining ▸ .skip hdep hrest
  cases h with
  | stuck hbelow => exact .stuck (hskip hbelow)
  | broken hbelow hanswer => exact .broken (hskip hbelow) hanswer
  | done hbelow hanswer houter => exact .done (hskip hbelow) hanswer houter

/-- A frame that is at a new name goes on with the frame of that name, and then with its other
dependencies. -/
lemma Ahead.fetch (h : Ahead files answers (dep :: known) (new :: frame :: outer) trace ending)
    (hdep : dep ∉ known) (hremaining : frame.remaining = dep :: deps) (hname : new.name = dep)
    (hfile : files.retrieve dep = .ok (.module image)) (hnew : new.remaining = image.deps) :
    Ahead files answers known (frame :: outer) (.retrieve dep :: .decode dep :: trace) ending := by
  cases h with
  | stuck hbelow =>
    rw [hname, hnew] at hbelow
    exact .stuck (hremaining ▸ .stuck hdep hfile hbelow)
  | broken hbelow hanswer =>
    rw [hname, hnew] at hbelow
    rw [hname] at hanswer ⊢
    exact .stuck (hremaining ▸ .broken hdep hfile hbelow hanswer)
  | @done _ known' _ _ below _ _ hbelow hanswer houter =>
    rw [hname, hnew] at hbelow
    rw [hname] at hanswer ⊢
    -- when the load is back at the frame, the name at which it was is known
    have hmem : dep ∈ known' := hbelow.mem_known_iff.mpr (.inl List.mem_cons_self)
    have hvisit : ∀ {trace' ending},
        Course files answers known' (frame.name :: outer.map Frame.name) frame.remaining trace'
          ending →
        Course files answers known (frame.name :: outer.map Frame.name) frame.remaining
          (.retrieve dep :: .decode dep :: below ++ .relocate dep :: trace') ending := by
      intro trace' ending hrest
      rw [hremaining] at hrest ⊢
      exact .loaded hdep hfile hbelow hanswer (hrest.of_known hmem)
    cases houter with
    | stuck hrest => exact .stuck (hvisit hrest)
    | broken hrest hanswer' => simpa using Ahead.broken (hvisit hrest) hanswer'
    | done hrest hanswer' houter' => simpa using Ahead.done (hvisit hrest) hanswer' houter'

/-- The relocations that a load makes from some moment on answer as given. -/
def Answered (answers : Soname → Except LinkError Unit) (moments : List Load) : Prop :=
  ∀ load ∈ moments, ∀ frame outer, load.frames = frame :: outer → frame.remaining = [] →
    (load.linker.modules.relocate frame.module frame.name frame.references).2 = answers frame.name

/-- What a run brings, by the callbacks that it makes and the way in which it ends. -/
inductive Brings (load : Load) (trace : List Callback) :
    Except Failure (List Soname) → Except Stuck Load → Prop where
  /-- The run is complete. -/
  | complete {known : List Soname} {last : Load}
      (hevents : callbacks last.events = callbacks load.events ++ trace) :
      Brings load trace (.ok known) (.ok last)
  /-- A step fails, with the frames that there are. -/
  | stuck {e : LinkError} {stuck : Load} {chain : List Soname}
      (hchain : stuck.frames.map Frame.name = chain)
      (hevents : callbacks stuck.events = callbacks load.events ++ trace) :
      Brings load trace (.error ⟨e, chain⟩) (.error (e, stuck))

/-- What a run brings from the next moment on comes behind the callbacks of the step. -/
lemma Brings.of_next {step : List Callback} {result : Except Stuck Load}
    (h : next.Brings trace ending result)
    (hstep : callbacks next.events = callbacks load.events ++ step) :
    load.Brings (step ++ trace) ending result := by
  cases h with
  | complete hevents => exact .complete (by rw [hevents, hstep, List.append_assoc])
  | stuck hchain hevents => exact .stuck hchain (by rw [hevents, hstep, List.append_assoc])

/-- A step that fails does what the frames lead to, and there it ends. -/
lemma Fails.ahead {moments : List Load} (h : Fails files load e stuck)
    (hanswers : Answered answers moments) (hload : load ∈ moments)
    (hknown : ∀ n, n ∈ known ↔ (load.linker.modules.named? n).isSome) :
    ∃ trace, Ahead files answers known load.frames trace
        (.error ⟨e, stuck.frames.map Frame.name⟩) ∧
      callbacks stuck.events = callbacks load.events ++ trace := by
  cases h with
  | @retrieve frame outer dep deps failure hframes hremaining hfree hfile =>
    have hdep : dep ∉ known := by simp [hknown, hfree]
    refine ⟨[.retrieve dep], ?_, callbacks_append _ _⟩
    rw [log, hframes]
    refine .stuck ?_
    rw [hremaining]
    exact .unretrieved hdep hfile
  | @decode frame outer dep deps _ hframes hremaining hfree hfile =>
    have hdep : dep ∉ known := by simp [hknown, hfree]
    refine ⟨[.retrieve dep, .decode dep], ?_, callbacks_append _ _⟩
    rw [log, hframes]
    refine .stuck ?_
    rw [hremaining]
    exact .malformed hdep hfile
  | @relocate frame outer events _ hframes hremaining hevents =>
    have hanswer := hanswers load hload frame outer hframes hremaining
    rw [hevents] at hanswer
    have hbelow : Course files answers known (frame.name :: outer.map Frame.name)
        frame.remaining [] (.ok known) := hremaining ▸ .done known _
    refine ⟨[.relocate frame.name], ?_, ?_⟩
    · rw [log, hframes]
      simpa using Ahead.broken hbelow hanswer.symm
    · rw [log, callbacks_append, callbacks_relocate hevents]

/-- A step that succeeds is the first part of what the frames lead to: the frames at the next moment
lead to the rest, from the names that are known then. -/
lemma Advance.ahead {moments : List Load} (h : Advance files load next)
    (hframes : load.frames = frame :: outer) (hanswers : Answered answers moments)
    (hload : load ∈ moments) (hknown : ∀ n, n ∈ known ↔ (load.linker.modules.named? n).isSome) :
    ∃ known' step, (∀ n, n ∈ known' ↔ (next.linker.modules.named? n).isSome) ∧
      callbacks next.events = callbacks load.events ++ step ∧
      ∀ {trace ending}, Ahead files answers known' next.frames trace ending →
        Ahead files answers known load.frames (step ++ trace) ending := by
  cases h with
  | @fetch dep _ hfree hhead hfetch =>
    obtain ⟨deps, hremaining⟩ := hhead frame (by simp [hframes])
    obtain ⟨image, hfile, rfl⟩ := fetch_eq_ok hfetch
    have hdep : dep ∉ known := by simp [hknown, hfree]
    refine ⟨dep :: known, [.retrieve dep, .decode dep], fun n => ?_, callbacks_append _ _,
      fun hahead => ?_⟩
    · rw [LinkMap.named?_register, List.mem_cons, hknown]
      by_cases hn : n = dep <;> simp [hn]
    · rw [hframes] at hahead ⊢
      exact hahead.fetch hdep hremaining rfl hfile rfl
  | @link frame' outer' dep deps target hframes' hremaining hfound =>
    have hdep : dep ∈ known := by simp [hknown, hfound]
    refine ⟨known, [], fun n => (hknown n).trans ?_, (List.append_nil _).symm, fun hahead => ?_⟩
    · rw [← LinkMap.named?_addDep frame'.module target n]
      rfl
    · rw [hframes']
      exact hahead.link hdep hremaining
  | @relocate frame' outer' events hframes' hremaining hevents =>
    have hanswer := hanswers load hload frame' outer' hframes' hremaining
    rw [hevents] at hanswer
    have hbelow : Course files answers known (frame'.name :: outer'.map Frame.name)
        frame'.remaining [] (.ok known) := hremaining ▸ .done known _
    refine ⟨known, [.relocate frame'.name], fun n => (hknown n).trans ?_, ?_, fun hahead => ?_⟩
    · rw [named?_settle]
    · rw [callbacks_append, callbacks_relocate hevents]
    · rw [hframes']
      exact .done hbelow hanswer.symm hahead

/-- **A load that is run does what its frames lead to**, whether it succeeds or fails. -/
theorem ahead_of_run (hanswers : Answered answers (load.moments files))
    (hknown : ∀ n, n ∈ known ↔ (load.linker.modules.named? n).isSome) :
    ∃ trace ending, Ahead files answers known load.frames trace ending ∧
      load.Brings trace ending (load.run files) := by
  fun_induction load.run files generalizing known with
  | case1 load hstep =>
    rw [frames_eq_nil_of_step? hstep]
    exact ⟨[], .ok known, .nil known, .complete (List.append_nil _).symm⟩
  | case2 load stuck hstep =>
    obtain ⟨e, stuck⟩ := stuck
    obtain ⟨trace, hahead, hevents⟩ :=
      (fails_of_step? hstep).ahead hanswers (load.self_mem_moments files) hknown
    exact ⟨trace, _, hahead, .stuck rfl hevents⟩
  | case3 load next hstep ih =>
    obtain ⟨frame, outer, hframes⟩ := exists_frame_of_step? hstep
    obtain ⟨known', step, hknown', hevents, hback⟩ := (advance_of_step? hstep).ahead hframes
      hanswers (load.self_mem_moments files) hknown
    rw [moments_of_step? hstep] at hanswers
    have hlater : Answered answers (next.moments files) := fun at' hmem =>
      hanswers at' (List.mem_cons_of_mem _ hmem)
    obtain ⟨trace, ending, hahead, hbrings⟩ := ih hlater hknown'
    exact ⟨step ++ trace, ending, hback hahead, hbrings.of_next hevents⟩

/-! ## What relocations answer -/

/-- What the relocation of a module answers at a moment, if the module is the next to be
relocated. -/
def answer? (load : Load) (module : Soname) : Option (Except LinkError Unit) :=
  match load.frames with
  | [] => none
  | frame :: _ =>
    if frame.name = module ∧ frame.remaining = [] then
      some (load.linker.modules.relocate frame.module frame.name frame.references).2
    else none

lemma answer?_of_done (hframes : load.frames = frame :: outer) (hremaining : frame.remaining = []) :
    load.answer? frame.name
      = some (load.linker.modules.relocate frame.module frame.name frame.references).2 := by
  simp [answer?, hframes, hremaining]

/-- A module that answers at a moment has been relocated at the next one. -/
lemma Advance.mem_relocations (h : Advance files load next)
    (hname : name ∈ relocations load.events ∨ (load.answer? name).isSome) :
    name ∈ relocations next.events := by
  rcases hname with hold | hanswer
  · obtain ⟨new, hnew⟩ := h.events_grow
    rw [← hnew, relocations_append]
    exact List.mem_append_left _ hold
  · rw [answer?] at hanswer
    cases hframes : load.frames with
    | nil => simp [hframes] at hanswer
    | cons frame outer =>
      rw [hframes] at hanswer
      simp only [Option.isSome_ite] at hanswer
      obtain ⟨hframe, hremaining⟩ := hanswer
      cases h with
      | fetch hfree hhead hfetch =>
        obtain ⟨deps, hdeps⟩ := hhead frame (by simp [hframes])
        simp [hremaining] at hdeps
      | link hframes' hremaining' hfound =>
        rw [hframes] at hframes'
        obtain ⟨rfl, rfl⟩ := List.cons.inj hframes'
        simp [hremaining] at hremaining'
      | relocate hframes' _ hevents =>
        rw [hframes] at hframes'
        obtain ⟨rfl, rfl⟩ := List.cons.inj hframes'
        rw [relocations_append, relocations_relocate hevents, hframe]
        simp

end Load

namespace Linker

variable {linker : Linker} {history : History} {files : FileSet} {name : Soname} {word : Int32}
  {load begun last : Load} {e : LinkError}

/-- What the relocation of a module answers in the load that a request starts. -/
def relocationAnswer (linker : Linker) (files : FileSet) (name : Soname) (word : Int32)
    (module : Soname) : Except LinkError Unit :=
  ((linker.moments files name word).findSome? fun load => load.answer? module).getD (.ok ())

/-- **A module is relocated at one moment of a load at most**, so this is what its relocation
answers. -/
theorem InOrder.answered (h : linker.InOrder []) :
    Load.Answered (linker.relocationAnswer files name word) (linker.moments files name word) := by
  intro load hload frame outer hframes hremaining
  have hanswer := Load.answer?_of_done hframes hremaining
  let before (a b : Load) : Prop := frame.name ∈ relocations a.events ∨
    (a.answer? frame.name).isSome → frame.name ∈ relocations b.events
  have htrans : IsTrans Load before := ⟨fun _ _ _ hab hbc ha => hbc (.inl (hab ha))⟩
  have hpairs : (linker.moments files name word).Pairwise before :=
    ((isChain_moments h).imp fun _ _ hab => hab.mem_relocations).pairwise
  -- the module of a frame has not been relocated
  have hnot : frame.name ∉ relocations load.events := by
    intro hmem
    have hframe : frame ∈ load.frames := by simp [hframes]
    obtain ⟨id, hid, -, hout⟩ := (h.since hload).mem_relocations_iff.mp hmem
    rw [(proper_of_mem_moments h hload).named hframe, Option.some.injEq] at hid
    exact hout (hid ▸ List.mem_map_of_mem hframe)
  cases hfirst : (linker.moments files name word).findSome? fun load => load.answer? frame.name with
  | none =>
    have hnone := List.findSome?_eq_none_iff.mp hfirst load hload
    rw [hanswer] at hnone
    cases hnone
  | some result =>
    rw [relocationAnswer, hfirst, Option.getD_some]
    obtain ⟨front, first, back, hmoments, hresult, hnone⟩ := List.findSome?_eq_some_iff.mp hfirst
    rw [hmoments] at hload hpairs
    rcases List.mem_append.mp hload with hfront | hback
    · rw [hnone load hfront] at hanswer
      cases hanswer
    · rcases List.mem_cons.mp hback with rfl | hback
      · rw [hanswer] at hresult
        exact Option.some.inj hresult
      · have hlater := (List.pairwise_cons.mp (List.pairwise_append.mp hpairs).2.1).1 load hback
        exact absurd (hlater (.inr (by rw [hresult]; rfl))) hnot

/-! ## Loads and requests -/

/-- A load of one name ends as a course does: with the module, or with the error of the failure and
none of the modules that were being loaded. -/
inductive Ends (outcome : Outcome ModuleId) : Except Failure (List Soname) → Prop where
  /-- The load is complete. -/
  | complete {id : ModuleId} {known : List Soname} (hresult : outcome.result = .ok id) :
      Ends outcome (.ok known)
  /-- The load has failed. -/
  | stuck {failure : Failure} (hresult : outcome.result = .error failure.error)
      (habsent : ∀ n ∈ failure.chain, outcome.linker.modules.named? n = none) :
      Ends outcome (.error failure)

/-- A load that has begun goes on with the frame of the name that was asked for, and with nothing
else. -/
lemma course_of_begun {known : List Soname} {answers : Soname → Except LinkError Unit}
    (hname : name ∉ known) (hfetch : (Load.start linker).fetch files none name = .ok begun)
    (hknown : ∀ n, n ∈ known ↔ (linker.modules.named? n).isSome)
    (hanswers : Load.Answered answers (begun.moments files)) :
    ∃ trace ending, Course files answers known [] [name] trace ending ∧
      (Load.start linker).Brings trace ending (begun.run files) := by
  obtain ⟨image, hfile, rfl⟩ := Load.fetch_eq_ok hfetch
  have hbegun : ∀ n, n ∈ name :: known ↔ ((linker.modules.register
      ⟨name, (linker.space.place image.bias?).1, image.exports, false⟩).named? n).isSome := by
    intro n
    rw [LinkMap.named?_register, List.mem_cons, hknown]
    by_cases hn : n = name <;> simp [hn]
  obtain ⟨trace, ending, hahead, hbrings⟩ := Load.ahead_of_run hanswers hbegun
  refine ⟨_, ending, ?_, hbrings.of_next (callbacks_append _ _)⟩
  cases hahead with
  | stuck hbelow => exact .stuck hname hfile hbelow
  | broken hbelow hanswer => exact .broken hname hfile hbelow hanswer
  | done hbelow hanswer houter =>
    cases houter
    exact .loaded hname hfile hbelow hanswer (.done _ _)

/-- **A load follows the course of its name**, from the names that are loaded. -/
theorem Sound.course_of_load (h : linker.Sound history) (files : FileSet)
    (hstarts : linker.startsLoad name word = true) :
    ∃ ending, Course files (linker.relocationAnswer files name word) linker.loadedNames [] [name]
        (callbacks (linker.load files name).events) ending ∧
      Ends (linker.load files name) ending := by
  have hfree := named?_of_startsLoad h.inOrder hstarts
  have hname : name ∉ linker.loadedNames := by simp [h.mem_loadedNames, hfree]
  have hanswers : ∀ {begun}, (Load.start linker).fetch files none name = .ok begun →
      Load.Answered (linker.relocationAnswer files name word) (begun.moments files) := by
    intro begun hfetch load hload
    refine h.inOrder.answered load ?_
    rw [moments_of_fetch hstarts hfetch]
    exact List.mem_cons_of_mem _ hload
  have hloading := linker.loading files name
  generalize linker.load files name = outcome at hloading ⊢
  cases hloading with
  | missing hfetch =>
    rcases Load.fetch_fails hfetch with ⟨failure, hfile, rfl, rfl⟩ | ⟨hfile, rfl⟩
    · exact ⟨_, .unretrieved hname hfile, .stuck rfl (by simp)⟩
    · exact ⟨_, .malformed hname hfile, .stuck rfl (by simp)⟩
  | @stuck e begun last stuck hfetch hlast hstep =>
    have hmem := List.mem_of_getLast? hlast
    have hrun : begun.run files = .error (e, stuck) :=
      (Load.run_eq_of_mem_moments hmem).trans (Load.run_of_step?_error hstep)
    obtain ⟨trace, ending, hcourse, hbrings⟩ :=
      course_of_begun hname hfetch (fun _ => h.mem_loadedNames) (hanswers hfetch)
    rw [hrun] at hbrings
    cases hbrings with
    | @stuck _ _ chain hchain hevents =>
      obtain rfl : callbacks stuck.events = trace := hevents
      refine ⟨.error ⟨e, chain⟩, hcourse, .stuck rfl fun n hn => ?_⟩
      -- the modules of the chain have frames when the step fails
      obtain ⟨events, rfl, -⟩ := Load.step?_eq_error hstep
      rw [← hchain] at hn
      obtain ⟨frame, hframe, rfl⟩ := List.mem_map.mp hn
      have hproper := proper_of_mem_moments h.inOrder
        (moments_of_fetch hstarts hfetch ▸ List.mem_cons_of_mem _ hmem)
      exact hproper.named?_unwind_of_frame hframe
  | @complete begun last hfetch hlast hframes hrun =>
    obtain ⟨trace, ending, hcourse, hbrings⟩ :=
      course_of_begun hname hfetch (fun _ => h.mem_loadedNames) (hanswers hfetch)
    rw [hrun] at hbrings
    cases hbrings with
    | complete hevents =>
      obtain rfl : callbacks last.events = trace := hevents
      exact ⟨_, hcourse, .complete rfl⟩

/-- What a request to open a module has come to that fails while it loads the module. -/
structure StopsAtFailure (linker : Linker) (files : FileSet) (name : Soname)
    (answers : Soname → Except LinkError Unit) (outcome : Outcome Handle) (failure : Failure) :
    Prop where
  /-- The error is that of the failure. -/
  result_eq : outcome.result = .error failure.error
  /-- The callbacks are those of the recursive load, up to the one that fails. -/
  course : Course files answers linker.loadedNames [] [name] (callbacks outcome.events)
    (.error failure)
  /-- The recursive load makes no others. -/
  unique {trace : List Callback} {ending : Except Failure (List Soname)} :
    Course files answers linker.loadedNames [] [name] trace ending →
      trace = callbacks outcome.events ∧ ending = .error failure
  /-- The error tells which callback failed: it is the last one. -/
  reported : Course.Reported files answers linker.loadedNames name (callbacks outcome.events)
    failure
  /-- Each module of the chain is needed by the next. -/
  declared : failure.chain.IsChain fun inner outer => inner ∈ files.declares outer
  /-- The outermost module of the chain is the one that was asked for. -/
  outermost {n : Soname} : n ∈ failure.chain.getLast? → n = name
  /-- The modules of the chain are not in the global list afterwards. -/
  absent {n : Soname} : n ∈ failure.chain → n ∉ outcome.linker.loadedNames

/-- **A request that fails while it loads stops at the first failure in depth-first order, and
reports just that failure.**  The answers of relocations are those that were given in the load. -/
theorem Reached.stopsAtFailure (h : linker.Reached history)
    (hstarts : linker.startsLoad name word = true)
    (hfail : (linker.openModule files name word).result = .error e) :
    Load.Answered (linker.relocationAnswer files name word) (linker.moments files name word) ∧
      ∃ chain, linker.StopsAtFailure files name (linker.relocationAnswer files name word)
        (linker.openModule files name word) ⟨e, chain⟩ := by
  have hafter := h.sound.openModule files name word
  obtain ⟨ending, hcourse, hends⟩ := h.sound.course_of_load files hstarts
  obtain ⟨mode, -, hopen⟩ := openModule_of_startsLoad files hstarts
  refine ⟨h.sound.inOrder.answered, ?_⟩
  rw [hopen] at hafter hfail ⊢
  generalize linker.load files name = loaded at hafter hfail hcourse hends ⊢
  obtain ⟨result, after, events⟩ := loaded
  cases hends with
  | complete hresult =>
    obtain rfl : result = .ok _ := hresult
    simp [Linker.issue] at hfail
  | @stuck failure hresult habsent =>
    obtain rfl : result = .error failure.error := hresult
    obtain rfl : failure.error = e := Except.error.inj hfail
    obtain ⟨hchain, inner, hinner, hlast⟩ := hcourse.chain_eq (by simp) List.isChain_nil
    rw [List.append_nil] at hinner
    refine ⟨failure.chain, rfl, hcourse, fun hother => hother.unique hcourse, hcourse.reported,
      hchain, fun {n} hn => ?_, fun {n} hn => ?_⟩
    · exact List.mem_singleton.mp (hlast n (hinner ▸ hn))
    · rw [hafter.mem_loadedNames, habsent n hn]
      simp

/-- The module `k` is loaded.  A request for `a`, which needs `k` and `b`, finds out that `b` needs
`c`, `a` and `m`: `c` is loaded, `a` is there, although it is still loading, and `m` has no file.
So `m` is reported as missing for `b`, and neither `b` nor `a` is left, but `c` is. -/
theorem stopsAtFailure_of_missing :
    ∃ (linker : Linker) (history : History) (files : FileSet) (e : LinkError),
      linker.Reached history ∧ linker.loadedNames = [⟨"k"⟩] ∧
      linker.startsLoad ⟨"a"⟩ 2 = true ∧
      (linker.openModule files ⟨"a"⟩ 2).result = .error e ∧
      e = .ofCause (.missingDependency ⟨"m"⟩ ⟨"b"⟩) ∧
      callbacks (linker.openModule files ⟨"a"⟩ 2).events
        = [.retrieve ⟨"a"⟩, .decode ⟨"a"⟩, .retrieve ⟨"b"⟩, .decode ⟨"b"⟩, .retrieve ⟨"c"⟩,
          .decode ⟨"c"⟩, .relocate ⟨"c"⟩, .retrieve ⟨"m"⟩] ∧
      (linker.openModule files ⟨"a"⟩ 2).linker.loadedNames = [⟨"k"⟩, ⟨"c"⟩] ∧
      ∃ chain, linker.StopsAtFailure files ⟨"a"⟩ (linker.relocationAnswer files ⟨"a"⟩ 2)
        (linker.openModule files ⟨"a"⟩ 2) ⟨e, chain⟩ := by
  let files : FileSet := .ofDeps [(⟨"a"⟩, [⟨"k"⟩, ⟨"b"⟩]), (⟨"b"⟩, [⟨"c"⟩, ⟨"a"⟩, ⟨"m"⟩]),
    (⟨"c"⟩, []), (⟨"k"⟩, [])]
  let created : Linker := ⟨1, ⟨0x1000, 0x1000⟩, .empty, []⟩
  let linker := (created.perform files (.openModule ⟨"k"⟩ 2)).linker
  have hcreate : Linker.create 1 ⟨0x1000, 0x1000⟩ [] = .ok created := rfl
  have hreached : linker.Reached _ := (Reached.create hcreate).perform files (.openModule ⟨"k"⟩ 2)
  have hstarts : linker.startsLoad ⟨"a"⟩ 2 = true := by decide +kernel
  let e : LinkError := .ofCause (.missingDependency ⟨"m"⟩ ⟨"b"⟩)
  have hfail : (linker.openModule files ⟨"a"⟩ 2).result = .error e := by
    have herror : (match (linker.openModule files ⟨"a"⟩ 2).result with
      | .error e' => some e'
      | .ok _ => none) = some e := by decide +kernel
    cases hresult : (linker.openModule files ⟨"a"⟩ 2).result with
    | error e' => simpa [hresult] using herror
    | ok handle => simp [hresult] at herror
  exact ⟨linker, _, files, e, hreached, by decide +kernel, hstarts, hfail, rfl, by decide +kernel,
    by decide +kernel, (hreached.stopsAtFailure hstarts hfail).2⟩

end Linker

end DynamicLinker
