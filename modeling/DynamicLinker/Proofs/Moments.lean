/-
# Moments of a linker

A load passes through moments: the one before the file that was asked for is retrieved, and
one after each step that succeeds.  At every moment but the last, the next thing that
happens is at most one request to the surroundings of the linker, so the moments are where
such a request can find a linker.  The events of a moment are those of steps that succeeded,
since a step that fails ends the load.

The main results are `Linker.opening`, on the ways in which a request to open a module can
go, and `Linker.moments_induction`, on what holds at every moment of it.
-/
import DynamicLinker.Linker.Call
import DynamicLinker.Proofs.Loading

namespace DynamicLinker

/-! ## Moments of a load -/

/-- The moments of a load from the given one on. -/
def Load.moments (files : FileSet) (load : Load) : List Load :=
  match _h : load.step? files with
  | some (.ok next) => load :: next.moments files
  | _ => [load]
termination_by load.stepsLeft files
decreasing_by exact stepsLeft_lt_of_step? _h

namespace Linker

/-- Does a request to open a module start a load? -/
def startsLoad (linker : Linker) (name : Soname) (word : Int32) : Bool :=
  match Mode.ofRaw word with
  | .error _ => false
  | .ok mode => (linker.modules.loadedNamed? name).isNone && !mode.noload

/-- The moments of the load that a request to open a module starts, if it starts one. -/
def moments (linker : Linker) (files : FileSet) (name : Soname) (word : Int32) : List Load :=
  if linker.startsLoad name word then
    match (Load.start linker).fetch files none name with
    | .ok load => Load.start linker :: load.moments files
    | .error _ => [Load.start linker]
  else []

/-- The events of the steps that succeed in the load that a request to open a module
starts. -/
def progress (linker : Linker) (files : FileSet) (name : Soname) (word : Int32) : List Event :=
  match (linker.moments files name word).getLast? with
  | some last => last.events
  | none => []

end Linker

/-! ## The course of a load -/

namespace Load

variable {files : FileSet} {load next : Load}

lemma moments_of_step? (h : load.step? files = some (.ok next)) :
    load.moments files = load :: next.moments files := by
  rw [moments]
  split
  · rename_i hstep
    rw [h] at hstep
    simp only [Option.some.injEq, Except.ok.injEq] at hstep
    rw [hstep]
  · rename_i hstop
    exact absurd h (hstop next)

lemma moments_of_stop (h : ∀ next, load.step? files ≠ some (.ok next)) :
    load.moments files = [load] := by
  rw [moments]
  split
  · rename_i next hstep
    exact absurd hstep (h next)
  · rfl

lemma head?_moments (files : FileSet) (load : Load) :
    (load.moments files).head? = some load := by
  rw [moments]
  split <;> rfl

lemma self_mem_moments (files : FileSet) (load : Load) : load ∈ load.moments files :=
  List.mem_of_mem_head? (by rw [head?_moments]; rfl)

/-- Each moment comes about from the one before by a step. -/
lemma isChain_moments (files : FileSet) (load : Load) :
    (load.moments files).IsChain (Advance files) := by
  fun_induction load.moments files with
  | case1 load next hstep ih =>
    refine List.isChain_cons.mpr ⟨fun y hy => ?_, ih⟩
    rw [head?_moments, Option.mem_some_iff] at hy
    rw [← hy]
    exact advance_of_step? hstep
  | case2 load hstop => exact List.isChain_singleton _

/-- A step leads from one moment to another. -/
lemma mem_moments_of_step? {first : Load} (hload : load ∈ first.moments files)
    (hstep : load.step? files = some (.ok next)) : next ∈ first.moments files := by
  fun_induction first.moments files with
  | case1 first second hsecond ih =>
    rcases List.mem_cons.mp hload with rfl | hload
    · rw [hstep] at hsecond
      obtain rfl : next = second := by simpa using hsecond
      exact List.mem_cons_of_mem _ (self_mem_moments files next)
    · exact List.mem_cons_of_mem _ (ih hload)
  | case2 first hstop =>
    rw [List.mem_singleton.mp hload] at hstep
    exact absurd hstep (hstop next)

/-- What holds of a load, and is kept by each step that it makes, holds at every moment of it. -/
lemma moments_step_induction {P : Load → Prop} (hload : P load)
    (hstep : ∀ a b, a ∈ load.moments files → P a → a.step? files = some (.ok b) → P b)
    {later : Load} (hlater : later ∈ load.moments files) : P later := by
  fun_induction load.moments files with
  | case1 load next hnext ih =>
    rcases List.mem_cons.mp hlater with rfl | hlater
    · exact hload
    · exact ih (hstep load next List.mem_cons_self hload hnext)
        (fun a b ha => hstep a b (List.mem_cons_of_mem _ ha)) hlater
  | case2 load hstop => rwa [List.mem_singleton.mp hlater]

/-- A load runs like each of its moments. -/
lemma run_eq_of_mem_moments {first : Load} (hload : load ∈ first.moments files) :
    first.run files = load.run files := by
  refine moments_step_induction (P := fun later => first.run files = later.run files) rfl
    (fun a b _ ha hab => ha.trans ?_) hload
  rw [run]
  split <;> simp_all

/-- A load whose next step fails runs no further. -/
lemma run_of_step?_error {stuck : Stuck} (h : load.step? files = some (.error stuck)) :
    load.run files = .error stuck := by
  rw [run]
  split <;> simp_all

/-- A load runs to its last moment, and there it is complete or its next step fails. -/
lemma run_cases (files : FileSet) (load : Load) :
    ∃ last, (load.moments files).getLast? = some last ∧
      (last.frames = [] ∧ load.run files = .ok last ∨
        ∃ stuck, last.step? files = some (.error stuck) ∧ load.run files = .error stuck) := by
  fun_induction load.run files with
  | case1 load hstep =>
    refine ⟨load, ?_, Or.inl ⟨frames_eq_nil_of_step? hstep, rfl⟩⟩
    rw [moments_of_stop (by simp [hstep])]
    rfl
  | case2 load stuck hstep =>
    refine ⟨load, ?_, Or.inr ⟨stuck, hstep, rfl⟩⟩
    rw [moments_of_stop (by simp [hstep])]
    rfl
  | case3 load next hstep ih =>
    obtain ⟨last, hlast, hrun⟩ := ih
    refine ⟨last, ?_, hrun⟩
    rw [moments_of_step? hstep, List.getLast?_cons, hlast]
    rfl

/-- A load runs to its last moment, and there it is complete or stuck. -/
lemma run_eq (files : FileSet) (load : Load) :
    ∃ last, (load.moments files).getLast? = some last ∧
      (last.frames = [] ∧ load.run files = .ok last ∨
        ∃ e stuck, last.StuckAt stuck ∧ load.run files = .error (e, stuck)) := by
  obtain ⟨last, hlast, hend⟩ := load.run_cases files
  refine ⟨last, hlast, hend.imp_right ?_⟩
  rintro ⟨⟨e, stuck⟩, hstep, hrun⟩
  exact ⟨e, stuck, step?_eq_error hstep, hrun⟩

/-- Being stuck changes nothing that unwinding depends on. -/
lemma StuckAt.unwind_eq {stuck : Load} (h : load.StuckAt stuck) : stuck.unwind = load.unwind := by
  obtain ⟨events, rfl, -⟩ := h
  rfl

end Load

namespace Linker

variable {linker : Linker} {files : FileSet} {name : Soname} {word : Int32} {load last : Load}

/-- Once the file that was asked for has been fetched, a load is a run from there on. -/
lemma load_of_fetch {begun : Load}
    (hfetch : (Load.start linker).fetch files none name = .ok begun) :
    linker.load files name =
      match begun.run files with
      | .ok done => ⟨.ok linker.modules.nextId, done.linker, done.events⟩
      | .error (e, stuck) => ⟨.error e, stuck.unwind, stuck.events⟩ := by
  rw [Linker.load, hfetch]
  rfl

/-- The result of loading a module, told by the last moment of the load. -/
lemma load_eq (files : FileSet) (hstarts : linker.startsLoad name word = true) :
    ∃ last, (linker.moments files name word).getLast? = some last ∧
      (last.frames = [] ∧
          linker.load files name = ⟨.ok linker.modules.nextId, last.linker, last.events⟩ ∨
        ∃ e stuck, last.StuckAt stuck ∧
          linker.load files name = ⟨.error e, last.unwind, stuck.events⟩) := by
  rw [moments, if_pos hstarts]
  cases hfetch : (Load.start linker).fetch files none name with
  | error failure =>
    obtain ⟨e, stuck⟩ := failure
    have hstuck := Load.fetch_eq_error hfetch
    refine ⟨Load.start linker, rfl, Or.inr ⟨e, stuck, hstuck, ?_⟩⟩
    rw [Linker.load, hfetch, ← hstuck.unwind_eq]
    rfl
  | ok begun =>
    obtain ⟨last, hlast, hrun⟩ := Load.run_eq files begun
    refine ⟨last, by simp [List.getLast?_cons, hlast], ?_⟩
    rw [load_of_fetch hfetch]
    rcases hrun with ⟨hframes, hrun⟩ | ⟨e, stuck, hstuck, hrun⟩
    · exact Or.inl ⟨hframes, by rw [hrun]⟩
    · exact Or.inr ⟨e, stuck, hstuck, by rw [hrun, ← hstuck.unwind_eq]⟩

/-- The ways in which a request to open a module can go. -/
inductive Opening (linker : Linker) (files : FileSet) (name : Soname) (word : Int32) :
    Outcome Handle → Prop where
  /-- The request is refused before anything happens. -/
  | refused {e : LinkError} (hmoments : linker.moments files name word = []) :
      Opening linker files name word ⟨.error e, linker, []⟩
  /-- The module is loaded already. -/
  | found {mode : Mode} {id : ModuleId} (hmode : Mode.ofRaw word = .ok mode)
      (hfound : linker.modules.loadedNamed? name = some id)
      (hmoments : linker.moments files name word = []) :
      Opening linker files name word (linker.issue id mode)
  /-- The load of the module gets stuck. -/
  | stuck {e : LinkError} {last stuck : Load} (hstarts : linker.startsLoad name word = true)
      (hlast : (linker.moments files name word).getLast? = some last)
      (hstuck : last.StuckAt stuck) :
      Opening linker files name word ⟨.error e, last.unwind, stuck.events⟩
  /-- The module is loaded. -/
  | loaded {mode : Mode} {last : Load} (hmode : Mode.ofRaw word = .ok mode)
      (hstarts : linker.startsLoad name word = true)
      (hlast : (linker.moments files name word).getLast? = some last)
      (hframes : last.frames = []) :
      Opening linker files name word
        { last.linker.issue linker.modules.nextId mode with
          events := last.events ++ (last.linker.issue linker.modules.nextId mode).events }

/-- Every request to open a module goes in one of these ways. -/
theorem opening (linker : Linker) (files : FileSet) (name : Soname) (word : Int32) :
    linker.Opening files name word (linker.openModule files name word) := by
  rw [openModule]
  cases hmode : Mode.ofRaw word with
  | error e => exact .refused (by simp [moments, startsLoad, hmode])
  | ok mode =>
    simp only [obtain?]
    cases hfound : linker.modules.loadedNamed? name with
    | some id => exact .found hmode hfound (by simp [moments, startsLoad, hmode, hfound])
    | none =>
      by_cases hnoload : mode.noload = true
      · simp only [hnoload, if_true]
        exact .refused (by simp [moments, startsLoad, hmode, hfound, hnoload])
      · have hstarts : linker.startsLoad name word = true := by
          simp [startsLoad, hmode, hfound, hnoload]
        obtain ⟨last, hlast, hend⟩ := linker.load_eq files hstarts
        rcases hend with ⟨hframes, hload⟩ | ⟨e, stuck, hstuck, hload⟩
        · simp only [hnoload, Bool.false_eq_true, if_false, hload]
          exact .loaded hmode hstarts hlast hframes
        · simp only [hnoload, Bool.false_eq_true, if_false, hload]
          exact .stuck hstarts hlast hstuck

/-! ## What holds at all moments -/

/-- A load is started only for a free name. -/
lemma named?_of_startsLoad (h : linker.InOrder []) (hstarts : linker.startsLoad name word = true) :
    linker.modules.named? name = none := by
  rw [startsLoad] at hstarts
  split at hstarts
  · simp at hstarts
  · simp only [Bool.and_eq_true, LinkMap.loadedNamed?, Option.isNone_iff_eq_none] at hstarts
    cases hnamed : linker.modules.named? name with
    | none => rfl
    | some id =>
      have hloaded := h.state?_eq_loaded (h.consistent.live_of_named hnamed)
      rw [hnamed] at hstarts
      simp [LinkMap.isLoaded_iff.mpr hloaded] at hstarts

lemma head?_moments (hload : load ∈ (linker.moments files name word).head?) :
    load = Load.start linker := by
  rw [moments] at hload
  split at hload
  · split at hload <;> exact (Option.mem_some_iff.mp hload).symm
  · simp at hload

lemma isChain_moments (h : linker.InOrder []) :
    (linker.moments files name word).IsChain (Load.Advance files) := by
  rw [moments]
  split
  · rename_i hstarts
    split
    · rename_i begun hfetch
      refine List.isChain_cons.mpr ⟨fun y hy => ?_, Load.isChain_moments files begun⟩
      rw [Load.head?_moments, Option.mem_some_iff] at hy
      rw [← hy]
      exact Load.advance_start (named?_of_startsLoad h hstarts) hfetch
    · exact List.isChain_singleton _
  · exact List.isChain_nil

/-- **What holds before a load and is kept by each step holds at every moment.** -/
theorem moments_induction {P : Load → Prop} (h : linker.InOrder [])
    (hstart : P (Load.start linker))
    (hadvance : ∀ a b, a.Proper → P a → Load.Advance files a b → P b)
    (hload : load ∈ linker.moments files name word) : load.Proper ∧ P load := by
  refine (isChain_moments h).induction (fun load => load.Proper ∧ P load) _ (fun a b hab ha => ?_)
    (fun hne => ?_) load hload
  · exact ⟨ha.1.advance hab, hadvance a b ha.1 ha.2 hab⟩
  · rw [head?_moments (List.head?_eq_some_head hne)]
    exact ⟨Load.Proper.start h, hstart⟩

lemma proper_of_mem_moments (h : linker.InOrder [])
    (hload : load ∈ linker.moments files name word) : load.Proper :=
  (moments_induction (P := fun _ => True) h trivial (fun _ _ _ _ _ => trivial) hload).1

/-- What holds between the two ends of each step, and of whole series of steps if it holds
of their parts, holds between any moment and the last. -/
lemma rel_last {R : Load → Load → Prop} (h : linker.InOrder []) (hrefl : ∀ a, R a a)
    (htrans : ∀ a b c, R a b → R b c → R a c)
    (hadvance : ∀ a b, a.Proper → Load.Advance files a b → R a b)
    (hload : load ∈ linker.moments files name word)
    (hlast : (linker.moments files name word).getLast? = some last) : R load last := by
  have hchain : (linker.moments files name word).IsChain R :=
    (isChain_moments h).imp_of_mem_imp fun a b ha _ hab =>
      hadvance a b (proper_of_mem_moments h ha) hab
  -- the induction goes backwards along the moments, from the last one
  refine hchain.backwards_induction (fun a => R a last) _ (fun a b hab hb => htrans a b last hab hb)
    (fun hne => ?_) load hload
  have hend := List.getLast?_eq_some_getLast hne
  rw [hlast, Option.some.injEq] at hend
  rw [← hend]
  exact hrefl last

/-- The last moment has all that was loaded at any moment, unchanged. -/
lemma extends_last (h : linker.InOrder []) (hload : load ∈ linker.moments files name word)
    (hlast : (linker.moments files name word).getLast? = some last) :
    load.linker.modules.Extends last.linker.modules :=
  rel_last (R := fun a b => a.linker.modules.Extends b.linker.modules) h
    (fun _ => LinkMap.Extends.refl _) (fun _ _ _ => LinkMap.Extends.trans)
    (fun _ _ hproper hab => hproper.extends_advance hab) hload hlast

end Linker

end DynamicLinker
