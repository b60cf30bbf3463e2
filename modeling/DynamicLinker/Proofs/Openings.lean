/-
# What a request to open a module comes to

A request that succeeds gives the handle of the module that then has the name.  To say more, the
course of the load is needed: it begins when the file that was asked for has been fetched, and
from there every step is one of the load, up to the moment at which no frame is left or the next
step fails.
-/
import DynamicLinker.Proofs.Progress
import DynamicLinker.Proofs.Runs

namespace DynamicLinker

namespace Linker

/-- The ways in which the load of a module can go. -/
inductive Loading (linker : Linker) (files : FileSet) (name : Soname) :
    Outcome ModuleId → Prop where
  /-- The file that was asked for cannot be fetched. -/
  | missing {e : LinkError} {stuck : Load}
      (hfetch : (Load.start linker).fetch files none name = .error (e, stuck)) :
      Loading linker files name ⟨.error e, linker, stuck.events⟩
  /-- A later step fails. -/
  | stuck {e : LinkError} {begun last stuck : Load}
      (hfetch : (Load.start linker).fetch files none name = .ok begun)
      (hlast : (begun.moments files).getLast? = some last)
      (hstep : last.step? files = some (.error (e, stuck))) :
      Loading linker files name ⟨.error e, last.unwind, stuck.events⟩
  /-- All steps succeed. -/
  | complete {begun last : Load}
      (hfetch : (Load.start linker).fetch files none name = .ok begun)
      (hlast : (begun.moments files).getLast? = some last) (hframes : last.frames = [])
      (hrun : begun.run files = .ok last) :
      Loading linker files name ⟨.ok linker.modules.nextId, last.linker, last.events⟩

variable {linker : Linker} {history : History} {files : FileSet} {name : Soname} {word : Int32}
  {handle : Handle} {begun last : Load}

/-- Every load goes in one of these ways. -/
theorem loading (linker : Linker) (files : FileSet) (name : Soname) :
    linker.Loading files name (linker.load files name) := by
  cases hfetch : (Load.start linker).fetch files none name with
  | error failure =>
    obtain ⟨e, stuck⟩ := failure
    have hunwind : stuck.unwind = linker := (Load.fetch_eq_error hfetch).unwind_eq
    have hmissing := Loading.missing hfetch
    rw [load, hfetch]
    rw [← hunwind] at hmissing ⊢
    exact hmissing
  | ok begun =>
    rw [load_of_fetch hfetch]
    obtain ⟨last, hlast, hend⟩ := begun.run_cases files
    rcases hend with ⟨hframes, hrun⟩ | ⟨⟨e, stuck⟩, hstep, hrun⟩
    · rw [hrun]
      exact .complete hfetch hlast hframes hrun
    · rw [hrun]
      have hunwind := (Load.step?_eq_error hstep).unwind_eq
      have hstuck := Loading.stuck hfetch hlast hstep
      rw [← hunwind] at hstuck
      exact hstuck

/-- The moments of a load that has begun. -/
lemma moments_of_fetch (hstarts : linker.startsLoad name word = true)
    (hfetch : (Load.start linker).fetch files none name = .ok begun) :
    linker.moments files name word = Load.start linker :: begun.moments files := by
  rw [moments, if_pos hstarts, hfetch]

lemma mem_moments_of_fetch (hstarts : linker.startsLoad name word = true)
    (hfetch : (Load.start linker).fetch files none name = .ok begun) :
    begun ∈ linker.moments files name word := by
  rw [moments_of_fetch hstarts hfetch]
  exact List.mem_cons_of_mem _ (begun.self_mem_moments files)

/-- The module that was asked for is mapped by the first step of the load. -/
lemma mapping?_of_fetch (hfetch : (Load.start linker).fetch files none name = .ok begun) :
    ∃ mapping, begun.linker.modules.mapping? linker.modules.nextId = some mapping ∧
      mapping.name = name := by
  obtain ⟨image, -, rfl⟩ := Load.fetch_eq_ok hfetch
  exact ⟨_, LinkMap.mapping?_register.trans (if_pos rfl), rfl⟩

lemma getLast?_moments_of_fetch (hstarts : linker.startsLoad name word = true)
    (hfetch : (Load.start linker).fetch files none name = .ok begun)
    (hlast : (begun.moments files).getLast? = some last) :
    (linker.moments files name word).getLast? = some last := by
  rw [moments_of_fetch hstarts hfetch, List.getLast?_cons, hlast]
  rfl

/-- A request that starts a load goes on with what the load gives. -/
lemma openModule_of_startsLoad (files : FileSet) (hstarts : linker.startsLoad name word = true) :
    ∃ mode, Mode.ofRaw word = .ok mode ∧ linker.openModule files name word =
      match linker.load files name with
      | ⟨.error e, after, events⟩ => ⟨.error e, after, events⟩
      | ⟨.ok id, after, events⟩ =>
        { after.issue id mode with events := events ++ (after.issue id mode).events } := by
  rw [startsLoad] at hstarts
  split at hstarts
  · simp at hstarts
  · rename_i mode hmode
    simp only [Bool.and_eq_true, Option.isNone_iff_eq_none, Bool.not_eq_true'] at hstarts
    refine ⟨mode, hmode, ?_⟩
    rcases hload : linker.load files name with ⟨result, after, events⟩
    cases result <;> simp [openModule, hmode, obtain?, hstarts.1, hstarts.2, hload]

/-- A request that starts no load has an error of its own, or finds the module. -/
lemma openModule_of_not_startsLoad (files : FileSet)
    (hstarts : linker.startsLoad name word = false) :
    (∃ e, linker.openModule files name word = ⟨.error e, linker, []⟩) ∨
      ∃ mode id, Mode.ofRaw word = .ok mode ∧ linker.modules.loadedNamed? name = some id ∧
        linker.openModule files name word = linker.issue id mode := by
  rw [startsLoad] at hstarts
  rw [openModule]
  cases hmode : Mode.ofRaw word with
  | error e => exact Or.inl ⟨e, rfl⟩
  | ok mode =>
    simp only [hmode, Bool.and_eq_false_iff, Option.isNone_eq_false_iff,
      Bool.not_eq_false'] at hstarts
    simp only [obtain?]
    cases hfound : linker.modules.loadedNamed? name with
    | some id => exact Or.inr ⟨mode, id, rfl, rfl, rfl⟩
    | none =>
      have hnoload : mode.noload = true := hstarts.resolve_left (by simp [hfound])
      exact Or.inl ⟨.ofCause (.notFound name), by simp [hnoload]⟩

/-- A request that succeeds although its name was free has loaded the module. -/
lemma exists_complete (hfree : linker.modules.loadedNamed? name = none)
    (hopen : (linker.openModule files name word).result = .ok handle) :
    ∃ mode begun last, linker.startsLoad name word = true ∧
      (Load.start linker).fetch files none name = .ok begun ∧
      begun.run files = .ok last ∧ last.frames = [] ∧
      (linker.moments files name word).getLast? = some last ∧
      linker.openModule files name word =
        { last.linker.issue linker.modules.nextId mode with
          events := last.events ++ (last.linker.issue linker.modules.nextId mode).events } := by
  cases hstarts : linker.startsLoad name word with
  | false =>
    rcases openModule_of_not_startsLoad files hstarts with ⟨e, heq⟩ | ⟨_, id, _, hid, _⟩
    · simp [heq] at hopen
    · simp [hfree] at hid
  | true =>
    obtain ⟨mode, -, heq⟩ := openModule_of_startsLoad files hstarts
    have hloading := linker.loading files name
    generalize linker.load files name = outcome at hloading heq
    cases hloading with
    | missing _ => simp [heq] at hopen
    | stuck _ _ _ => simp [heq] at hopen
    | @complete begun last hfetch hlast hframes hrun =>
      exact ⟨mode, begun, last, rfl, hfetch, hrun, hframes,
        getLast?_moments_of_fetch hstarts hfetch hlast, heq⟩

/-! ## The handle -/

/-- **A request that succeeds gives the handle of the module that then has the name.** -/
theorem Sound.named?_openModule (h : linker.Sound history)
    (hopen : (linker.openModule files name word).result = .ok handle) :
    handle.linker = linker.id ∧
      (linker.openModule files name word).linker.modules.named? name = some handle.module := by
  have hafter := (h.openModule files name word).inOrder.consistent
  cases hfree : linker.modules.loadedNamed? name with
  | some id =>
    have hstarts : linker.startsLoad name word = false := by
      rw [startsLoad]
      cases Mode.ofRaw word <;> simp [hfree]
    rcases openModule_of_not_startsLoad files hstarts with ⟨e, heq⟩ | ⟨mode, i, _, hi, heq⟩
    · simp [heq] at hopen
    · rw [heq] at hopen hafter ⊢
      obtain rfl : (⟨linker.id, i⟩ : Handle) = handle := Except.ok.inj hopen
      refine ⟨rfl, ?_⟩
      obtain ⟨mapping, hmapping, hname⟩ :=
        h.inOrder.consistent.named_iff.mp (Option.filter_eq_some_iff.mp hi).1
      rw [hafter.named_iff]
      exact ⟨mapping, ((linker.alike_issue i mode).mapping?_eq i).trans hmapping, hname⟩
  | none =>
    obtain ⟨mode, begun, last, hstarts, hfetch, hrun, hframes, hlast, heq⟩ :=
      exists_complete hfree hopen
    rw [heq] at hopen hafter ⊢
    have hid := (h.inOrder.since (List.mem_of_getLast? hlast)).id_eq
    obtain rfl : (⟨last.linker.id, linker.modules.nextId⟩ : Handle) = handle :=
      Except.ok.inj hopen
    -- what is mapped by the first step of the load stays
    obtain ⟨mapping, hmapping, hname⟩ := mapping?_of_fetch hfetch
    have hlast' := h.inOrder.mapping?_last (mem_moments_of_fetch hstarts hfetch) hlast hmapping
    refine ⟨hid, hafter.named_iff.mpr ⟨mapping, ?_, hname⟩⟩
    exact ((last.linker.alike_issue _ mode).mapping?_eq _).trans hlast'

end Linker

end DynamicLinker
