/-
# Requests that are made twice

A request to open a module that is made again comes to the same.  If it has succeeded, the module is
loaded, is global if the mode says so, and nothing is left to initialise, so nothing happens.  If it
was refused, or the file that was asked for could not be fetched, the linker is as it was before.
And if the load got stuck later, a second load follows the first to where that got stuck, and
publishes no module on the way, so unwinding it leaves what the first has left.
-/
import DynamicLinker.Proofs.LoadOrder
import DynamicLinker.Proofs.Retries

namespace DynamicLinker

/-- The outcome of a request comes out again when the request is repeated. -/
structure Outcome.RepeatedBy (first second : Outcome Handle) : Prop where
  /-- The result is the same handle or the same error. -/
  result_eq : second.result = first.result
  /-- The loaded modules are the same, in the same order and with the same load biases and flags. -/
  loadedModules_eq : second.linker.loadedModules = first.linker.loadedModules
  /-- If the request has succeeded, nothing is asked of the surroundings. -/
  events_eq_nil {handle : Handle} : first.result = .ok handle → second.events = []

namespace Linker

variable {linker : Linker} {history : History} {files : FileSet} {name : Soname} {word : Int32}
  {handle : Handle} {begun last load : Load}

/-! ## Requests that succeed -/

/-- A request that succeeds ends with the issue of its handle. -/
lemma exists_issue (hopen : (linker.openModule files name word).result = .ok handle) :
    ∃ (mode : Mode) (before : Linker), Mode.ofRaw word = .ok mode ∧
      handle = ⟨before.id, handle.module⟩ ∧
      (linker.openModule files name word).linker = (before.issue handle.module mode).linker := by
  have hopening := linker.opening files name word
  generalize linker.openModule files name word = outcome at hopen hopening
  cases hopening with
  | refused _ => simp at hopen
  | stuck _ _ _ => simp at hopen
  | @found mode id hmode _ _ =>
    obtain rfl : (⟨linker.id, id⟩ : Handle) = handle := Except.ok.inj hopen
    exact ⟨mode, linker, hmode, rfl, rfl⟩
  | @loaded mode last hmode _ _ _ =>
    obtain rfl : (⟨last.linker.id, linker.modules.nextId⟩ : Handle) = handle :=
      Except.ok.inj hopen
    exact ⟨mode, last.linker, hmode, rfl, rfl⟩

/-- **When a request that has succeeded is repeated, nothing happens.** -/
theorem Sound.openModule_again (h : linker.Sound history)
    (hopen : (linker.openModule files name word).result = .ok handle) :
    (linker.openModule files name word).linker.openModule files name word
      = ⟨.ok handle, (linker.openModule files name word).linker, []⟩ := by
  have hafter := (h.openModule files name word).wellFormed
  obtain ⟨-, hnamed⟩ := h.named?_openModule hopen
  rw [← hafter.loadedNamed?_eq] at hnamed
  obtain ⟨mode, before, hmode, hhandle, hlinker⟩ := exists_issue hopen
  have hagain := before.issue_issue handle.module mode
  rw [← hhandle, ← hlinker] at hagain
  generalize (linker.openModule files name word).linker = after at hnamed hagain ⊢
  simp [Linker.openModule, hmode, obtain?, hnamed, hagain]

/-! ## Requests whose load gets stuck -/

/-- At every moment of a load, the outermost frame is for the name that was asked for. -/
lemma name_of_mem_getLast? (hfetch : (Load.start linker).fetch files none name = .ok begun)
    (hload : load ∈ begun.moments files) : ∀ frame ∈ load.frames.getLast?, frame.name = name := by
  refine Load.moments_step_induction
    (P := fun load => ∀ frame ∈ load.frames.getLast?, frame.name = name) ?_ (fun a b _ ha hab => ?_)
    hload
  · obtain ⟨image, -, rfl⟩ := Load.fetch_eq_ok hfetch
    simp [Load.start]
  · obtain ⟨frame, outer, hframes⟩ := Load.exists_frame_of_step? hab
    cases Load.advance_of_step? hab with
    | fetch _ _ hfetch' =>
      obtain ⟨image, -, rfl⟩ := Load.fetch_eq_ok hfetch'
      rw [hframes, List.getLast?_cons_cons, ← hframes]
      exact ha
    | @link frame' outer' dep deps target hframes' _ _ =>
      rw [hframes'] at ha
      cases outer' with
      | nil => simpa [Load.link] using ha
      | cons g outer' => simpa [Load.link] using ha
    | @relocate frame' outer' events hframes' _ _ =>
      rw [hframes'] at ha
      cases outer' with
      | nil => simp
      | cons g outer' => simpa using ha

/-- The name that was asked for is free again when its load got stuck. -/
lemma Sound.named?_unwind_eq_none (h : linker.Sound history)
    (hstarts : linker.startsLoad name word = true)
    (hfetch : (Load.start linker).fetch files none name = .ok begun)
    (hlast : (begun.moments files).getLast? = some last) (hframes : last.frames ≠ []) :
    last.unwind.modules.named? name = none := by
  have hmem := List.mem_of_getLast? (getLast?_moments_of_fetch hstarts hfetch hlast)
  have houtermost := List.getLast?_eq_some_getLast hframes
  have hname := name_of_mem_getLast? hfetch (List.mem_of_getLast? hlast) _ houtermost
  rw [← hname]
  exact (h.moment hmem).1.named?_unwind_of_frame (List.mem_of_getLast? houtermost)

/-- While a second load follows the first, it publishes nothing, so if it gets stuck there, it
leaves the loaded modules as they are. -/
lemma Sound.loadedModules_unwind_eq {between : Linker} {retry : Load}
    (h : between.Sound history) (hretry : retry ∈ between.moments files name word)
    (hfollows : load.Follows between retry) :
    retry.unwind.loadedModules = between.loadedModules := by
  have hproper := (h.moment hretry).1
  have hsince := h.inOrder.since hretry
  have hextends := hsince.kept.trans hproper.extends_unwind
  obtain ⟨new, horder, hmodules⟩ := hextends.loadedModules_eq h.inOrder.consistent
  rw [retry.order_unwind, hfollows.order_eq, List.self_eq_append_right] at horder
  have hinfo : retry.unwind.info = between.info := by
    funext m
    rw [info, retry.id_unwind, hsince.id_eq, info]
  rw [loadedModules_eq, loadedModules_eq, hmodules, horder, hinfo]
  simp

/-- A second load that is made when a first one got stuck gets stuck with the same error, and leaves
the same modules. -/
lemma Sound.load_again (h : linker.Sound history) (hstarts : linker.startsLoad name word = true)
    (hfetch : (Load.start linker).fetch files none name = .ok begun)
    (hlast : (begun.moments files).getLast? = some last) {e : LinkError} {stuck : Load}
    (hstep : last.step? files = some (.error (e, stuck)))
    (hstarts' : last.unwind.startsLoad name word = true) :
    ∃ after events, last.unwind.load files name = ⟨.error e, after, events⟩ ∧
      after.loadedModules = last.unwind.loadedModules := by
  obtain ⟨begun', hfetch'⟩ : ∃ begun',
      (Load.start last.unwind).fetch files none name = .ok begun' :=
    Load.exists_fetch_eq_ok _ hfetch
  obtain ⟨retry, hmem, hretry, hfollows⟩ :=
    Retry.exists_follower h hstarts hfetch hlast hstarts' hfetch'
  obtain ⟨stuck', hstuck⟩ := hretry.step?_eq_error hfollows hstep
  have hrun : begun'.run files = .error (e, stuck') := by
    rw [Load.run_eq_of_mem_moments hmem, Load.run_of_step?_error hstuck]
  refine ⟨stuck'.unwind, stuck'.events, by rw [load_of_fetch hfetch', hrun], ?_⟩
  rw [(Load.step?_eq_error hstuck).unwind_eq]
  exact hretry.sound_unwind.loadedModules_unwind_eq hretry.mem_retry hfollows

/-- **A request that is made twice comes to the same twice.**  If it succeeds, it gives the same
handle again, asks nothing of the surroundings, and changes nothing; if it fails, it fails with the
same error again, and leaves the loaded modules as the first failure has left them. -/
theorem Reached.openModule_twice (h : linker.Reached history) (files : FileSet) (name : Soname)
    (word : Int32) : (linker.openModule files name word).RepeatedBy
      ((linker.openModule files name word).linker.openModule files name word) := by
  have hsound := h.sound
  cases hopen : (linker.openModule files name word).result with
  | ok handle =>
    have hagain := hsound.openModule_again hopen
    rw [hagain]
    exact ⟨hopen.symm, rfl, fun _ => rfl⟩
  | error e =>
    -- a linker that is not changed answers in the same way
    have hsame : (linker.openModule files name word).linker = linker →
        (linker.openModule files name word).RepeatedBy
          ((linker.openModule files name word).linker.openModule files name word) := by
      intro hlinker
      rw [hlinker]
      exact ⟨rfl, rfl, by simp [hopen]⟩
    cases hstarts : linker.startsLoad name word with
    | false =>
      rcases openModule_of_not_startsLoad files hstarts with ⟨_, heq⟩ | ⟨_, _, _, _, heq⟩
      · exact hsame (by rw [heq])
      · simp [heq, issue] at hopen
    | true =>
      obtain ⟨mode, hmode, heq⟩ := openModule_of_startsLoad files hstarts
      have hloading := linker.loading files name
      generalize linker.load files name = outcome at hloading heq
      cases hloading with
      | missing hfetch => exact hsame (by rw [heq])
      | complete hfetch hlast hframes hrun => simp [heq, issue] at hopen
      | @stuck e' begun last stuck hfetch hlast hstep =>
        obtain ⟨frame, outer, hframes⟩ := Load.exists_frame_of_step? hstep
        have hfree := hsound.named?_unwind_eq_none hstarts hfetch hlast (by simp [hframes])
        have hstarts' : last.unwind.startsLoad name word = true := by
          simp only [startsLoad, hmode, Bool.and_eq_true] at hstarts ⊢
          exact ⟨by simp [LinkMap.loadedNamed?, hfree], hstarts.2⟩
        obtain ⟨after, events, hload, hmodules⟩ :=
          hsound.load_again hstarts hfetch hlast hstep hstarts'
        obtain ⟨_, -, heq'⟩ := openModule_of_startsLoad files hstarts'
        rw [hload] at heq'
        rw [heq] at hopen ⊢
        rw [heq']
        exact ⟨rfl, hmodules, fun hok => by simp at hok⟩

/-- A request for `a` fails, as `c`, which it needs, refers to a symbol that nobody defines.  Of the
other modules `k` is kept, and `b`, which needs `k` and `a`, is not.  The second request therefore
retrieves the files of `a`, `b` and `c` again, relocates `b` against `k` and the new `a`, and then
fails as the first did.  A request for `k` succeeds, and so does the second one. -/
theorem openModule_twice_of_cycle :
    ∃ (linker : Linker) (history : History) (files : FileSet) (e : LinkError),
      linker.Reached history ∧
      (linker.openModule files ⟨"a"⟩ 2).result = .error e ∧
      retrievals (linker.openModule files ⟨"a"⟩ 2).events = [⟨"a"⟩, ⟨"b"⟩, ⟨"k"⟩, ⟨"c"⟩] ∧
      (linker.openModule files ⟨"a"⟩ 2).linker.loadedNames = [⟨"k"⟩] ∧
      retrievals ((linker.openModule files ⟨"a"⟩ 2).linker.openModule files ⟨"a"⟩ 2).events
        = [⟨"a"⟩, ⟨"b"⟩, ⟨"c"⟩] ∧
      (linker.openModule files ⟨"a"⟩ 2).RepeatedBy
        ((linker.openModule files ⟨"a"⟩ 2).linker.openModule files ⟨"a"⟩ 2) ∧
      (linker.openModule files ⟨"k"⟩ 0x102).result = .ok ⟨1, 0⟩ ∧
      (linker.openModule files ⟨"k"⟩ 0x102).RepeatedBy
        ((linker.openModule files ⟨"k"⟩ 0x102).linker.openModule files ⟨"k"⟩ 0x102) := by
  let file (deps : List Soname) (symbols : List String) (references : List Reference) :
      StoredFile :=
    .readable (.module ⟨deps, .ofList (symbols.map (·, ⟨1, 8, .function⟩)), references, none⟩)
  let files : FileSet := .ofList [(⟨"a"⟩, file [⟨"b"⟩, ⟨"c"⟩] ["s"] []),
    (⟨"b"⟩, file [⟨"k"⟩, ⟨"a"⟩] [] [.required "s", .required "t"]), (⟨"k"⟩, file [] ["t"] []),
    (⟨"c"⟩, file [] [] [.required "u"])]
  let linker : Linker := ⟨1, ⟨0x1000, 0x1000⟩, .empty, []⟩
  have hcreate : Linker.create 1 ⟨0x1000, 0x1000⟩ [] = .ok linker := rfl
  have hreached := Reached.create hcreate
  have hfails : (linker.openModule files ⟨"a"⟩ 2).result
      = .error (.ofCause (.missingSymbol ⟨"c"⟩ "u")) := by decide +kernel
  exact ⟨linker, .start, files, _, hreached, hfails, by decide +kernel, by decide +kernel,
    by decide +kernel, hreached.openModule_twice files ⟨"a"⟩ 2, by decide +kernel,
    hreached.openModule_twice files ⟨"k"⟩ 0x102⟩

end Linker

end DynamicLinker
