/-
# Loading a module

A load keeps a stack of frames, one for each module that is being loaded, the innermost
one in front.  A frame remembers which of the declared dependencies of its module are
still to be linked.  One step of a load works on the innermost frame:

* if the next dependency has a module, loaded or not, the dependency is recorded;
* if it has none, its file is retrieved and decoded, and a frame for it is put in front;
* if no dependency is left, the module is relocated and its frame is done.

In the second case the dependency stays in its frame, and is recorded by a later step,
when the new frame is done.  So each step asks at most one thing of the surroundings of
the linker, and what the linker looks like at that moment is a state of the load.

When a step fails, every module that has a frame is discarded, innermost first, together
with the modules bound to it.

The main result is `stepsLeft_lt_of_step?`: a step that succeeds leaves less to do, so a
load ends whatever the files are.
-/
import DynamicLinker.Linker.Basic
import DynamicLinker.Relocation

namespace DynamicLinker

/-- A module that is being loaded. -/
structure Frame where
  /-- The number of the module. -/
  module : ModuleId
  /-- The name of the module. -/
  name : Soname
  /-- The declared dependencies that are not recorded yet. -/
  remaining : List Soname
  /-- The references to bind once all dependencies are recorded. -/
  references : List Reference
deriving DecidableEq

/-- A load in progress. -/
structure Load where
  /-- The linker. -/
  linker : Linker
  /-- The modules that are being loaded, the innermost one in front. -/
  frames : List Frame
  /-- What was asked of the surroundings so far. -/
  events : List Event
deriving DecidableEq

namespace Load

/-- The load that has not begun. -/
def start (linker : Linker) : Load := ⟨linker, [], []⟩

/-- Append to the events of a load. -/
def log (load : Load) (events : List Event) : Load := { load with events := load.events ++ events }

/-- An error, and the load as it is at that moment. -/
abbrev Stuck := LinkError × Load

/-- Retrieve and decode the file of a name, and begin to load it. -/
def fetch (files : FileSet) (neededBy : Option Soname) (name : Soname) (load : Load) :
    Except Stuck Load :=
  let asked := load.log [.retrieve name]
  match files.retrieve name with
  | .error failure => .error (.ofCause (failure.cause name neededBy), asked)
  | .ok file =>
    match file.decode with
    | .error e => .error (e, asked.log [.malformed name])
    | .ok image =>
      let (bias, space) := load.linker.space.place image.bias?
      let frame : Frame := ⟨load.linker.modules.nextId, name, image.deps, image.references⟩
      let mapped := load.linker.modules.register ⟨name, bias, image.exports, false⟩
      .ok
        { linker := { load.linker with space, modules := mapped }
          frames := frame :: load.frames
          events := asked.events ++ [.decode name bias] }

/-- Record a dependency of the module of the innermost frame. -/
def link (load : Load) (frame : Frame) (deps : List Soname) (outer : List Frame)
    (target : ModuleId) : Load :=
  { load with
    linker := load.linker.withModules fun lm => lm.addDep frame.module target
    frames := { frame with remaining := deps } :: outer }

/-- Relocate the module of the innermost frame, which is done if that succeeds. -/
def relocate (load : Load) (frame : Frame) (outer : List Frame) : Except Stuck Load :=
  let (events, result) := load.linker.modules.relocate frame.module frame.name frame.references
  match result with
  | .error e => .error (e, load.log events)
  | .ok () => .ok ⟨load.linker.settle frame.module, outer, load.events ++ events⟩

/-- One step of a load, unless it is complete. -/
def step? (files : FileSet) (load : Load) : Option (Except Stuck Load) :=
  match load.frames with
  | [] => none
  | frame :: outer =>
    match frame.remaining with
    | [] => some (load.relocate frame outer)
    | dep :: deps =>
      match load.linker.modules.named? dep with
      | some target => some (.ok (load.link frame deps outer target))
      | none => some (load.fetch files (some frame.name) dep)

/-! ## A load ends

Each step takes away from what is left to do: the steps for the frames, and for every
file that has no module yet those that it would take. -/

/-- The number of steps that a stored file takes beyond its retrieval. -/
def fileSteps : StoredFile → Nat
  | .unreadable _ => 0
  | .readable (.malformed _) => 0
  | .readable (.module image) => image.deps.length + 1

/-- The steps for the listed files that have no module yet. -/
def filesLeft (lm : LinkMap) : List (Soname × StoredFile) → Nat
  | [] => 0
  | e :: entries =>
    (if (lm.named? e.1).isNone then fileSteps e.2 + 1 else 0) + filesLeft lm entries

/-- The steps for frames. -/
def framesLeft : List Frame → Nat
  | [] => 0
  | frame :: frames => frame.remaining.length + 1 + framesLeft frames

/-- A bound on the number of steps that a load still takes. -/
def stepsLeft (files : FileSet) (load : Load) : Nat :=
  filesLeft load.linker.modules files.entries + framesLeft load.frames

/-- Only the names of a link map matter for the files that are left. -/
theorem filesLeft_congr {lm lm' : LinkMap} (h : ∀ name, lm'.named? name = lm.named? name)
    (entries : List (Soname × StoredFile)) : filesLeft lm' entries = filesLeft lm entries := by
  induction entries with
  | nil => rfl
  | cons e entries ih => simp only [filesLeft, h, ih]

theorem filesLeft_register_le (lm : LinkMap) (mapping : Mapping)
    (entries : List (Soname × StoredFile)) :
    filesLeft (lm.register mapping) entries ≤ filesLeft lm entries := by
  induction entries with
  | nil => exact Nat.le_refl _
  | cons e entries ih =>
    have hhead : (if ((lm.register mapping).named? e.1).isNone then fileSteps e.2 + 1 else 0)
        ≤ if (lm.named? e.1).isNone then fileSteps e.2 + 1 else 0 := by
      rw [LinkMap.named?_register]
      by_cases he : e.1 = mapping.name <;> simp [he]
    simp only [filesLeft] at ih ⊢
    omega

/-- Registering a module for a name takes the file of that name from those left. -/
theorem filesLeft_register_add_le {lm : LinkMap} {name : Soname} {file : StoredFile}
    {entries : List (Soname × StoredFile)} (bias : UInt64) (exports : SymbolTable)
    (hmem : (name, file) ∈ entries) (hnone : lm.named? name = none) :
    filesLeft (lm.register ⟨name, bias, exports, false⟩) entries + (fileSteps file + 1)
      ≤ filesLeft lm entries := by
  let mapping : Mapping := ⟨name, bias, exports, false⟩
  change filesLeft (lm.register mapping) entries + _ ≤ _
  induction entries with
  | nil => simp at hmem
  | cons e entries ih =>
    have htail := filesLeft_register_le lm mapping entries
    simp only [filesLeft] at ih htail ⊢
    rcases List.mem_cons.mp hmem with rfl | hmem
    · simp only [LinkMap.named?_register, mapping, if_pos, Option.isNone_some, hnone,
        Option.isNone_none, Bool.false_eq_true, if_false] at htail ⊢
      omega
    · have := ih hmem
      have hhead : (if ((lm.register mapping).named? e.1).isNone then fileSteps e.2 + 1 else 0)
          ≤ if (lm.named? e.1).isNone then fileSteps e.2 + 1 else 0 := by
        rw [LinkMap.named?_register]
        by_cases he : e.1 = mapping.name <;> simp [he]
      omega

/-- Publishing modules keeps the names. -/
theorem named?_foldl_publish (ids : List ModuleId) (lm : LinkMap) (name : Soname) :
    (ids.foldl LinkMap.publish lm).named? name = lm.named? name := by
  induction ids generalizing lm with
  | nil => rfl
  | cons id ids ih => rw [List.foldl_cons, ih, LinkMap.named?_publish]

/-- Settling a module keeps the names. -/
theorem named?_settle (linker : Linker) (id : ModuleId) (name : Soname) :
    (linker.settle id).modules.named? name = linker.modules.named? name := by
  unfold Linker.settle Linker.publishReady
  split
  · rfl
  · exact named?_foldl_publish _ _ _

theorem stepsLeft_fetch_lt {files : FileSet} {load next : Load} {neededBy : Option Soname}
    {name : Soname} (hnone : load.linker.modules.named? name = none)
    (h : load.fetch files neededBy name = .ok next) :
    next.stepsLeft files < load.stepsLeft files := by
  unfold fetch FileSet.retrieve at h
  cases hfind : files.find? name with
  | none => simp [hfind] at h
  | some stored =>
    cases stored with
    | unreadable reason => simp [hfind] at h
    | readable file =>
      cases file with
      | malformed e => simp [hfind, ObjectFile.decode] at h
      | module image =>
        simp only [hfind, ObjectFile.decode, Except.ok.injEq] at h
        subst h
        have hmem := KeyMap.mem_entries_of_find? hfind
        have hfiles := filesLeft_register_add_le (load.linker.space.place image.bias?).1
          image.exports hmem hnone
        simp only [stepsLeft, framesLeft, fileSteps] at hfiles ⊢
        omega

theorem stepsLeft_link_lt {files : FileSet} {load : Load} {frame : Frame} {dep : Soname}
    {deps : List Soname} {outer : List Frame} (hframes : load.frames = frame :: outer)
    (hremaining : frame.remaining = dep :: deps) (target : ModuleId) :
    (load.link frame deps outer target).stepsLeft files < load.stepsLeft files := by
  have hnames : filesLeft (load.linker.modules.addDep frame.module target) files.entries
      = filesLeft load.linker.modules files.entries :=
    filesLeft_congr (fun name => LinkMap.named?_addDep frame.module target name) _
  simp only [stepsLeft, link, Linker.withModules, hnames, hframes, framesLeft, hremaining,
    List.length_cons]
  omega

theorem stepsLeft_relocate_lt {files : FileSet} {load next : Load} {frame : Frame}
    {outer : List Frame} (hframes : load.frames = frame :: outer)
    (h : load.relocate frame outer = .ok next) :
    next.stepsLeft files < load.stepsLeft files := by
  unfold relocate at h
  split at h
  split at h
  · simp at h
  · simp only [Except.ok.injEq] at h
    subst h
    have hnames := filesLeft_congr (named?_settle load.linker frame.module) files.entries
    simp only [stepsLeft, hnames, hframes, framesLeft]
    omega

/-- Every step that succeeds leaves less to do. -/
theorem stepsLeft_lt_of_step? {files : FileSet} {load next : Load}
    (h : load.step? files = some (.ok next)) : next.stepsLeft files < load.stepsLeft files := by
  unfold step? at h
  cases hframes : load.frames with
  | nil => simp [hframes] at h
  | cons frame outer =>
    cases hremaining : frame.remaining with
    | nil =>
      simp only [hframes, hremaining, Option.some.injEq] at h
      exact stepsLeft_relocate_lt hframes h
    | cons dep deps =>
      cases hfind : load.linker.modules.named? dep with
      | some target =>
        simp only [hframes, hremaining, hfind, Option.some.injEq, Except.ok.injEq] at h
        subst h
        exact stepsLeft_link_lt hframes hremaining target
      | none =>
        simp only [hframes, hremaining, hfind, Option.some.injEq] at h
        exact stepsLeft_fetch_lt hfind h

/-- Run a load until it is complete or stuck. -/
def run (files : FileSet) (load : Load) : Except Stuck Load :=
  match _h : load.step? files with
  | none => .ok load
  | some (.error stuck) => .error stuck
  | some (.ok next) => next.run files
termination_by load.stepsLeft files
decreasing_by exact stepsLeft_lt_of_step? _h

/-- The linker after a load got stuck: every module with a frame is discarded, innermost
first, together with the modules bound to it. -/
def unwind (load : Load) : Linker :=
  load.frames.foldl (fun linker frame => linker.abandon frame.module) load.linker

end Load

end DynamicLinker
