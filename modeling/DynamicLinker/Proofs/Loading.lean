/-
# What every step of a load keeps

The frames of a load are a stack: the module of each frame is the dependency that the frame
around it is working on.  That edge is recorded only when the inner frame is done.  So the
graph of recorded dependencies is behind, and the right graph to think in has one more edge
for each frame, to the dependency at which the frame is.  In that graph the outermost module
needs all the others.

The invariant of a load is that every waiting module is anchored at a frame: it reaches the
module of the frame along recorded dependencies, and that module needs it.  When a module is
settled and reaches no other loading module, a waiting module anchored at it is therefore
within its reach and is published with it, while one anchored further out goes on waiting.

The main results are `Load.Proper.advance`, that a step keeps the invariant, and
`Load.Proper.unwind`, that a load which gets stuck leaves a linker where nothing is loading.
-/
import DynamicLinker.Linker.Load
import DynamicLinker.Proofs.References
import DynamicLinker.Proofs.Waiting
import Mathlib.Data.List.Chain

namespace DynamicLinker

/-! ## The events of a relocation -/

/-- Binding references only binds references, or passes over them. -/
lemma mem_bindReferences {module : Soname} {resolve : String → Except LinkError UInt64}
    {references : List Reference} {event : Event}
    (h : event ∈ (bindReferences module resolve references).1) :
    (∃ symbol address, event = .bind module symbol address) ∨
      ∃ symbol error, event = .unbound module symbol error := by
  obtain ⟨r, -, hmeets⟩ := (meetsAll_bindReferences module resolve references).exists_of_mem h
  cases hmeets with
  | bound _ => exact Or.inl ⟨_, _, rfl⟩
  | probed _ => exact Or.inl ⟨_, _, rfl⟩
  | passed _ => exact Or.inr ⟨_, _, rfl⟩

/-- A relocation calls no initialiser. -/
lemma LinkMap.init_not_mem_relocate {lm : LinkMap} {id : ModuleId} {module name : Soname}
    {references : List Reference} : .init name ∉ (lm.relocate id module references).1 := by
  intro h
  rcases List.mem_cons.mp h with h | h
  · simp at h
  · rcases mem_bindReferences h with ⟨_, _, h⟩ | ⟨_, _, h⟩ <;> simp at h

namespace Load

/-! ## The steps of a load -/

/-- A step of a load that succeeds. -/
inductive Advance (files : FileSet) (load : Load) : Load → Prop where
  /-- The file of a free name is fetched: for the innermost frame, which is at that name, or
  because it was asked for. -/
  | fetch {name : Soname} {next : Load} (hfree : load.linker.modules.named? name = none)
      (hhead : ∀ frame ∈ load.frames.head?, ∃ deps, frame.remaining = name :: deps)
      (hfetch : load.fetch files (load.frames.head?.map Frame.name) name = .ok next) :
      Advance files load next
  /-- The dependency at which the innermost frame is has a module, so it is recorded. -/
  | link {frame : Frame} {outer : List Frame} {dep : Soname} {deps : List Soname}
      {target : ModuleId}
      (hframes : load.frames = frame :: outer) (hremaining : frame.remaining = dep :: deps)
      (hfound : load.linker.modules.named? dep = some target) :
      Advance files load (load.link frame deps outer target)
  /-- The innermost frame has no dependency left, so its module is relocated and settled. -/
  | relocate {frame : Frame} {outer : List Frame} {events : List Event}
      (hframes : load.frames = frame :: outer) (hremaining : frame.remaining = [])
      (hevents : load.linker.modules.relocate frame.module frame.name frame.references
        = (events, .ok ())) :
      Advance files load ⟨load.linker.settle frame.module, outer, load.events ++ events⟩

lemma advance_of_step? {files : FileSet} {load next : Load}
    (h : load.step? files = some (.ok next)) : Advance files load next := by
  rw [step?] at h
  cases hframes : load.frames with
  | nil => simp [hframes] at h
  | cons frame outer =>
    cases hremaining : frame.remaining with
    | nil =>
      simp only [hframes, hremaining, Option.some.injEq, Load.relocate] at h
      split at h
      · simp at h
      · rename_i hok
        rw [← Except.ok.inj h]
        exact .relocate hframes hremaining (Prod.ext rfl hok)
    | cons dep deps =>
      cases hfound : load.linker.modules.named? dep with
      | some target =>
        simp only [hframes, hremaining, hfound, Option.some.injEq, Except.ok.injEq] at h
        rw [← h]
        exact .link hframes hremaining hfound
      | none =>
        simp only [hframes, hremaining, hfound, Option.some.injEq] at h
        exact .fetch hfound (by simp [hframes, hremaining]) (by simpa [hframes] using h)

/-- The first step of a load fetches the file that was asked for. -/
lemma advance_start {files : FileSet} {linker : Linker} {name : Soname} {next : Load}
    (hfree : linker.modules.named? name = none)
    (h : (Load.start linker).fetch files none name = .ok next) :
    Advance files (Load.start linker) next :=
  .fetch hfree (by simp [Load.start]) h

/-- A step is only made by a load that has a frame. -/
lemma exists_frame_of_step? {files : FileSet} {load : Load} {result : Except Stuck Load}
    (h : load.step? files = some result) :
    ∃ frame outer, load.frames = frame :: outer := by
  cases hframes : load.frames with
  | nil => simp [step?, hframes] at h
  | cons frame outer => exact ⟨frame, outer, rfl⟩

/-- A load is complete when it has no frames. -/
lemma frames_eq_nil_of_step? {files : FileSet} {load : Load} (h : load.step? files = none) :
    load.frames = [] := by
  rw [step?] at h
  split at h
  · assumption
  · split at h
    · simp at h
    · split at h <;> simp at h

/-- What a file that was fetched becomes. -/
lemma fetch_eq_ok {files : FileSet} {load next : Load} {neededBy : Option Soname} {name : Soname}
    (h : load.fetch files neededBy name = .ok next) :
    ∃ image, files.retrieve name = .ok (.module image) ∧
      next =
        { linker := { load.linker with
            space := (load.linker.space.place image.bias?).2
            modules := load.linker.modules.register
              ⟨name, (load.linker.space.place image.bias?).1, image.exports, false⟩ }
          frames :=
            ⟨load.linker.modules.nextId, name, image.deps, image.references⟩ :: load.frames
          events := load.events
            ++ [.retrieve name, .decode name (load.linker.space.place image.bias?).1] } := by
  rw [fetch] at h
  cases hfile : files.retrieve name with
  | error failure => simp [hfile] at h
  | ok file =>
    cases file with
    | malformed e => simp [hfile, ObjectFile.decode] at h
    | module image =>
      simp only [hfile, ObjectFile.decode, Except.ok.injEq] at h
      refine ⟨image, rfl, ?_⟩
      rw [← h]
      simp [log]

/-- A step that fails only logs events, and calls no initialiser. -/
def StuckAt (load stuck : Load) : Prop :=
  ∃ events, stuck = load.log events ∧ ∀ name, .init name ∉ events

lemma fetch_eq_error {files : FileSet} {load stuck : Load} {neededBy : Option Soname}
    {name : Soname} {e : LinkError} (h : load.fetch files neededBy name = .error (e, stuck)) :
    load.StuckAt stuck := by
  rw [fetch] at h
  cases hfile : files.retrieve name with
  | error failure =>
    simp only [hfile, Except.error.injEq, Prod.mk.injEq] at h
    exact ⟨[.retrieve name], h.2.symm, by simp⟩
  | ok file =>
    cases file with
    | malformed e =>
      simp only [hfile, ObjectFile.decode, Except.error.injEq, Prod.mk.injEq] at h
      refine ⟨[.retrieve name, .malformed name], ?_, by simp⟩
      rw [← h.2]
      simp [log]
    | module image => simp [hfile, ObjectFile.decode] at h

lemma step?_eq_error {files : FileSet} {load stuck : Load} {e : LinkError}
    (h : load.step? files = some (.error (e, stuck))) : load.StuckAt stuck := by
  rw [step?] at h
  cases hframes : load.frames with
  | nil => simp [hframes] at h
  | cons frame outer =>
    cases hremaining : frame.remaining with
    | nil =>
      simp only [hframes, hremaining, Option.some.injEq, Load.relocate] at h
      split at h
      · simp only [Except.error.injEq, Prod.mk.injEq] at h
        refine ⟨_, h.2.symm, fun name => ?_⟩
        exact LinkMap.init_not_mem_relocate
      · simp at h
    | cons dep deps =>
      cases hfound : load.linker.modules.named? dep with
      | some target => simp [hframes, hremaining, hfound] at h
      | none =>
        simp only [hframes, hremaining, hfound, Option.some.injEq] at h
        exact fetch_eq_error h

/-! ## The invariant -/

/-- One module needs another directly: it depends on it, or will as soon as the dependency is
recorded at which its frame is. -/
inductive Needs (load : Load) : ModuleId → ModuleId → Prop where
  /-- The dependency is recorded. -/
  | recorded {a b : ModuleId} (hdep : b ∈ load.linker.modules.deps a) : Needs load a b
  /-- The frame of the module is at the dependency. -/
  | current {frame : Frame} {dep : Soname} {deps : List Soname} {b : ModuleId}
      (hframe : frame ∈ load.frames) (hremaining : frame.remaining = dep :: deps)
      (hfound : load.linker.modules.named? dep = some b) : Needs load frame.module b

/-- One module needs another, directly or through others. -/
def NeedsAll (load : Load) : ModuleId → ModuleId → Prop := Relation.ReflTransGen load.Needs

lemma NeedsAll.mono {load next : Load} {a b : ModuleId} (h : load.NeedsAll a b)
    (hneeds : ∀ x y, load.Needs x y → next.Needs x y) : next.NeedsAll a b :=
  Relation.ReflTransGen.mono hneeds _ _ h

/-- A module reaches the module of a frame that needs it. -/
def Anchored (load : Load) (p : ModuleId) : Prop :=
  ∃ f ∈ load.frames.map Frame.module, load.linker.modules.Reaches p f ∧ load.NeedsAll f p

/-- A module stays anchored as long as frames, dependencies and needs stay. -/
lemma Anchored.mono {load next : Load} {p : ModuleId} (h : load.Anchored p)
    (hframes : ∀ f ∈ load.frames.map Frame.module, f ∈ next.frames.map Frame.module)
    (hdeps : ∀ x, ∀ y ∈ load.linker.modules.deps x, y ∈ next.linker.modules.deps x)
    (hneeds : ∀ x y, load.Needs x y → next.Needs x y) : next.Anchored p := by
  obtain ⟨f, hf, hreach, hneed⟩ := h
  exact ⟨f, hframes f hf, hreach.mono hdeps, hneed.mono hneeds⟩

/-- What holds of a load between its steps. -/
structure Proper (load : Load) : Prop where
  /-- The modules of the frames are those that are loading. -/
  inOrder : load.linker.InOrder (load.frames.map Frame.module)
  /-- The module of a frame has the name of the frame. -/
  named {frame : Frame} :
    frame ∈ load.frames → load.linker.modules.named? frame.name = some frame.module
  /-- Each frame is at the dependency that the next inner frame loads. -/
  stacked : load.frames.IsChain fun inner outer => ∃ deps, outer.remaining = inner.name :: deps
  /-- Every waiting module is anchored at a frame. -/
  anchored {p : ModuleId} : p ∈ load.linker.waiting → load.Anchored p

variable {load next : Load} {files : FileSet} {frame : Frame} {outer : List Frame}

lemma Proper.start {linker : Linker} (h : linker.InOrder []) : (Load.start linker).Proper where
  inOrder := h
  named hframe := by simp [Load.start] at hframe
  stacked := List.isChain_nil
  anchored {p} hp := by
    have hnil : (Load.start linker).linker.waiting = [] := h.waiting_eq_nil
    simp [hnil] at hp

/-- The modules of outer frames need those of inner frames. -/
lemma Proper.needsAll_of_stacked (h : load.Proper) (hframes : load.frames = frame :: outer)
    {g : ModuleId} (hg : g ∈ outer.map Frame.module) : load.NeedsAll g frame.module := by
  -- each frame is at the next inner one, and needs add up along the stack
  let needed (inner outer : Frame) : Prop := load.NeedsAll outer.module inner.module
  have htrans : IsTrans Frame needed := ⟨fun _ _ _ hab hbc => hbc.trans hab⟩
  have hchain : load.frames.IsChain needed := by
    refine h.stacked.imp_of_mem_imp fun inner outer hinner houter hcurrent => ?_
    obtain ⟨deps, hdeps⟩ := hcurrent
    exact Relation.ReflTransGen.single (.current houter hdeps (h.named hinner))
  rw [hframes, List.isChain_iff_pairwise, List.pairwise_cons] at hchain
  obtain ⟨outside, houtside, rfl⟩ := List.mem_map.mp hg
  exact hchain.1 outside houtside

/-! ## Fetching a file -/

/-- What is needed is still needed when a file has been fetched under a free name. -/
lemma needs_fetch {name : Soname} {neededBy : Option Soname}
    (hfree : load.linker.modules.named? name = none)
    (hfetch : load.fetch files neededBy name = .ok next) {a b : ModuleId}
    (hneeds : load.Needs a b) : next.Needs a b := by
  obtain ⟨image, -, rfl⟩ := fetch_eq_ok hfetch
  rcases hneeds with hdep | ⟨hframe, hremaining, hfound⟩
  · exact .recorded (by rwa [LinkMap.deps_register])
  · refine .current (List.mem_cons_of_mem _ hframe) hremaining ?_
    rw [LinkMap.named?_register, if_neg ?_]
    · exact hfound
    · rintro rfl
      simp [hfree] at hfound

/-- A file may be fetched under a free name, for the frame that is at that name. -/
lemma Proper.fetch (h : load.Proper) {name : Soname} {neededBy : Option Soname}
    (hfree : load.linker.modules.named? name = none)
    (hhead : ∀ frame ∈ load.frames.head?, ∃ deps, frame.remaining = name :: deps)
    (hfetch : load.fetch files neededBy name = .ok next) : next.Proper := by
  have hneeds : ∀ a b, load.Needs a b → next.Needs a b := fun _ _ => needs_fetch hfree hfetch
  obtain ⟨image, -, rfl⟩ := fetch_eq_ok hfetch
  refine ⟨h.inOrder.register hfree _, ?_, ?_, ?_⟩
  · intro frame hframe
    rw [LinkMap.named?_register]
    rcases List.mem_cons.mp hframe with rfl | hold
    · simp
    · have hnew : frame.name ≠ name := by
        rintro rfl
        simp [h.named hold] at hfree
      rw [if_neg hnew]
      exact h.named hold
  · cases hframes : load.frames with
    | nil => exact List.isChain_singleton _
    | cons frame outer =>
      refine List.isChain_cons_cons.mpr ⟨hhead frame (by simp [hframes]), ?_⟩
      rw [← hframes]
      exact h.stacked
  · intro p hp
    refine (h.anchored hp).mono (fun f hf => List.mem_cons_of_mem _ hf) (fun x y hy => ?_) hneeds
    rwa [LinkMap.deps_register]

/-! ## Recording a dependency -/

section Link

variable {dep : Soname} {deps : List Soname} {target : ModuleId}

lemma frames_link (hframes : load.frames = frame :: outer) :
    (load.link frame deps outer target).frames.map Frame.module
      = load.frames.map Frame.module := by
  simp [Load.link, hframes]

/-- The dependencies after one more was recorded. -/
lemma Proper.mem_deps_link (h : load.Proper) (hframes : load.frames = frame :: outer)
    (hfound : load.linker.modules.named? dep = some target) {x y : ModuleId} :
    y ∈ (load.link frame deps outer target).linker.modules.deps x ↔
      y ∈ load.linker.modules.deps x ∨ x = frame.module ∧ y = target := by
  have hloading : load.linker.modules.state? frame.module = some .loading :=
    h.inOrder.loading_iff.mpr (List.mem_map_of_mem (by simp [hframes]))
  exact LinkMap.mem_deps_addDep (LinkMap.isSome_of_state? hloading)
    (h.inOrder.consistent.live_of_named hfound)

/-- What is needed is still needed when a dependency has been recorded. -/
lemma Proper.needs_link (h : load.Proper) (hframes : load.frames = frame :: outer)
    (hremaining : frame.remaining = dep :: deps)
    (hfound : load.linker.modules.named? dep = some target) {a b : ModuleId}
    (hneeds : load.Needs a b) : (load.link frame deps outer target).Needs a b := by
  rcases hneeds with hdep | @⟨current, dep', deps', _, hcurrent, hremaining', hfound'⟩
  · exact .recorded ((h.mem_deps_link hframes hfound).mpr (Or.inl hdep))
  · rw [hframes] at hcurrent
    rcases List.mem_cons.mp hcurrent with rfl | hcurrent
    · -- the frame moves on, but the dependency at which it was is now recorded
      refine .recorded ((h.mem_deps_link hframes hfound).mpr (Or.inr ⟨rfl, ?_⟩))
      rw [hremaining] at hremaining'
      obtain ⟨rfl, -⟩ := List.cons.inj hremaining'
      rw [hfound] at hfound'
      exact (Option.some.inj hfound').symm
    · refine .current (List.mem_cons_of_mem _ hcurrent) hremaining' ?_
      exact (LinkMap.named?_addDep _ _ _).trans hfound'

/-- The dependency at which a frame is may be recorded. -/
lemma Proper.link (h : load.Proper) (hframes : load.frames = frame :: outer)
    (hremaining : frame.remaining = dep :: deps)
    (hfound : load.linker.modules.named? dep = some target) :
    (load.link frame deps outer target).Proper := by
  have hmem : frame ∈ load.frames := by simp [hframes]
  have hids : (load.link frame deps outer target).frames.map Frame.module
      = load.frames.map Frame.module := frames_link hframes
  have hnamed : ∀ name, (load.link frame deps outer target).linker.modules.named? name
      = load.linker.modules.named? name := LinkMap.named?_addDep _ _
  refine ⟨?_, ?_, ?_, ?_⟩
  · rw [hids]
    exact h.inOrder.addDep (List.mem_map_of_mem hmem) (h.inOrder.consistent.live_of_named hfound)
  · intro g hg
    rw [hnamed]
    rcases List.mem_cons.mp hg with rfl | hg
    · have hframe := h.named hmem
      exact hframe
    · exact h.named (by simp [hframes, hg])
  · have hstacked := h.stacked
    rw [hframes] at hstacked
    cases outer with
    | nil => exact List.isChain_singleton _
    | cons g outer =>
      rw [List.isChain_cons_cons] at hstacked
      exact List.isChain_cons_cons.mpr hstacked
  · intro p hp
    refine (h.anchored hp).mono (fun f hf => by rwa [hids]) (fun x y hy => ?_)
      fun _ _ => h.needs_link hframes hremaining hfound
    exact (h.mem_deps_link hframes hfound).mpr (Or.inl hy)

end Link

/-! ## Relocating a module -/

/-- What is needed is still needed when a module has been settled, as its frame was at no
dependency. -/
lemma needs_settle {events : List Event} (hframes : load.frames = frame :: outer)
    (hremaining : frame.remaining = []) {a b : ModuleId} (hneeds : load.Needs a b) :
    Needs ⟨load.linker.settle frame.module, outer, events⟩ a b := by
  rcases hneeds with hdep | @⟨current, dep, deps, _, hcurrent, hremaining', hfound⟩
  · exact .recorded (by rwa [Linker.deps_settle])
  · rw [hframes] at hcurrent
    rcases List.mem_cons.mp hcurrent with rfl | hcurrent
    · rw [hremaining] at hremaining'
      simp at hremaining'
    · exact .current hcurrent hremaining' (by rwa [named?_settle])

/-- What the innermost module needs is within its reach if it reaches no outer module: its
frame has no dependency left, and the other frames are not met. -/
lemma reaches_of_needsAll (hframes : load.frames = frame :: outer)
    (hremaining : frame.remaining = [])
    (hready : ∀ g ∈ outer.map Frame.module, ¬ load.linker.modules.Reaches frame.module g)
    {p : ModuleId} (hneeds : load.NeedsAll frame.module p) :
    load.linker.modules.Reaches frame.module p := by
  induction hneeds with
  | refl => exact LinkMap.Reaches.refl _ _
  | tail _ hxy ih =>
    rcases hxy with hdep | @⟨current, dep, deps, _, hcurrent, hremaining', -⟩
    · exact ih.tail hdep
    · rw [hframes] at hcurrent
      rcases List.mem_cons.mp hcurrent with rfl | hcurrent
      · rw [hremaining] at hremaining'
        simp at hremaining'
      · exact absurd ih (hready _ (List.mem_map_of_mem hcurrent))

/-- What is published with the innermost module reaches it: it is anchored at a frame, and at no
outer one, as those are out of reach. -/
lemma Proper.reaches_of_mem_ready (h : load.Proper) (hframes : load.frames = frame :: outer)
    (hready : ∀ g ∈ outer.map Frame.module, ¬ load.linker.modules.Reaches frame.module g)
    {p : ModuleId} (hp : p ∈ load.linker.ready frame.module) :
    load.linker.modules.Reaches p frame.module := by
  obtain ⟨hwait | rfl, hreach⟩ := Linker.mem_ready.mp hp
  · obtain ⟨g, hg, hpg, -⟩ := h.anchored hwait
    rw [hframes] at hg
    rcases List.mem_cons.mp hg with rfl | hg
    · exact hpg
    · exact absurd (hreach.trans hpg) (hready g hg)
  · exact LinkMap.Reaches.refl _ _

/-- What waits while the innermost module is settled without being published is anchored
further out: at an outer module that is within reach of the innermost one. -/
lemma Proper.anchored_settle_waits (h : load.Proper) {events : List Event}
    (hframes : load.frames = frame :: outer) (hremaining : frame.remaining = [])
    {g : ModuleId} (hg : g ∈ outer.map Frame.module)
    (hfg : load.linker.modules.Reaches frame.module g) {p : ModuleId}
    (hp : p ∈ load.linker.waiting ++ [frame.module]) :
    Anchored ⟨load.linker.settle frame.module, outer, events⟩ p := by
  have hneeds := h.needsAll_of_stacked hframes hg
  have hanchor : ∃ x ∈ outer.map Frame.module,
      load.linker.modules.Reaches p x ∧ load.NeedsAll x p := by
    rcases List.mem_append.mp hp with hp | hp
    · -- what was anchored at the innermost module reaches the outer one through it
      obtain ⟨x, hx, hpx, hxp⟩ := h.anchored hp
      rw [hframes] at hx
      rcases List.mem_cons.mp hx with rfl | hx
      · exact ⟨g, hg, hpx.trans hfg, hneeds.trans hxp⟩
      · exact ⟨x, hx, hpx, hxp⟩
    · rw [List.mem_singleton.mp hp]
      exact ⟨g, hg, hfg, hneeds⟩
  obtain ⟨x, hx, hpx, hxp⟩ := hanchor
  exact ⟨x, hx, (LinkMap.reaches_congr (load.linker.deps_settle frame.module)).mpr hpx,
    hxp.mono fun _ _ => needs_settle hframes hremaining⟩

/-- What waits when the innermost module is published, and is not published with it, is
anchored further out: all that the innermost module needs is within its reach. -/
lemma Proper.anchored_settle_publishes (h : load.Proper) {events : List Event}
    (hframes : load.frames = frame :: outer) (hremaining : frame.remaining = [])
    (hready : ∀ g ∈ outer.map Frame.module, ¬ load.linker.modules.Reaches frame.module g)
    {p : ModuleId} (hp : p ∈ load.linker.waiting)
    (hnot : ¬ load.linker.modules.Reaches frame.module p) :
    Anchored ⟨load.linker.settle frame.module, outer, events⟩ p := by
  obtain ⟨x, hx, hpx, hxp⟩ := h.anchored hp
  rw [hframes] at hx
  rcases List.mem_cons.mp hx with rfl | hx
  · exact absurd (reaches_of_needsAll hframes hremaining hready hxp) hnot
  · exact ⟨x, hx, (LinkMap.reaches_congr (load.linker.deps_settle frame.module)).mpr hpx,
      hxp.mono fun _ _ => needs_settle hframes hremaining⟩

/-- The innermost module may be relocated and settled when it has no dependency left. -/
lemma Proper.relocate (h : load.Proper) {events : List Event}
    (hframes : load.frames = frame :: outer) (hremaining : frame.remaining = []) :
    Proper ⟨load.linker.settle frame.module, outer, events⟩ := by
  have horder : load.linker.InOrder (frame.module :: outer.map Frame.module) := by
    have := h.inOrder
    rwa [hframes] at this
  have hstacked :
      outer.IsChain fun inner outer => ∃ deps, outer.remaining = inner.name :: deps := by
    have := h.stacked.tail
    rwa [hframes] at this
  have hnamed : ∀ {g}, g ∈ outer →
      (load.linker.settle frame.module).modules.named? g.name = some g.module := by
    intro g hg
    rw [named?_settle]
    exact h.named (by simp [hframes, hg])
  by_cases hawaits : ∃ g ∈ outer.map Frame.module, load.linker.modules.Reaches frame.module g
  · refine ⟨horder.settle_waits hawaits, hnamed, hstacked, fun {p} hp => ?_⟩
    obtain ⟨g, hg, hfg⟩ := hawaits
    rw [horder.settle_eq_of_reaches ⟨g, hg, hfg⟩] at hp
    exact h.anchored_settle_waits hframes hremaining hg hfg hp
  · have hready : ∀ g ∈ outer.map Frame.module,
        ¬ load.linker.modules.Reaches frame.module g := fun g hg hfg => hawaits ⟨g, hg, hfg⟩
    have hanchored : ∀ p ∈ load.linker.waiting, ¬ load.linker.modules.Reaches frame.module p →
        Anchored ⟨load.linker.settle frame.module, outer, events⟩ p := fun p hp hnot =>
      h.anchored_settle_publishes hframes hremaining hready hp hnot
    refine ⟨horder.settle_publishes hready fun p hp hnot => ?_, hnamed, hstacked, ?_⟩
    · obtain ⟨g, hg, hpg, -⟩ := hanchored p hp hnot
      exact ⟨g, hg, (LinkMap.reaches_congr (load.linker.deps_settle frame.module)).mp hpg⟩
    · intro p hp
      have hleft : p ∈ load.linker.waiting ∧ ¬ load.linker.modules.Reaches frame.module p := by
        rw [horder.settle_eq_of_not_reaches hready] at hp
        simpa using hp
      exact hanchored p hleft.1 hleft.2

/-! ## All steps -/

/-- **A step keeps the invariant of a load.** -/
theorem Proper.advance (h : load.Proper) (hadvance : Advance files load next) : next.Proper := by
  cases hadvance with
  | fetch hfree hhead hfetch => exact h.fetch hfree hhead hfetch
  | link hframes hremaining hfound => exact h.link hframes hremaining hfound
  | relocate hframes hremaining _ => exact h.relocate hframes hremaining

/-- **A step keeps what was loaded before.** -/
theorem Proper.extends_advance (h : load.Proper) (hadvance : Advance files load next) :
    load.linker.modules.Extends next.linker.modules := by
  cases hadvance with
  | fetch hfree hhead hfetch =>
    obtain ⟨image, -, rfl⟩ := fetch_eq_ok hfetch
    exact LinkMap.extends_register
  | @link frame outer dep deps target hframes hremaining hfound =>
    have hloading : load.linker.modules.state? frame.module = some .loading :=
      h.inOrder.loading_iff.mpr (List.mem_map_of_mem (by simp [hframes]))
    refine LinkMap.extends_addDep ?_
    rw [hloading]
    simp
  | @relocate frame outer events hframes hremaining hevents =>
    have horder := h.inOrder
    rw [hframes] at horder
    exact horder.extends_settle

/-! ## Loads that get stuck -/

/-- Unwinding a load is abandoning the modules of its frames. -/
lemma unwind_eq (load : Load) :
    load.unwind = (load.frames.map Frame.module).foldl Linker.abandon load.linker := by
  rw [unwind, List.foldl_map]

/-- **A load that gets stuck leaves a linker in which nothing is loading.** -/
theorem Proper.unwind (h : load.Proper) : load.unwind.InOrder [] := by
  rw [unwind_eq]
  exact h.inOrder.foldl_abandon

/-- **A load that gets stuck keeps what was loaded.** -/
theorem Proper.extends_unwind (h : load.Proper) :
    load.linker.modules.Extends load.unwind.modules := by
  rw [unwind_eq]
  exact h.inOrder.extends_foldl_abandon

/-- Unwinding keeps the number of the linker. -/
lemma id_unwind (load : Load) : load.unwind.id = load.linker.id := by
  rw [unwind_eq]
  induction load.frames.map Frame.module generalizing load with
  | nil => rfl
  | cons f rest ih => exact ih { load with linker := load.linker.abandon f }

/-- Unwinding leaves the global list alone. -/
lemma order_unwind (load : Load) : load.unwind.modules.order = load.linker.modules.order := by
  rw [unwind_eq]
  exact Linker.InOrder.order_foldl_abandon

/-- What unwinding leaves was loaded before, and has not changed. -/
lemma Proper.get?_unwind (h : load.Proper) {id : ModuleId}
    (hid : (load.unwind.modules.get? id).isSome) :
    load.linker.modules.state? id = some .loaded ∧
      load.unwind.modules.get? id = load.linker.modules.get? id := by
  have hloaded := h.unwind.state?_eq_loaded hid
  rw [← h.unwind.consistent.mem_order_iff, load.order_unwind,
    h.inOrder.consistent.mem_order_iff] at hloaded
  exact ⟨hloaded, h.extends_unwind.get?_eq hloaded⟩

end Load

end DynamicLinker
