/-
# Loads end, and load no name twice

Whatever the files declare, be it in cycles, more than once or without a file behind it, a load
takes no more steps than the files allow whose names have no module: for each of them one to fetch
it, one for each name that it declares, and one to relocate it.  A name that is fetched has a module
from then on, until the load is over, and is not fetched again.

For the same reason loads are nested no deeper than there are such files.  Each frame is the load of
one file inside that of another, no two frames are of one name, and none is of a name that was
loaded before.  Only the file that is asked for next may be one that is not there.

While a name is in the global list, its file is not fetched, and since no call takes a name from the
list, this goes for all later requests as well.
-/
import DynamicLinker.Proofs.FirstFailure
import DynamicLinker.Proofs.InitializationOrder
import Mathlib.Data.List.Perm.Subperm

namespace DynamicLinker

/-- The number of files whose names are not among the given ones. -/
def FileSet.countOutside (files : FileSet) (names : List Soname) : Nat :=
  (files.entries.filter fun entry => entry.1 ∉ names).length

/-- What is retrieved is stored. -/
lemma FileSet.exists_find?_of_retrieve {files : FileSet} {name : Soname} {file : ObjectFile}
    (h : files.retrieve name = .ok file) : ∃ stored, files.find? name = some stored := by
  rw [FileSet.retrieve] at h
  cases hfind : files.find? name with
  | none => simp [hfind] at h
  | some stored => exact ⟨stored, rfl⟩

/-! ## Callbacks that fetch -/

/-- A callback is for the file of a name. -/
inductive Callback.Fetches (n : Soname) : Callback → Prop where
  /-- It retrieves the file. -/
  | retrieve : Fetches n (.retrieve n)
  /-- It decodes the file. -/
  | decode : Fetches n (.decode n)

lemma Callback.Fetches.name_eq {n : Soname} {callback : Callback} (h : callback.Fetches n) :
    callback.name = n := by
  cases h <;> rfl

lemma mem_callbacks_of_mem_retrievals {events : List Event} {n : Soname}
    (h : n ∈ retrievals events) : .retrieve n ∈ callbacks events := by
  obtain ⟨event, hevent, hname⟩ := List.mem_filterMap.mp h
  refine List.mem_filterMap.mpr ⟨event, hevent, ?_⟩
  cases event <;> simp_all [Event.callback?]

lemma mem_callbacks_of_mem_decodings {events : List Event} {n : Soname}
    (h : n ∈ decodings events) : .decode n ∈ callbacks events := by
  obtain ⟨event, hevent, hname⟩ := List.mem_filterMap.mp h
  refine List.mem_filterMap.mpr ⟨event, hevent, ?_⟩
  cases event <;> simp_all [Event.callback?]

/-- A recursive load calls no initialiser. -/
lemma Course.init_not_mem {files : FileSet} {answers : Soname → Except LinkError Unit}
    {known chain agenda : List Soname} {trace : List Callback}
    {ending : Except Failure (List Soname)} {n : Soname}
    (h : Course files answers known chain agenda trace ending) : .init n ∉ trace := by
  induction h with
  | done => simp
  | skip _ _ ih => exact ih
  | unretrieved => simp
  | malformed => simp
  | stuck _ _ _ ih => simp [ih]
  | broken _ _ _ _ ih => simp [ih]
  | loaded _ _ _ _ _ ihbelow ihrest => simp [ihbelow, ihrest]

namespace Load

variable {files : FileSet} {load next : Load}

/-! ## The number of steps -/

/-- A step leaves less to do. -/
lemma Advance.stepsLeft_lt (h : Advance files load next) :
    next.stepsLeft files < load.stepsLeft files := by
  cases h with
  | fetch hfree hhead hfetch => exact stepsLeft_fetch_lt hfree hfetch
  | link hframes hremaining hfound => exact stepsLeft_link_lt hframes hremaining _
  | @relocate frame outer events hframes hremaining hevents =>
    exact stepsLeft_relocate_lt hframes (by simp [Load.relocate, hevents])

/-- Steps come to an end, from any load. -/
lemma wellFounded_advance (files : FileSet) :
    WellFounded fun next load => Advance files load next :=
  Subrelation.wf (fun h => h.stepsLeft_lt) (measure fun load : Load => load.stepsLeft files).wf

/-- What is left to do bounds the number of steps. -/
lemma length_le_stepsLeft {steps : List Load} (h : (load :: steps).IsChain (Advance files)) :
    steps.length ≤ load.stepsLeft files := by
  induction steps generalizing load with
  | nil => exact Nat.zero_le _
  | cons next steps ih =>
    obtain ⟨hstep, hrest⟩ := List.isChain_cons_cons.mp h
    have hle := ih hrest
    have hlt := hstep.stepsLeft_lt
    rw [List.length_cons]
    omega

/-! ## The depth -/

/-- The name whose file the next step asks for. -/
def wanted? (load : Load) : Option Soname := do
  let frame ← load.frames.head?
  let dep ← frame.remaining.head?
  if (load.linker.modules.named? dep).isNone then some dep else none

/-- How many loads of files are under way at a moment, each inside the next: one for each frame, and
one for the file that is asked for next.  At the first moment that is the file of the name that was
asked for. -/
def depth (load : Load) : Nat :=
  load.frames.length + if load.events = [] ∨ load.wanted?.isSome then 1 else 0

lemma depth_le (load : Load) : load.depth ≤ load.frames.length + 1 := by
  rw [depth]
  split <;> omega

/-- No two frames are of one name. -/
lemma Proper.nodup_names (h : load.Proper) : (load.frames.map Frame.name).Nodup := by
  have hmodules := h.inOrder.loading_nodup
  refine hmodules.of_map.map_on fun a ha b hb hname => ?_
  have hsame := h.named ha
  rw [hname, h.named hb, Option.some.injEq] at hsame
  exact List.inj_on_of_nodup_map hmodules ha hb hsame.symm

end Load

namespace Linker

variable {linker : Linker} {history : History} {files : FileSet} {name : Soname} {word : Int32}
  {load : Load}

/-- A module that has a frame was not loaded before: it would have kept its name. -/
lemma Sound.name_of_frame_not_mem (h : linker.Sound history)
    (hload : load ∈ linker.moments files name word) {frame : Frame} (hframe : frame ∈ load.frames) :
    frame.name ∉ linker.loadedNames := by
  have hproper := (h.moment hload).1
  rw [h.mem_loadedNames]
  intro hsome
  obtain ⟨id, hid⟩ := Option.isSome_iff_exists.mp hsome
  have hkept := (h.inOrder.retains_moment hload).named? h.inOrder.consistent
    hproper.inOrder.consistent hid
  rw [hproper.named hframe, Option.some.injEq] at hkept
  have hlive := h.inOrder.consistent.live_of_named hid
  rw [← hkept, (h.inOrder.since hload).get?_of_frame h.inOrder hproper hframe] at hlive
  cases hlive

/-- The frames are of different names that have files and were not loaded. -/
lemma Sound.length_frames_le (h : linker.Sound history)
    (hload : load ∈ linker.moments files name word) :
    load.frames.length ≤ files.countOutside linker.loadedNames := by
  have hproper := (h.moment hload).1
  have hsubset : load.frames.map Frame.name ⊆
      (files.entries.filter fun entry => entry.1 ∉ linker.loadedNames).map Prod.fst := by
    intro n hn
    obtain ⟨frame, hframe, rfl⟩ := List.mem_map.mp hn
    obtain ⟨mapping, hmapping, hname⟩ := hproper.mapping?_eq hframe
    have hnew := (h.inOrder.since hload).get?_of_frame h.inOrder hproper hframe
    obtain ⟨image, hfile, -⟩ := (h.inOrder.fetched hload).fromFile hmapping hnew
    rw [hname] at hfile
    obtain ⟨stored, hfind⟩ := FileSet.exists_find?_of_retrieve hfile
    refine List.mem_map.mpr ⟨(frame.name, stored), List.mem_filter.mpr ⟨?_, ?_⟩, rfl⟩
    · exact KeyMap.mem_entries_of_find? hfind
    · simpa using h.name_of_frame_not_mem hload hframe
  have hle := (hproper.nodup_names.subperm hsubset).length_le
  rwa [List.length_map, List.length_map] at hle

/-- The first moment of a load is followed by no more steps than the files allow that are left. -/
lemma InOrder.length_moments_le (h : linker.InOrder []) :
    (linker.moments files name word).length
      ≤ Load.filesLeft linker.modules files.entries + 1 := by
  have hchain : (linker.moments files name word).IsChain (Load.Advance files) := isChain_moments h
  cases hmoments : linker.moments files name word with
  | nil => exact Nat.zero_le _
  | cons first steps =>
    obtain rfl : first = Load.start linker := head?_moments (by rw [hmoments]; rfl)
    rw [hmoments] at hchain
    exact Nat.succ_le_succ (Load.length_le_stepsLeft hchain)

/-! ## The callbacks of a request -/

/-- The issue of a handle calls initialisers, and each of them once. -/
lemma exists_callbacks_issue (h : linker.modules.Consistent) (id : ModuleId) (mode : Mode) :
    ∃ names : List Soname, names.Nodup ∧
      callbacks (linker.issue id mode).events = names.map .init := by
  refine ⟨_, (consistent_promoted h id mode).namesOf_nodup
    ((linker.promoted id mode).modules.uninitialized_nodup id), ?_⟩
  have hinit : Event.callback? ∘ Event.init = some ∘ Callback.init := rfl
  rw [issue_eq, callbacks, List.filterMap_map, hinit]
  exact congrFun List.filterMap_eq_map _

/-- A request follows the course of what it has to load, and then calls initialisers. -/
lemma Sound.exists_course (h : linker.Sound history) (files : FileSet) (name : Soname)
    (word : Int32) :
    ∃ (agenda : List Soname) (trace : List Callback) (ending : Except Failure (List Soname))
        (names : List Soname),
      Course files (linker.relocationAnswer files name word) linker.loadedNames [] agenda trace
        ending ∧ names.Nodup ∧
      callbacks (linker.openModule files name word).events = trace ++ names.map .init := by
  cases hstarts : linker.startsLoad name word with
  | false =>
    rcases openModule_of_not_startsLoad files hstarts with ⟨e, heq⟩ | ⟨mode, id, -, -, heq⟩
    · exact ⟨[], [], _, [], .done _ _, List.nodup_nil, by rw [heq]; rfl⟩
    · obtain ⟨names, hnodup, hnames⟩ := exists_callbacks_issue h.inOrder.consistent id mode
      exact ⟨[], [], _, names, .done _ _, hnodup, by rw [heq, hnames, List.nil_append]⟩
  | true =>
    obtain ⟨ending, hcourse, -⟩ := h.course_of_load files hstarts
    obtain ⟨mode, -, heq⟩ := openModule_of_startsLoad files hstarts
    obtain ⟨last, hlast, ⟨-, hload⟩ | ⟨e, stuck, -, hload⟩⟩ := linker.load_eq files hstarts
    · rw [hload] at hcourse heq
      have hproper := (h.moment (List.mem_of_getLast? hlast)).1
      obtain ⟨names, hnodup, hnames⟩ :=
        exists_callbacks_issue hproper.inOrder.consistent linker.modules.nextId mode
      exact ⟨_, _, _, names, hcourse, hnodup, by rw [heq, callbacks_append, hnames]⟩
    · rw [hload] at hcourse heq
      exact ⟨_, _, _, [], hcourse, List.nodup_nil, by rw [heq, List.map_nil, List.append_nil]⟩

/-- A request makes no callback twice. -/
lemma Sound.nodup_callbacks (h : linker.Sound history) (files : FileSet) (name : Soname)
    (word : Int32) : (callbacks (linker.openModule files name word).events).Nodup := by
  obtain ⟨agenda, trace, ending, names, hcourse, hnodup, heq⟩ := h.exists_course files name word
  rw [heq]
  refine hcourse.nodup.append (hnodup.map fun a b hab => Callback.init.inj hab) ?_
  intro callback htrace hinit
  obtain ⟨n, -, rfl⟩ := List.mem_map.mp hinit
  exact hcourse.init_not_mem htrace

/-- A request does not fetch the file of a name that is loaded. -/
lemma Sound.name_not_mem_loadedNames (h : linker.Sound history) {callback : Callback} {n : Soname}
    (hmem : callback ∈ callbacks (linker.openModule files name word).events)
    (hfetches : callback.Fetches n) : n ∉ linker.loadedNames := by
  obtain ⟨agenda, trace, ending, names, hcourse, -, heq⟩ := h.exists_course files name word
  rw [heq, List.mem_append] at hmem
  rcases hmem with htrace | hinit
  · rw [← hfetches.name_eq]
    exact hcourse.name_not_mem_known htrace
  · obtain ⟨m, -, rfl⟩ := List.mem_map.mp hinit
    cases hfetches

/-- The names of loaded modules have modules. -/
lemma named?_of_mem_loadedNames (h : linker.modules.Consistent) {n : Soname}
    (hn : n ∈ linker.loadedNames) : (linker.modules.named? n).isSome := by
  rw [loadedNames, loadedModules, List.map_map] at hn
  obtain ⟨m, hm, rfl⟩ := List.mem_map.mp hn
  obtain ⟨id, -, hid⟩ := List.mem_filterMap.mp hm
  exact Option.isSome_of_eq_some (h.named_of_mapping (LinkMap.mapping?_of_get? hid))

/-- **While a name is in the global list, its file is not fetched.**  At every moment of a load
before the fetch the name is free, since otherwise its file would have been fetched before. -/
theorem Sound.not_loaded_of_fetches (h : linker.Sound history) {front back : List Callback}
    {callback : Callback} {n : Soname}
    (hcallbacks : callbacks (linker.openModule files name word).events = front ++ callback :: back)
    (hfetches : callback.Fetches n) (hload : load ∈ linker.moments files name word)
    (hbefore : callbacks load.events <+: front) : n ∉ load.linker.loadedNames := by
  intro hn
  have hproper := (h.moment hload).1
  have hfetched := h.inOrder.fetched hload
  have hmem : callback ∈ callbacks (linker.openModule files name word).events := by
    simp [hcallbacks]
  have hnew := h.name_not_mem_loadedNames hmem hfetches
  rw [h.mem_loadedNames, Option.not_isSome_iff_eq_none] at hnew
  have hdecoded := hfetched.mem_decodings_iff.mpr
    ⟨named?_of_mem_loadedNames hproper.inOrder.consistent hn, hnew⟩
  have hretrieved := hdecoded
  rw [← hfetched.retrievals_eq] at hretrieved
  have hfront : callback ∈ front := hbefore.subset <| by
    cases hfetches with
    | retrieve => exact mem_callbacks_of_mem_retrievals hretrieved
    | decode => exact mem_callbacks_of_mem_decodings hdecoded
  have hnodup := h.nodup_callbacks files name word
  rw [hcallbacks] at hnodup
  exact List.disjoint_of_nodup_append hnodup hfront List.mem_cons_self

/-! ## Requests and series of calls -/

/-- How a request to open a module comes to an end, and what it fetches on the way. -/
structure LoadsOnce (linker : Linker) (files : FileSet) (name : Soname) (word : Int32) : Prop where
  /-- The request ends: it starts no load, or the load gets stuck at its last moment, or has no
  frame left there. -/
  returns : linker.Opening files name word (linker.openModule files name word)
  /-- The load takes no more steps than the files allow whose names have no module. -/
  length_moments_le : (linker.moments files name word).length
    ≤ Load.filesLeft linker.modules files.entries + 1
  /-- Loads are nested no deeper than there are files whose names are not loaded, but for one. -/
  depth_le {load : Load} : load ∈ linker.moments files name word →
    load.depth ≤ files.countOutside linker.loadedNames + 1
  /-- No callback is made twice, so no file is retrieved twice. -/
  nodup : (callbacks (linker.openModule files name word).events).Nodup
  /-- When a file is fetched, its name is not in the global list, and has not been there before. -/
  not_loaded {front back : List Callback} {callback : Callback} {n : Soname} {load : Load} :
    callbacks (linker.openModule files name word).events = front ++ callback :: back →
      callback.Fetches n → load ∈ linker.moments files name word →
        callbacks load.events <+: front → n ∉ load.linker.loadedNames

lemma Sound.loadsOnce (h : linker.Sound history) (files : FileSet) (name : Soname)
    (word : Int32) : linker.LoadsOnce files name word where
  returns := linker.opening files name word
  length_moments_le := h.inOrder.length_moments_le
  depth_le hload := (Load.depth_le _).trans (Nat.succ_le_succ (h.length_frames_le hload))
  nodup := h.nodup_callbacks files name word
  not_loaded := h.not_loaded_of_fetches

/-- A name stays in the global list, so its file is not fetched by any later call. -/
lemma Reached.mem_loadedNames_after (h : linker.Reached history) {n : Soname}
    (hn : n ∈ linker.loadedNames) (calls : List (FileSet × Call)) :
    n ∈ (linker.after calls).loadedNames ∧
      ∀ callback ∈ callbacks (linker.eventsAfter calls), ¬ callback.Fetches n := by
  let P (later : Linker) (past : List Event) : Prop :=
    n ∈ later.loadedNames ∧ ∀ callback ∈ callbacks past, ¬ callback.Fetches n
  have hstart : P linker [] := ⟨hn, by simp [callbacks]⟩
  refine h.eventsAfter_induction hstart (fun before history past files name word hbefore hP => ?_)
    calls
  have hsound := hbefore.sound
  have hafter := hsound.openModule files name word
  obtain ⟨hloaded, hpast⟩ := hP
  constructor
  · rw [hafter.mem_loadedNames]
    exact (hsound.inOrder.retains_openModule files name word).isSome_named?
      hsound.inOrder.consistent hafter.inOrder.consistent (hsound.mem_loadedNames.mp hloaded)
  · intro callback hmem hfetches
    rw [callbacks_append, List.mem_append] at hmem
    rcases hmem with hold | hnew
    · exact hpast callback hold hfetches
    · exact hsound.name_not_mem_loadedNames hnew hfetches hloaded

/-- **Requests to open modules end, and no name is loaded twice.**  The files may declare what they
like, and they may change from call to call: steps cannot go on for ever, a request loads in bounded
depth and makes no callback twice, and the file of a name is not fetched while the name is in the
global list, from where no call takes it. -/
theorem Reached.loadsOnce_throughout (h : linker.Reached history) :
    (∀ files, WellFounded fun next load => Load.Advance files load next) ∧
      (∀ files name word, linker.LoadsOnce files name word) ∧
      ∀ n ∈ linker.loadedNames, ∀ calls : List (FileSet × Call),
        n ∈ (linker.after calls).loadedNames ∧
          ∀ callback ∈ callbacks (linker.eventsAfter calls), ¬ callback.Fetches n :=
  ⟨Load.wellFounded_advance, h.sound.loadsOnce, fun _ hn => h.mem_loadedNames_after hn⟩

/-- The module `k` is loaded, and the files of `a` and `b` are not.  Both need `a`, `a` needs `b`
twice, and `b` needs `k` and `z`, which has no file.  The request for `a` therefore asks for `z`
inside the load of `b` inside that of `a`, which is as deep as two files allow; and whatever is
called later, nothing is fetched for `k`. -/
theorem loadsOnce_throughout_of_cycle :
    ∃ (linker : Linker) (history : History) (files : FileSet),
      linker.Reached history ∧ linker.loadedNames = [⟨"k"⟩] ∧
      files.countOutside linker.loadedNames = 2 ∧
      (linker.moments files ⟨"a"⟩ 2).map Load.depth = [1, 1, 2, 2, 2, 3] ∧
      callbacks (linker.openModule files ⟨"a"⟩ 2).events
        = [.retrieve ⟨"a"⟩, .decode ⟨"a"⟩, .retrieve ⟨"b"⟩, .decode ⟨"b"⟩, .retrieve ⟨"z"⟩] ∧
      linker.LoadsOnce files ⟨"a"⟩ 2 ∧
      ∀ calls : List (FileSet × Call), ∀ callback ∈ callbacks (linker.eventsAfter calls),
        ¬ callback.Fetches ⟨"k"⟩ := by
  let files : FileSet := .ofDeps [(⟨"a"⟩, [⟨"a"⟩, ⟨"b"⟩, ⟨"b"⟩]), (⟨"b"⟩, [⟨"k"⟩, ⟨"a"⟩, ⟨"z"⟩]),
    (⟨"k"⟩, [])]
  let created : Linker := ⟨1, ⟨0x1000, 0x1000⟩, .empty, []⟩
  let linker := (created.perform files (.openModule ⟨"k"⟩ 2)).linker
  have hcreate : Linker.create 1 ⟨0x1000, 0x1000⟩ [] = .ok created := rfl
  have hreached : linker.Reached _ := (Reached.create hcreate).perform files (.openModule ⟨"k"⟩ 2)
  have hnames : linker.loadedNames = [⟨"k"⟩] := by decide +kernel
  obtain ⟨-, hrequests, hlater⟩ := hreached.loadsOnce_throughout
  refine ⟨linker, _, files, hreached, hnames, ?_, ?_, ?_, hrequests files ⟨"a"⟩ 2, ?_⟩
  · decide +kernel
  · decide +kernel
  · decide +kernel
  · exact fun calls => (hlater ⟨"k"⟩ (by simp [hnames]) calls).2

end Linker

end DynamicLinker
