/-
# A load after one that got stuck

When a load gets stuck, some of the modules that it has mapped stay, and the others are discarded.
A second load of the same name finds the former loaded, under their old numbers, and maps the latter
again, under new ones.  So it has less to do, but what it does is the same: it follows the first
load through all frames but those of modules that are kept.  The frames of kept modules are always
the innermost ones, as all that a kept module needs is kept, so the second load waits while the
first is at them.

At the moments at which the second load makes the steps of the first, the names that both know have
modules with the same exports, and with dependencies of the same names.  For a name that is kept,
and for one whose module is relocated in both, these are all that are declared; for the name of a
frame they are those that the frame has passed, and the frames are the same.  So relocations end in
the same way in both loads, and the second load gets stuck where the first did, with the same error.
-/
import DynamicLinker.Proofs.Descriptions
import DynamicLinker.Proofs.FailedLoads
import DynamicLinker.Proofs.Fetches
import DynamicLinker.Proofs.GlobalScope
import DynamicLinker.Proofs.Openings

namespace DynamicLinker

/-! ## Declarations -/

/-- What is declared for a name when its module was loaded before, or else by its file. -/
def Linker.declares (linker : Linker) (history : History) (files : FileSet) (name : Soname) :
    List Soname :=
  if (linker.modules.named? name).isSome then history.declared name else files.declares name

/-- At every moment of a load the declarations of known names are those of the linker with which it
began, or of the files. -/
lemma Load.Fetched.declared_eq {linker : Linker} {files : FileSet} {load : Load}
    (h : load.Fetched linker files) (history : History) {name : Soname}
    (hname : (load.linker.modules.named? name).isSome) :
    (history.after files load.events).declared name = linker.declares history files name := by
  rw [History.declared_after, Linker.declares]
  cases hold : linker.modules.named? name with
  | none => simp [h.mem_decodings_iff, hname, hold]
  | some id => simp [h.mem_decodings_iff, hold]

/-! ## Two loads -/

/-- A moment of a load that has a last moment, and one of the load that is started for the same name
when the first is unwound at its last moment. -/
structure Retry (linker : Linker) (history : History) (files : FileSet) (name : Soname)
    (word : Int32) (last load retry : Load) : Prop where
  /-- The linker is sound before the first load. -/
  sound : linker.Sound history
  /-- The first load has the last moment. -/
  last_eq : (linker.moments files name word).getLast? = some last
  /-- The first load has the moment. -/
  mem_load : load ∈ linker.moments files name word
  /-- The second load has the moment. -/
  mem_retry : retry ∈ last.unwind.moments files name word

namespace Retry

variable {linker : Linker} {history : History} {files : FileSet} {name : Soname} {word : Int32}
  {last load retry next : Load} {frame frame' : Frame} {outer outer' : List Frame}
  {n : Soname} {dep : Soname} {deps : List Soname} {id id' : ModuleId} {mapping mapping' : Mapping}

/-- The last moment is one of the first load. -/
lemma mem_last (h : Retry linker history files name word last load retry) :
    last ∈ linker.moments files name word :=
  List.mem_of_getLast? h.last_eq

/-- The linker is sound between the two loads. -/
lemma sound_unwind (h : Retry linker history files name word last load retry) :
    last.unwind.Sound (history.after files last.events) :=
  Linker.sound_unwind (h.sound.moment h.mem_last).1 (h.sound.moment h.mem_last).2

/-- What was known before the first load is known between the two. -/
lemma named?_unwind (h : Retry linker history files name word last load retry)
    (hn : (linker.modules.named? n).isSome) : (last.unwind.modules.named? n).isSome :=
  (h.sound.inOrder.retains_unwind h.mem_last).isSome_named? h.sound.inOrder.consistent
    h.sound_unwind.inOrder.consistent hn

/-- What is known between the two loads was known at the last moment of the first. -/
lemma named?_last_of_unwind (h : Retry linker history files name word last load retry)
    (hn : (last.unwind.modules.named? n).isSome) : (last.linker.modules.named? n).isSome := by
  obtain ⟨id, hid⟩ := Option.isSome_iff_exists.mp hn
  exact Option.isSome_of_eq_some ((h.sound.moment h.mem_last).1.named?_unwind.mp hid).1

/-! ## Exports and declarations -/

/-- Between the two loads, known names have the declarations that they had in the first. -/
lemma declared_unwind (h : Retry linker history files name word last load retry)
    (hn : (last.unwind.modules.named? n).isSome) :
    (history.after files last.events).declared n = linker.declares history files n :=
  (h.sound.inOrder.fetched h.mem_last).declared_eq history (h.named?_last_of_unwind hn)

/-- In the second load, known names have the declarations that they have in the first. -/
lemma declared_retry (h : Retry linker history files name word last load retry)
    (hn : (retry.linker.modules.named? n).isSome) :
    ((history.after files last.events).after files retry.events).declared n
      = linker.declares history files n := by
  rw [(h.sound_unwind.inOrder.fetched h.mem_retry).declared_eq _ hn, Linker.declares]
  split
  · rename_i hkept
    exact h.declared_unwind hkept
  · rename_i hnew
    rw [Linker.declares, if_neg fun hold => hnew (h.named?_unwind hold)]

/-- In the second load, a module of a name that was free before the first comes from the file. -/
lemma fromFile_retry (h : Retry linker history files name word last load retry)
    (hid : retry.linker.modules.mapping? id = some mapping)
    (hfree : linker.modules.named? mapping.name = none) : mapping.FromFile files := by
  cases hkept : last.unwind.modules.get? id with
  | none => exact (h.sound_unwind.inOrder.fetched h.mem_retry).fromFile hid hkept
  | some m =>
    -- the module is from the first load
    have hlive : (last.unwind.modules.get? id).isSome := Option.isSome_of_eq_some hkept
    rw [(h.sound_unwind.inOrder.retains_moment h.mem_retry).mapping?_eq_of_live hlive] at hid
    have hnew := (h.sound.inOrder.retains_unwind h.mem_last).get?_eq_none
      h.sound.inOrder.consistent hid hfree
    rw [LinkMap.mapping?, ((h.sound.moment h.mem_last).1.get?_unwind hlive).2] at hid
    exact (h.sound.inOrder.fetched h.mem_last).fromFile hid hnew

/-- Modules of one name have the same exports in both loads. -/
lemma exports_eq (h : Retry linker history files name word last load retry)
    (hid : load.linker.modules.mapping? id = some mapping)
    (hid' : retry.linker.modules.mapping? id' = some mapping')
    (hname : mapping'.name = mapping.name) : mapping'.exports = mapping.exports := by
  have hconsistent := h.sound.inOrder.consistent
  have hretains := h.sound.inOrder.retains_moment h.mem_load
  cases hold : linker.modules.named? mapping.name with
  | none =>
    have hnew := hretains.get?_eq_none hconsistent hid hold
    have hfile := (h.sound.inOrder.fetched h.mem_load).fromFile hid hnew
    exact hfile.exports_eq (h.fromFile_retry hid' (hname ▸ hold)) hname
  | some i =>
    -- the module was there before, and is the same in both loads
    obtain ⟨found, hfound, hsame⟩ := hconsistent.named_iff.mp hold
    have hload := hretains.mapping?_eq hfound
    have hretry := ((h.sound.inOrder.retains_unwind h.mem_last).trans
      (h.sound_unwind.inOrder.retains_moment h.mem_retry)).mapping?_eq hfound
    obtain rfl := (h.sound.moment h.mem_load).1.inOrder.consistent.id_unique hid hload hsame.symm
    obtain rfl := (h.sound_unwind.moment h.mem_retry).1.inOrder.consistent.id_unique hid' hretry
      (hname.trans hsame.symm)
    rw [hid, Option.some.injEq] at hload
    rw [hid', Option.some.injEq] at hretry
    rw [hload, hretry]

/-! ## Frames of modules that are kept -/

/-- All that the frame of a kept module still has to record is kept. -/
lemma named?_of_mem_remaining (h : Retry linker history files name word last load retry)
    (hframe : frame ∈ load.frames) (hkept : (last.unwind.modules.named? frame.name).isSome)
    (hdep : dep ∈ frame.remaining) : (last.unwind.modules.named? dep).isSome := by
  obtain ⟨hproper, hagrees⟩ := h.sound.moment h.mem_load
  obtain ⟨mapping, hmapping, hname⟩ := hproper.mapping?_eq hframe
  obtain ⟨-, passed, hdeclared, -⟩ := hagrees.unfinished hframe hmapping
  refine h.sound_unwind.named?_of_mem_declared hkept ?_
  rw [h.declared_unwind hkept,
    ← (h.sound.inOrder.fetched h.mem_load).declared_eq history
      (Option.isSome_of_eq_some (hproper.named hframe)), ← hname, hdeclared]
  exact List.mem_append_right _ hdep

/-- If the module of the innermost frame is not kept, then none of a frame is. -/
lemma named?_eq_none_of_head (h : Retry linker history files name word last load retry)
    (hframes : load.frames = frame :: outer)
    (hnone : last.unwind.modules.named? frame.name = none) (hframe : frame' ∈ load.frames) :
    last.unwind.modules.named? frame'.name = none := by
  -- a frame is at the dependency that the next inner one loads
  let carries (inner outer : Frame) : Prop :=
    (last.unwind.modules.named? outer.name).isSome → (last.unwind.modules.named? inner.name).isSome
  have htrans : IsTrans Frame carries := ⟨fun _ _ _ hab hbc hc => hab (hbc hc)⟩
  have hchain : load.frames.IsChain carries := by
    refine (h.sound.moment h.mem_load).1.stacked.imp_of_mem_imp
      fun inner outer _ houter hcurrent hkept => ?_
    obtain ⟨deps, hdeps⟩ := hcurrent
    exact h.named?_of_mem_remaining houter hkept (by simp [hdeps])
  rw [hframes, List.isChain_iff_pairwise, List.pairwise_cons] at hchain
  rw [hframes] at hframe
  rcases List.mem_cons.mp hframe with rfl | hframe
  · exact hnone
  · refine Option.not_isSome_iff_eq_none.mp fun hkept => ?_
    have hinner := hchain.1 frame' hframe hkept
    simp [hnone] at hinner

end Retry

/-! ## Following a load -/

/-- What a frame is about, apart from the number of its module. -/
def Frame.work (frame : Frame) : Soname × List Soname × List Reference :=
  (frame.name, frame.remaining, frame.references)

/-- A second load, which began with the linker that a first one has left, is as far as the first
was. -/
structure Load.Follows (between : Linker) (load retry : Load) : Prop where
  /-- It has the frames of the first, but for modules that are kept. -/
  work_eq : retry.frames.map Frame.work
    = (load.frames.filter fun f => (between.modules.named? f.name).isNone).map Frame.work
  /-- It knows what the first knows, and what is kept. -/
  known_iff (n : Soname) : (retry.linker.modules.named? n).isSome ↔
    (between.modules.named? n).isSome ∨ (load.linker.modules.named? n).isSome
  /-- It has published no module. -/
  order_eq : retry.linker.modules.order = between.modules.order

/-- Where two loads have the same frames, and a module of the same name, the module has a frame in
both or in none. -/
lemma Load.Proper.exists_frame {load retry : Load} {frame : Frame} {id : ModuleId}
    {mapping mapping' : Mapping} (h : load.Proper) (h' : retry.Proper)
    (hwork : retry.frames.map Frame.work = load.frames.map Frame.work)
    (hframe : frame ∈ load.frames)
    (hmapping : load.linker.modules.mapping? frame.module = some mapping)
    (hmapping' : retry.linker.modules.mapping? id = some mapping')
    (hname : mapping'.name = mapping.name) :
    ∃ frame' ∈ retry.frames, frame'.module = id ∧ frame'.work = frame.work := by
  obtain ⟨frame', hframe', hsame⟩ :=
    List.mem_map.mp (hwork ▸ List.mem_map_of_mem (f := Frame.work) hframe)
  refine ⟨frame', hframe', ?_, hsame⟩
  obtain ⟨found, hfound, hold⟩ := h.mapping?_eq hframe
  obtain ⟨found', hfound', hnew⟩ := h'.mapping?_eq hframe'
  rw [hmapping, Option.some.injEq] at hfound
  refine h'.inOrder.consistent.id_unique hfound' hmapping' ?_
  rw [hnew, hname, hfound, hold]
  exact congrArg Prod.fst hsame

namespace Retry

variable {linker : Linker} {history : History} {files : FileSet} {name : Soname} {word : Int32}
  {last load retry next : Load} {frame frame' : Frame} {outer outer' : List Frame}
  {n : Soname} {dep : Soname} {deps : List Soname} {id id' : ModuleId} {mapping mapping' : Mapping}

/-- If the module of the innermost frame is not kept, the second load has the same frames. -/
lemma work_eq_of_head (h : Retry linker history files name word last load retry)
    (hfollows : load.Follows last.unwind retry) (hframes : load.frames = frame :: outer)
    (hnone : last.unwind.modules.named? frame.name = none) :
    retry.frames.map Frame.work = load.frames.map Frame.work := by
  rw [hfollows.work_eq, List.filter_eq_self.mpr fun f hf => ?_]
  rw [h.named?_eq_none_of_head hframes hnone hf]
  rfl

/-- While the frames are the same, the modules of a name have dependencies of the same names. -/
lemma depNames_eq (h : Retry linker history files name word last load retry)
    (hwork : retry.frames.map Frame.work = load.frames.map Frame.work)
    (hid : load.linker.modules.mapping? id = some mapping)
    (hid' : retry.linker.modules.mapping? id' = some mapping')
    (hname : mapping'.name = mapping.name) :
    retry.linker.modules.depNames id' = load.linker.modules.depNames id := by
  obtain ⟨hproper, hagrees⟩ := h.sound.moment h.mem_load
  obtain ⟨hproper', hagrees'⟩ := h.sound_unwind.moment h.mem_retry
  have hconsistent := hproper.inOrder.consistent
  have hconsistent' := hproper'.inOrder.consistent
  have hdeclared := (h.sound.inOrder.fetched h.mem_load).declared_eq history
    (Option.isSome_of_eq_some (hconsistent.named_of_mapping hid))
  have hdeclared' := h.declared_retry
    (Option.isSome_of_eq_some (hconsistent'.named_of_mapping hid'))
  rw [hname, ← hdeclared] at hdeclared'
  by_cases hframe : id ∈ load.frames.map Frame.module
  · -- the frame of the module has passed as much in both loads
    obtain ⟨f, hf, rfl⟩ := List.mem_map.mp hframe
    obtain ⟨f', hf', rfl, hsame⟩ := hproper.exists_frame hproper' hwork hf hid hid' hname
    obtain ⟨-, passed, hpassed, hdeps⟩ := hagrees.unfinished hf hid
    obtain ⟨-, passed', hpassed', hdeps'⟩ := hagrees'.unfinished hf' hid'
    have hremaining : f'.remaining = f.remaining := congrArg (fun work => work.2.1) hsame
    rw [hname, hdeclared', hpassed, hremaining, List.append_cancel_right_eq] at hpassed'
    rw [hdeps', hdeps, hpassed']
  · have hframe' : id' ∉ retry.frames.map Frame.module := by
      intro hmem
      obtain ⟨f', hf', rfl⟩ := List.mem_map.mp hmem
      obtain ⟨f, hf, hmodule, -⟩ :=
        hproper'.exists_frame hproper hwork.symm hf' hid' hid hname.symm
      exact hframe (hmodule ▸ List.mem_map_of_mem hf)
    rw [(hagrees'.finished hid' hframe').2, (hagrees.finished hid hframe).2, hname, hdeclared']

/-- While the frames are the same, known names have modules of the same descriptions. -/
lemma described?_eq (h : Retry linker history files name word last load retry)
    (hfollows : load.Follows last.unwind retry)
    (hwork : retry.frames.map Frame.work = load.frames.map Frame.work)
    (hn : (load.linker.modules.named? n).isSome) :
    retry.linker.modules.described? n = load.linker.modules.described? n := by
  have hconsistent := (h.sound.moment h.mem_load).1.inOrder.consistent
  have hconsistent' := (h.sound_unwind.moment h.mem_retry).1.inOrder.consistent
  obtain ⟨id, hid⟩ := Option.isSome_iff_exists.mp hn
  obtain ⟨id', hid'⟩ := Option.isSome_iff_exists.mp ((hfollows.known_iff n).mpr (Or.inr hn))
  obtain ⟨mapping, hmapping, hname⟩ := hconsistent.named_iff.mp hid
  obtain ⟨mapping', hmapping', hname'⟩ := hconsistent'.named_iff.mp hid'
  have hsame : mapping'.name = mapping.name := hname'.trans hname.symm
  have hdescribed := hconsistent.described?_eq hmapping
  have hdescribed' := hconsistent'.described?_eq hmapping'
  rw [hname] at hdescribed
  rw [hname', h.exports_eq hmapping hmapping' hsame, h.depNames_eq hwork hmapping hmapping' hsame]
    at hdescribed'
  rw [hdescribed, hdescribed']

/-- The global scope has the same names in both loads. -/
lemma namesOf_globalScope_eq (h : Retry linker history files name word last load retry) :
    retry.linker.modules.namesOf retry.linker.modules.globalScope
      = load.linker.modules.namesOf load.linker.modules.globalScope := by
  have hload := (h.sound.inOrder.since h.mem_load).globalScope_eq h.sound.inOrder
    (h.sound.moment h.mem_load).1
  have hretry := (h.sound_unwind.inOrder.since h.mem_retry).globalScope_eq h.sound_unwind.inOrder
    (h.sound_unwind.moment h.mem_retry).1
  have hretains := h.sound.inOrder.retains_moment h.mem_load
  have hagain := (h.sound.inOrder.retains_unwind h.mem_last).trans
    (h.sound_unwind.inOrder.retains_moment h.mem_retry)
  rw [hretry, h.sound.inOrder.globalScope_unwind h.mem_last, hload]
  refine LinkMap.namesOf_congr fun id hid => ?_
  have hlive := h.sound.inOrder.consistent.isSome_of_mem_globalScope hid
  rw [hagain.mapping?_eq_of_live hlive, hretains.mapping?_eq_of_live hlive]

/-- **The relocation of the innermost module ends in the same way in both loads.** -/
theorem result_relocate_eq (h : Retry linker history files name word last load retry)
    (hfollows : load.Follows last.unwind retry)
    (hwork : retry.frames.map Frame.work = load.frames.map Frame.work)
    (hframe : frame ∈ load.frames) (hframe' : frame' ∈ retry.frames)
    (hsame : frame'.work = frame.work) :
    (retry.linker.modules.relocate frame'.module frame'.name frame'.references).2
      = (load.linker.modules.relocate frame.module frame.name frame.references).2 := by
  obtain ⟨hname, -, hreferences⟩ : frame'.name = frame.name ∧
      frame'.remaining = frame.remaining ∧ frame'.references = frame.references := by
    simpa [Frame.work] using hsame
  have hproper := (h.sound.moment h.mem_load).1
  have hproper' := (h.sound_unwind.moment h.mem_retry).1
  obtain ⟨mapping, hmapping, hold⟩ := hproper.mapping?_eq hframe
  obtain ⟨mapping', hmapping', hnew⟩ := hproper'.mapping?_eq hframe'
  rw [hname, hreferences, ← hold]
  exact hproper.inOrder.consistent.result_relocate_eq hproper'.inOrder.consistent
    (fun n hn => h.described?_eq hfollows hwork hn) h.namesOf_globalScope_eq hmapping hmapping'
    (by rw [hnew, hname, hold]) frame.references

/-- A module that is relocated, and that is not kept in the end, still awaits a module of an outer
frame. -/
lemma exists_awaited (h : Retry linker history files name word last load retry)
    (hframes : load.frames = frame :: outer)
    (hnone : last.unwind.modules.named? frame.name = none) {events : List Event}
    (hnext : ⟨load.linker.settle frame.module, outer, events⟩ ∈ linker.moments files name word) :
    ∃ g ∈ outer, load.linker.modules.Reaches frame.module g.module := by
  by_contra hnot
  have hproper := (h.sound.moment h.mem_load).1
  have hlast := (h.sound.moment h.mem_last).1
  have horder : load.linker.InOrder (frame.module :: outer.map Frame.module) := by
    have hall := hproper.inOrder
    rwa [hframes] at hall
  have hready : ∀ g ∈ outer.map Frame.module, ¬ load.linker.modules.Reaches frame.module g := by
    rintro _ hg hreach
    obtain ⟨g, hg', rfl⟩ := List.mem_map.mp hg
    exact hnot ⟨g, hg', hreach⟩
  -- the module would be published, and so it would be kept
  have hpublished : (load.linker.settle frame.module).modules.state? frame.module
      = some .loaded := by
    rw [horder.settle_eq_of_not_reaches hready]
    refine horder.state?_publish_ready.trans (if_pos ?_)
    exact Linker.mem_ready.mpr ⟨Or.inr rfl, LinkMap.Reaches.refl _ _⟩
  have hloaded : last.linker.modules.state? frame.module = some .loaded :=
    (Linker.extends_last h.sound.inOrder hnext h.last_eq).state?_eq hpublished
  obtain ⟨mapping, hmapping, hname⟩ :=
    hproper.mapping?_eq (show frame ∈ load.frames by simp [hframes])
  have hnamed := hlast.inOrder.consistent.named_of_mapping
    (h.sound.inOrder.mapping?_last h.mem_load h.last_eq hmapping)
  rw [hname] at hnamed
  have hkept := hlast.named?_unwind.mpr ⟨hnamed, hloaded⟩
  simp [hnone] at hkept

/-- While the frames are the same, a module of a frame that reaches one of another does so in both
loads. -/
lemma reaches_of_work (h : Retry linker history files name word last load retry)
    (hfollows : load.Follows last.unwind retry)
    (hwork : retry.frames.map Frame.work = load.frames.map Frame.work) {g g' : Frame}
    (hframe : frame ∈ load.frames) (hframe' : frame' ∈ retry.frames)
    (hsame : frame'.name = frame.name) (hg : g ∈ load.frames) (hg' : g' ∈ retry.frames)
    (hgsame : g'.name = g.name) (hreach : load.linker.modules.Reaches frame.module g.module) :
    retry.linker.modules.Reaches frame'.module g'.module := by
  have hproper := (h.sound.moment h.mem_load).1
  have hproper' := (h.sound_unwind.moment h.mem_retry).1
  obtain ⟨mapping, hmapping, hname⟩ := hproper.mapping?_eq hframe
  obtain ⟨mapping', hmapping', hname'⟩ := hproper'.mapping?_eq hframe'
  have htree := hproper.inOrder.consistent.namesOf_tree_eq hproper'.inOrder.consistent
    (fun n hn => h.described?_eq hfollows hwork hn) hmapping hmapping'
    (by rw [hname, hname', hsame])
  -- the name of the module that is reached is in the tree, so it is in that of the second load
  have hmem : g.name ∈ load.linker.modules.namesOf (load.linker.modules.tree frame.module) := by
    obtain ⟨found, hfound, hfoundname⟩ := hproper.mapping?_eq hg
    rw [LinkMap.namesOf_eq, List.mem_filterMap]
    exact ⟨g.module, LinkMap.mem_tree.mpr hreach, by simp [hfound, hfoundname]⟩
  rw [← htree, LinkMap.namesOf_eq, List.mem_filterMap] at hmem
  obtain ⟨t, ht, htname⟩ := hmem
  obtain ⟨found, hfound, hfoundname⟩ := Option.map_eq_some_iff.mp htname
  have hnamed := hproper'.named hg'
  rw [hgsame, ← hfoundname, hproper'.inOrder.consistent.named_of_mapping hfound,
    Option.some.injEq] at hnamed
  rw [← hnamed]
  exact LinkMap.mem_tree.mp ht

end Retry

/-! ## Steps -/

namespace Load

variable {between : Linker} {files : FileSet} {name dep : Soname} {deps : List Soname}
  {neededBy : Option Soname} {load retry next next' stuck : Load} {frame frame' : Frame}
  {outer outer' : List Frame} {target : ModuleId} {e : LinkError}

lemma step?_of_free (files : FileSet) (hframes : load.frames = frame :: outer)
    (hremaining : frame.remaining = dep :: deps) (hfree : load.linker.modules.named? dep = none) :
    load.step? files = some (load.fetch files (some frame.name) dep) := by
  simp [step?, hframes, hremaining, hfree]

lemma step?_of_named (files : FileSet) (hframes : load.frames = frame :: outer)
    (hremaining : frame.remaining = dep :: deps)
    (hfound : load.linker.modules.named? dep = some target) :
    load.step? files = some (.ok (load.link frame deps outer target)) := by
  simp [step?, hframes, hremaining, hfound]

lemma step?_of_done (files : FileSet) (hframes : load.frames = frame :: outer)
    (hremaining : frame.remaining = []) :
    load.step? files = some (load.relocate frame outer) := by
  simp [step?, hframes, hremaining]

/-- If the file of a name can be fetched in one load, it can be fetched in any. -/
lemma exists_fetch_eq_ok (retry : Load) {neededBy' : Option Soname}
    (h : load.fetch files neededBy name = .ok next) :
    ∃ next', retry.fetch files neededBy' name = .ok next' := by
  obtain ⟨image, hfile, -⟩ := fetch_eq_ok h
  simp [fetch, hfile, ObjectFile.decode]

/-- If the file of a name cannot be fetched in one load, it cannot be fetched in any. -/
lemma exists_fetch_eq_error (retry : Load)
    (h : load.fetch files neededBy name = .error (e, stuck)) :
    ∃ stuck', retry.fetch files neededBy name = .error (e, stuck') := by
  rw [fetch] at h ⊢
  cases hfile : files.retrieve name with
  | error failure => simp_all
  | ok file => cases file <;> simp_all [ObjectFile.decode]

/-- A relocation that succeeds ends a frame. -/
lemma relocate_eq_ok (h : (load.linker.modules.relocate frame.module frame.name
      frame.references).2 = .ok ()) (outer : List Frame) :
    ∃ events, load.relocate frame outer = .ok ⟨load.linker.settle frame.module, outer, events⟩ := by
  simp only [relocate, h]
  exact ⟨_, rfl⟩

/-- A relocation fails with the error that ends it. -/
lemma relocate_eq_error (h : load.relocate frame outer = .error (e, stuck)) :
    (load.linker.modules.relocate frame.module frame.name frame.references).2 = .error e := by
  simp only [relocate] at h
  split at h
  · rename_i hresult
    rw [hresult, (Prod.mk.inj (Except.error.inj h)).1]
  · simp at h

lemma exists_relocate_eq_error (h : (load.linker.modules.relocate frame.module frame.name
      frame.references).2 = .error e) (outer : List Frame) :
    ∃ stuck, load.relocate frame outer = .error (e, stuck) := by
  simp only [relocate, h]
  exact ⟨_, rfl⟩

/-- A step that changes only frames of modules that are kept, and makes no name known that is not,
need not be followed. -/
lemma Follows.congr (h : load.Follows between retry)
    (hwork : (next.frames.filter fun f => (between.modules.named? f.name).isNone).map Frame.work
      = (load.frames.filter fun f => (between.modules.named? f.name).isNone).map Frame.work)
    (hknown : ∀ n, (between.modules.named? n).isSome ∨ (next.linker.modules.named? n).isSome ↔
      (between.modules.named? n).isSome ∨ (load.linker.modules.named? n).isSome) :
    next.Follows between retry where
  work_eq := h.work_eq.trans hwork.symm
  known_iff n := (h.known_iff n).trans (hknown n).symm
  order_eq := h.order_eq

/-- The file of a name that is kept need not be fetched again. -/
lemma Follows.fetch_kept (h : load.Follows between retry)
    (hkept : (between.modules.named? dep).isSome)
    (hfetch : load.fetch files neededBy dep = .ok next) : next.Follows between retry := by
  obtain ⟨image, -, rfl⟩ := fetch_eq_ok hfetch
  refine h.congr ?_ fun n => ?_
  · rw [List.filter_cons_of_neg (by simpa using Option.isSome_iff_ne_none.mp hkept)]
  · rw [LinkMap.named?_register]
    by_cases hn : n = dep <;> simp [hn, hkept]

/-- The file of a name that is not kept is fetched in both loads. -/
lemma Follows.fetch (h : load.Follows between retry) (hnone : between.modules.named? dep = none)
    {neededBy' : Option Soname} (hfetch : load.fetch files neededBy dep = .ok next)
    (hfetch' : retry.fetch files neededBy' dep = .ok next') : next.Follows between next' := by
  obtain ⟨image, hfile, rfl⟩ := fetch_eq_ok hfetch
  obtain ⟨image', hfile', rfl⟩ := fetch_eq_ok hfetch'
  obtain rfl : image' = image := by simpa [hfile] using hfile'.symm
  refine ⟨?_, fun n => ?_, h.order_eq⟩
  · rw [List.filter_cons_of_pos (by simp [hnone]), List.map_cons, List.map_cons, h.work_eq]
    rfl
  · rw [LinkMap.named?_register, LinkMap.named?_register]
    by_cases hn : n = dep
    · simp [hn]
    · simpa [hn] using h.known_iff n

/-- If the module of the innermost frame is not kept, the second load has a frame for it, too. -/
lemma Follows.exists_head (h : load.Follows between retry) (hframes : load.frames = frame :: outer)
    (hnone : between.modules.named? frame.name = none) :
    ∃ frame' outer', retry.frames = frame' :: outer' ∧ frame'.name = frame.name ∧
      frame'.remaining = frame.remaining ∧ frame'.references = frame.references ∧
      outer'.map Frame.work = (outer.filter fun f => (between.modules.named? f.name).isNone).map
        Frame.work := by
  have hwork := h.work_eq
  rw [hframes, List.filter_cons_of_pos (by simp [hnone]), List.map_cons] at hwork
  obtain ⟨frame', outer', hframes', hsame, houter⟩ := List.map_eq_cons_iff.mp hwork
  simp only [Frame.work, Prod.mk.injEq] at hsame
  exact ⟨frame', outer', hframes', hsame.1, hsame.2.1, hsame.2.2, houter⟩

/-- A dependency is recorded in both loads, but for a module that is kept. -/
lemma Follows.link (h : load.Follows between retry) (hframes : load.frames = frame :: outer)
    (hremaining : frame.remaining = dep :: deps)
    (hfound : load.linker.modules.named? dep = some target) :
    ∃ retry', (retry' = retry ∨ retry.step? files = some (.ok retry')) ∧
      (load.link frame deps outer target).Follows between retry' := by
  have hnamed : ∀ n, (load.link frame deps outer target).linker.modules.named? n
      = load.linker.modules.named? n := LinkMap.named?_addDep _ _
  cases hkept : between.modules.named? frame.name with
  | some id =>
    refine ⟨retry, Or.inl rfl, h.congr ?_ fun n => by rw [hnamed]⟩
    rw [hframes, List.filter_cons_of_neg (by simp [hkept])]
    exact congrArg (List.map Frame.work) (List.filter_cons_of_neg (by simp [hkept]))
  | none =>
    obtain ⟨frame', outer', hframes', hname, hremaining', hreferences, houter⟩ :=
      h.exists_head hframes hkept
    obtain ⟨target', hfound'⟩ := Option.isSome_iff_exists.mp
      ((h.known_iff dep).mpr (Or.inr (Option.isSome_of_eq_some hfound)))
    refine ⟨retry.link frame' deps outer' target',
      Or.inr (step?_of_named files hframes' (hremaining'.trans hremaining) hfound'),
      ?_, fun n => ?_, ?_⟩
    · refine Eq.trans ?_ (congrArg (List.map Frame.work)
        (List.filter_cons_of_pos (by simp [hkept]))).symm
      simp [Load.link, Frame.work, hname, hreferences, ← houter]
    · have hnamed' : (retry.link frame' deps outer' target').linker.modules.named? n
          = retry.linker.modules.named? n := LinkMap.named?_addDep _ _ n
      rw [hnamed, hnamed']
      exact h.known_iff n
    · exact LinkMap.order_addDep.trans h.order_eq

end Load

namespace Retry

variable {linker : Linker} {history : History} {files : FileSet} {name : Soname} {word : Int32}
  {last load retry next : Load} {frame : Frame} {outer : List Frame} {events : List Event}

/-- A module is relocated in both loads, but for one that is kept. -/
lemma follows_relocate (h : Retry linker history files name word last load retry)
    (hfollows : load.Follows last.unwind retry) (hframes : load.frames = frame :: outer)
    (hremaining : frame.remaining = [])
    (hresult : (load.linker.modules.relocate frame.module frame.name frame.references).2 = .ok ())
    (hnext : ⟨load.linker.settle frame.module, outer, events⟩ ∈ linker.moments files name word) :
    ∃ retry', (retry' = retry ∨ retry.step? files = some (.ok retry')) ∧
      Load.Follows last.unwind ⟨load.linker.settle frame.module, outer, events⟩ retry' := by
  have hmem : frame ∈ load.frames := by simp [hframes]
  cases hkept : last.unwind.modules.named? frame.name with
  | some id =>
    refine ⟨retry, Or.inl rfl, hfollows.congr ?_ fun n => by rw [Load.named?_settle]⟩
    rw [hframes, List.filter_cons_of_neg (by simp [hkept])]
  | none =>
    obtain ⟨frame', outer', hframes', hname, hremaining', hreferences, houter⟩ :=
      hfollows.exists_head hframes hkept
    have hmem' : frame' ∈ retry.frames := by simp [hframes']
    have hwork := h.work_eq_of_head hfollows hframes hkept
    have hsame : frame'.work = frame.work := by
      simp [Frame.work, hname, hremaining', hreferences]
    have hresult' := h.result_relocate_eq hfollows hwork hmem hmem' hsame
    rw [hresult] at hresult'
    obtain ⟨events', hrelocate⟩ := Load.relocate_eq_ok hresult' outer'
    have hstep := Load.step?_of_done files hframes' (hremaining'.trans hremaining)
    rw [hrelocate] at hstep
    refine ⟨_, Or.inr hstep, houter, fun n => ?_, ?_⟩
    · rw [Load.named?_settle, Load.named?_settle]
      exact hfollows.known_iff n
    · -- the module waits, so nothing is published
      have horder : retry.linker.InOrder (frame'.module :: outer'.map Frame.module) := by
        have hall := (h.sound_unwind.moment h.mem_retry).1.inOrder
        rwa [hframes'] at hall
      obtain ⟨g, hg, hreach⟩ := h.exists_awaited hframes hkept hnext
      have houters : outer'.map Frame.work = outer.map Frame.work := by
        rw [hframes, hframes', List.map_cons, List.map_cons] at hwork
        exact (List.cons.inj hwork).2
      obtain ⟨g', hg', hgsame⟩ :=
        List.mem_map.mp (houters ▸ List.mem_map_of_mem (f := Frame.work) hg)
      have hawaits := h.reaches_of_work hfollows hwork hmem hmem' hname
        (show g ∈ load.frames by simp [hframes, hg])
        (show g' ∈ retry.frames by simp [hframes', hg']) (congrArg Prod.fst hgsame) hreach
      rw [horder.settle_eq_of_reaches ⟨_, List.mem_map_of_mem hg', hawaits⟩]
      exact hfollows.order_eq

/-- **The second load follows each step of the first**, by the same step or by none. -/
theorem follows_step (h : Retry linker history files name word last load retry)
    (hfollows : load.Follows last.unwind retry) (hnext : next ∈ linker.moments files name word)
    (hstep : load.step? files = some (.ok next)) :
    ∃ retry', (retry' = retry ∨ retry.step? files = some (.ok retry')) ∧
      next.Follows last.unwind retry' := by
  obtain ⟨frame, outer, hframes⟩ := Load.exists_frame_of_step? hstep
  have hmem : frame ∈ load.frames := by simp [hframes]
  cases Load.advance_of_step? hstep with
  | @fetch dep _ hfree hhead hfetch =>
    obtain ⟨deps, hremaining⟩ := hhead frame (by simp [hframes])
    cases hdep : last.unwind.modules.named? dep with
    | some _ =>
      exact ⟨retry, Or.inl rfl, hfollows.fetch_kept (Option.isSome_of_eq_some hdep) hfetch⟩
    | none =>
      -- then the module that needs the file is not kept either
      have hnone : last.unwind.modules.named? frame.name = none := by
        refine Option.not_isSome_iff_eq_none.mp fun hkept => ?_
        have hneeded := h.named?_of_mem_remaining hmem hkept
          (show dep ∈ frame.remaining by simp [hremaining])
        simp [hdep] at hneeded
      obtain ⟨frame', outer', hframes', -, hremaining', -, -⟩ :=
        hfollows.exists_head hframes hnone
      have hfree' : retry.linker.modules.named? dep = none := by
        have hknown := hfollows.known_iff dep
        simpa [hdep, hfree] using hknown
      obtain ⟨next', hfetch'⟩ := Load.exists_fetch_eq_ok retry hfetch
      have hstep' := Load.step?_of_free files hframes' (hremaining'.trans hremaining)
        hfree'
      rw [hfetch'] at hstep'
      exact ⟨next', Or.inr hstep', hfollows.fetch hdep hfetch hfetch'⟩
  | link hframes' hremaining hfound => exact hfollows.link hframes' hremaining hfound
  | relocate hframes' hremaining hevents =>
    exact h.follows_relocate hfollows hframes' hremaining (congrArg Prod.snd hevents) hnext

/-- **Where the first load gets stuck, the second one does**, with the same error. -/
theorem step?_eq_error (h : Retry linker history files name word last last retry)
    (hfollows : last.Follows last.unwind retry) {e : LinkError} {stuck : Load}
    (hstep : last.step? files = some (.error (e, stuck))) :
    ∃ stuck', retry.step? files = some (.error (e, stuck')) := by
  obtain ⟨frame, outer, hframes⟩ := Load.exists_frame_of_step? hstep
  have hmem : frame ∈ last.frames := by simp [hframes]
  have hnone := (h.sound.moment h.mem_last).1.named?_unwind_of_frame hmem
  obtain ⟨frame', outer', hframes', hname, hremaining', hreferences, -⟩ :=
    hfollows.exists_head hframes hnone
  cases hremaining : frame.remaining with
  | nil =>
    rw [Load.step?_of_done files hframes hremaining, Option.some.injEq] at hstep
    rw [Load.step?_of_done files hframes' (hremaining'.trans hremaining)]
    have hresult := h.result_relocate_eq hfollows (h.work_eq_of_head hfollows hframes hnone) hmem
      (show frame' ∈ retry.frames by simp [hframes'])
      (by simp [Frame.work, hname, hremaining', hreferences])
    rw [Load.relocate_eq_error hstep] at hresult
    obtain ⟨stuck', hstuck⟩ := Load.exists_relocate_eq_error hresult outer'
    exact ⟨stuck', congrArg some hstuck⟩
  | cons dep deps =>
    cases hfree : last.linker.modules.named? dep with
    | some target =>
      rw [Load.step?_of_named files hframes hremaining hfree] at hstep
      simp at hstep
    | none =>
      have hfree' : retry.linker.modules.named? dep = none := by
        refine Option.not_isSome_iff_eq_none.mp fun hknown => ?_
        have hlast := ((hfollows.known_iff dep).mp hknown).elim h.named?_last_of_unwind
          fun hold => hold
        simp [hfree] at hlast
      rw [Load.step?_of_free files hframes hremaining hfree, Option.some.injEq] at hstep
      rw [Load.step?_of_free files hframes' (hremaining'.trans hremaining) hfree', hname]
      obtain ⟨stuck', hstuck⟩ := Load.exists_fetch_eq_error retry hstep
      exact ⟨stuck', congrArg some hstuck⟩

/-! ## Runs -/

variable {begun begun' : Load}

/-- The moments after the file that was asked for has been fetched. -/
lemma of_fetch (h : linker.Sound history) (hstarts : linker.startsLoad name word = true)
    (hfetch : (Load.start linker).fetch files none name = .ok begun)
    (hlast : (begun.moments files).getLast? = some last)
    (hstarts' : last.unwind.startsLoad name word = true)
    (hfetch' : (Load.start last.unwind).fetch files none name = .ok begun')
    (hload : load ∈ begun.moments files) (hretry : retry ∈ begun'.moments files) :
    Retry linker history files name word last load retry := by
  refine ⟨h, Linker.getLast?_moments_of_fetch hstarts hfetch hlast, ?_, ?_⟩
  · rw [Linker.moments_of_fetch hstarts hfetch]
    exact List.mem_cons_of_mem _ hload
  · rw [Linker.moments_of_fetch hstarts' hfetch']
    exact List.mem_cons_of_mem _ hretry

/-- **The second load can follow the first to its last moment.** -/
theorem exists_follower (h : linker.Sound history) (hstarts : linker.startsLoad name word = true)
    (hfetch : (Load.start linker).fetch files none name = .ok begun)
    (hlast : (begun.moments files).getLast? = some last)
    (hstarts' : last.unwind.startsLoad name word = true)
    (hfetch' : (Load.start last.unwind).fetch files none name = .ok begun') :
    ∃ retry ∈ begun'.moments files, Retry linker history files name word last last retry ∧
      last.Follows last.unwind retry := by
  have hretry : ∀ {load retry}, load ∈ begun.moments files → retry ∈ begun'.moments files →
      Retry linker history files name word last load retry := fun hload hretry =>
    of_fetch h hstarts hfetch hlast hstarts' hfetch' hload hretry
  have hbegun' := begun'.self_mem_moments files
  have hfirst := hretry (begun.self_mem_moments files) hbegun'
  have hstart : (Load.start linker).Follows last.unwind (Load.start last.unwind) :=
    ⟨rfl, fun n => ⟨Or.inl, fun hknown => hknown.elim (fun hn => hn) hfirst.named?_unwind⟩, rfl⟩
  have hfree := Linker.named?_of_startsLoad hfirst.sound_unwind.inOrder hstarts'
  -- the induction is on the moments of the first load, and the second one goes on or waits
  obtain ⟨retry, hmem, hfollows⟩ : ∃ retry ∈ begun'.moments files,
      last.Follows last.unwind retry := by
    refine Load.moments_step_induction
      (P := fun load => ∃ retry ∈ begun'.moments files, load.Follows last.unwind retry)
      ⟨begun', hbegun', hstart.fetch hfree hfetch hfetch'⟩ (fun a b ha hfollowed hab => ?_)
      (List.mem_of_getLast? hlast)
    obtain ⟨retry, hmem, hfollows⟩ := hfollowed
    have hnext := hretry (Load.mem_moments_of_step? ha hab) hmem
    obtain ⟨retry', hor, hfollows'⟩ := (hretry ha hmem).follows_step hfollows hnext.mem_load hab
    rcases hor with rfl | hstep'
    · exact ⟨retry', hmem, hfollows'⟩
    · exact ⟨retry', Load.mem_moments_of_step? hmem hstep', hfollows'⟩
  exact ⟨retry, hmem, hretry (List.mem_of_getLast? hlast) hmem, hfollows⟩

end Retry

end DynamicLinker
