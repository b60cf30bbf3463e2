/-
# The order of a load

A load keeps its place in frames, and sees from the names that are known which files it has visited
already.  So what it does is a recursive walk over the dependencies that files declare: a file is
retrieved when the walk enters its name, and the module is relocated when the walk leaves it.  The
names that were known before are passed over.

The tree of the module that was asked for is a walk over the same dependencies, but it goes through
the modules that were loaded before as well.  From these only others of them are reached, so they
may be left out of the tree, and what is left is what the load has visited.
-/
import DynamicLinker.Proofs.Fetches
import DynamicLinker.Proofs.Handles
import DynamicLinker.Proofs.Traversal

namespace DynamicLinker

namespace Load

/-- What the frames of a load lead to, when some names are known: the innermost one goes through the
dependencies that remain, and is left; then the next one does. -/
inductive Outstanding (next : Soname → List Soname) :
    List Soname → List Frame → List Soname → List Soname → Prop where
  /-- Without a frame nothing is left to do. -/
  | nil (known : List Soname) : Outstanding next known [] [] []
  /-- The innermost frame comes first. -/
  | cons {known entered left entered' left' : List Soname} {frame : Frame} {outer : List Frame}
      (hinner : Traversal next known frame.remaining entered left)
      (houter : Outstanding next (entered ++ known) outer entered' left') :
      Outstanding next known (frame :: outer) (entered ++ entered') (left ++ frame.name :: left')

variable {next : Soname → List Soname} {known known' entered left : List Soname}
  {frame : Frame} {outer : List Frame} {name dep : Soname} {deps : List Soname}
  {files : FileSet} {load last : Load}

/-- It does not matter in which order names became known. -/
lemma Outstanding.congr_known (h : Outstanding next known outer entered left)
    (hknown : ∀ n, n ∈ known' ↔ n ∈ known) : Outstanding next known' outer entered left := by
  induction h generalizing known' with
  | nil => exact .nil known'
  | cons hinner _ ih =>
    refine .cons (hinner.congr_seen hknown) (ih fun n => ?_)
    simp [hknown]

/-- A frame may have one more dependency if that is known. -/
lemma Outstanding.link (h : Outstanding next known ({ frame with remaining := deps } :: outer)
      entered left) (hdep : dep ∈ known) (hremaining : frame.remaining = dep :: deps) :
    Outstanding next known (frame :: outer) entered left := by
  cases h with
  | cons hinner houter =>
    refine .cons ?_ houter
    rw [hremaining]
    exact .skip hdep hinner

/-- A frame that is at a new name goes on with the frame of that name, and then with its other
dependencies. -/
lemma Outstanding.fetch {new : Frame} (h : Outstanding next (dep :: known) (new :: frame :: outer)
      entered left) (hdep : dep ∉ known) (hremaining : frame.remaining = dep :: deps)
    (hname : new.name = dep) (hnew : new.remaining = next dep) :
    Outstanding next known (frame :: outer) (dep :: entered) left := by
  cases h with
  | @cons _ below below' _ _ _ _ hbelow hframes =>
    cases hframes with
    | @cons _ entered left entered' left' _ _ hinner houter =>
      rw [hremaining] at hinner
      rw [hnew] at hbelow
      -- when the walk is back at the frame, the name at which it was is known
      have hwalk : Traversal next known frame.remaining (dep :: below ++ entered)
          (below' ++ dep :: left) := by
        rw [hremaining]
        exact .visit hdep hbelow (hinner.of_cons (List.mem_append_right _ List.mem_cons_self))
      have hall : Outstanding next known (frame :: outer) _ _ :=
        .cons hwalk (houter.congr_known fun n => by
          simp only [List.mem_append, List.mem_cons]
          tauto)
      simpa [hname] using hall

/-- **A load that runs to its end does what its frames lead to**: it retrieves files as names are
entered, and relocates modules as they are left. -/
theorem outstanding_of_run (hrun : load.run files = .ok last)
    (hknown : ∀ n, n ∈ known ↔ (load.linker.modules.named? n).isSome) :
    ∃ entered left, Outstanding files.declares known load.frames entered left ∧
      retrievals last.events = retrievals load.events ++ entered ∧
      relocations last.events = relocations load.events ++ left := by
  fun_induction load.run files generalizing known with
  | case1 load hstep =>
    obtain rfl : load = last := Except.ok.inj hrun
    rw [frames_eq_nil_of_step? hstep]
    exact ⟨[], [], .nil known, by simp, by simp⟩
  | case2 load stuck hstep => simp at hrun
  | case3 load next hstep ih =>
    obtain ⟨frame, outer, hframes⟩ := exists_frame_of_step? hstep
    cases advance_of_step? hstep with
    | @fetch dep _ hfree hhead hfetch =>
      obtain ⟨deps, hremaining⟩ := hhead frame (by simp [hframes])
      obtain ⟨image, hfile, rfl⟩ := fetch_eq_ok hfetch
      have hdep : dep ∉ known := by simp [hknown, hfree]
      obtain ⟨entered, left, houtstanding, hretrieved, hrelocated⟩ :=
        @ih (dep :: known) hrun fun n => by
          rw [LinkMap.named?_register, List.mem_cons, hknown]
          by_cases hn : n = dep <;> simp [hn]
      rw [hframes] at houtstanding ⊢
      refine ⟨dep :: entered, left, houtstanding.fetch hdep hremaining rfl ?_, ?_, ?_⟩
      · simp [FileSet.declares, hfile]
      · rw [hretrieved, retrievals_append]
        simp [retrievals]
      · rw [hrelocated, relocations_append]
        simp [relocations]
    | @link frame' outer' dep deps target hframes' hremaining hfound =>
      rw [hframes] at hframes' ⊢
      obtain ⟨rfl, rfl⟩ := List.cons.inj hframes'
      have hdep : dep ∈ known := by simp [hknown, hfound]
      obtain ⟨entered, left, houtstanding, hretrieved, hrelocated⟩ :=
        ih hrun fun n => (hknown n).trans <| by
          rw [← LinkMap.named?_addDep frame.module target n]
          rfl
      exact ⟨entered, left, houtstanding.link hdep hremaining, hretrieved, hrelocated⟩
    | @relocate frame' outer' events hframes' hremaining hevents =>
      rw [hframes] at hframes' ⊢
      obtain ⟨rfl, rfl⟩ := List.cons.inj hframes'
      obtain ⟨entered, left, houtstanding, hretrieved, hrelocated⟩ :=
        ih hrun fun n => (hknown n).trans (by rw [named?_settle])
      have hinner : Traversal files.declares known frame.remaining [] [] := by
        rw [hremaining]
        exact .nil known
      refine ⟨entered, frame.name :: left, .cons hinner houtstanding, ?_, ?_⟩
      · rw [hretrieved, retrievals_append, (fetches_relocate hevents).1, List.append_nil]
      · rw [hrelocated, relocations_append, relocations_relocate hevents]
        simp

end Load

namespace Linker

variable {linker : Linker} {history : History} {files : FileSet} {name : Soname} {word : Int32}
  {handle : Handle} {begun last : Load}

/-! ## The names that were loaded before -/

/-- The names of the loaded modules. -/
def loadedNames (linker : Linker) : List Soname := linker.loadedModules.map ModuleInfo.name

/-- Between calls the names of loaded modules are those that have a module. -/
lemma Sound.mem_loadedNames (h : linker.Sound history) :
    name ∈ linker.loadedNames ↔ (linker.modules.named? name).isSome := by
  have hlisted := h.wellFormed.listed name
  simp only [loadedNames, List.mem_map]
  constructor
  · rintro ⟨info, hinfo, hname⟩
    have hmem : info ∈ linker.loadedModules.filter fun info => info.name = name :=
      List.mem_filter.mpr ⟨hinfo, by simpa using hname⟩
    have hhandle := List.mem_map_of_mem (f := ModuleInfo.handle) hmem
    rw [hlisted] at hhandle
    obtain ⟨id, hid, -⟩ := List.mem_map.mp hhandle
    rw [Option.mem_toList] at hid
    exact Option.isSome_of_eq_some hid
  · intro hsome
    obtain ⟨id, hid⟩ := Option.isSome_iff_exists.mp hsome
    have hhandle : (⟨linker.id, id⟩ : Handle) ∈
        (linker.loadedModules.filter fun info => info.name = name).map ModuleInfo.handle := by
      simp [hlisted, hid]
    obtain ⟨info, hinfo, -⟩ := List.mem_map.mp hhandle
    obtain ⟨hmem, hname⟩ := List.mem_filter.mp hinfo
    exact ⟨info, hmem, by simpa using hname⟩

/-! ## Requests that succeed -/

/-- The issue of a handle fetches and relocates nothing. -/
lemma names_issue (linker : Linker) (id : ModuleId) (mode : Mode) :
    retrievals (linker.issue id mode).events = [] ∧ decodings (linker.issue id mode).events = [] ∧
      relocations (linker.issue id mode).events = [] := by
  simp [issue, retrievals, decodings, relocations, List.filterMap_map]

/-- A load that runs to its end walks through the declared dependencies. -/
lemma Sound.traversal_of_run (h : linker.Sound history)
    (hfree : linker.modules.named? name = none)
    (hfetch : (Load.start linker).fetch files none name = .ok begun)
    (hrun : begun.run files = .ok last) :
    Traversal files.declares linker.loadedNames [name] (retrievals last.events)
      (relocations last.events) := by
  obtain ⟨image, hfile, rfl⟩ := Load.fetch_eq_ok hfetch
  have hdeclares : files.declares name = image.deps := by simp [FileSet.declares, hfile]
  have hname : name ∉ linker.loadedNames := by simp [h.mem_loadedNames, hfree]
  have hknown : ∀ n, n ∈ name :: linker.loadedNames ↔
      ((linker.modules.register ⟨name, (linker.space.place image.bias?).1, image.exports,
        false⟩).named? n).isSome := by
    intro n
    rw [LinkMap.named?_register, List.mem_cons, h.mem_loadedNames]
    by_cases hn : n = name <;> simp [hn]
  obtain ⟨entered, left, houtstanding, hretrieved, hrelocated⟩ :=
    Load.outstanding_of_run hrun hknown
  rw [hretrieved, hrelocated]
  cases houtstanding with
  | cons hinner houter =>
    cases houter
    rw [← hdeclares] at hinner
    simpa [retrievals, relocations, Load.start] using Traversal.visit hname hinner (.nil _)

/-- What a load has visited is the tree of its module, but for what was loaded before, if it has
decoded the files of these names and of no names that were known. -/
lemma Sound.filter_treeNames (h : linker.Sound history) {after : Linker} {events : List Event}
    (hafter : after.Sound (history.after files events)) {id : ModuleId} {mapping : Mapping}
    (hid : after.modules.mapping? id = some mapping) {visited : List Soname}
    (hwalk : Preorder files.declares linker.loadedNames [mapping.name] visited)
    (hvisited : ∀ n ∈ visited, n ∈ decodings events)
    (hdecoded : ∀ n ∈ decodings events, linker.modules.named? n = none) :
    visited = (after.modules.namesOf (after.modules.tree id)).filter (· ∉ linker.loadedNames) := by
  let declared (n : Soname) : List Soname := ((history.after files events).declared n).eraseDups
  have htree : Preorder declared [] [mapping.name]
      (after.modules.namesOf (after.modules.tree id)) :=
    hafter.inOrder.consistent.preorder_names
      (fun _ _ hmapping => (hafter.depNames_eq hmapping).symm) hid
  have hclosed : ∀ a ∈ linker.loadedNames, ∀ b ∈ declared a, b ∈ linker.loadedNames := by
    intro a ha b hb
    rw [h.mem_loadedNames] at ha ⊢
    have hold : a ∉ decodings events := fun hmem => by simp [hdecoded a hmem] at ha
    rw [List.mem_eraseDups, History.declared_after, if_neg hold] at hb
    exact h.named?_of_mem_declared ha hb
  have hnew : Preorder declared linker.loadedNames [mapping.name] visited := by
    refine hwalk.eraseDups.congr_next fun a ha => ?_
    have hdeclared : (history.after files events).declared a = files.declares a := by
      rw [History.declared_after, if_pos (hvisited a ha)]
    exact congrArg List.eraseDups hdeclared
  have hrest := htree.filter_known hclosed
  rw [List.append_nil] at hrest
  exact hnew.unique hrest

/-- How a request that has loaded a module went through the files. -/
structure VisitsInOrder (linker : Linker) (files : FileSet) (name : Soname)
    (outcome : Outcome Handle) (handle : Handle) : Prop where
  /-- Files are retrieved in the order of the tree, but for what was loaded before. -/
  retrievals_eq : ∃ tree, outcome.linker.treeNames handle = .ok tree ∧
    retrievals outcome.events = tree.filter (· ∉ linker.loadedNames)
  /-- They are decoded in the same order. -/
  decodings_eq : decodings outcome.events = retrievals outcome.events
  /-- Of the recursive walk over declared dependencies which passes over what was loaded before,
  this is the order of entering, and the order of relocations is that of leaving. -/
  traversal_iff {entered left : List Soname} :
    Traversal files.declares linker.loadedNames [name] entered left ↔
      entered = retrievals outcome.events ∧ left = relocations outcome.events
  /-- No module is relocated twice. -/
  relocations_nodup : (relocations outcome.events).Nodup
  /-- The modules that are relocated are those whose files are retrieved. -/
  relocations_perm : (relocations outcome.events).Perm (retrievals outcome.events)

/-- **A load visits modules in the order of the tree that it builds.**  When a request loads a
module, files are retrieved and decoded in the order of the tree of the module, but for what was
loaded before, and modules are relocated in the order in which the recursive walk over declared
dependencies leaves them. -/
theorem Reached.visitsInOrder (h : linker.Reached history)
    (hfree : linker.modules.loadedNamed? name = none)
    (hopen : (linker.openModule files name word).result = .ok handle) :
    linker.VisitsInOrder files name (linker.openModule files name word) handle := by
  have hsound := h.sound
  obtain ⟨mode, begun, last, hstarts, hfetch, hrun, -, hlast, heq⟩ := exists_complete hfree hopen
  have hfetched := hsound.inOrder.fetched (List.mem_of_getLast? hlast)
  have hwalk := hsound.traversal_of_run (named?_of_startsLoad hsound.inOrder hstarts) hfetch hrun
  have hafter := hsound.openModule files name word
  rw [progress_of_last hlast] at hafter
  have hretrievals : retrievals (linker.openModule files name word).events
      = retrievals last.events := by
    rw [heq, retrievals_append, (names_issue _ _ _).1, List.append_nil]
  have hdecodings : decodings (linker.openModule files name word).events
      = decodings last.events := by
    rw [heq, decodings_append, (names_issue _ _ _).2.1, List.append_nil]
  have hrelocations : relocations (linker.openModule files name word).events
      = relocations last.events := by
    rw [heq, relocations_append, (names_issue _ _ _).2.2, List.append_nil]
  refine ⟨?_, ?_, fun {entered left} => ?_, ?_, ?_⟩
  · obtain ⟨m, hm, rfl⟩ := hsound.moduleOf_openModule hopen
    refine ⟨_, treeNames_eq_ok hm, hretrievals.trans ?_⟩
    refine hsound.filter_treeNames hafter (LinkMap.mapping?_of_get? (moduleOf_eq_ok hm).2)
      hwalk.preorder (fun n hn => ?_) fun n hn => (hfetched.mem_decodings_iff.mp hn).2
    rwa [← hfetched.retrievals_eq]
  · rw [hdecodings, hretrievals, hfetched.retrievals_eq]
  · rw [hretrievals, hrelocations]
    refine ⟨fun h' => h'.unique hwalk, ?_⟩
    rintro ⟨rfl, rfl⟩
    exact hwalk
  · rw [hrelocations]
    exact hwalk.perm.nodup_iff.mpr hwalk.preorder.nodup.1
  · rw [hretrievals, hrelocations]
    exact hwalk.perm

/-- Modules `k` and `m` are loaded.  A request for `a`, which needs `b` and `c`, finds that `b`
needs `a` and `d`, that `d` needs `b`, and that `c` needs `d` and `k`.  The files are retrieved in
the order of the tree without `k` and `m`, and the modules are relocated from `d` outwards. -/
theorem visitsInOrder_of_cycle :
    ∃ (linker : Linker) (history : History) (files : FileSet) (handle : Handle),
      linker.Reached history ∧ linker.loadedNames = [⟨"m"⟩, ⟨"k"⟩] ∧
      linker.modules.loadedNamed? ⟨"a"⟩ = none ∧
      (linker.openModule files ⟨"a"⟩ 2).result = .ok handle ∧
      ((linker.openModule files ⟨"a"⟩ 2).linker.treeNames handle).toOption
        = some [⟨"a"⟩, ⟨"b"⟩, ⟨"d"⟩, ⟨"c"⟩, ⟨"k"⟩, ⟨"m"⟩] ∧
      retrievals (linker.openModule files ⟨"a"⟩ 2).events = [⟨"a"⟩, ⟨"b"⟩, ⟨"d"⟩, ⟨"c"⟩] ∧
      relocations (linker.openModule files ⟨"a"⟩ 2).events = [⟨"d"⟩, ⟨"b"⟩, ⟨"c"⟩, ⟨"a"⟩] ∧
      linker.VisitsInOrder files ⟨"a"⟩ (linker.openModule files ⟨"a"⟩ 2) handle := by
  let files : FileSet := .ofDeps [(⟨"k"⟩, [⟨"m"⟩]), (⟨"m"⟩, []), (⟨"a"⟩, [⟨"b"⟩, ⟨"c"⟩]),
    (⟨"b"⟩, [⟨"a"⟩, ⟨"d"⟩]), (⟨"c"⟩, [⟨"d"⟩, ⟨"k"⟩]), (⟨"d"⟩, [⟨"b"⟩])]
  let created : Linker := ⟨1, ⟨0x1000, 0x1000⟩, .empty, []⟩
  let linker := (created.perform files (.openModule ⟨"k"⟩ 2)).linker
  have hcreate : Linker.create 1 ⟨0x1000, 0x1000⟩ [] = .ok created := rfl
  have hreached := (Reached.create hcreate).perform files (.openModule ⟨"k"⟩ 2)
  have hfree : linker.modules.loadedNamed? ⟨"a"⟩ = none := by decide +kernel
  have hopen : (linker.openModule files ⟨"a"⟩ 2).result.toOption = some ⟨1, 2⟩ := by
    decide +kernel
  exact ⟨linker, _, files, ⟨1, 2⟩, hreached, by decide +kernel, hfree, eq_ok_of_toOption hopen,
    by decide +kernel, by decide +kernel, by decide +kernel,
    hreached.visitsInOrder hfree (eq_ok_of_toOption hopen)⟩

end Linker

end DynamicLinker
