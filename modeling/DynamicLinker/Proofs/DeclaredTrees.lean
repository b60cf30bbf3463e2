/-
# Trees and declarations

The dependencies of a loaded module are those that its file declared, and the tree of a handle
is what the recursive walk over declared dependencies finds.  The link map works with numbers,
which are reused, and with positions, which are counted; neither shows in what a handle answers.
A walk over modules is one over their names, since no two modules have the same name.

So the order in which modules were loaded does not matter.  If two linkers start from the same
startup modules, and are used with the same files, then the tree of a name that is loaded in
both is the same.
-/
import DynamicLinker.Proofs.Preorder
import DynamicLinker.Proofs.Progress
import DynamicLinker.Proofs.Runs

namespace DynamicLinker

/-! ## Walks over names -/

namespace LinkMap

variable {lm lm' : LinkMap} {id : ModuleId} {ids : List ModuleId} {m : Module} {mapping : Mapping}

/-- The name of a module. -/
def nameOf (lm : LinkMap) (id : ModuleId) : Soname :=
  ((lm.mapping? id).map Mapping.name).getD default

lemma nameOf_eq (h : lm.mapping? id = some mapping) : lm.nameOf id = mapping.name := by
  simp [nameOf, h]

lemma namesOf_eq_map (h : ∀ id ∈ ids, (lm.get? id).isSome) :
    lm.namesOf ids = ids.map lm.nameOf := by
  rw [namesOf_eq]
  induction ids with
  | nil => rfl
  | cons id ids ih =>
    obtain ⟨m, hm⟩ := Option.isSome_iff_exists.mp (h id List.mem_cons_self)
    have hmapping : lm.mapping? id = some m.toMapping := mapping?_of_get? hm
    rw [List.map_cons, nameOf_eq hmapping, ← ih fun i hi => h i (List.mem_cons_of_mem _ hi)]
    simp [hmapping]

/-- The names of a tree are what the recursive walk over names finds, in any graph that has the
names of the dependencies of each module as the successors of its name. -/
lemma Consistent.preorder_names (h : lm.Consistent) {next : Soname → List Soname}
    (hnext : ∀ id mapping, lm.mapping? id = some mapping → next mapping.name = lm.depNames id)
    (hid : lm.mapping? id = some mapping) :
    Preorder next [] [mapping.name] (lm.namesOf (lm.tree id)) := by
  have hlive : (lm.get? id).isSome := isSome_of_mapping? hid
  rw [namesOf_eq_map fun t ht => h.live_of_reaches (mem_tree.mp ht) hlive]
  have hwalk := (lm.preorder_tree id).map next lm.nameOf
    (P := fun i => (lm.get? i).isSome) ?_ ?_ (fun _ _ _ hb => h.dep_live hb) (by simp)
    (by simpa using hlive)
  · rw [List.map_singleton, nameOf_eq hid] at hwalk
    exact hwalk.1
  · intro a b ha hb hname
    obtain ⟨m, hm⟩ := Option.isSome_iff_exists.mp ha
    obtain ⟨m', hm'⟩ := Option.isSome_iff_exists.mp hb
    rw [nameOf_eq (mapping?_of_get? hm), nameOf_eq (mapping?_of_get? hm')] at hname
    exact h.id_unique (mapping?_of_get? hm) (mapping?_of_get? hm') hname
  · intro a ha
    obtain ⟨m, hm⟩ := Option.isSome_iff_exists.mp ha
    rw [nameOf_eq (mapping?_of_get? hm), hnext a _ (mapping?_of_get? hm), depNames,
      namesOf_eq_map fun _ ht => h.dep_live ht]

/-! ## Startup modules -/

/-- A link map whose startup modules have the given names, and no dependencies. -/
structure HasStartup (lm : LinkMap) (names : List Soname) : Prop where
  /-- The names are those of the startup modules. -/
  mem_iff {name : Soname} : name ∈ names ↔
    ∃ id mapping, lm.mapping? id = some mapping ∧ mapping.isStartup = true ∧ mapping.name = name
  /-- A startup module has no dependencies. -/
  deps_eq_nil {id : ModuleId} {mapping : Mapping} :
    lm.mapping? id = some mapping → mapping.isStartup = true → lm.deps id = []

lemma named?_addStartup {startup : StartupModule} (hadd : lm.addStartup startup = .ok lm')
    (name : Soname) :
    (lm'.named? name).isSome ↔ (lm.named? name).isSome ∨ name = startup.name := by
  rw [addStartup] at hadd
  split at hadd
  · simp at hadd
  · rw [← Except.ok.inj hadd, named?_publish, setGlobal, named?_modify, named?_register]
    by_cases hname : name = startup.name <;> simp [hname]

lemma named?_foldlM_addStartup {startup : List StartupModule}
    (hadd : startup.foldlM addStartup lm = .ok lm') (name : Soname) :
    (lm'.named? name).isSome ↔ (lm.named? name).isSome ∨ name ∈ startup.map StartupModule.name := by
  induction startup generalizing lm with
  | nil =>
    rw [← Except.ok.inj hadd]
    simp
  | cons module startup ih =>
    rw [List.foldlM_cons] at hadd
    cases hfirst : lm.addStartup module with
    | error e =>
      rw [hfirst] at hadd
      cases hadd
    | ok first =>
      rw [hfirst] at hadd
      rw [ih hadd, named?_addStartup hfirst, List.map_cons, List.mem_cons, or_assoc]

/-- Startup modules stay what they are while only other modules are added. -/
lemma HasStartup.of_extends {names : List Soname} {linker : Linker}
    (h : linker.modules.HasStartup names) (hlinker : linker.InOrder [])
    (hextends : linker.modules.Extends lm')
    (hnew : ∀ id mapping, lm'.mapping? id = some mapping → linker.modules.get? id = none →
      mapping.isStartup = false) : lm'.HasStartup names := by
  have hkept : ∀ id mapping, linker.modules.mapping? id = some mapping →
      lm'.get? id = linker.modules.get? id := fun id mapping hid =>
    hextends.get?_eq (hlinker.state?_eq_loaded (isSome_of_mapping? hid))
  have hold : ∀ id mapping, lm'.mapping? id = some mapping → mapping.isStartup = true →
      linker.modules.mapping? id = some mapping := by
    intro id mapping hid hstartup
    cases hget : linker.modules.get? id with
    | none => simp [hnew id mapping hid hget] at hstartup
    | some m =>
      rw [← hid, mapping?, mapping?, hkept id m.toMapping (mapping?_of_get? hget)]
  refine ⟨fun {name} => ?_, fun {id mapping} hid hstartup => ?_⟩
  · rw [h.mem_iff]
    constructor
    · rintro ⟨id, mapping, hid, hstartup, hname⟩
      refine ⟨id, mapping, ?_, hstartup, hname⟩
      rwa [mapping?, hkept id mapping hid]
    · rintro ⟨id, mapping, hid, hstartup, hname⟩
      exact ⟨id, mapping, hold id mapping hid hstartup, hstartup, hname⟩
  · have hid' := hold id mapping hid hstartup
    rw [deps_congr (hkept id mapping hid')]
    exact h.deps_eq_nil hid' hstartup

lemma HasStartup.of_alike {names : List Soname} (h : lm.HasStartup names) (halike : lm.Alike lm') :
    lm'.HasStartup names := by
  refine ⟨fun {name} => ?_, fun {id mapping} hid hstartup => ?_⟩
  · simp only [halike.mapping?_eq]
    exact h.mem_iff
  · rw [halike.mapping?_eq] at hid
    rw [halike.deps_eq]
    exact h.deps_eq_nil hid hstartup

/-! ## Unchanging files -/

/-- A link map in which every module, but for those from startup, has declared what its file
declares. -/
def DeclaredBy (lm : LinkMap) (files : FileSet) (history : History) : Prop :=
  ∀ id mapping, lm.mapping? id = some mapping → mapping.isStartup = false →
    history.declared mapping.name = files.declares mapping.name

end LinkMap

namespace Load

variable {files : FileSet} {load next : Load} {history : History}

/-- A step keeps it that modules have declared what the files declare. -/
lemma Proper.declaredBy_advance (h : load.Proper)
    (hdeclared : load.linker.modules.DeclaredBy files (history.after files load.events))
    (hadvance : Advance files load next) :
    next.linker.modules.DeclaredBy files (history.after files next.events) := by
  intro id mapping hid hstartup
  cases hadvance with
  | @fetch name _ hfree hhead hfetch =>
    obtain ⟨image, -, rfl⟩ := fetch_eq_ok hfetch
    rw [History.after_append]
    rw [LinkMap.mapping?_register] at hid
    split at hid
    · rw [← Option.some.inj hid]
      exact (History.after_fetch_self _ files
        ⟨name, (load.linker.space.place image.bias?).1, image.exports, false⟩ _ rfl).2
    · have hne : mapping.name ≠ name := by
        rintro rfl
        rw [h.inOrder.consistent.named_of_mapping hid] at hfree
        simp at hfree
      rw [(History.after_fetch_of_ne hne).2]
      exact hdeclared id mapping hid hstartup
  | link hframes hremaining hfound =>
    have hid' := hid
    rw [Load.link, Linker.withModules, LinkMap.mapping?_addDep] at hid'
    exact hdeclared id mapping hid' hstartup
  | relocate hframes hremaining hevents =>
    rw [History.after_append, History.after_relocate hevents]
    rw [Linker.mapping?_settle] at hid
    exact hdeclared id mapping hid hstartup

end Load

namespace Linker

variable {linker linker' : Linker} {history : History} {files : FileSet} {name : Soname}
  {word : Int32} {names : List Soname} {handle handle' : Handle} {m m' : Module}

lemma create_eq_ok {id : LinkerId} {space : AddressSpace} {startup : List StartupModule}
    (hcreate : Linker.create id space startup = .ok linker) :
    startup.foldlM LinkMap.addStartup LinkMap.empty = .ok linker.modules := by
  rw [Linker.create] at hcreate
  cases hmodules : startup.foldlM LinkMap.addStartup LinkMap.empty with
  | error e =>
    rw [hmodules] at hcreate
    cases hcreate
  | ok modules =>
    rw [hmodules] at hcreate
    rw [← Except.ok.inj hcreate]

lemma hasStartup_create {id : LinkerId} {space : AddressSpace} {startup : List StartupModule}
    (hcreate : Linker.create id space startup = .ok linker) :
    linker.modules.HasStartup (startup.map StartupModule.name) := by
  have hmodules := create_eq_ok hcreate
  have hall := LinkMap.AllStartup.empty.foldlM_addStartup hmodules
  refine ⟨fun {name} => ?_, fun _ _ => hall.deps_eq_nil _⟩
  -- every module is a startup module, so the names are those in the index
  have hnames := LinkMap.named?_foldlM_addStartup hmodules name
  simp only [LinkMap.named?_empty, Option.isSome_none, Bool.false_eq_true, false_or] at hnames
  rw [← hnames, Option.isSome_iff_exists]
  simp only [hall.consistent.named_iff]
  constructor
  · rintro ⟨id, mapping, hid, rfl⟩
    obtain ⟨m, hm, rfl⟩ := LinkMap.mapping?_eq_some.mp hid
    exact ⟨id, m.toMapping, hid, (hall.startup hm).2.1, rfl⟩
  · rintro ⟨id, mapping, hid, -, hname⟩
    exact ⟨id, mapping, hid, hname⟩

/-- A linker that has been created has startup modules only. -/
lemma declaredBy_create {id : LinkerId} {space : AddressSpace} {startup : List StartupModule}
    (hcreate : Linker.create id space startup = .ok linker) (files : FileSet)
    (history : History) : linker.modules.DeclaredBy files history := by
  intro i mapping hi hflag
  obtain ⟨m, hm, rfl⟩ := LinkMap.mapping?_eq_some.mp hi
  have hall := LinkMap.AllStartup.empty.foldlM_addStartup (create_eq_ok hcreate)
  rw [(hall.startup hm).2.1] at hflag
  simp at hflag

/-- A request to open a module leaves the startup modules as they are. -/
lemma Sound.hasStartup_openModule (h : linker.Sound history)
    (hstartup : linker.modules.HasStartup names) (files : FileSet) (name : Soname) (word : Int32) :
    (linker.openModule files name word).linker.modules.HasStartup names := by
  refine linker.openModule_cases (P := fun after => after.modules.HasStartup names) files name word
    (fun _ => hstartup) (fun last hlast => ?_) (fun last hlast _ => ?_)
    fun before id mode hbefore => hbefore.of_alike (before.alike_issue id mode)
  · have hproper := (h.moment (List.mem_of_getLast? hlast)).1
    have hsince := h.inOrder.since (List.mem_of_getLast? hlast)
    refine hstartup.of_extends h.inOrder (hsince.kept.trans hproper.extends_unwind) ?_
    intro id mapping hid hnone
    have hget := (hproper.get?_unwind (LinkMap.isSome_of_mapping? hid)).2
    rw [LinkMap.mapping?, hget] at hid
    exact hsince.not_startup hid hnone
  · have hsince := h.inOrder.since (List.mem_of_getLast? hlast)
    exact hstartup.of_extends h.inOrder hsince.kept fun id mapping => hsince.not_startup

/-- A request to open a module keeps it that modules have declared what the files declare. -/
lemma Sound.declaredBy_openModule (h : linker.Sound history)
    (hdeclared : linker.modules.DeclaredBy files history) (name : Soname) (word : Int32) :
    (linker.openModule files name word).linker.modules.DeclaredBy files
      (history.after files (linker.progress files name word)) := by
  have hmoment : ∀ load ∈ linker.moments files name word,
      load.linker.modules.DeclaredBy files (history.after files load.events) := fun load hload =>
    (moments_induction h.inOrder hdeclared
      (fun _ _ hproper ha hab => hproper.declaredBy_advance ha hab) hload).2
  refine linker.openModule_cases (P := fun after => after.modules.DeclaredBy files
    (history.after files (linker.progress files name word))) files name word
    (fun hnil => ?_) (fun last hlast => ?_) (fun last hlast _ => ?_)
    fun before id mode hbefore => ?_
  · rw [progress_of_nil hnil]
    exact hdeclared
  · rw [progress_of_last hlast]
    intro id mapping hid hstartup
    have hproper := (h.moment (List.mem_of_getLast? hlast)).1
    have hget := (hproper.get?_unwind (LinkMap.isSome_of_mapping? hid)).2
    rw [LinkMap.mapping?, hget] at hid
    exact hmoment last (List.mem_of_getLast? hlast) id mapping hid hstartup
  · rw [progress_of_last hlast]
    exact hmoment last (List.mem_of_getLast? hlast)
  · intro i mapping hi hstartup
    rw [(before.alike_issue id mode).mapping?_eq] at hi
    exact hbefore i mapping hi hstartup

lemma Reached.hasStartup_after (h : linker.Reached history)
    (hstartup : linker.modules.HasStartup names) (calls : List (FileSet × Call)) :
    (linker.after calls).modules.HasStartup names :=
  h.after_induction (P := fun linker _ => linker.modules.HasStartup names) hstartup
    fun _ _ files name word _ hreached hbefore =>
      hreached.sound.hasStartup_openModule hbefore files name word

lemma Reached.declaredBy_after (h : linker.Reached history)
    (hdeclared : linker.modules.DeclaredBy files history) (calls : List Call) :
    (linker.after (calls.map (files, ·))).modules.DeclaredBy files
      (linker.historyAfter history (calls.map (files, ·))) := by
  refine h.after_induction (P := fun linker history => linker.modules.DeclaredBy files history)
    hdeclared fun before history' files' name word hmem hreached hbefore => ?_
  obtain ⟨call, -, hpair⟩ := List.mem_map.mp hmem
  obtain ⟨rfl, -⟩ := Prod.mk.inj hpair
  exact hreached.sound.declaredBy_openModule hbefore name word

/-! ## What handles answer -/

/-- A handle stands for a module exactly if it is of this linker, and the module loaded. -/
lemma moduleOf_eq_ok_iff : linker.moduleOf handle = .ok m ↔
    handle.linker = linker.id ∧ linker.modules.get? handle.module = some m ∧ m.isLoaded = true := by
  rw [moduleOf]
  by_cases hid : handle.linker = linker.id
  · simp only [hid, if_true, true_and]
    cases hget : linker.modules.get? handle.module with
    | none => simp
    | some found =>
      by_cases hloaded : found.isLoaded = true
      · simp only [hloaded, if_true, Except.ok.injEq, Option.some.injEq]
        constructor
        · rintro rfl
          exact ⟨rfl, hloaded⟩
        · exact And.left
      · simp only [hloaded, Bool.false_eq_true, if_false, reduceCtorEq, Option.some.injEq,
          false_iff]
        rintro ⟨rfl, hm⟩
        exact hloaded hm
  · simp [hid]

lemma moduleOf_eq_ok (h : linker.moduleOf handle = .ok m) :
    handle.linker = linker.id ∧ linker.modules.get? handle.module = some m :=
  ⟨(moduleOf_eq_ok_iff.mp h).1, (moduleOf_eq_ok_iff.mp h).2.1⟩

/-- Between calls the number of any module makes a handle. -/
lemma Sound.moduleOf_eq (h : linker.Sound history) {id : ModuleId} {m : Module}
    (hm : linker.modules.get? id = some m) : linker.moduleOf ⟨linker.id, id⟩ = .ok m := by
  have hstate := h.inOrder.state?_eq_loaded (Option.isSome_of_eq_some hm)
  rw [LinkMap.state?_of_get? hm, Option.some.injEq] at hstate
  exact moduleOf_eq_ok_iff.mpr ⟨rfl, hm, by simp [Module.isLoaded, hstate]⟩

lemma depNames_eq_ok (h : linker.moduleOf handle = .ok m) :
    linker.depNames handle = .ok (linker.modules.depNames handle.module) := by
  rw [depNames, h]
  rfl

lemma treeNames_eq_ok (h : linker.moduleOf handle = .ok m) :
    linker.treeNames handle = .ok (linker.modules.namesOf (linker.modules.tree handle.module)) := by
  rw [treeNames, h]
  rfl

/-- The direct dependencies of a module are those that were declared for its name, each where it
first occurs. -/
lemma Sound.depNames_eq (h : linker.Sound history) {id : ModuleId} {mapping : Mapping}
    (hid : linker.modules.mapping? id = some mapping) :
    linker.modules.depNames id = (history.declared mapping.name).eraseDups :=
  (h.agrees.finished hid (by simp [Load.start])).2

/-- Between calls a name that is declared for a known one is known. -/
lemma Sound.named?_of_mem_declared (h : linker.Sound history) {dep : Soname}
    (hname : (linker.modules.named? name).isSome) (hdep : dep ∈ history.declared name) :
    (linker.modules.named? dep).isSome := by
  have hconsistent := h.inOrder.consistent
  obtain ⟨id, hid⟩ := Option.isSome_iff_exists.mp hname
  obtain ⟨mapping, hmapping, rfl⟩ := hconsistent.named_iff.mp hid
  rw [← List.mem_eraseDups, ← h.depNames_eq hmapping, LinkMap.mem_depNames] at hdep
  obtain ⟨target, -, found, hfound, rfl⟩ := hdep
  exact Option.isSome_of_eq_some (hconsistent.named_of_mapping hfound)

/-- What is declared for a name by startup modules and files that do not change, each dependency
where it first occurs. -/
def declaredDeps (startup : List Soname) (files : FileSet) (name : Soname) : List Soname :=
  if name ∈ startup then [] else (files.declares name).eraseDups

/-- While the files do not change, the tree of a handle is a walk over what they declare. -/
lemma Sound.preorder_treeNames (h : linker.Sound history)
    (hstartup : linker.modules.HasStartup names)
    (hdeclared : linker.modules.DeclaredBy files history) (hm : linker.moduleOf handle = .ok m) :
    ∃ tree, linker.treeNames handle = .ok tree ∧
      Preorder (declaredDeps names files) [] [m.name] tree := by
  refine ⟨_, treeNames_eq_ok hm, ?_⟩
  refine h.inOrder.consistent.preorder_names (fun id mapping hid => ?_)
    (LinkMap.mapping?_of_get? (moduleOf_eq_ok hm).2)
  rw [declaredDeps]
  cases hflag : mapping.isStartup with
  | true =>
    rw [if_pos (hstartup.mem_iff.mpr ⟨id, mapping, hid, hflag, rfl⟩), LinkMap.depNames,
      hstartup.deps_eq_nil hid hflag]
    rfl
  | false =>
    rw [if_neg, h.depNames_eq hid, hdeclared id mapping hid hflag]
    rw [hstartup.mem_iff]
    -- a startup module of that name would be the same module
    rintro ⟨id', mapping', hid', hflag', hname⟩
    rw [h.inOrder.consistent.id_unique hid' hid hname, hid, Option.some.injEq] at hid'
    rw [hid', hflag'] at hflag
    simp at hflag

/-- **The tree of a handle is determined by the declared dependencies.**  Whatever calls were
made, a handle of a loaded module has as its direct dependencies those that the file of the module
declared, each where it first occurs, or none if it is a startup module, and as its tree what the
recursive walk over these lists finds.  So if two linkers have the same startup modules and were
used with the same files throughout, a module that is loaded in both has the same tree in both. -/
theorem trees_of_declarations {id : LinkerId} {space : AddressSpace} {startup : List StartupModule}
    {created : Linker} (hcreate : Linker.create id space startup = .ok created) :
    (∀ calls handle m, (created.after calls).moduleOf handle = .ok m →
      (created.after calls).depNames handle
          = .ok (if m.isStartup then [] else
              ((created.historyAfter .start calls).declared m.name).eraseDups) ∧
        ∃ tree, (created.after calls).treeNames handle = .ok tree ∧
          Preorder (fun name => ((created.historyAfter .start calls).declared name).eraseDups)
            [] [m.name] tree) ∧
    ∀ id' space' created', Linker.create id' space' startup = .ok created' →
      ∀ files (calls calls' : List Call) handle handle' m m',
        (created.after (calls.map (files, ·))).moduleOf handle = .ok m →
        (created'.after (calls'.map (files, ·))).moduleOf handle' = .ok m' → m.name = m'.name →
          (created.after (calls.map (files, ·))).treeNames handle
            = (created'.after (calls'.map (files, ·))).treeNames handle' := by
  have hcreated := Reached.create hcreate
  refine ⟨fun calls handle m hm => ?_, ?_⟩
  · have hsound := (hcreated.after calls).sound
    have hstartup := hcreated.hasStartup_after (hasStartup_create hcreate) calls
    have hmapping := LinkMap.mapping?_of_get? (moduleOf_eq_ok hm).2
    refine ⟨?_, _, treeNames_eq_ok hm, hsound.inOrder.consistent.preorder_names
      (fun id mapping hid => (hsound.depNames_eq hid).symm) hmapping⟩
    rw [depNames_eq_ok hm]
    split
    · rename_i hflag
      rw [LinkMap.depNames, hstartup.deps_eq_nil hmapping hflag]
      rfl
    · rw [hsound.depNames_eq hmapping]
  · intro id' space' created' hcreate' files calls calls' handle handle' m m' hm hm' hname
    have hcreated' := Reached.create hcreate'
    -- both trees are found by the recursive walk over the same graph, from the same name
    obtain ⟨tree, htree, hwalk⟩ := (hcreated.after (calls.map (files, ·))).sound.preorder_treeNames
      (hcreated.hasStartup_after (hasStartup_create hcreate) _)
      (hcreated.declaredBy_after (declaredBy_create hcreate files _) calls) hm
    obtain ⟨tree', htree', hwalk'⟩ :=
      (hcreated'.after (calls'.map (files, ·))).sound.preorder_treeNames
        (hcreated'.hasStartup_after (hasStartup_create hcreate') _)
        (hcreated'.declaredBy_after (declaredBy_create hcreate' files _) calls') hm'
    rw [← hname] at hwalk'
    rw [htree, htree', hwalk.unique hwalk']

/-- Three modules, two of which need each other, are loaded by one request, or by two in another
order with one that fails between them.  The tree of the first module is the same, although its
number is not, and a dependency that is declared twice counts once. -/
theorem trees_of_declarations_of_orders :
    ∃ (created : Linker) (files : FileSet) (calls calls' : List Call) (handle handle' : Handle),
      handle ≠ handle' ∧
      ((created.after (calls.map (files, ·))).treeNames handle).toOption
        = some [⟨"a"⟩, ⟨"b"⟩, ⟨"c"⟩] ∧
      (created.after (calls.map (files, ·))).treeNames handle
        = (created.after (calls'.map (files, ·))).treeNames handle' ∧
      (created.after (calls.map (files, ·))).depNames handle
        = .ok ([⟨"b"⟩, ⟨"c"⟩, ⟨"b"⟩] : List Soname).eraseDups := by
  let created : Linker := ⟨1, ⟨0x1000, 0x1000⟩, .empty, []⟩
  let files : FileSet :=
    .ofDeps [(⟨"a"⟩, [⟨"b"⟩, ⟨"c"⟩, ⟨"b"⟩]), (⟨"b"⟩, [⟨"a"⟩]), (⟨"c"⟩, [])]
  let calls : List Call := [.openModule ⟨"a"⟩ 2]
  let calls' : List Call := [.openModule ⟨"c"⟩ 2, .openModule ⟨"d"⟩ 2, .openModule ⟨"b"⟩ 2]
  have hcreate : Linker.create 1 ⟨0x1000, 0x1000⟩ [] = .ok created := rfl
  have hfound : ((created.after (calls.map (files, ·))).moduleOf ⟨1, 0⟩).toOption
      = some ⟨⟨⟨"a"⟩, 0x1000, .empty, false⟩, 0, false, true, .loaded,
          ⟨[⟨0, 1⟩, ⟨1, 2⟩], by decide⟩⟩ := by decide +kernel
  have hfound' : ((created.after (calls'.map (files, ·))).moduleOf ⟨1, 2⟩).toOption
      = some ⟨⟨⟨"a"⟩, 0x3000, .empty, false⟩, 2, false, true, .loaded,
          ⟨[⟨0, 1⟩, ⟨1, 0⟩], by decide⟩⟩ := by decide +kernel
  have htree : ((created.after (calls.map (files, ·))).treeNames ⟨1, 0⟩).toOption
      = some [⟨"a"⟩, ⟨"b"⟩, ⟨"c"⟩] := by decide +kernel
  have hdeclared : (created.historyAfter .start (calls.map (files, ·))).declared ⟨"a"⟩
      = [⟨"b"⟩, ⟨"c"⟩, ⟨"b"⟩] := by decide +kernel
  obtain ⟨hanswers, hsame⟩ := trees_of_declarations hcreate
  refine ⟨created, files, calls, calls', ⟨1, 0⟩, ⟨1, 2⟩, by decide, htree, ?_, ?_⟩
  · exact hsame 1 ⟨0x1000, 0x1000⟩ created hcreate files calls calls' ⟨1, 0⟩ ⟨1, 2⟩ _ _
      (eq_ok_of_toOption hfound) (eq_ok_of_toOption hfound') rfl
  · rw [(hanswers _ _ _ (eq_ok_of_toOption hfound)).1]
    simp only [Bool.false_eq_true, if_false, hdeclared]

end Linker

end DynamicLinker
