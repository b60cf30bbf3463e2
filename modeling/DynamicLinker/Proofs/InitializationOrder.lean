/-
# The order in which initialisers run

A request to open a module runs the initialisers of its tree, as far as they have not run, in the
reverse of a breadth-first walk from the module.  That walk goes by distance, the length of the
shortest path from the module.  So the farther of two modules is initialised first.

This is not the order of dependencies.  A dependency is at most one step farther than a module that
needs it, but it can be as near or nearer, because a module which is nearer needs it too.  Then
nothing makes it come first, and it is initialised last if it is nearer.
-/
import DynamicLinker.Proofs.BreadthFirst
import DynamicLinker.Proofs.Progress
import DynamicLinker.Proofs.Runs
import Mathlib.Data.List.Nodup

namespace DynamicLinker

/-- The names of the modules that were initialised, in order, as events tell. -/
def initializations (events : List Event) : List Soname :=
  events.filterMap fun
    | .init name => some name
    | _ => none

lemma initializations_append (events events' : List Event) :
    initializations (events ++ events') = initializations events ++ initializations events' :=
  List.filterMap_append

@[simp] lemma initializations_map_init (names : List Soname) :
    initializations (names.map .init) = names := by
  induction names with
  | nil => rfl
  | cons name names ih =>
    rw [← List.singleton_append, List.map_append, initializations_append, ih]
    rfl

lemma mem_initializations {events : List Event} {name : Soname} :
    name ∈ initializations events ↔ .init name ∈ events := by
  simp only [initializations, List.mem_filterMap]
  constructor
  · rintro ⟨event, hevent, hname⟩
    cases event <;> simp_all
  · exact fun h => ⟨_, h, rfl⟩

namespace LinkMap

variable {lm : LinkMap} {root near far : ModuleId} {k : Nat}

/-- Numbered modules have different names if their numbers are different. -/
lemma Consistent.namesOf_nodup (h : lm.Consistent) {ids : List ModuleId} (hids : ids.Nodup) :
    (lm.namesOf ids).Nodup := by
  rw [namesOf_eq]
  refine hids.filterMap fun a b name ha hb => ?_
  obtain ⟨m, hm, hname⟩ := Option.map_eq_some_iff.mp ha
  obtain ⟨m', hm', hname'⟩ := Option.map_eq_some_iff.mp hb
  exact h.id_unique hm hm' (hname.trans hname'.symm)

/-- What has a name among those of numbered modules is one of them. -/
lemma Consistent.mem_of_mem_namesOf (h : lm.Consistent) {ids : List ModuleId} {id : ModuleId}
    {mapping : Mapping} (hid : lm.mapping? id = some mapping)
    (hname : mapping.name ∈ lm.namesOf ids) : id ∈ ids := by
  rw [namesOf_eq, List.mem_filterMap] at hname
  obtain ⟨i, hi, heq⟩ := hname
  obtain ⟨other, hother, hsame⟩ := Option.map_eq_some_iff.mp heq
  rwa [h.id_unique hid hother hsame.symm]

lemma uninitialized_nodup (lm : LinkMap) (root : ModuleId) : (lm.uninitialized root).Nodup :=
  (List.nodup_reverse.mpr (walk_nodup .breadthFirst [] [root])).filter _

/-- Of two modules that are due, the farther one comes first. -/
lemma sublist_uninitialized (hnear : near ∈ lm.uninitialized root)
    (hfar : far ∈ lm.uninitialized root) (hpath : lm.Path root k near)
    (hlonger : ∀ j, lm.Path root j far → k < j) :
    [far, near].Sublist (lm.uninitialized root) := by
  obtain ⟨hin, hdue⟩ := List.mem_filter.mp hfar
  rw [initializationOrder, List.mem_reverse, mem_walk_iff] at hin
  obtain ⟨a, ha, hreaches⟩ := hin
  rw [List.mem_singleton.mp ha] at hreaches
  have hsublist := (sublist_initializationOrder hpath hreaches hlonger).filter
    fun id => (lm.get? id).any fun m => !m.initialized
  rwa [List.filter_eq_self.mpr ?_] at hsublist
  intro id hid
  rcases List.mem_pair.mp hid with rfl | rfl
  · exact hdue
  · exact (List.mem_filter.mp hnear).2

end LinkMap

namespace Linker

variable {linker : Linker} {history : History} {files : FileSet} {name : Soname} {word : Int32}
  {handle : Handle}

/-- The issue of a handle runs the initialisers that are due, in order. -/
lemma initializations_issue (linker : Linker) (id : ModuleId) (mode : Mode) :
    ∃ lm : LinkMap, lm.Alike (linker.issue id mode).linker.modules ∧
      initializations (linker.issue id mode).events = lm.namesOf (lm.uninitialized id) := by
  rw [issue]
  split
  · exact ⟨_, LinkMap.alike_initializeTree _ id, initializations_map_init _⟩
  · exact ⟨_, LinkMap.alike_initializeTree _ id, initializations_map_init _⟩

/-- A request that succeeds runs the initialisers that are due in the tree of the module. -/
lemma Sound.initializations_openModule (h : linker.Sound history)
    (hopen : (linker.openModule files name word).result = .ok handle) :
    ∃ lm : LinkMap, lm.Alike (linker.openModule files name word).linker.modules ∧
      initializations (linker.openModule files name word).events
        = lm.namesOf (lm.uninitialized handle.module) := by
  have hopening := linker.opening files name word
  generalize linker.openModule files name word = outcome at hopening hopen ⊢
  cases hopening with
  | refused hmoments => simp at hopen
  | @found mode id _ _ hmoments =>
    rw [← Except.ok.inj hopen]
    exact linker.initializations_issue id mode
  | stuck _ hlast _ => simp at hopen
  | @loaded mode last _ _ hlast hframes =>
    rw [← Except.ok.inj hopen]
    obtain ⟨lm, halike, hdue⟩ := last.linker.initializations_issue linker.modules.nextId mode
    have hnone : initializations last.events = [] := by
      refine List.eq_nil_iff_forall_not_mem.mpr fun n hn => ?_
      exact (h.inOrder.since (List.mem_of_getLast? hlast)).no_init (mem_initializations.mp hn)
    refine ⟨lm, halike, ?_⟩
    rw [initializations_append, hnone, List.nil_append, hdue]

/-- Initialisers that have run in an order in which the farther of two modules comes first, seen
from a module. -/
structure FartherFirst (after : Linker) (root : ModuleId) (inits : List Soname) : Prop where
  /-- No initialiser has run twice. -/
  nodup : inits.Nodup
  /-- Of two modules, the one to which every path of dependencies is longer than some path to the
  other comes first. -/
  sublist {near far : ModuleId} {nearer farther : Mapping} {k : Nat} :
    after.modules.mapping? near = some nearer → after.modules.mapping? far = some farther →
      nearer.name ∈ inits → farther.name ∈ inits → after.modules.Path root k near →
        (∀ j, after.modules.Path root j far → k < j) →
          [farther.name, nearer.name].Sublist inits

/-- **The farther of two modules is initialised first.**  A request that succeeds runs no
initialiser twice, and of two modules that it initialises, the one that is farther from the module
which was asked for comes first.  So a dependency is initialised before a module that needs it if
it is farther away. -/
theorem Reached.fartherFirst (h : linker.Reached history)
    (hopen : (linker.openModule files name word).result = .ok handle) :
    (linker.openModule files name word).linker.FartherFirst handle.module
      (initializations (linker.openModule files name word).events) := by
  have hafter := (h.sound.openModule files name word).inOrder.consistent
  obtain ⟨lm, halike, hdue⟩ := h.sound.initializations_openModule hopen
  have hnames : ∀ ids, lm.namesOf ids
      = (linker.openModule files name word).linker.modules.namesOf ids := fun ids =>
    (LinkMap.namesOf_congr fun id _ => halike.mapping?_eq id).symm
  rw [hdue, hnames]
  refine ⟨hafter.namesOf_nodup (lm.uninitialized_nodup handle.module), ?_⟩
  intro near far nearer farther k hnear hfar hinit hinit' hpath hlonger
  have hsublist := LinkMap.sublist_uninitialized (hafter.mem_of_mem_namesOf hnear hinit)
    (hafter.mem_of_mem_namesOf hfar hinit') (hpath.congr fun x => (halike.deps_eq x).symm)
    fun j hj => hlonger j (hj.congr halike.deps_eq)
  rw [LinkMap.namesOf_eq]
  simpa [hnear, hfar] using hsublist.filterMap fun id =>
    ((linker.openModule files name word).linker.modules.mapping? id).map Mapping.name

/-- Of two modules that need each other, the one that the request has asked for needs only the
first.  The second is farther, and its initialiser runs first. -/
theorem fartherFirst_of_cycle :
    ∃ (linker : Linker) (history : History) (files : FileSet) (handle : Handle),
      linker.Reached history ∧ (linker.openModule files ⟨"a"⟩ 2).result = .ok handle ∧
      (linker.openModule files ⟨"a"⟩ 2).linker.modules.Path handle.module 1 1 ∧
      [⟨"c"⟩, ⟨"b"⟩].Sublist (initializations (linker.openModule files ⟨"a"⟩ 2).events) := by
  let linker : Linker := ⟨1, ⟨0x1000, 0x1000⟩, .empty, []⟩
  let files : FileSet := .ofDeps [(⟨"a"⟩, [⟨"b"⟩]), (⟨"b"⟩, [⟨"c"⟩]), (⟨"c"⟩, [⟨"b"⟩])]
  let opened := linker.openModule files ⟨"a"⟩ 2
  have hreached : linker.Reached .start :=
    Reached.create (show Linker.create 1 ⟨0x1000, 0x1000⟩ [] = .ok linker from rfl)
  have hok : opened.result.toOption = some ⟨1, 0⟩ := by decide +kernel
  have hnear : opened.linker.modules.mapping? 1 = some ⟨⟨"b"⟩, 0x2000, .empty, false⟩ := by
    decide +kernel
  have hfar : opened.linker.modules.mapping? 2 = some ⟨⟨"c"⟩, 0x3000, .empty, false⟩ := by
    decide +kernel
  have hdirect : 1 ∈ opened.linker.modules.deps 0 := by decide +kernel
  have hout : 2 ∉ opened.linker.modules.nearer 0 2 := by decide +kernel
  have hresult := eq_ok_of_toOption hok
  have hpath : opened.linker.modules.Path 0 1 1 := .tail .refl hdirect
  have hlonger : ∀ j, opened.linker.modules.Path 0 j 2 → 1 < j := fun j hj => by
    by_contra hshort
    exact hout (LinkMap.mem_nearer_iff.mpr ⟨j, by omega, hj⟩)
  exact ⟨linker, .start, files, ⟨1, 0⟩, hreached, hresult, hpath,
    (hreached.fartherFirst hresult).sublist hnear hfar (by decide +kernel) (by decide +kernel)
      hpath hlonger⟩

/-- A dependency may be initialised after a module that needs it.  The module `root` needs `a` and
`b`, in this order, and `b` needs `a` as well, which needs nothing.  Both are as far from `root`,
and `b`, which the walk lists later, is initialised first. -/
theorem exists_dependency_initialized_later :
    ∃ (linker : Linker) (history : History) (files : FileSet),
      linker.Reached history ∧ (linker.openModule files ⟨"root"⟩ 2).result.toBool = true ∧
      (linker.openModule files ⟨"root"⟩ 2).linker.modules.named? ⟨"a"⟩ = some 1 ∧
      (linker.openModule files ⟨"root"⟩ 2).linker.modules.named? ⟨"b"⟩ = some 2 ∧
      1 ∈ (linker.openModule files ⟨"root"⟩ 2).linker.modules.deps 2 ∧
      2 ∉ (linker.openModule files ⟨"root"⟩ 2).linker.modules.tree 1 ∧
      initializations (linker.openModule files ⟨"root"⟩ 2).events
        = [⟨"b"⟩, ⟨"a"⟩, ⟨"root"⟩] := by
  let linker : Linker := ⟨1, ⟨0x1000, 0x1000⟩, .empty, []⟩
  let files : FileSet := .ofDeps [(⟨"root"⟩, [⟨"a"⟩, ⟨"b"⟩]), (⟨"a"⟩, []), (⟨"b"⟩, [⟨"a"⟩])]
  have hreached : linker.Reached .start :=
    Reached.create (show Linker.create 1 ⟨0x1000, 0x1000⟩ [] = .ok linker from rfl)
  exact ⟨linker, .start, files, hreached, by decide +kernel, by decide +kernel,
    by decide +kernel, by decide +kernel, by decide +kernel, by decide +kernel⟩

end Linker

end DynamicLinker
