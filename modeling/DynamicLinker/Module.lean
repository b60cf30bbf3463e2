/-
# Modules

A module is an object file that has been mapped.  Where it is mapped and what it exports
never change; what does change is how far it has been linked.  A module starts out as
loading, becomes relocated when all its references are bound, and loaded when also every
module that it is bound to, through however many others, is relocated.

The dependencies of a module are numbered in the order of declaration, and `Dependencies` keeps
them in this order, whatever is recorded and forgotten.
-/
import DynamicLinker.Handle
import DynamicLinker.Soname
import DynamicLinker.Symbol

namespace DynamicLinker

/-- How far a module has been linked. -/
inductive ModuleState where
  /-- Mapped, but its dependencies or its relocation are not finished. -/
  | loading
  /-- Relocated, but bound to a module that is still loading. -/
  | relocated
  /-- Part of the global list. -/
  | loaded
deriving DecidableEq

/-- The name of a state in diagnostics. -/
def ModuleState.name : ModuleState → String
  | loading => "Loading"
  | relocated => "Relocated"
  | loaded => "Loaded"

/-! ## Dependencies -/

/-- A direct dependency of a module. -/
structure Dependency where
  /-- The place of the dependency in the order of declaration. -/
  position : Nat
  /-- The module that is depended on. -/
  target : ModuleId
deriving DecidableEq

/-- The direct dependencies of a module, by ascending position, and of two with one position the
later recorded one first. -/
structure Dependencies where
  /-- The dependencies in this order. -/
  list : List Dependency
  /-- The positions ascend. -/
  sorted : list.Pairwise fun d d' => d.position ≤ d'.position
deriving DecidableEq

namespace Dependencies

variable {deps : Dependencies} {target t : ModuleId}

/-- No dependencies. -/
def empty : Dependencies := ⟨[], List.Pairwise.nil⟩

/-- The modules that are depended on, in the order of declaration. -/
def targets (deps : Dependencies) : List ModuleId := deps.list.map Dependency.target

/-- Put a dependency behind those at earlier positions. -/
def insertInto (new : Dependency) : List Dependency → List Dependency
  | [] => [new]
  | d :: rest =>
    if d.position < new.position then d :: insertInto new rest else new :: d :: rest

theorem mem_insertInto {new d : Dependency} {l : List Dependency} :
    d ∈ insertInto new l ↔ d = new ∨ d ∈ l := by
  induction l with
  | nil => simp [insertInto]
  | cons first rest ih =>
    rw [insertInto]
    split
    · rw [List.mem_cons, ih, List.mem_cons, or_left_comm]
    · rw [List.mem_cons]

/-- A new dependency keeps the order. -/
theorem sorted_insertInto {l : List Dependency} (new : Dependency)
    (h : l.Pairwise fun d d' => d.position ≤ d'.position) :
    (insertInto new l).Pairwise fun d d' => d.position ≤ d'.position := by
  induction l with
  | nil => exact List.pairwise_singleton _ _
  | cons first rest ih =>
    obtain ⟨hfirst, hrest⟩ := List.pairwise_cons.mp h
    rw [insertInto]
    split
    · rename_i hearlier
      refine List.pairwise_cons.mpr ⟨fun d hd => ?_, ih hrest⟩
      rcases mem_insertInto.mp hd with rfl | hd
      · exact Nat.le_of_lt hearlier
      · exact hfirst d hd
    · rename_i hlater
      have hle : new.position ≤ first.position := Nat.le_of_not_lt hlater
      refine List.pairwise_cons.mpr ⟨fun d hd => ?_, h⟩
      rcases List.mem_cons.mp hd with rfl | hd
      · exact hle
      · exact Nat.le_trans hle (hfirst d hd)

/-- A dependency at a position behind all others is put at the end. -/
theorem insertInto_eq_append {new : Dependency} {l : List Dependency}
    (h : ∀ d ∈ l, d.position < new.position) : insertInto new l = l ++ [new] := by
  induction l with
  | nil => rfl
  | cons first rest ih =>
    obtain ⟨hfirst, hrest⟩ := List.forall_mem_cons.mp h
    rw [insertInto, if_pos hfirst, ih hrest, List.cons_append]

/-- Record a dependency, unless it is recorded already.  Its position is the number of
the dependencies so far. -/
def add (deps : Dependencies) (target : ModuleId) : Dependencies :=
  if target ∈ deps.targets then deps
  else
    let new : Dependency := ⟨deps.list.length, target⟩
    ⟨insertInto new deps.list, sorted_insertInto new deps.sorted⟩

/-- Forget the dependency on a module. -/
def remove (deps : Dependencies) (target : ModuleId) : Dependencies where
  list := deps.list.filter fun d => d.target ≠ target
  sorted := deps.sorted.filter _

@[simp] theorem targets_empty : empty.targets = [] := rfl

theorem add_of_mem (hold : target ∈ deps.targets) : deps.add target = deps := if_pos hold

theorem list_add (hnew : target ∉ deps.targets) :
    (deps.add target).list = insertInto ⟨deps.list.length, target⟩ deps.list := by
  rw [add, if_neg hnew]

@[simp] theorem mem_targets_add :
    t ∈ (deps.add target).targets ↔ t = target ∨ t ∈ deps.targets := by
  by_cases hold : target ∈ deps.targets
  · rw [add_of_mem hold]
    constructor
    · exact Or.inr
    · rintro (rfl | ht)
      · exact hold
      · exact ht
  · rw [targets, targets, list_add hold]
    simp only [List.mem_map, mem_insertInto]
    constructor
    · rintro ⟨d, rfl | hd, rfl⟩
      · exact Or.inl rfl
      · exact Or.inr ⟨d, hd, rfl⟩
    · rintro (rfl | ⟨d, hd, rfl⟩)
      · exact ⟨_, Or.inl rfl, rfl⟩
      · exact ⟨d, Or.inr hd, rfl⟩

@[simp] theorem mem_targets_remove :
    t ∈ (deps.remove target).targets ↔ t ≠ target ∧ t ∈ deps.targets := by
  simp only [remove, targets, List.mem_map, List.mem_filter, ne_eq, decide_not,
    Bool.not_eq_true', decide_eq_false_iff_not]
  constructor
  · rintro ⟨d, ⟨hd, hne⟩, rfl⟩
    exact ⟨hne, d, hd, rfl⟩
  · rintro ⟨hne, d, hd, rfl⟩
    exact ⟨d, ⟨hd, hne⟩, rfl⟩

/-- Forgetting a dependency that is not recorded changes nothing. -/
theorem remove_of_not_mem (hnot : target ∉ deps.targets) : deps.remove target = deps := by
  have hfilter : deps.list.filter (fun d => d.target ≠ target) = deps.list := by
    refine List.filter_eq_self.mpr fun d hd => ?_
    have hne : d.target ≠ target := fun h => hnot (List.mem_map.mpr ⟨d, hd, h⟩)
    simpa using hne
  simp only [remove, hfilter]

end Dependencies

/-! ## Modules -/

/-- What a module is once it has been mapped. -/
structure Mapping where
  /-- The name of the module. -/
  name : Soname
  /-- The difference between addresses of the mapped module and values of its symbols. -/
  bias : UInt64
  /-- The symbols that the module exports. -/
  exports : SymbolTable
  /-- Was the module part of the process image from the start? -/
  isStartup : Bool
deriving DecidableEq

/-- A module and how far it has been linked. -/
structure Module extends Mapping where
  /-- The number of the module. -/
  id : ModuleId
  /-- Is the module part of the global scope? -/
  isGlobal : Bool
  /-- Has the initialiser of the module run? -/
  initialized : Bool
  /-- How far the module has been linked. -/
  state : ModuleState
  /-- The direct dependencies. -/
  deps : Dependencies
deriving DecidableEq

/-- A module that has just been mapped.  A startup module has been initialised already. -/
def Mapping.toModule (mapping : Mapping) (id : ModuleId) : Module where
  toMapping := mapping
  id := id
  isGlobal := false
  initialized := mapping.isStartup
  state := .loading
  deps := .empty

namespace Module

/-- Is the module part of the global list? -/
def isLoaded (m : Module) : Bool := m.state = .loaded

/-- The modules that a module directly depends on, in the order of declaration. -/
def targets (m : Module) : List ModuleId := m.deps.targets

/-- Record a dependency, unless it is recorded already. -/
def addDep (m : Module) (target : ModuleId) : Module := { m with deps := m.deps.add target }

/-- Forget the dependency on a module. -/
def removeDep (m : Module) (target : ModuleId) : Module := { m with deps := m.deps.remove target }

/-- The form in which diagnostics show a module. -/
def debugText (m : Module) : String :=
  "Module \x7b name: " ++ m.name.debugText ++ ", id: ModuleId(NodeIndex(" ++ toString m.id
    ++ ")), load_bias: 0x" ++ Text.hexDigits m.bias.toNat ++ ", is_global: " ++ toString m.isGlobal
    ++ ", is_startup: " ++ toString m.isStartup ++ ", initialized: " ++ toString m.initialized
    ++ ", state: " ++ m.state.name ++ " \x7d"

@[simp] theorem mem_targets_addDep {m : Module} {target t : ModuleId} :
    t ∈ (m.addDep target).targets ↔ t = target ∨ t ∈ m.targets :=
  Dependencies.mem_targets_add

@[simp] theorem mem_targets_removeDep {m : Module} {target t : ModuleId} :
    t ∈ (m.removeDep target).targets ↔ t ≠ target ∧ t ∈ m.targets :=
  Dependencies.mem_targets_remove

/-- Forgetting a dependency that is not recorded changes nothing. -/
theorem removeDep_of_not_mem {m : Module} {target : ModuleId} (hnot : target ∉ m.targets) :
    m.removeDep target = m := by
  rw [removeDep, Dependencies.remove_of_not_mem hnot]

end Module

end DynamicLinker
