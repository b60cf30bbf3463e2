/-
# Reachability along dependencies

A module reaches the modules that it needs, however many others lie between.  The tree of
a module, although computed by a walk with an agenda, has exactly the modules that the
module reaches, each once; the same holds of every walk, whatever its discipline.

What a walk has seen and listed is closed under dependencies as soon as all dependencies of
what it has seen are seen or on its agenda.  That condition is kept from step to step, and
holds at the start because nothing is seen.
-/
import DynamicLinker.LinkMap.Walk
import Mathlib.Logic.Relation
import Mathlib.Tactic.Lemma

namespace DynamicLinker.LinkMap

/-- One module directly depends on another. -/
def DependsOn (lm : LinkMap) (a b : ModuleId) : Prop := b ∈ lm.deps a

/-- One module depends on another, directly or through others; each module reaches itself. -/
def Reaches (lm : LinkMap) : ModuleId → ModuleId → Prop := Relation.ReflTransGen lm.DependsOn

variable {lm lm' : LinkMap} {a b c : ModuleId}

/-! ## Moving along dependencies -/

lemma Reaches.refl (lm : LinkMap) (a : ModuleId) : lm.Reaches a a := Relation.ReflTransGen.refl

lemma Reaches.trans (hab : lm.Reaches a b) (hbc : lm.Reaches b c) : lm.Reaches a c :=
  Relation.ReflTransGen.trans hab hbc

lemma Reaches.tail (hab : lm.Reaches a b) (hbc : c ∈ lm.deps b) : lm.Reaches a c :=
  Relation.ReflTransGen.tail hab hbc

lemma Reaches.of_mem_deps (h : b ∈ lm.deps a) : lm.Reaches a b :=
  Relation.ReflTransGen.single h

/-- A property that passes from a module to its dependencies passes to all that it reaches. -/
lemma Reaches.closed {P : ModuleId → Prop} (h : lm.Reaches a b)
    (hclosed : ∀ x, P x → ∀ y ∈ lm.deps x, P y) (ha : P a) : P b := by
  induction h with
  | refl => exact ha
  | tail _ hbc ih => exact hclosed _ ih _ hbc

/-- A path stays where every dependency on it is kept. -/
lemma Reaches.transport (h : lm.Reaches a b)
    (hkept : ∀ x, lm.Reaches a x → ∀ y ∈ lm.deps x, y ∈ lm'.deps x) : lm'.Reaches a b := by
  induction h with
  | refl => exact Reaches.refl lm' a
  | tail hab hbc ih => exact ih.tail (hkept _ hab _ hbc)

lemma Reaches.mono (h : lm.Reaches a b) (hdeps : ∀ x, ∀ y ∈ lm.deps x, y ∈ lm'.deps x) :
    lm'.Reaches a b :=
  h.transport fun x _ => hdeps x

/-- Only the dependencies of a link map matter for what is reached in it. -/
lemma reaches_congr (hdeps : ∀ x, lm'.deps x = lm.deps x) : lm'.Reaches a b ↔ lm.Reaches a b := by
  constructor
  · intro h
    exact h.mono fun x y hy => by rwa [hdeps] at hy
  · intro h
    exact h.mono fun x y hy => by rwa [hdeps]

/-- What is reached from a module stays the same if the dependencies of all that it reaches
do. -/
lemma reaches_iff_of_deps_eq (hdeps : ∀ x, lm.Reaches a x → lm'.deps x = lm.deps x) :
    lm'.Reaches a b ↔ lm.Reaches a b := by
  constructor
  · intro h
    induction h with
    | refl => exact Reaches.refl lm a
    | tail _ hbc ih =>
      rw [DependsOn, hdeps _ ih] at hbc
      exact ih.tail hbc
  · intro h
    exact h.transport fun x hx y hy => by rwa [hdeps x hx]

/-! ## What a walk lists -/

variable {discipline : Discipline} {seen agenda : List ModuleId} {x : ModuleId}

/-- A walk lists no module that was seen. -/
lemma not_mem_seen_of_mem_walk (h : x ∈ lm.walk discipline seen agenda) : x ∉ seen := by
  fun_induction lm.walk discipline seen agenda with
  | case1 => simp at h
  | case2 seen id rest hmem ih => exact ih h
  | case3 seen id rest hmem ih =>
    rcases List.mem_cons.mp h with rfl | h
    · exact hmem
    · exact fun hx => ih h (List.mem_cons_of_mem _ hx)

/-- A walk lists each module once. -/
lemma walk_nodup (discipline : Discipline) (seen agenda : List ModuleId) :
    (lm.walk discipline seen agenda).Nodup := by
  fun_induction lm.walk discipline seen agenda with
  | case1 => exact List.nodup_nil
  | case2 seen id rest hmem ih => exact ih
  | case3 seen id rest hmem ih =>
    refine List.nodup_cons.mpr ⟨fun hid => ?_, ih⟩
    exact not_mem_seen_of_mem_walk hid List.mem_cons_self

/-- What a walk lists is reached from its agenda. -/
lemma exists_reaches_of_mem_walk (h : x ∈ lm.walk discipline seen agenda) :
    ∃ a ∈ agenda, lm.Reaches a x := by
  fun_induction lm.walk discipline seen agenda with
  | case1 => simp at h
  | case2 seen id rest hmem ih =>
    obtain ⟨a, ha, hax⟩ := ih h
    exact ⟨a, List.mem_cons_of_mem _ ha, hax⟩
  | case3 seen id rest hmem ih =>
    rcases List.mem_cons.mp h with rfl | h
    · exact ⟨x, List.mem_cons_self, Reaches.refl lm x⟩
    · obtain ⟨a, ha, hax⟩ := ih h
      rcases Discipline.mem_join.mp ha with ha | ha
      · exact ⟨id, List.mem_cons_self, (Reaches.of_mem_deps ha).trans hax⟩
      · exact ⟨a, List.mem_cons_of_mem _ ha, hax⟩

/-- A walk lists its agenda, as far as that was not seen. -/
lemma mem_walk_of_mem_agenda (ha : a ∈ agenda) :
    a ∈ seen ∨ a ∈ lm.walk discipline seen agenda := by
  fun_induction lm.walk discipline seen agenda with
  | case1 => simp at ha
  | case2 seen id rest hmem ih =>
    rcases List.mem_cons.mp ha with rfl | ha
    · exact Or.inl hmem
    · exact ih ha
  | case3 seen id rest hmem ih =>
    rcases List.mem_cons.mp ha with rfl | ha
    · exact Or.inr List.mem_cons_self
    · rcases ih (Discipline.mem_join.mpr (Or.inr ha)) with hseen | hwalk
      · rcases List.mem_cons.mp hseen with rfl | hseen
        · exact Or.inr List.mem_cons_self
        · exact Or.inl hseen
      · exact Or.inr (List.mem_cons_of_mem _ hwalk)

/-- What a walk has seen and listed in the end is closed under dependencies, if at first
every dependency of what it has seen is seen or on the agenda. -/
lemma mem_walk_of_mem_deps (hseen : ∀ s ∈ seen, ∀ t ∈ lm.deps s, t ∈ seen ∨ t ∈ agenda)
    (hx : x ∈ seen ∨ x ∈ lm.walk discipline seen agenda) (hb : b ∈ lm.deps x) :
    b ∈ seen ∨ b ∈ lm.walk discipline seen agenda := by
  fun_induction lm.walk discipline seen agenda with
  | case1 seen => simpa using hseen x (by simpa using hx) b hb
  | case2 seen id rest hmem ih =>
    refine ih (fun s hs t ht => ?_) hx
    rcases hseen s hs t ht with h | h
    · exact Or.inl h
    · rcases List.mem_cons.mp h with rfl | h
      · exact Or.inl hmem
      · exact Or.inr h
  | case3 seen id rest hmem ih =>
    -- once `id` is listed it counts as seen, and its dependencies are on the agenda
    have hnext : b ∈ id :: seen ∨ b ∈ lm.walk discipline (id :: seen)
        (discipline.join (lm.deps id) rest) := by
      refine ih (fun s hs t ht => ?_) ?_
      · rw [Discipline.mem_join]
        rcases List.mem_cons.mp hs with rfl | hs
        · exact Or.inr (Or.inl ht)
        · rcases hseen s hs t ht with h | h
          · exact Or.inl (List.mem_cons_of_mem _ h)
          · rcases List.mem_cons.mp h with rfl | h
            · exact Or.inl List.mem_cons_self
            · exact Or.inr (Or.inr h)
      · simpa only [List.mem_cons, or_assoc, or_left_comm] using hx
    simpa only [List.mem_cons, or_assoc, or_left_comm] using hnext

/-- **A walk that has seen nothing lists exactly what its agenda reaches.** -/
theorem mem_walk_iff : x ∈ lm.walk discipline [] agenda ↔ ∃ a ∈ agenda, lm.Reaches a x := by
  refine ⟨exists_reaches_of_mem_walk, ?_⟩
  rintro ⟨a, ha, hax⟩
  have hlisted : ∀ y, y ∈ lm.walk discipline [] agenda ↔
      y ∈ ([] : List ModuleId) ∨ y ∈ lm.walk discipline [] agenda := by simp
  refine hax.closed (P := fun y => y ∈ lm.walk discipline [] agenda) ?_ ?_
  · intro y hy z hz
    rw [hlisted] at hy ⊢
    exact mem_walk_of_mem_deps (by simp) hy hz
  · rw [hlisted]
    exact mem_walk_of_mem_agenda ha

/-! ## Trees -/

lemma tree_nodup (lm : LinkMap) (root : ModuleId) : (lm.tree root).Nodup :=
  walk_nodup .depthFirst [] [root]

/-- The tree of a module has the modules that it reaches. -/
@[simp] theorem mem_tree : x ∈ lm.tree a ↔ lm.Reaches a x := by
  rw [tree]
  rw [mem_walk_iff]
  simp

end DynamicLinker.LinkMap
