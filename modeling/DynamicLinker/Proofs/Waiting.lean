/-
# Linkers with modules in the making

While a load is under way some modules are loading, and some are relocated but wait.  What
holds of a linker at such a moment, whichever modules are loading, is this: a module that is
neither loading nor waiting is loaded, loaded modules depend on loaded modules only, and
every waiting module reaches a loading one.  So a module is loaded exactly when it reaches
no loading module, and when nothing is loading any more, everything is loaded.

Two operations take a module from those that are loading.  When the module is settled, it
waits if it still reaches another loading module, and else it is published with the waiting
modules that it reaches.  When it is abandoned, it is discarded with the waiting modules that
reach it.  Both keep every loaded module exactly as it is.
-/
import DynamicLinker.Linker.Basic
import DynamicLinker.Proofs.Consistency

namespace DynamicLinker

/-- Later changes have kept the loaded modules of a link map as they were, and have only
appended to its global list. -/
structure LinkMap.Extends (lm lm' : LinkMap) : Prop where
  /-- A loaded module is the same in both. -/
  get?_eq {id : ModuleId} : lm.state? id = some .loaded → lm'.get? id = lm.get? id
  /-- The global list has grown at its end. -/
  order_grows : lm.order <+: lm'.order

namespace LinkMap.Extends

variable {lm lm' lm'' : LinkMap} {a b : ModuleId}

lemma refl (lm : LinkMap) : lm.Extends lm := ⟨fun _ => rfl, List.prefix_refl _⟩

lemma state?_eq (h : lm.Extends lm') (ha : lm.state? a = some .loaded) :
    lm'.state? a = some .loaded := by
  rw [← ha]
  simp only [state?, h.get?_eq ha]

lemma mapping?_eq (h : lm.Extends lm') (ha : lm.state? a = some .loaded) :
    lm'.mapping? a = lm.mapping? a := by
  simp only [mapping?, h.get?_eq ha]

lemma trans (h : lm.Extends lm') (h' : lm'.Extends lm'') : lm.Extends lm'' where
  get?_eq ha := (h'.get?_eq (h.state?_eq ha)).trans (h.get?_eq ha)
  order_grows := h.order_grows.trans h'.order_grows

end LinkMap.Extends

namespace LinkMap

variable {lm : LinkMap}

lemma extends_register {mapping : Mapping} : lm.Extends (lm.register mapping) where
  get?_eq {i} hi := by
    have hne : i ≠ lm.nextId := by
      rintro rfl
      simp [state?] at hi
    rw [get?_register, if_neg hne]
  order_grows := List.prefix_refl _

lemma extends_addDep {parent target : ModuleId} (hparent : lm.state? parent ≠ some .loaded) :
    lm.Extends (lm.addDep parent target) where
  get?_eq {i} hi := by
    have hne : i ≠ parent := by
      rintro rfl
      exact hparent hi
    simp [get?_addDep, hne]
  order_grows := by simp

end LinkMap

/-- The modules that are published when a module is settled and nothing is left to wait for:
those of its tree that wait, and itself. -/
def Linker.ready (linker : Linker) (id : ModuleId) : List ModuleId :=
  (linker.waiting ++ [id]).filter fun p => p ∈ linker.modules.tree id

/-- The modules that are discarded when a module is abandoned: those that wait and whose tree
reaches it, and itself. -/
def Linker.doomed (linker : Linker) (id : ModuleId) : List ModuleId :=
  (linker.waiting.filter fun p => id ∈ linker.modules.tree p) ++ [id]

lemma Linker.mem_ready {linker : Linker} {id p : ModuleId} :
    p ∈ linker.ready id ↔ (p ∈ linker.waiting ∨ p = id) ∧ linker.modules.Reaches id p := by
  simp [ready, or_and_right]

lemma Linker.mem_doomed {linker : Linker} {id p : ModuleId} :
    p ∈ linker.doomed id ↔ p ∈ linker.waiting ∧ linker.modules.Reaches p id ∨ p = id := by
  simp [doomed]

lemma Linker.reaches_of_mem_doomed {linker : Linker} {id p : ModuleId}
    (hp : p ∈ linker.doomed id) : linker.modules.Reaches p id := by
  rcases mem_doomed.mp hp with ⟨-, hreach⟩ | rfl
  · exact hreach
  · exact LinkMap.Reaches.refl _ p

lemma Linker.modules_abandon (linker : Linker) (id : ModuleId) :
    (linker.abandon id).modules = (linker.doomed id).foldl LinkMap.discard linker.modules := rfl

lemma Linker.mem_waiting_abandon {linker : Linker} {id p : ModuleId} :
    p ∈ (linker.abandon id).waiting ↔ p ∈ linker.waiting ∧ ¬ linker.modules.Reaches p id := by
  simp [abandon]

lemma Linker.order_abandon (linker : Linker) (id : ModuleId) :
    (linker.abandon id).modules.order = linker.modules.order :=
  LinkMap.order_foldl_discard

/-- To settle a module is to mark it relocated, to let it wait behind the others, and to publish
some modules, which then wait no longer. -/
lemma Linker.settle_eq (linker : Linker) (id : ModuleId) :
    ∃ ready waiting : List ModuleId, waiting.Sublist (linker.waiting ++ [id]) ∧
      linker.settle id = { linker with
        modules := ready.foldl LinkMap.publish (linker.modules.markRelocated id)
        waiting } := by
  rw [settle, publishReady]
  split
  · exact ⟨[], _, List.Sublist.refl _, rfl⟩
  · exact ⟨_, _, List.filter_sublist, rfl⟩

@[simp] lemma Linker.id_settle (linker : Linker) (id : ModuleId) :
    (linker.settle id).id = linker.id := by
  obtain ⟨ready, waiting, -, heq⟩ := linker.settle_eq id
  rw [heq]

@[simp] lemma Linker.mapping?_settle (linker : Linker) (id a : ModuleId) :
    (linker.settle id).modules.mapping? a = linker.modules.mapping? a := by
  obtain ⟨ready, waiting, -, heq⟩ := linker.settle_eq id
  rw [heq]
  simp

@[simp] lemma Linker.global?_settle (linker : Linker) (id a : ModuleId) :
    (linker.settle id).modules.global? a = linker.modules.global? a := by
  obtain ⟨ready, waiting, -, heq⟩ := linker.settle_eq id
  rw [heq]
  simp

@[simp] lemma Linker.deps_settle (linker : Linker) (id a : ModuleId) :
    (linker.settle id).modules.deps a = linker.modules.deps a := by
  obtain ⟨ready, waiting, -, heq⟩ := linker.settle_eq id
  rw [heq]
  simp

/-- A linker in which the given modules are loading. -/
structure Linker.InOrder (linker : Linker) (loading : List ModuleId) : Prop where
  /-- The parts of the link map agree. -/
  consistent : linker.modules.Consistent
  /-- No module is listed as loading twice. -/
  loading_nodup : loading.Nodup
  /-- The given modules are those that are loading. -/
  loading_iff {id : ModuleId} : linker.modules.state? id = some .loading ↔ id ∈ loading
  /-- No module waits twice. -/
  waiting_nodup : linker.waiting.Nodup
  /-- The modules that wait are those that are relocated and no more. -/
  waiting_iff {id : ModuleId} : linker.modules.state? id = some .relocated ↔ id ∈ linker.waiting
  /-- Loaded modules depend on loaded modules only. -/
  loaded_closed {a b : ModuleId} :
    linker.modules.state? a = some .loaded → b ∈ linker.modules.deps a →
      linker.modules.state? b = some .loaded
  /-- Every waiting module reaches a loading one. -/
  waiting_reaches {p : ModuleId} :
    p ∈ linker.waiting → ∃ f ∈ loading, linker.modules.Reaches p f

namespace Linker.InOrder

variable {linker : Linker} {loading : List ModuleId} {f a b p : ModuleId}

/-! ## States and reachability -/

lemma loaded_of_reaches (h : linker.InOrder loading) (hab : linker.modules.Reaches a b)
    (ha : linker.modules.state? a = some .loaded) : linker.modules.state? b = some .loaded :=
  hab.closed (P := fun x => linker.modules.state? x = some .loaded)
    (fun _ hx _ hy => h.loaded_closed hx hy) ha

/-- **A module is loaded exactly when it reaches no loading module.** -/
theorem loaded_iff (h : linker.InOrder loading) (ha : (linker.modules.get? a).isSome) :
    linker.modules.state? a = some .loaded ↔
      ∀ b, linker.modules.Reaches a b → linker.modules.state? b ≠ some .loading := by
  constructor
  · intro hloaded b hab hloading
    rw [h.loaded_of_reaches hab hloaded] at hloading
    simp at hloading
  · intro hnone
    obtain ⟨m, hm⟩ := Option.isSome_iff_exists.mp ha
    have hstate := LinkMap.state?_of_get? hm
    cases hs : m.state with
    | loading => exact absurd (hs ▸ hstate) (hnone a (LinkMap.Reaches.refl _ a))
    | relocated =>
      obtain ⟨g, hg, hag⟩ := h.waiting_reaches (h.waiting_iff.mp (hs ▸ hstate))
      exact absurd (h.loading_iff.mpr hg) (hnone g hag)
    | loaded => exact hs ▸ hstate

lemma not_mem_loading_of_waiting (h : linker.InOrder loading) (hp : p ∈ linker.waiting) :
    p ∉ loading := by
  intro hmem
  have hloading := h.loading_iff.mpr hmem
  rw [h.waiting_iff.mpr hp] at hloading
  simp at hloading

/-- When nothing is loading, nothing waits. -/
lemma waiting_eq_nil (h : linker.InOrder []) : linker.waiting = [] := by
  rw [List.eq_nil_iff_forall_not_mem]
  intro p hp
  obtain ⟨f, hf, -⟩ := h.waiting_reaches hp
  simp at hf

/-- When nothing is loading, everything is loaded. -/
lemma state?_eq_loaded (h : linker.InOrder []) (ha : (linker.modules.get? a).isSome) :
    linker.modules.state? a = some .loaded := by
  refine (h.loaded_iff ha).mpr fun b _ hb => ?_
  exact absurd (h.loading_iff.mp hb) (by simp)

/-! ## Adding modules and dependencies -/

/-- A module is loading when it is registered. -/
lemma register (h : linker.InOrder loading) {mapping : Mapping}
    (hfree : linker.modules.named? mapping.name = none) (space : AddressSpace) :
    InOrder { linker with space, modules := linker.modules.register mapping }
      (linker.modules.nextId :: loading) := by
  have hnext : linker.modules.state? linker.modules.nextId = none := by
    simp [LinkMap.state?]
  have hnot : linker.modules.nextId ∉ loading := by
    rw [← h.loading_iff, hnext]
    simp
  refine ⟨h.consistent.register hfree, List.nodup_cons.mpr ⟨hnot, h.loading_nodup⟩, ?_,
    h.waiting_nodup, ?_, ?_, ?_⟩
  · intro id
    rw [LinkMap.state?_register, List.mem_cons]
    by_cases hid : id = linker.modules.nextId
    · simp [hid]
    · simp only [hid, if_false, false_or]
      exact h.loading_iff
  · intro id
    rw [LinkMap.state?_register, ← h.waiting_iff]
    by_cases hid : id = linker.modules.nextId
    · simp [hid, hnext]
    · simp [hid]
  · intro a b ha hb
    rw [LinkMap.deps_register] at hb
    rw [LinkMap.state?_register] at ha ⊢
    by_cases haid : a = linker.modules.nextId
    · simp [haid] at ha
    · rw [if_neg haid] at ha
      have hbl := h.loaded_closed ha hb
      have hbid : b ≠ linker.modules.nextId := by
        rintro rfl
        simp [hnext] at hbl
      rwa [if_neg hbid]
  · intro p hp
    obtain ⟨f, hf, hpf⟩ := h.waiting_reaches hp
    exact ⟨f, List.mem_cons_of_mem _ hf,
      (LinkMap.reaches_congr fun _ => LinkMap.deps_register).mpr hpf⟩

/-- A dependency of a loading module may be recorded. -/
lemma addDep (h : linker.InOrder loading) {parent target : ModuleId} (hparent : parent ∈ loading)
    (htarget : (linker.modules.get? target).isSome) :
    (linker.withModules fun lm => lm.addDep parent target).InOrder loading := by
  have hloading : linker.modules.state? parent = some .loading := h.loading_iff.mpr hparent
  have hlive := LinkMap.isSome_of_state? hloading
  have hmodules : (linker.withModules fun lm => lm.addDep parent target).modules
      = linker.modules.addDep parent target := rfl
  refine ⟨h.consistent.addDep hlive htarget, h.loading_nodup, ?_, h.waiting_nodup, ?_, ?_, ?_⟩
  · intro id
    rw [hmodules, LinkMap.state?_addDep]
    exact h.loading_iff
  · intro id
    rw [hmodules, LinkMap.state?_addDep]
    exact h.waiting_iff
  · intro a b ha hb
    rw [hmodules, LinkMap.state?_addDep] at ha ⊢
    rw [hmodules, LinkMap.mem_deps_addDep hlive htarget] at hb
    rcases hb with hb | ⟨rfl, rfl⟩
    · exact h.loaded_closed ha hb
    · rw [hloading] at ha
      simp at ha
  · intro p hp
    obtain ⟨f, hf, hpf⟩ := h.waiting_reaches hp
    refine ⟨f, hf, hpf.mono fun x y hy => ?_⟩
    rw [hmodules, LinkMap.mem_deps_addDep hlive htarget]
    exact Or.inl hy

/-! ## Settling a module -/

variable {rest : List ModuleId}

lemma state?_head (h : linker.InOrder (f :: rest)) : linker.modules.state? f = some .loading :=
  h.loading_iff.mpr List.mem_cons_self

lemma live_head (h : linker.InOrder (f :: rest)) : (linker.modules.get? f).isSome :=
  LinkMap.isSome_of_state? h.state?_head

/-- Marking a module relocated leaves everything that it reaches within reach. -/
lemma awaitsLoading_markRelocated_iff (h : linker.InOrder (f :: rest)) :
    (linker.modules.markRelocated f).awaitsLoading f = true ↔
      ∃ g ∈ rest, linker.modules.Reaches f g := by
  have hreaches : ∀ x, (linker.modules.markRelocated f).Reaches f x ↔
      linker.modules.Reaches f x := fun x =>
    LinkMap.reaches_congr fun _ => LinkMap.deps_markRelocated
  simp only [LinkMap.awaitsLoading_iff, hreaches, LinkMap.state?_markRelocated]
  constructor
  · rintro ⟨x, hfx, hx⟩
    split at hx
    · simp at hx
    · rename_i hne
      have hmem := h.loading_iff.mp hx
      exact ⟨x, (List.mem_cons.mp hmem).resolve_left hne, hfx⟩
  · rintro ⟨g, hg, hfg⟩
    have hne : g ≠ f := by
      rintro rfl
      exact (List.nodup_cons.mp h.loading_nodup).1 hg
    refine ⟨g, hfg, ?_⟩
    rw [if_neg hne]
    exact h.loading_iff.mpr (List.mem_cons_of_mem _ hg)

/-- A module that still reaches another loading module waits. -/
lemma settle_eq_of_reaches (h : linker.InOrder (f :: rest))
    (hawaits : ∃ g ∈ rest, linker.modules.Reaches f g) :
    linker.settle f = { linker with
      modules := linker.modules.markRelocated f
      waiting := linker.waiting ++ [f] } := by
  rw [settle, publishReady, if_pos (h.awaitsLoading_markRelocated_iff.mpr hawaits)]

/-- A module that reaches no other loading module is published, and the waiting modules that
it reaches with it. -/
lemma settle_eq_of_not_reaches (h : linker.InOrder (f :: rest))
    (hready : ∀ g ∈ rest, ¬ linker.modules.Reaches f g) :
    linker.settle f = { linker with
      modules := (linker.ready f).foldl LinkMap.publish (linker.modules.markRelocated f)
      waiting := linker.waiting.filter fun p => p ∉ linker.modules.tree f } := by
  have hnot : ¬ (linker.modules.markRelocated f).awaitsLoading f = true := by
    rw [h.awaitsLoading_markRelocated_iff]
    rintro ⟨g, hg, hfg⟩
    exact hready g hg hfg
  have htree : ∀ p, p ∈ (linker.modules.markRelocated f).tree f ↔ p ∈ linker.modules.tree f := by
    intro p
    rw [LinkMap.mem_tree, LinkMap.mem_tree]
    exact LinkMap.reaches_congr fun _ => LinkMap.deps_markRelocated
  rw [settle, publishReady, if_neg hnot]
  simp only [htree, ready, List.filter_append]
  simp [LinkMap.Reaches.refl]

/-- What is published is not loaded before. -/
lemma state?_ne_loaded_of_mem_ready (h : linker.InOrder (f :: rest)) (hp : p ∈ linker.ready f) :
    linker.modules.state? p ≠ some .loaded := by
  rcases (mem_ready.mp hp).1 with hwait | rfl
  · rw [h.waiting_iff.mpr hwait]
    simp
  · rw [h.state?_head]
    simp

/-- What a module reaches is published with it or loaded before, if it reaches no other loading
module. -/
lemma mem_ready_or_loaded (h : linker.InOrder (f :: rest))
    (hready : ∀ g ∈ rest, ¬ linker.modules.Reaches f g) (hfb : linker.modules.Reaches f b) :
    b ∈ linker.ready f ∨ linker.modules.state? b = some .loaded := by
  obtain ⟨m, hm⟩ := Option.isSome_iff_exists.mp (h.consistent.live_of_reaches hfb h.live_head)
  have hstate := LinkMap.state?_of_get? hm
  cases hs : m.state with
  | loading =>
    rcases List.mem_cons.mp (h.loading_iff.mp (hs ▸ hstate)) with rfl | hmem
    · exact Or.inl (mem_ready.mpr ⟨Or.inr rfl, hfb⟩)
    · exact absurd hfb (hready b hmem)
  | relocated => exact Or.inl (mem_ready.mpr ⟨Or.inl (h.waiting_iff.mp (hs ▸ hstate)), hfb⟩)
  | loaded => exact Or.inr (hs ▸ hstate)

lemma ready_nodup (h : linker.InOrder (f :: rest)) : (linker.ready f).Nodup := by
  refine List.Nodup.filter _ (List.Nodup.append h.waiting_nodup (List.nodup_singleton f) ?_)
  rw [List.disjoint_singleton]
  exact fun hwait => h.not_mem_loading_of_waiting hwait List.mem_cons_self

/-- The states after a module and those ready with it are published. -/
lemma state?_publish_ready (h : linker.InOrder (f :: rest)) :
    ((linker.ready f).foldl LinkMap.publish (linker.modules.markRelocated f)).state? a
      = if a ∈ linker.ready f then some .loaded else linker.modules.state? a := by
  rw [LinkMap.state?_foldl_publish, LinkMap.state?_markRelocated]
  have hf : f ∈ linker.ready f := mem_ready.mpr ⟨Or.inr rfl, LinkMap.Reaches.refl _ f⟩
  by_cases ha : a ∈ linker.ready f
  · have hlive : (linker.modules.get? a).isSome :=
      h.consistent.live_of_reaches (mem_ready.mp ha).2 h.live_head
    obtain ⟨m, hm⟩ := Option.isSome_iff_exists.mp hlive
    rw [if_pos ha, if_pos ha, LinkMap.state?_of_get? hm]
    split <;> rfl
  · have hne : a ≠ f := fun heq => ha (heq ▸ hf)
    rw [if_neg ha, if_neg ha, if_neg hne]

lemma order_settle_of_not_reaches (h : linker.InOrder (f :: rest))
    (hready : ∀ g ∈ rest, ¬ linker.modules.Reaches f g) :
    (linker.settle f).modules.order = linker.modules.order ++ linker.ready f := by
  rw [h.settle_eq_of_not_reaches hready]
  refine LinkMap.order_foldl_publish fun p hp => ?_
  rw [LinkMap.isSome_congr LinkMap.mapping?_markRelocated]
  exact h.consistent.live_of_reaches (mem_ready.mp hp).2 h.live_head

/-- The states after the innermost module was marked relocated. -/
lemma state?_markRelocated_head (h : linker.InOrder (f :: rest)) :
    (linker.modules.markRelocated f).state? a
      = if a = f then some .relocated else linker.modules.state? a := by
  rw [LinkMap.state?_markRelocated]
  split
  · rename_i ha
    rw [ha, h.state?_head]
    rfl
  · rfl

/-- Settling a module that has to wait keeps a linker in order. -/
lemma settle_waits (h : linker.InOrder (f :: rest))
    (hawaits : ∃ g ∈ rest, linker.modules.Reaches f g) : (linker.settle f).InOrder rest := by
  rw [h.settle_eq_of_reaches hawaits]
  obtain ⟨hnot, hnodup⟩ := List.nodup_cons.mp h.loading_nodup
  have hwait : f ∉ linker.waiting := fun hmem =>
    h.not_mem_loading_of_waiting hmem List.mem_cons_self
  refine ⟨h.consistent.markRelocated ?_, hnodup, ?_, ?_, ?_, ?_, ?_⟩
  · rw [h.state?_head]
    simp
  · intro i
    -- the loading modules are those from before, without the one that is settled
    rw [h.state?_markRelocated_head]
    by_cases hi : i = f
    · simp [hi, hnot]
    · simp [hi, h.loading_iff]
  · refine List.Nodup.append h.waiting_nodup (List.nodup_singleton f) ?_
    rwa [List.disjoint_singleton]
  · intro i
    -- the waiting modules are those from before, and the one that is settled
    rw [h.state?_markRelocated_head]
    by_cases hi : i = f
    · simp [hi]
    · simp [hi, h.waiting_iff]
  · intro a b ha hb
    rw [LinkMap.deps_markRelocated] at hb
    rw [h.state?_markRelocated_head] at ha ⊢
    by_cases haf : a = f
    · simp [haf] at ha
    · rw [if_neg haf] at ha
      have hbl := h.loaded_closed ha hb
      have hbf : b ≠ f := by
        rintro rfl
        rw [h.state?_head] at hbl
        simp at hbl
      rwa [if_neg hbf]
  · intro p hp
    -- whatever reached the settled module reaches what that one waits for
    have hreaches : ∀ x y, (linker.modules.markRelocated f).Reaches x y ↔
        linker.modules.Reaches x y := fun x y =>
      LinkMap.reaches_congr fun _ => LinkMap.deps_markRelocated
    simp only [hreaches]
    obtain ⟨g, hg, hfg⟩ := hawaits
    rcases List.mem_append.mp hp with hp | hp
    · obtain ⟨x, hx, hpx⟩ := h.waiting_reaches hp
      rcases List.mem_cons.mp hx with rfl | hx
      · exact ⟨g, hg, hpx.trans hfg⟩
      · exact ⟨x, hx, hpx⟩
    · rw [List.mem_singleton.mp hp]
      exact ⟨g, hg, hfg⟩

/-- Publishing a module and those ready with it keeps a link map consistent. -/
lemma consistent_publish_ready (h : linker.InOrder (f :: rest)) :
    ((linker.ready f).foldl LinkMap.publish (linker.modules.markRelocated f)).Consistent := by
  have hmarked : (linker.modules.markRelocated f).Consistent := by
    refine h.consistent.markRelocated ?_
    rw [h.state?_head]
    simp
  refine hmarked.foldl_publish h.ready_nodup (fun p hp => ?_) (fun p hp => ?_)
  · rw [LinkMap.isSome_congr LinkMap.mapping?_markRelocated]
    exact h.consistent.live_of_reaches (mem_ready.mp hp).2 h.live_head
  · rw [h.state?_markRelocated_head]
    split
    · simp
    · exact h.state?_ne_loaded_of_mem_ready hp

/-- Settling a module that has nothing to wait for keeps a linker in order, if the modules
that still wait reach another loading module. -/
lemma settle_publishes (h : linker.InOrder (f :: rest))
    (hready : ∀ g ∈ rest, ¬ linker.modules.Reaches f g)
    (hothers : ∀ p ∈ linker.waiting, ¬ linker.modules.Reaches f p →
      ∃ g ∈ rest, linker.modules.Reaches p g) : (linker.settle f).InOrder rest := by
  rw [h.settle_eq_of_not_reaches hready]
  obtain ⟨hnot, hnodup⟩ := List.nodup_cons.mp h.loading_nodup
  have hf : f ∈ linker.ready f := mem_ready.mpr ⟨Or.inr rfl, LinkMap.Reaches.refl _ f⟩
  have hdeps : ∀ x, ((linker.ready f).foldl LinkMap.publish
      (linker.modules.markRelocated f)).deps x = linker.modules.deps x := by
    intro x
    rw [LinkMap.deps_foldl_publish, LinkMap.deps_markRelocated]
  refine ⟨h.consistent_publish_ready, hnodup, ?_, h.waiting_nodup.filter _, ?_, ?_, ?_⟩
  · intro i
    -- the loading modules are those from before, without the one that is settled
    rw [h.state?_publish_ready]
    by_cases hi : i ∈ linker.ready f
    · have hrest : i ∉ rest := by
        rcases (mem_ready.mp hi).1 with hwait | rfl
        · exact fun hmem => h.not_mem_loading_of_waiting hwait (List.mem_cons_of_mem _ hmem)
        · exact hnot
      simp [hi, hrest]
    · have hne : i ≠ f := fun heq => hi (heq ▸ hf)
      simp [hi, h.loading_iff, hne]
  · intro i
    -- the waiting modules are those from before that are not ready
    rw [h.state?_publish_ready, List.mem_filter]
    by_cases hi : i ∈ linker.ready f
    · simp [hi, (mem_ready.mp hi).2]
    · have hne : i ≠ f := fun heq => hi (heq ▸ hf)
      have hwaits : i ∈ linker.waiting → ¬ linker.modules.Reaches f i := fun hwait hreach =>
        hi (mem_ready.mpr ⟨Or.inl hwait, hreach⟩)
      rw [if_neg hi, h.waiting_iff]
      constructor
      · exact fun hwait => ⟨hwait, by simpa using hwaits hwait⟩
      · exact fun hmem => hmem.1
  · intro a b ha hb
    rw [hdeps] at hb
    rw [h.state?_publish_ready] at ha ⊢
    by_cases har : a ∈ linker.ready f
    · -- what a published module depends on is within reach, so it is published or loaded
      have hfb : linker.modules.Reaches f b := (mem_ready.mp har).2.tail hb
      split
      · rfl
      · rename_i hbr
        exact (h.mem_ready_or_loaded hready hfb).resolve_left hbr
    · rw [if_neg har] at ha
      split
      · rfl
      · exact h.loaded_closed ha hb
  · intro p hp
    rw [List.mem_filter] at hp
    obtain ⟨g, hg, hpg⟩ := hothers p hp.1 (by simpa using hp.2)
    exact ⟨g, hg, (LinkMap.reaches_congr hdeps).mpr hpg⟩

/-- Settling a module keeps what was loaded before. -/
lemma extends_settle (h : linker.InOrder (f :: rest)) :
    linker.modules.Extends (linker.settle f).modules := by
  have hmarked : ∀ i, linker.modules.state? i = some .loaded →
      (linker.modules.markRelocated f).get? i = linker.modules.get? i := by
    intro i hi
    have hne : i ≠ f := by
      rintro rfl
      rw [h.state?_head] at hi
      simp at hi
    simp [LinkMap.markRelocated, LinkMap.get?_modify, hne]
  by_cases hawaits : ∃ g ∈ rest, linker.modules.Reaches f g
  · rw [h.settle_eq_of_reaches hawaits]
    exact ⟨fun hi => hmarked _ hi, List.prefix_refl _⟩
  · have hready : ∀ g ∈ rest, ¬ linker.modules.Reaches f g := fun g hg hfg =>
      hawaits ⟨g, hg, hfg⟩
    refine ⟨?_, ?_⟩
    · intro i hi
      have hnot : i ∉ linker.ready f := fun hmem => h.state?_ne_loaded_of_mem_ready hmem hi
      rw [h.settle_eq_of_not_reaches hready, LinkMap.get?_foldl_publish_of_not_mem hnot]
      exact hmarked i hi
    · rw [h.order_settle_of_not_reaches hready]
      exact List.prefix_append _ _

/-! ## Abandoning a module -/

lemma state?_ne_loaded_of_mem_doomed (h : linker.InOrder (f :: rest))
    (hp : p ∈ linker.doomed f) :
    linker.modules.state? p ≠ some .loaded := by
  rcases mem_doomed.mp hp with ⟨hwait, -⟩ | rfl
  · rw [h.waiting_iff.mpr hwait]
    simp
  · rw [h.state?_head]
    simp

/-- Abandoning a module keeps a linker in order.  A waiting module that is kept does not
reach the abandoned one, so nothing that it reaches is discarded, and it still reaches
another loading module. -/
lemma abandon (h : linker.InOrder (f :: rest)) : (linker.abandon f).InOrder rest := by
  obtain ⟨hnot, hnodup⟩ := List.nodup_cons.mp h.loading_nodup
  have hloaded : ∀ p ∈ linker.doomed f, linker.modules.state? p ≠ some .loaded := fun p =>
    h.state?_ne_loaded_of_mem_doomed
  refine ⟨?_, hnodup, ?_, h.waiting_nodup.filter _, ?_, ?_, ?_⟩
  · rw [modules_abandon]
    exact h.consistent.foldl_discard hloaded
  · intro i
    -- the loading modules are those from before, without the one that is abandoned
    rw [modules_abandon, LinkMap.state?_foldl_discard]
    by_cases hi : i ∈ linker.doomed f
    · have hrest : i ∉ rest := by
        rcases mem_doomed.mp hi with ⟨hwait, -⟩ | rfl
        · exact fun hmem => h.not_mem_loading_of_waiting hwait (List.mem_cons_of_mem _ hmem)
        · exact hnot
      simp only [if_pos hi, hrest, reduceCtorEq]
    · have hne : i ≠ f := fun heq => hi (mem_doomed.mpr (Or.inr heq))
      rw [if_neg hi, h.loading_iff, List.mem_cons, or_iff_right hne]
  · intro i
    -- the waiting modules are those from before that do not reach it
    rw [mem_waiting_abandon, modules_abandon, LinkMap.state?_foldl_discard]
    by_cases hi : i ∈ linker.doomed f
    · simp only [if_pos hi, reaches_of_mem_doomed hi, not_true_eq_false, and_false, reduceCtorEq]
    · rw [if_neg hi, h.waiting_iff]
      constructor
      · exact fun hwait => ⟨hwait, fun hif => hi (mem_doomed.mpr (Or.inl ⟨hwait, hif⟩))⟩
      · exact fun hwait => hwait.1
  · intro a b ha hb
    rw [modules_abandon, h.consistent.mem_deps_foldl_discard hloaded] at hb
    rw [modules_abandon, LinkMap.state?_foldl_discard] at ha ⊢
    rw [if_neg hb.1] at ha
    rw [if_neg hb.2.1]
    exact h.loaded_closed ha hb.2.2
  · intro p hp
    obtain ⟨hwait, hpf⟩ := mem_waiting_abandon.mp hp
    obtain ⟨g, hg, hpg⟩ := h.waiting_reaches hwait
    have hgf : g ≠ f := by
      rintro rfl
      exact hpf hpg
    -- the way to the other loading module leads past nothing that is discarded
    refine ⟨g, (List.mem_cons.mp hg).resolve_left hgf, hpg.transport fun x hpx y hy => ?_⟩
    rw [modules_abandon, h.consistent.mem_deps_foldl_discard hloaded]
    refine ⟨fun hx => hpf (hpx.trans (reaches_of_mem_doomed hx)), fun hy' => ?_, hy⟩
    exact hpf ((hpx.tail hy).trans (reaches_of_mem_doomed hy'))

/-- Abandoning a module keeps the loaded modules and the global list. -/
lemma extends_abandon (h : linker.InOrder (f :: rest)) :
    linker.modules.Extends (linker.abandon f).modules := by
  have hloaded : ∀ p ∈ linker.doomed f, linker.modules.state? p ≠ some .loaded := fun p =>
    h.state?_ne_loaded_of_mem_doomed
  refine ⟨?_, ?_⟩
  · intro i hi
    rw [modules_abandon]
    refine h.consistent.get?_foldl_discard hloaded (fun hmem => hloaded i hmem hi) ?_
    exact fun t ht hmem => hloaded t hmem (h.loaded_closed hi ht)
  · simp [order_abandon]

/-- Abandoning every loading module leaves a linker in which nothing is loading. -/
lemma foldl_abandon (h : linker.InOrder loading) :
    (loading.foldl Linker.abandon linker).InOrder [] := by
  induction loading generalizing linker with
  | nil => exact h
  | cons f rest ih => exact ih h.abandon

lemma extends_foldl_abandon (h : linker.InOrder loading) :
    linker.modules.Extends (loading.foldl Linker.abandon linker).modules := by
  induction loading generalizing linker with
  | nil => exact LinkMap.Extends.refl _
  | cons f rest ih => exact h.extends_abandon.trans (ih h.abandon)

lemma order_foldl_abandon :
    (loading.foldl Linker.abandon linker).modules.order = linker.modules.order := by
  induction loading generalizing linker with
  | nil => rfl
  | cons f rest ih => rw [List.foldl_cons, ih, order_abandon]

end Linker.InOrder

end DynamicLinker
