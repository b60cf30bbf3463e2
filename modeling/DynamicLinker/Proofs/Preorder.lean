/-
# The recursive walk

The tree of a module is computed with an agenda.  Here it is compared with the walk as one
would tell it: list a node, then what is found from its successors, one after the other, and
pass over every node that was listed before.  This is a relation on any graph, `Preorder`, and
it determines what is found.

The main results are `LinkMap.preorder_tree`, that the tree of a module is found by the
recursive walk over dependencies, `Preorder.map`, that nodes may be renamed as long as no two of
them get the same name, and `Preorder.filter_known`, that a walk which passes over a closed set of
nodes from the start finds what the whole walk finds outside of it.
-/
import DynamicLinker.Proofs.Reachability
import Mathlib.Tactic.Tauto

namespace DynamicLinker

/-- What the recursive walk finds from the nodes of a list, one after the other, when some nodes
were seen before. -/
inductive Preorder {α : Type} (next : α → List α) : List α → List α → List α → Prop where
  /-- Nothing is found from no node. -/
  | nil (seen : List α) : Preorder next seen [] []
  /-- A node that was seen is passed over. -/
  | skip {seen rest found : List α} {a : α} (hseen : a ∈ seen)
      (hrest : Preorder next seen rest found) : Preorder next seen (a :: rest) found
  /-- A new node is found, then what its successors lead to, then what the others lead to. -/
  | visit {seen rest below found : List α} {a : α} (hnew : a ∉ seen)
      (hbelow : Preorder next (a :: seen) (next a) below)
      (hrest : Preorder next (below ++ a :: seen) rest found) :
      Preorder next seen (a :: rest) (a :: below ++ found)

namespace Preorder

variable {α β : Type} {next : α → List α} {seen seen' agenda rest found found' : List α}

/-- **The recursive walk determines what is found.** -/
theorem unique (h : Preorder next seen agenda found) (h' : Preorder next seen agenda found') :
    found = found' := by
  induction h generalizing found' with
  | nil => cases h'; rfl
  | skip hseen _ ih =>
    cases h' with
    | skip _ hrest => exact ih hrest
    | visit hnew _ _ => exact absurd hseen hnew
  | visit hnew _ _ ihbelow ihrest =>
    cases h' with
    | skip hseen _ => exact absurd hseen hnew
    | visit _ hbelow hrest =>
      obtain rfl := ihbelow hbelow
      rw [ihrest hrest]

/-- It does not matter in which order nodes were seen. -/
lemma congr_seen (h : Preorder next seen agenda found) (hseen : ∀ a, a ∈ seen' ↔ a ∈ seen) :
    Preorder next seen' agenda found := by
  induction h generalizing seen' with
  | nil => exact .nil seen'
  | skip hmem _ ih => exact .skip ((hseen _).mpr hmem) (ih hseen)
  | visit hnew _ _ ihbelow ihrest =>
    refine .visit (fun hmem => hnew ((hseen _).mp hmem)) (ihbelow fun b => ?_) (ihrest fun b => ?_)
    · simp [hseen]
    · simp [hseen]

/-- What is found from two lists of nodes is what is found from the first, and then from the
second. -/
lemma of_append (h : Preorder next seen (agenda ++ rest) found) :
    ∃ first second, found = first ++ second ∧ Preorder next seen agenda first ∧
      Preorder next (first ++ seen) rest second := by
  generalize hwhole : agenda ++ rest = whole at h
  induction h generalizing agenda with
  | nil seen =>
    obtain ⟨rfl, rfl⟩ := List.append_eq_nil_iff.mp hwhole
    exact ⟨[], [], rfl, .nil seen, .nil seen⟩
  | @skip seen tail found a hseen htail ih =>
    cases agenda with
    | nil =>
      subst hwhole
      exact ⟨[], found, rfl, .nil seen, .skip hseen htail⟩
    | cons b agenda =>
      obtain ⟨rfl, hsplit⟩ := List.cons.inj hwhole
      obtain ⟨first, second, hfound, hfirst, hsecond⟩ := ih hsplit
      exact ⟨first, second, hfound, .skip hseen hfirst, hsecond⟩
  | @visit seen tail below found a hnew hbelow htail _ ih =>
    cases agenda with
    | nil =>
      subst hwhole
      exact ⟨[], _, rfl, .nil seen, .visit hnew hbelow htail⟩
    | cons b agenda =>
      obtain ⟨rfl, hsplit⟩ := List.cons.inj hwhole
      obtain ⟨first, second, rfl, hfirst, hsecond⟩ := ih hsplit
      refine ⟨b :: below ++ first, second, by simp, .visit hnew hbelow hfirst, ?_⟩
      refine hsecond.congr_seen fun c => ?_
      simp only [List.cons_append, List.mem_cons, List.mem_append]
      tauto

/-- A walk stays one when its nodes are renamed, as long as no two of them get the same name. -/
theorem map (next' : β → List β) (f : α → β) {P : α → Prop}
    (h : Preorder next seen agenda found)
    (hinj : ∀ a b, P a → P b → f a = f b → a = b)
    (hnext : ∀ a, P a → next' (f a) = (next a).map f) (hclosed : ∀ a, P a → ∀ b ∈ next a, P b)
    (hseen : ∀ a ∈ seen, P a) (hagenda : ∀ a ∈ agenda, P a) :
    Preorder next' (seen.map f) (agenda.map f) (found.map f) ∧ ∀ a ∈ found, P a := by
  induction h with
  | nil => exact ⟨.nil _, by simp⟩
  | skip hmem _ ih =>
    obtain ⟨hfound, hP⟩ := ih hseen fun b hb => hagenda b (List.mem_cons_of_mem _ hb)
    exact ⟨.skip (List.mem_map_of_mem hmem) hfound, hP⟩
  | @visit seen tail below found a hnew _ _ ihbelow ihrest =>
    have ha : P a := hagenda a List.mem_cons_self
    have hseen' : ∀ b ∈ a :: seen, P b := List.forall_mem_cons.mpr ⟨ha, hseen⟩
    obtain ⟨hbelow, hPbelow⟩ := ihbelow hseen' (hclosed a ha)
    have hseen'' : ∀ b ∈ below ++ a :: seen, P b := fun b hb =>
      (List.mem_append.mp hb).elim (hPbelow b) (hseen' b)
    obtain ⟨hrest, hPrest⟩ := ihrest hseen'' fun b hb => hagenda b (List.mem_cons_of_mem _ hb)
    rw [← hnext a ha, List.map_cons] at hbelow
    rw [List.map_append, List.map_cons] at hrest
    refine ⟨?_, ?_⟩
    · rw [List.cons_append, List.map_cons, List.map_cons, List.map_append]
      refine .visit (fun hmem => hnew ?_) hbelow hrest
      obtain ⟨b, hb, hfb⟩ := List.mem_map.mp hmem
      rwa [← hinj b a (hseen b hb) ha hfb]
    · intro b hb
      rcases List.mem_cons.mp hb with rfl | hb
      · exact ha
      · exact (List.mem_append.mp hb).elim (hPbelow b) (hPrest b)

/-- What holds of the nodes that a walk starts from, and passes from a node to its successors,
holds of all that is found. -/
lemma forall_mem (h : Preorder next seen agenda found) {P : α → Prop}
    (hclosed : ∀ a, P a → ∀ b ∈ next a, P b) (hagenda : ∀ a ∈ agenda, P a) :
    ∀ a ∈ found, P a := by
  induction h with
  | nil => simp
  | skip _ _ ih => exact ih fun b hb => hagenda b (List.mem_cons_of_mem _ hb)
  | @visit _ _ _ _ a _ _ _ ihbelow ihrest =>
    obtain ⟨ha, hrest⟩ := List.forall_mem_cons.mp hagenda
    intro b hb
    rcases List.mem_cons.mp hb with rfl | hb
    · exact ha
    · exact (List.mem_append.mp hb).elim (ihbelow (hclosed a ha) b) (ihrest hrest b)

/-- No node is found twice, and none that was seen before. -/
lemma nodup (h : Preorder next seen agenda found) :
    found.Nodup ∧ ∀ a ∈ found, a ∉ seen := by
  induction h with
  | nil => simp
  | skip _ _ ih => exact ih
  | @visit seen _ below found a hnew _ _ ihbelow ihrest =>
    obtain ⟨hbelow, hbelow'⟩ := ihbelow
    obtain ⟨hfound, hfound'⟩ := ihrest
    simp only [List.mem_append, List.mem_cons, not_or] at hbelow' hfound'
    refine ⟨?_, fun b hb => ?_⟩
    · rw [List.cons_append, List.nodup_cons, List.mem_append, not_or]
      refine ⟨⟨fun ha => (hbelow' a ha).1 rfl, fun ha => (hfound' a ha).2.1 rfl⟩, ?_⟩
      exact List.nodup_append.mpr ⟨hbelow, hfound, fun b hb c hc heq => (hfound' c hc).1 (heq ▸ hb)⟩
    · rcases List.mem_cons.mp hb with rfl | hb
      · exact hnew
      · exact (List.mem_append.mp hb).elim (fun hb => (hbelow' b hb).2) fun hb => (hfound' b hb).2.2

/-- Only the successors of the nodes that are found matter. -/
lemma congr_next {next' : α → List α} (h : Preorder next seen agenda found)
    (hnext : ∀ a ∈ found, next' a = next a) : Preorder next' seen agenda found := by
  induction h with
  | nil seen => exact .nil seen
  | skip hmem _ ih => exact .skip hmem (ih hnext)
  | @visit _ _ below _ a hnew _ _ ihbelow ihrest =>
    refine .visit hnew ?_ (ihrest fun b hb => hnext b (List.mem_append_right _ hb))
    rw [hnext a List.mem_cons_self]
    exact ihbelow fun b hb =>
      hnext b (List.mem_append_left _ (List.mem_cons_of_mem _ hb))

variable [DecidableEq α]

/-- If nodes are known from which only known ones are reached, a walk that passes over them finds
what is not known of the whole. -/
lemma filter_known {known : List α} (h : Preorder next seen agenda found)
    (hclosed : ∀ a ∈ known, ∀ b ∈ next a, b ∈ known) :
    Preorder next (known ++ seen) agenda (found.filter (· ∉ known)) := by
  induction h with
  | nil => exact .nil _
  | skip hmem _ ih => exact .skip (List.mem_append_right _ hmem) ih
  | @visit seen rest below found a hnew hbelow _ ihbelow ihrest =>
    by_cases ha : a ∈ known
    · have hknown : ∀ b ∈ below, b ∈ known := hbelow.forall_mem hclosed (hclosed a ha)
      have hnone : (a :: below).filter (· ∉ known) = [] := by
        simpa [List.filter_eq_nil_iff, ha] using hknown
      rw [List.filter_append, hnone, List.nil_append]
      refine .skip (List.mem_append_left _ ha) (ihrest.congr_seen fun b => ?_)
      have hb := hknown b
      simp only [List.mem_append, List.mem_cons]
      constructor
      · tauto
      · rintro (hb' | hb' | rfl | hb') <;> tauto
    · rw [List.filter_append, List.filter_cons_of_pos (by simpa using ha)]
      refine .visit (by simp [ha, hnew]) (ihbelow.congr_seen fun b => ?_)
        (ihrest.congr_seen fun b => ?_)
      · simp only [List.mem_append, List.mem_cons]
        tauto
      · simp only [List.mem_append, List.mem_cons, List.mem_filter, decide_eq_true_eq]
        tauto

/-- A node of the agenda may be left out where it was seen before, or stands a second time. -/
lemma eraseDups_filter (h : Preorder next seen agenda found) {p : α → Bool}
    (hp : ∀ a, p a = false → a ∈ seen) :
    Preorder (fun a => (next a).eraseDups) seen (agenda.filter p).eraseDups found := by
  induction h generalizing p with
  | nil seen => exact .nil seen
  | @skip seen rest found a hmem _ ih =>
    by_cases ha : p a = true
    · rw [List.filter_cons_of_pos ha, List.eraseDups_cons, List.filter_filter]
      refine .skip hmem (ih fun b hb => ?_)
      rcases Bool.and_eq_false_iff.mp hb with hb | hb
      · rw [show b = a by simpa using hb]
        exact hmem
      · exact hp b hb
    · rw [List.filter_cons_of_neg ha]
      exact ih hp
  | @visit seen rest below found a hnew _ _ ihbelow ihrest =>
    have ha : p a = true := eq_true_of_ne_false fun hfalse => hnew (hp a hfalse)
    rw [List.filter_cons_of_pos ha, List.eraseDups_cons, List.filter_filter]
    refine .visit hnew ?_ (ihrest fun b hb => ?_)
    · have hall := ihbelow (p := fun _ => true) (by simp)
      rwa [List.filter_eq_self.mpr fun _ _ => rfl] at hall
    · rcases Bool.and_eq_false_iff.mp hb with hb | hb
      · simp [show b = a by simpa using hb]
      · simp [hp b hb]

/-- **A walk finds the same when a successor that is listed again is left out.** -/
theorem eraseDups (h : Preorder next seen agenda found) :
    Preorder (fun a => (next a).eraseDups) seen agenda.eraseDups found := by
  have hall := h.eraseDups_filter (p := fun _ => true) (by simp)
  rwa [List.filter_eq_self.mpr fun _ _ => rfl] at hall

end Preorder

namespace LinkMap

variable {lm : LinkMap}

/-- A depth-first walk with an agenda finds what the recursive walk finds. -/
lemma preorder_walk (lm : LinkMap) (seen agenda : List ModuleId) :
    Preorder lm.deps seen agenda (lm.walk .depthFirst seen agenda) := by
  fun_induction lm.walk .depthFirst seen agenda with
  | case1 seen => exact .nil seen
  | case2 seen id rest hmem ih => exact .skip hmem ih
  | case3 seen id rest hmem ih =>
    -- the dependencies stand in front of the agenda, so what they lead to comes first
    obtain ⟨below, found, hfound, hbelow, hrest⟩ := ih.of_append
    rw [hfound]
    exact .visit hmem hbelow hrest

/-- **The tree of a module is what the recursive walk over dependencies finds.** -/
theorem preorder_tree (lm : LinkMap) (root : ModuleId) :
    Preorder lm.deps [] [root] (lm.tree root) :=
  lm.preorder_walk [] [root]

end LinkMap

end DynamicLinker
