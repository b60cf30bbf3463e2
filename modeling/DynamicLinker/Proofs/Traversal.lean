/-
# The recursive walk, entering and leaving nodes

A recursive walk enters a node before it goes on to the successors, and leaves it when it is done
with them.  So there are two orders in which it lists the nodes that it finds.  `Traversal` is the
walk with both: the order of entering is that of `Preorder`, and the order of leaving has the same
nodes, each behind all that was found from it.
-/
import DynamicLinker.Proofs.Preorder

namespace DynamicLinker

/-- The recursive walk from the nodes of a list, one after the other, when some nodes were seen
before: the nodes that it finds, in the order in which they are entered and in that in which they
are left. -/
inductive Traversal {α : Type} (next : α → List α) :
    List α → List α → List α → List α → Prop where
  /-- From no node nothing is found. -/
  | nil (seen : List α) : Traversal next seen [] [] []
  /-- A node that was seen is passed over. -/
  | skip {seen rest entered left : List α} {a : α} (hseen : a ∈ seen)
      (hrest : Traversal next seen rest entered left) : Traversal next seen (a :: rest) entered left
  /-- A new node is entered before all that its successors lead to, and left after that; then come
  the others. -/
  | visit {seen rest below below' entered left : List α} {a : α} (hnew : a ∉ seen)
      (hbelow : Traversal next (a :: seen) (next a) below below')
      (hrest : Traversal next (below ++ a :: seen) rest entered left) :
      Traversal next seen (a :: rest) (a :: below ++ entered) (below' ++ a :: left)

namespace Traversal

variable {α : Type} {next : α → List α} {seen seen' agenda entered entered' left left' : List α}

/-- Nodes are entered in the order of the recursive walk. -/
lemma preorder (h : Traversal next seen agenda entered left) :
    Preorder next seen agenda entered := by
  induction h with
  | nil seen => exact .nil seen
  | skip hmem _ ih => exact .skip hmem ih
  | visit hnew _ _ ihbelow ihrest => exact .visit hnew ihbelow ihrest

/-- **The walk determines both orders.** -/
theorem unique (h : Traversal next seen agenda entered left)
    (h' : Traversal next seen agenda entered' left') : entered = entered' ∧ left = left' := by
  induction h generalizing entered' left' with
  | nil =>
    cases h'
    exact ⟨rfl, rfl⟩
  | skip hmem _ ih =>
    cases h' with
    | skip _ hrest => exact ih hrest
    | visit hnew _ _ => exact absurd hmem hnew
  | visit hnew _ _ ihbelow ihrest =>
    cases h' with
    | skip hmem _ => exact absurd hmem hnew
    | visit _ hbelow hrest =>
      obtain ⟨rfl, rfl⟩ := ihbelow hbelow
      obtain ⟨rfl, rfl⟩ := ihrest hrest
      exact ⟨rfl, rfl⟩

/-- It does not matter in which order nodes were seen. -/
lemma congr_seen (h : Traversal next seen agenda entered left)
    (hseen : ∀ a, a ∈ seen' ↔ a ∈ seen) : Traversal next seen' agenda entered left := by
  induction h generalizing seen' with
  | nil => exact .nil seen'
  | skip hmem _ ih => exact .skip ((hseen _).mpr hmem) (ih hseen)
  | visit hnew _ _ ihbelow ihrest =>
    refine .visit (fun hmem => hnew ((hseen _).mp hmem)) (ihbelow fun b => ?_) (ihrest fun b => ?_)
    · simp [hseen]
    · simp [hseen]

/-- A walk from a node that was seen is one from the others. -/
lemma of_cons {a : α} {rest : List α} (h : Traversal next seen (a :: rest) entered left)
    (hmem : a ∈ seen) : Traversal next seen rest entered left := by
  cases h with
  | skip _ hrest => exact hrest
  | visit hnew _ _ => exact absurd hmem hnew

/-- What is left is what was entered. -/
lemma perm (h : Traversal next seen agenda entered left) : left.Perm entered := by
  induction h with
  | nil => exact .nil
  | skip _ _ ih => exact ih
  | visit _ _ _ ihbelow ihrest =>
    exact List.perm_middle.trans ((ihbelow.append ihrest).cons _)

end Traversal

end DynamicLinker
