/-
# What has happened since

A series goes on by one element after the other.  Something starts at an element and ends at a
later one, and whether it does may depend on what came before.  It lasts at the end of the series
if it has started somewhere and has not ended since.

So it lasts after one more element exactly if it starts there, or has lasted and does not end
there.  Whatever goes by this rule from element to element is what has started and not ended since,
by `since_iff`.
-/
import Mathlib.Data.List.Induction
import Mathlib.Tactic.Lemma

namespace DynamicLinker

variable {α : Type} {starts ends : List α → α → Prop} {series : List α} {a : α}

/-- Something has started at an element of a series, and has not ended at any element after it.
Both are said of an element and of the elements before it. -/
def Since (starts ends : List α → α → Prop) (series : List α) : Prop :=
  ∃ before a later, series = before ++ a :: later ∧ starts before a ∧
    ∀ between b rest, later = between ++ b :: rest → ¬ ends (before ++ a :: between) b

lemma not_since_nil : ¬ Since starts ends [] := by
  rintro ⟨before, a, later, hsplit, -⟩
  simp at hsplit

/-- What lasts after one more element starts there, or has lasted and does not end there. -/
lemma since_concat :
    Since starts ends (series ++ [a])
      ↔ starts series a ∨ Since starts ends series ∧ ¬ ends series a := by
  constructor
  · rintro ⟨before, b, later, hsplit, hstarts, hends⟩
    rcases List.eq_nil_or_concat later with rfl | ⟨between, last, rfl⟩
    · obtain ⟨rfl, hlast⟩ := List.append_inj' hsplit rfl
      obtain rfl : a = b := by simpa using hlast
      exact .inl hstarts
    · rw [List.concat_eq_append, ← List.cons_append, ← List.append_assoc] at hsplit
      obtain ⟨rfl, hlast⟩ := List.append_inj' hsplit rfl
      obtain rfl : a = last := by simpa using hlast
      refine .inr ⟨⟨before, b, between, rfl, hstarts, fun middle c rest hmiddle => ?_⟩, ?_⟩
      · exact hends middle c (rest ++ [a]) (by simp [hmiddle])
      · exact hends between a [] (by simp)
  · rintro (hstarts | ⟨⟨before, b, later, rfl, hstarts, hends⟩, hlast⟩)
    · exact ⟨series, a, [], rfl, hstarts, by simp⟩
    · refine ⟨before, b, later ++ [a], by simp, hstarts, fun between c rest hsplit => ?_⟩
      -- the element at which it might end is the new one, or one of those before
      rcases List.eq_nil_or_concat rest with rfl | ⟨front, last, rfl⟩
      · obtain ⟨rfl, hc⟩ := List.append_inj' hsplit rfl
        obtain rfl : a = c := by simpa using hc
        exact hlast
      · rw [List.concat_eq_append, ← List.cons_append, ← List.append_assoc] at hsplit
        obtain ⟨rfl, -⟩ := List.append_inj' hsplit rfl
        exact hends between c front rfl

/-- **What does not hold at first, and after each element holds if it starts there, or has held and
does not end there, holds exactly if it has started and not ended since.** -/
theorem since_iff {P : List α → Prop} (hnil : ¬ P [])
    (hconcat : ∀ series a, P (series ++ [a]) ↔ starts series a ∨ P series ∧ ¬ ends series a)
    (series : List α) : P series ↔ Since starts ends series := by
  induction series using List.reverseRecOn with
  | nil => exact iff_of_false hnil not_since_nil
  | append_singleton series a ih => rw [hconcat, since_concat, ih]

end DynamicLinker
