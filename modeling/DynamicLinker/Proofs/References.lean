/-
# How the references of a module are met

A relocation goes through the references of its module in order.  What comes of one reference
depends only on what its symbol resolves to (`Reference.Meets`).  Each reference that is met gives
one event, and the first that is not ends the relocation with its error.  This is `MeetsAll`, which
is said without the recursion and fixes events and result, by `meetsAll_iff`.
-/
import DynamicLinker.Relocation
import Mathlib.Data.List.Forall2
import Mathlib.Tactic.Lemma

namespace DynamicLinker

/-- What comes of a reference of a module, if symbols resolve in a given way: an event, or the error
that ends the relocation. -/
inductive Reference.Meets (module : Soname) (resolve : String → Except LinkError UInt64) :
    Reference → Except LinkError Event → Prop where
  /-- A symbol that must resolve does. -/
  | bound {symbol : String} {address : UInt64} (hresolve : resolve symbol = .ok address) :
    Meets module resolve (.required symbol) (.ok (.bind module symbol address))
  /-- A symbol that must resolve does not. -/
  | missing {symbol : String} {e : LinkError} (hresolve : resolve symbol = .error e) :
    Meets module resolve (.required symbol) (.error e)
  /-- A symbol that may resolve does. -/
  | probed {symbol : String} {address : UInt64} (hresolve : resolve symbol = .ok address) :
    Meets module resolve (.probe symbol) (.ok (.bind module symbol address))
  /-- A symbol that may resolve does not, which is logged with the reason. -/
  | passed {symbol : String} {e : LinkError} (hresolve : resolve symbol = .error e) :
    Meets module resolve (.probe symbol) (.ok (.unbound module symbol e))
  /-- A relocation cannot be applied. -/
  | broken {e : LinkError} : Meets module resolve (.broken e) (.error e)

/-- The references of a module are met in order, each by one event, either all of them or up to the
first that gives an error. -/
def MeetsAll (module : Soname) (resolve : String → Except LinkError UInt64)
    (references : List Reference) (events : List Event) (result : Except LinkError Unit) : Prop :=
  ∃ met rest, references = met ++ rest ∧
    List.Forall₂ (fun r event => r.Meets module resolve (.ok event)) met events ∧
    (rest = [] ∧ result = .ok () ∨
      ∃ r back e, rest = r :: back ∧ r.Meets module resolve (.error e) ∧ result = .error e)

variable {module : Soname} {resolve : String → Except LinkError UInt64} {r : Reference}
  {references : List Reference} {event : Event} {events : List Event}
  {result : Except LinkError Unit}

lemma MeetsAll.cons (hr : r.Meets module resolve (.ok event))
    (h : MeetsAll module resolve references events result) :
    MeetsAll module resolve (r :: references) (event :: events) result := by
  obtain ⟨met, rest, rfl, hmet, hrest⟩ := h
  exact ⟨r :: met, rest, rfl, .cons hr hmet, hrest⟩

lemma MeetsAll.stuck {e : LinkError} (hr : r.Meets module resolve (.error e)) :
    MeetsAll module resolve (r :: references) [] (.error e) :=
  ⟨[], r :: references, rfl, .nil, .inr ⟨r, references, e, rfl, hr, rfl⟩⟩

/-- To bind references is to meet them. -/
lemma meetsAll_bindReferences (module : Soname) (resolve : String → Except LinkError UInt64)
    (references : List Reference) :
    MeetsAll module resolve references (bindReferences module resolve references).1
      (bindReferences module resolve references).2 := by
  induction references with
  | nil => exact ⟨[], [], rfl, .nil, .inl ⟨rfl, rfl⟩⟩
  | cons r references ih =>
    cases r with
    | required symbol =>
      rw [bindReferences]
      cases hresolve : resolve symbol with
      | ok address => exact .cons (.bound hresolve) ih
      | error e => exact .stuck (.missing hresolve)
    | probe symbol =>
      rw [bindReferences]
      cases hresolve : resolve symbol with
      | ok address => exact .cons (.probed hresolve) ih
      | error e => exact .cons (.passed hresolve) ih
    | broken e => exact .stuck .broken

/-- **Binding references meets them, and there is no other way to meet them.** -/
theorem meetsAll_iff :
    MeetsAll module resolve references events result
      ↔ bindReferences module resolve references = (events, result) := by
  constructor
  · rintro ⟨met, rest, rfl, hmet, hrest⟩
    induction hmet with
    | nil =>
      rcases hrest with ⟨rfl, rfl⟩ | ⟨r, back, e, rfl, hr, rfl⟩
      · rfl
      · cases hr with
        | missing hresolve => simp [bindReferences, hresolve]
        | broken => rfl
    | cons hr _ ih =>
      cases hr with
      | bound hresolve => simp [bindReferences, hresolve, ih]
      | probed hresolve => simp [bindReferences, hresolve, ih]
      | passed hresolve => simp [bindReferences, hresolve, ih]
  · intro h
    have hmeets := meetsAll_bindReferences module resolve references
    rwa [h] at hmeets

/-- Every event is what comes of a reference. -/
lemma MeetsAll.exists_of_mem (h : MeetsAll module resolve references events result)
    (hevent : event ∈ events) : ∃ r ∈ references, r.Meets module resolve (.ok event) := by
  obtain ⟨met, rest, rfl, hmet, -⟩ := h
  obtain ⟨r, hr, hmeets⟩ : ∃ r ∈ met, r.Meets module resolve (.ok event) := by
    induction hmet with
    | nil => simp at hevent
    | cons hr _ ih =>
      rcases List.mem_cons.mp hevent with rfl | hevent
      · exact ⟨_, List.mem_cons_self, hr⟩
      · obtain ⟨r, hmem, hmeets⟩ := ih hevent
        exact ⟨r, List.mem_cons_of_mem _ hmem, hmeets⟩
  exact ⟨r, List.mem_append_left _ hr, hmeets⟩

end DynamicLinker
