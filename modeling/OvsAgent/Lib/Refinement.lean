/-
  OvsAgent.Lib.Refinement — an implementation beside its reference.

  Both are deterministic: an operation gives an answer and a next state.  `R`
  relates the states of the two.  Along a list of operations the
  implementation refines the reference when every answer is the same and the
  states stay related.

  Main result: `refines_iff_allMeet` — when one operation, from related
  states, agrees exactly under a condition on the reference's state, a whole
  run agrees exactly when every operation of it meets the condition.
-/
import Mathlib.Data.List.Basic

namespace Refinement

variable {σ τ ι ο : Type*} (impl : σ → ι → ο × σ) (spec : τ → ι →
    ο × τ) (R : σ → τ → Prop)

/-- One operation gives the same answer and leads to related states. -/
structure Agree (s : σ) (t : τ) (i : ι) : Prop where
  answer : (impl s i).1 = (spec t i).1
  related : R (impl s i).2 (spec t i).2

/-- Every operation of the list agrees, each from where the ones before it led. -/
def Refines : σ → τ → List ι → Prop
  | _, _, [] => True
  | s, t, i :: is => Agree impl spec R s t i ∧ Refines (impl s i).2 (spec t i).2 is

/-- Every operation meets `C` in the state the reference is in. -/
def AllMeet (C : τ → ι → Prop) : τ → List ι → Prop
  | _, [] => True
  | t, i :: is => C t i ∧ AllMeet C (spec t i).2 is

variable {impl spec R} {C : τ → ι → Prop}

/-- **From one operation to all runs.** -/
theorem refines_iff_allMeet (h : ∀ s t i, R s t → (Agree impl spec R s t i ↔ C t i)) (is : List ι) :
    ∀ {s : σ} {t : τ}, R s t → (Refines impl spec R s t is ↔ AllMeet spec C t is) := by
  induction is with
  | nil => intro s t _; exact Iff.rfl
  | cons i is ih =>
      intro s t hR
      have hi := h s t i hR
      unfold Refines AllMeet
      constructor
      · intro ⟨hagree, hrest⟩
        exact ⟨hi.1 hagree, (ih hagree.related).1 hrest⟩
      · intro ⟨hC, hrest⟩
        have hagree := hi.2 hC
        exact ⟨hagree, (ih hagree.related).2 hrest⟩

end Refinement
