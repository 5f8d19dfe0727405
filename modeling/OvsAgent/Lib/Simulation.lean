/-
  OvsAgent.Lib.Simulation — what can be seen of a run is a run of something simpler.

  The simpler thing is a relation between states, labelled with what is seen of
  a step.  A step of the machine shows a list of labels, none at all when it is
  a step inside; a relation between the two kinds of states simulates when each
  list shown leads on to a related state:

      s --i--> s'            the machine
      |        |
      t --es-> t'            es is what the step shows

  Main results:
    * `Steps.invariant` — the induction over labelled runs;
    * `simulates` — the labels that a run shows, one after the other, are a run.
-/
import OvsAgent.Lib.Machine

namespace Machine

/-! ## §1. Runs of a relation. -/

/-- The labels lead from one state to the other. -/
inductive Steps {τ ε : Type*} (step : τ → ε → τ → Prop) : τ → List ε → τ → Prop where
  | nil (t : τ) : Steps step t [] t
  | cons {t u v : τ} {e : ε} {es : List ε} (h : step t e u) (hs : Steps step u es v) :
      Steps step t (e :: es) v

section Steps

variable {τ ε : Type*} {step : τ → ε → τ → Prop} {t u v : τ} {es fs : List ε} {e : ε}

theorem Steps.single (h : step t e u) : Steps step t [e] u := .cons h (.nil u)

theorem Steps.append (h : Steps step t es u) (h' : Steps step u fs v) : Steps step t (es ++ fs) v := by
  induction h with
  | nil t => exact h'
  | cons hstep _ ih => exact .cons hstep (ih h')

/-- What is true of the start with nothing seen, and goes on being true, is true at the end. -/
theorem Steps.invariant {I : List ε → τ → Prop}
    (hstep : ∀ es t e u, I es t → step t e u → I (es ++ [e]) u) (h : Steps step t es u) :
    ∀ past, I past t → I (past ++ es) u := by
  induction h with
  | nil t =>
      intro past hp
      rw [List.append_nil]
      exact hp
  | cons hs _ ih =>
      intro past hp
      have hrest := ih (past ++ [_]) (hstep past _ _ _ hp hs)
      rw [List.append_assoc] at hrest
      exact hrest

end Steps

/-! ## §2. Simulation. -/

variable {σ ι τ ε : Type*} (M : Machine σ ι) (shows : σ → ι → σ → List ε)

/-- What is seen of the run, as far as it goes. -/
def trace : σ → List ι → List ε
  | _, [] => []
  | s, i :: is => ((M.step s i).map fun s' => shows s i s' ++ trace s' is).getD []

theorem trace_cons {s s' : σ} {i : ι} {is : List ι} (h : M.step s i = some s') :
    M.trace shows s (i :: is) = shows s i s' ++ M.trace shows s' is := by
  rw [trace, h]
  rfl

variable {M shows}

/-- **The rule of simulation**: it is enough to look at one step from a
reachable state. -/
theorem simulates {step : τ → ε → τ → Prop} {R : σ → τ → Prop}
    (hstep : ∀ s i s' t, M.Reachable s → R s t → M.step s i = some s' →
      ∃ t', Steps step t (shows s i s') t' ∧ R s' t')
    {is : List ι} : ∀ {s s' : σ} {t : τ}, M.Reachable s → R s t → M.run s is = some s' →
      ∃ t', Steps step t (M.trace shows s is) t' ∧ R s' t' := by
  induction is with
  | nil =>
      intro s s' t _ hR hrun
      cases hrun
      exact ⟨t, .nil t, hR⟩
  | cons i is ih =>
      intro s s' t hr hR hrun
      rw [run_cons] at hrun
      obtain ⟨s₁, hs₁, hrest⟩ := Option.bind_eq_some_iff.1 hrun
      obtain ⟨t₁, ht₁, hR₁⟩ := hstep s i s₁ t hr hR hs₁
      obtain ⟨t', ht', hR'⟩ := ih (.step hr trivial hs₁) hR₁ hrest
      refine ⟨t', ?_, hR'⟩
      rw [trace_cons M shows hs₁]
      exact ht₁.append ht'

end Machine
