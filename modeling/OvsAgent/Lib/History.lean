/-
  OvsAgent.Lib.History — a machine with a record of its run beside it.

  The record is extended by every step and looked at by none, so the runs of
  the machine with a record are those of the machine:

      (s, h) is reached with a record   ⇒   s is reached
      s is reached                      ⇒   (s, h) is, for some record h

  Main results: `Reach.forget`, `Reach.recorded`, `run_recorded` and
  `Reach.invariant_recorded`.
-/
import OvsAgent.Lib.Machine

namespace Machine

variable {σ ι η : Type*}

/-- `M` with a record that starts as `h₀` and that a step from `s` by `i` to
`s'` extends by `note s i s'`. -/
def recording (M : Machine σ ι) (h₀ : η) (note : σ → ι → σ → η → η) :
    Machine (σ × η) ι where
  init t := M.init t.1 ∧ t.2 = h₀
  step t i := (M.step t.1 i).map fun s' => (s', note t.1 i s' t.2)

section Recording

variable {M : Machine σ ι} {h₀ : η} {note : σ → ι → σ → η → η} {C : σ → ι → Prop}

/-- A step with a record is a step, and the record says so. -/
theorem recording_step {t t' : σ × η} {i : ι} :
    (M.recording h₀ note).step t i = some t' ↔
      M.step t.1 i = some t'.1 ∧ t'.2 = note t.1 i t'.1 t.2 := by
  constructor
  · intro h
    obtain ⟨s', hs, rfl⟩ := Option.map_eq_some_iff.1 h
    exact ⟨hs, rfl⟩
  · rintro ⟨hs, hnote⟩
    exact Option.map_eq_some_iff.2 ⟨t'.1, hs, Prod.ext rfl hnote.symm⟩

/-- **The record changes nothing**: what is reached with it is reached without. -/
theorem Reach.forget {t : σ × η} (h : (M.recording h₀ note).Reach (fun t i => C t.1 i) t) :
    M.Reach C t.1 := by
  induction h with
  | init h => exact .init h.1
  | step _ hc hstep ih => exact .step ih hc (recording_step.1 hstep).1

/-- **Every run has a record.** -/
theorem Reach.recorded {s : σ} (h : M.Reach C s) :
    ∃ r, (M.recording h₀ note).Reach (fun t i => C t.1 i) (s, r) := by
  induction h with
  | init h => exact ⟨h₀, .init ⟨h, rfl⟩⟩
  | @step s s' i _ hc hstep ih =>
      obtain ⟨r, hr⟩ := ih
      exact ⟨note s i s' r, .step hr hc (recording_step.2 ⟨hstep, rfl⟩)⟩

/-- The same of a run: its labels are those of a run with a record. -/
theorem run_recorded (note : σ → ι → σ → η → η) {is : List ι} :
    ∀ {s s' : σ}, M.run s is = some s' → ∀ r, ∃ r',
      (M.recording h₀ note).run (s, r) is = some (s', r') := by
  induction is with
  | nil =>
      intro s s' h r
      cases h
      exact ⟨r, rfl⟩
  | cons i is ih =>
      intro s s' h r
      rw [run_cons] at h
      obtain ⟨t, hs, hrun⟩ := Option.bind_eq_some_iff.1 h
      obtain ⟨r', hr⟩ := ih hrun (note s i t r)
      refine ⟨r', ?_⟩
      have hstep : (M.recording h₀ note).step (s, r) i = some (t, note s i t r) :=
        recording_step.2 ⟨hs, rfl⟩
      rw [run_cons, hstep]
      exact hr

/-- **The invariant rule with a record**: a step may use that its state is reached. -/
theorem Reach.invariant_recorded {I : σ → η → Prop} (h0 : ∀ s, M.init s → I s h₀)
    (hstep : ∀ s i s' r, M.Reach C s → I s r → C s i → M.step s i = some s' → I s' (note s i s' r))
    {t : σ × η} (h : (M.recording h₀ note).Reach (fun t i => C t.1 i) t) : I t.1 t.2 := by
  induction h with
  | @init t h =>
      rw [h.2]
      exact h0 t.1 h.1
  | @step t t' i hr hc hs ih =>
      obtain ⟨hm, hnote⟩ := recording_step.1 hs
      rw [hnote]
      exact hstep _ _ _ _ hr.forget ih hc hm

end Recording

end Machine
