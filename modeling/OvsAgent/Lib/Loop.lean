/-
  OvsAgent.Lib.Loop — loops of which nobody has said that they end.

  The body of a loop either goes round again with a new state or leaves with a
  result.  Running it needs no fuel here: `Rounds` and `Leaves` are relations,
  and that a loop is left is a theorem about it and no part of its definition.

  Main results:
    * `Rounds.invariant`, `Leaves.rule` — what the body keeps holds after every
      round, and what it says on leaving holds of the result;
    * `Rounds.add_le` — what every round raises counts the rounds;
    * `exists_leaves` — a loop is left if every round lowers a measure.
-/
import Mathlib.Data.List.Basic

namespace Loop

/-- What a round comes to. -/
inductive Next (σ ρ : Type*) where
  | again (s : σ)
  | done (r : ρ)

variable {σ ρ : Type*} (body : σ → Next σ ρ)

/-- `n` rounds lead from the first state to the second. -/
inductive Rounds : σ → Nat → σ → Prop where
  | start (s : σ) : Rounds s 0 s
  | next {s s₁ s' : σ} {n : Nat} (hb : body s = .again s₁) (h : Rounds s₁ n s') : Rounds s (n + 1) s'

/-- The loop is left with `r` after `n` rounds that went on. -/
def Leaves (s : σ) (n : Nat) (r : ρ) : Prop := ∃ s', Rounds body s n s' ∧ body s' = .done r

variable {body} {I : σ → Prop} {s s' : σ} {n : Nat} {r : ρ}

/-- **The invariant rule.** -/
theorem Rounds.invariant (hkeep : ∀ s s', I s → body s = .again s' → I s') (h : Rounds body s n s') :
    I s → I s' := by
  induction h with
  | start s => exact id
  | next hb _ ih => exact fun hs => ih (hkeep _ _ hs hb)

/-- A count that every round raises bounds the rounds. -/
theorem Rounds.add_le (f : σ → Nat) (hstep : ∀ s s', body s = .again s' → f s < f s')
    (h : Rounds body s n s') : f s + n ≤ f s' := by
  induction h with
  | start s => exact Nat.le_refl _
  | next hb _ ih =>
      have hlt := hstep _ _ hb
      omega

/-- What a round does to a state that has the invariant: it keeps it, and
leaves with what `Q` asks for. -/
def Next.Keeps (I : σ → Prop) (Q : ρ → Prop) : Next σ ρ → Prop
  | .again s => I s
  | .done r => Q r

/-- **The rule for what comes out of a loop.** -/
theorem Leaves.rule {Q : ρ → Prop} (hkeep : ∀ s, I s → (body s).Keeps I Q) (h : Leaves body s n r)
    (hs : I s) : Q r := by
  obtain ⟨s', hrounds, hdone⟩ := h
  have hs' : I s' := by
    refine hrounds.invariant (fun s₁ s₂ h₁ hb => ?_) hs
    have hnext := hkeep s₁ h₁
    rwa [hb] at hnext
  have hnext := hkeep s' hs'
  rwa [hdone] at hnext

/-- **The variant rule**: rounds that lower a measure come to an end. -/
theorem exists_leaves (μ : σ → Nat)
    (hkeep : ∀ s s', I s → body s = .again s' → I s' ∧ μ s' < μ s) :
    ∀ s, I s → ∃ n r, Leaves body s n r := by
  intro s
  -- on the measure: a round that goes on leaves the loop a smaller one to run from
  induction hμ : μ s using Nat.strongRecOn generalizing s with
  | ind m ih =>
      intro hs
      cases hb : body s with
      | done r => exact ⟨0, r, s, .start s, hb⟩
      | again s₁ =>
          obtain ⟨hs₁, hlt⟩ := hkeep s s₁ hs hb
          obtain ⟨n, r, s', hrounds, hdone⟩ := ih (μ s₁) (hμ ▸ hlt) s₁ rfl hs₁
          exact ⟨n + 1, r, s', .next hb hrounds, hdone⟩

end Loop
