/-
  OvsAgent.Lib.Progress — what a machine comes to whatever it does.

  `Inevitable P Q s`: as long as only steps that meet `P` are taken, every
  order of them comes to a state with `Q`, and until then there is such a step
  to take.  `P` leaves out what comes from outside.

  Main results:
    * `Inevitable.of_measure` — a measure that every step lowers, and a step
      wherever `Q` does not hold yet;
    * `Inevitable.schedule` — no infinite sequence of steps avoids `Q`.
-/
import Mathlib.Algebra.Ring.Nat
import OvsAgent.Lib.Machine

namespace Machine

variable {σ ι : Type*} (M : Machine σ ι)

/-! ## §1. Inevitable states. -/

/-- All runs of `P`-steps from here meet `Q`. -/
inductive Inevitable (P : σ → ι → Prop) (Q : σ → Prop) : σ → Prop where
  | now {s : σ} (h : Q s) : Inevitable P Q s
  | later {s : σ} (hsome : ∃ i s', P s i ∧ M.step s i = some s')
      (hall : ∀ i s', P s i → M.step s i = some s' → Inevitable P Q s') : Inevitable P Q s

variable {M} {P : σ → ι → Prop} {Q : σ → Prop}

/-- **The rule of the measure**: while the invariant holds and `Q` does not,
there is a step, and each step keeps the invariant and lowers the measure. -/
theorem Inevitable.of_measure {α : Type*} {r : α → α → Prop} (hwf : WellFounded r)
    (measure : σ → α) {I : σ → Prop}
    (hstep : ∀ s i s', I s → ¬ Q s → P s i → M.step s i = some s' → I s' ∧
      r (measure s') (measure s))
    (hsome : ∀ s, I s → ¬ Q s → ∃ i s', P s i ∧ M.step s i = some s') {s : σ} (hs : I s) :
    M.Inevitable P Q s := by
  induction hm : measure s using hwf.induction generalizing s with
  | _ m ih =>
      by_cases hq : Q s
      · exact .now hq
      · refine .later (hsome s hs hq) fun i s' hp h => ?_
        obtain ⟨hs', hless⟩ := hstep s i s' hs hq hp h
        exact ih _ (hm ▸ hless) hs' rfl

/-- **No schedule avoids it**: an infinite sequence of steps comes to `Q`. -/
theorem Inevitable.schedule {s : σ} (h : M.Inevitable P Q s) :
    ∀ (state : Nat → σ) (label : Nat → ι), state 0 = s →
      (∀ n, P (state n) (label n) ∧ M.step (state n) (label n) = some (state (n + 1))) →
      ∃ n, Q (state n) := by
  induction h with
  | now h =>
      intro state label h0 _
      exact ⟨0, h0 ▸ h⟩
  | later _ _ ih =>
      intro state label h0 hstep
      obtain ⟨hp, hnext⟩ := hstep 0
      rw [h0] at hp hnext
      obtain ⟨n, hn⟩ := ih (label 0) _ hp hnext (fun n => state (n + 1)) (fun n => label (n + 1)) rfl
        fun n => hstep (n + 1)
      exact ⟨n + 1, hn⟩

/-! ## §2. Measures. -/

/-- Four numbers in lexicographic order. -/
abbrev Rank := Nat × Nat × Nat × Nat

/-- The lexicographic order. -/
def Rank.Less : Rank → Rank → Prop :=
  Prod.Lex (· < ·) (Prod.Lex (· < ·) (Prod.Lex (· < ·) (· < ·)))

/-- It has no infinite descent. -/
theorem Rank.less_wf : WellFounded Rank.Less :=
  (Prod.lex Nat.lt_wfRel (Prod.lex Nat.lt_wfRel (Prod.lex Nat.lt_wfRel Nat.lt_wfRel))).wf

section Rank

variable {a a' b b' c c' d d' : Nat}

/-- The first measure falls, whatever becomes of the others. -/
theorem Rank.first (h : a' < a) : Rank.Less (a', b', c', d') (a, b, c, d) := .left _ _ h

/-- The second falls and the first does not grow. -/
theorem Rank.second (ha : a' ≤ a) (h : b' < b) : Rank.Less (a', b', c', d') (a, b, c, d) := by
  rcases Nat.lt_or_eq_of_le ha with hlt | rfl
  · exact .left _ _ hlt
  · exact .right _ (.left _ _ h)

/-- The third falls and those before it do not grow. -/
theorem Rank.third (ha : a' ≤ a) (hb : b' ≤ b) (h : c' < c) :
    Rank.Less (a', b', c', d') (a, b, c, d) := by
  rcases Nat.lt_or_eq_of_le hb with hlt | rfl
  · exact Rank.second ha hlt
  · rcases Nat.lt_or_eq_of_le ha with hlt | rfl
    · exact .left _ _ hlt
    · exact .right _ (.right _ (.left _ _ h))

/-- The last falls and the others do not grow. -/
theorem Rank.fourth (ha : a' ≤ a) (hb : b' ≤ b) (hc : c' ≤ c) (h : d' < d) :
    Rank.Less (a', b', c', d') (a, b, c, d) := by
  rcases Nat.lt_or_eq_of_le hc with hlt | rfl
  · exact Rank.third ha hb hlt
  · rcases Nat.lt_or_eq_of_le hb with hlt | rfl
    · exact Rank.second ha hlt
    · rcases Nat.lt_or_eq_of_le ha with hlt | rfl
      · exact .left _ _ hlt
      · exact .right _ (.right _ (.right _ h))

end Rank

/-- The sum over a list of which one member has changed. -/
theorem sum_map_set {α : Type*} (f : α → Nat) {xs : List α} {n : Nat} {x : α} (y : α)
    (hx : xs[n]? = some x) :
    ((xs.set n y).map f).sum + f x = (xs.map f).sum + f y := by
  induction xs generalizing n with
  | nil => rw [List.getElem?_nil] at hx; cases hx
  | cons z xs ih =>
      cases n with
      | zero =>
          cases hx
          simp only [List.set_cons_zero, List.map_cons, List.sum_cons]
          omega
      | succ n =>
          have hrest := ih (n := n) hx
          simp only [List.set_cons_succ, List.map_cons, List.sum_cons]
          omega

end Machine
