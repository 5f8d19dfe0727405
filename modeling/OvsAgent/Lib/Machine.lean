/-
  OvsAgent.Lib.Machine — guarded machines and what holds along their runs.

  A `Machine` is a set of initial states and a partial, executable step
  function: the label of a step carries every choice the step makes, so a run
  is determined by its start and its list of labels.

  Main notions:
    * `Reach C` — the states reached by runs whose steps all meet `C`
      (a condition on the label and the state BEFORE the step);
    * `Reach.invariant` — the induction over runs, packaged once;
    * `AllSteps` — a law of every single step along a run, and
      `allSteps_iff` to carry a step-wise equivalence to whole runs;
    * `allSteps_invariant_iff` — the same for what breaks an invariant.
-/
import Mathlib.Data.List.Basic

/-- A guarded machine: `step s i = none` means label `i` is not enabled in `s`. -/
structure Machine (σ : Type*) (ι : Type*) where
  init : σ → Prop
  step : σ → ι → Option σ

namespace Machine

variable {σ ι : Type*} (M : Machine σ ι)

/-! ## §1. Runs and reachable states. -/

/-- Replay a list of labels. -/
def run (s : σ) : List ι → Option σ
  | [] => some s
  | i :: is => (M.step s i).bind fun s' => run s' is

theorem run_cons (s : σ) (i : ι) (is : List ι) :
    M.run s (i :: is) = (M.step s i).bind fun s' => M.run s' is := rfl

theorem run_append (is js : List ι) :
    ∀ s : σ, M.run s (is ++ js) = (M.run s is).bind fun s' => M.run s' js := by
  induction is with
  | nil => intro s; rfl
  | cons i is ih =>
      intro s
      rw [List.cons_append, run_cons, run_cons]
      cases M.step s i with
      | none => rfl
      | some s' => exact ih s'

/-- The states reached by runs all of whose steps meet `C`. -/
inductive Reach (C : σ → ι → Prop) : σ → Prop where
  | init {s : σ} (h : M.init s) : Reach C s
  | step {s s' : σ} {i : ι} (hr : Reach C s) (hc : C s i)
      (h : M.step s i = some s') : Reach C s'

/-- The states reached by any run at all. -/
abbrev Reachable : σ → Prop := M.Reach fun _ _ => True

variable {M} {C D : σ → ι → Prop}

/-- **The invariant rule**: what the initial states have and every step that
meets `C` keeps, every state reached under `C` has. -/
theorem Reach.invariant {I : σ → Prop} (h0 : ∀ s, M.init s → I s)
    (hstep : ∀ s i s', I s → C s i → M.step s i = some s' → I s')
    {s : σ} (hr : M.Reach C s) : I s := by
  induction hr with
  | init h => exact h0 _ h
  | step _ hc h ih => exact hstep _ _ _ ih hc h

/-- A weaker condition on the steps reaches at least as much. -/
theorem Reach.mono (hCD : ∀ s i, C s i → D s i) {s : σ} (hr : M.Reach C s) :
    M.Reach D s := by
  induction hr with
  | init h => exact .init h
  | step _ hc h ih => exact .step ih (hCD _ _ hc) h

theorem Reach.reachable {s : σ} (hr : M.Reach C s) : M.Reachable s :=
  hr.mono fun _ _ _ => trivial

/-! ## §2. A condition checked while replaying. -/

variable (M)

/-- Every step of the replay of `is` from `s` satisfies `P` (state before,
label, state after); the replay stops at the first label that is not enabled. -/
def AllSteps (P : σ → ι → σ → Prop) : σ → List ι → Prop
  | _, [] => True
  | s, i :: is =>
      match M.step s i with
      | none => True
      | some s' => P s i s' ∧ AllSteps P s' is

variable {M}

theorem allSteps_cons_some {P : σ → ι → σ → Prop} {s s' : σ} {i : ι} {is : List ι}
    (h : M.step s i = some s') :
    M.AllSteps P s (i :: is) ↔ P s i s' ∧ M.AllSteps P s' is := by
  simp only [AllSteps, h]

theorem allSteps_cons_none {P : σ → ι → σ → Prop} {s : σ} {i : ι} {is : List ι}
    (h : M.step s i = none) : M.AllSteps P s (i :: is) ↔ True := by
  simp only [AllSteps, h]

/-- **Step laws lift to runs**: two laws that agree on every step from a
reachable state agree along every run. -/
theorem allSteps_iff {P Q : σ → ι → σ → Prop}
    (h : ∀ s i s', M.Reachable s → M.step s i = some s' → (P s i s' ↔ Q s i s')) :
    ∀ (is : List ι) (s : σ), M.Reachable s → (M.AllSteps P s is ↔ M.AllSteps Q s is) := by
  intro is
  induction is with
  | nil => intro s _; exact Iff.rfl
  | cons i is ih =>
      intro s hr
      cases hs : M.step s i with
      | none => rw [allSteps_cons_none hs, allSteps_cons_none hs]
      | some s' =>
          have hr' : M.Reachable s' := .step hr trivial hs
          rw [allSteps_cons_some hs, allSteps_cons_some hs, h s i s' hr hs, ih s' hr']

/-- **What breaks an invariant**: if, while `J` holds, a step from a state that
has `I` leads to one that has it exactly when the step meets `C`, then all the
states of a run have `I` exactly when all its steps meet `C`. -/
theorem allSteps_invariant_iff {I J : σ → Prop} (hJ : ∀ s i s', J s → M.step s i = some s' → J s')
    (h : ∀ s i s', J s → I s → M.step s i = some s' → (I s' ↔ C s i)) :
    ∀ (is : List ι) (s : σ), J s → I s →
      (M.AllSteps (fun _ _ s' => I s') s is ↔ M.AllSteps (fun s i _ => C s i) s is) := by
  intro is
  induction is with
  | nil => intro s _ _; exact Iff.rfl
  | cons i is ih =>
      intro s hj hi
      cases hs : M.step s i with
      | none => rw [allSteps_cons_none hs, allSteps_cons_none hs]
      | some s' =>
          rw [allSteps_cons_some hs, allSteps_cons_some hs, h s i s' hj hi hs]
          constructor
          · intro ⟨hc, hrest⟩
            exact ⟨hc, (ih s' (hJ s i s' hj hs) ((h s i s' hj hi hs).2 hc)).1 hrest⟩
          · intro ⟨hc, hrest⟩
            exact ⟨hc, (ih s' (hJ s i s' hj hs) ((h s i s' hj hi hs).2 hc)).2 hrest⟩

/-- A step that breaks the law, at the end of a replay. -/
theorem not_allSteps_of_run {P : σ → ι → σ → Prop} {i : ι} {is : List ι} :
    ∀ {s t t' : σ}, M.run s is = some t → M.step t i = some t' → ¬ P t i t' →
      ¬ M.AllSteps P s (is ++ [i]) := by
  induction is with
  | nil =>
      intro s t t' hrun hstep hnot hall
      cases hrun
      rw [List.nil_append, allSteps_cons_some hstep] at hall
      exact hnot hall.1
  | cons j is ih =>
      intro s t t' hrun hstep hnot hall
      rw [run_cons] at hrun
      cases hs : M.step s j with
      | none => rw [hs] at hrun; cases hrun
      | some s₁ =>
          rw [hs] at hrun
          rw [List.cons_append, allSteps_cons_some hs] at hall
          exact ih hrun hstep hnot hall.2

/-- A completed replay whose steps meet `C` ends in a state reached under `C`. -/
theorem reach_of_run {is : List ι} :
    ∀ {s s' : σ}, M.Reach C s → M.AllSteps (fun s i _ => C s i) s is →
      M.run s is = some s' → M.Reach C s' := by
  induction is with
  | nil =>
      intro s s' hr _ h
      simp only [run, Option.some.injEq] at h
      exact h ▸ hr
  | cons i is ih =>
      intro s s' hr hall h
      cases hs : M.step s i with
      | none => simp [run, hs] at h
      | some t =>
          rw [allSteps_cons_some hs] at hall
          simp only [run, hs, Option.bind_some] at h
          exact ih (.step hr hall.1 hs) hall.2 h

/-- Replay a list of labels, stopping at a step that fails the test `p`. -/
def checkedRun (M : Machine σ ι) (p : σ → ι → Bool) (s : σ) : List ι → Option σ
  | [] => some s
  | i :: is => if p s i then (M.step s i).bind fun s' => checkedRun M p s' is else none

/-- A test that implies `C` reaches states reached under `C`. -/
theorem reach_of_checkedRun {p : σ → ι → Bool} (hp : ∀ s i, p s i = true → C s i)
    {is : List ι} :
    ∀ {s s' : σ}, M.Reach C s → M.checkedRun p s is = some s' → M.Reach C s' := by
  induction is with
  | nil =>
      intro s s' hr h
      simp only [checkedRun, Option.some.injEq] at h
      exact h ▸ hr
  | cons i is ih =>
      intro s s' hr h
      unfold checkedRun at h
      split at h
      · next hpi =>
          cases hs : M.step s i with
          | none => simp [hs] at h
          | some t =>
              simp only [hs, Option.bind_some] at h
              exact ih (.step hr (hp s i hpi) hs) h
      · cases h

/-- A checked replay is a run whose steps all meet `C`. -/
theorem run_of_checkedRun {p : σ → ι → Bool} (hp : ∀ s i, p s i = true → C s i) {is : List ι} :
    ∀ {s s' : σ}, M.checkedRun p s is = some s' → M.run s is = some s' ∧
      M.AllSteps (fun s i _ => C s i) s is := by
  induction is with
  | nil =>
      intro s s' h
      exact ⟨h, trivial⟩
  | cons i is ih =>
      intro s s' h
      unfold checkedRun at h
      split at h
      · next hpi =>
          cases hs : M.step s i with
          | none => simp [hs] at h
          | some t =>
              simp only [hs, Option.bind_some] at h
              obtain ⟨hrun, hall⟩ := ih h
              refine ⟨?_, (allSteps_cons_some hs).2 ⟨hp s i hpi, hall⟩⟩
              rw [run_cons, hs]
              exact hrun
      · cases h

/-- The same without a condition. -/
theorem reachable_of_run {is : List ι} :
    ∀ {s s' : σ}, M.Reachable s → M.run s is = some s' → M.Reachable s' := by
  induction is with
  | nil =>
      intro s s' hr h
      simp only [run, Option.some.injEq] at h
      exact h ▸ hr
  | cons i is ih =>
      intro s s' hr h
      cases hs : M.step s i with
      | none => simp [run, hs] at h
      | some t =>
          simp only [run, hs, Option.bind_some] at h
          exact ih (.step hr trivial hs) h

/-- A law of the labels alone. -/
theorem allSteps_labels {p : ι → Prop} (is : List ι) :
    ∀ s : σ, (∀ i ∈ is, p i) → M.AllSteps (fun _ i _ => p i) s is := by
  induction is with
  | nil => intro s _; trivial
  | cons i is ih =>
      intro s h
      cases hs : M.step s i with
      | none => exact (allSteps_cons_none hs).2 trivial
      | some t =>
          exact (allSteps_cons_some hs).2
            ⟨h i (List.mem_cons_self ..), ih t fun j hj => h j (List.mem_cons_of_mem _ hj)⟩

/-- What the steps of a replay keep holds at its end. -/
theorem AllSteps.invariant {I : σ → Prop}
    (hstep : ∀ s i s', I s → C s i → M.step s i = some s' → I s') {is : List ι} :
    ∀ {s s' : σ}, M.AllSteps (fun s i _ => C s i) s is → M.run s is = some s' → I s → I s' := by
  induction is with
  | nil =>
      intro s s' _ h hI
      cases h
      exact hI
  | cons i is ih =>
      intro s s' hall h hI
      cases hs : M.step s i with
      | none => simp [run, hs] at h
      | some t =>
          rw [allSteps_cons_some hs] at hall
          simp only [run, hs, Option.bind_some] at h
          exact ih hall.2 h (hstep s i t hI hall.1 hs)

end Machine
