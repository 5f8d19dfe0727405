/-
  OvsAgent.Lib.Service — a service that acts once on what it is asked.

  Somebody asks for something under a key; somebody else acts on it, and what
  came of it is the answer.  That is all there is to see of such a service:

      ask k a     nobody has asked under `k`
      act k a b   `a` was asked for under `k`, and nobody has acted on it
      answer k b  `b` came of it, and there was no answer yet

  Main results:
    * `Steps.past` — what was seen of a key is what the state says of it;
    * `Steps.in_order` — so it is the beginning of: ask, act, answer.
-/
import Mathlib.Data.List.Basic
import Mathlib.Logic.Function.Basic
import OvsAgent.Lib.Simulation

namespace Service

open Machine (Steps)

/-! ## §1. The service. -/

/-- Something that is seen of the service. -/
inductive Event (κ α β : Type*) where
  | ask (k : κ) (a : α)
  | act (k : κ) (a : α) (b : β)
  | answer (k : κ) (b : β)

/-- Under which key. -/
def Event.key {κ α β : Type*} : Event κ α β → κ
  | ask k _ => k
  | act k _ _ => k
  | answer k _ => k

/-- What was asked for, what came of it, and what was answered, by key. -/
@[ext] structure State (κ α β : Type*) where
  asked : κ → Option α
  acted : κ → Option β
  answered : κ → Option β

variable {κ α β : Type*}

/-- Nobody has asked for anything. -/
def State.start : State κ α β := ⟨fun _ => none, fun _ => none, fun _ => none⟩

/-- Nothing came of what nobody asked for, and only what came of it was answered. -/
structure State.WellFormed (s : State κ α β) : Prop where
  acted : ∀ k, s.asked k = none → s.acted k = none
  answered : ∀ k b, s.answered k = some b → s.acted k = some b

theorem wellFormed_start : (State.start : State κ α β).WellFormed :=
  ⟨fun _ _ => rfl, fun _ _ h => (by cases h)⟩

/-- What the state says was seen of a key. -/
def State.past (s : State κ α β) (k : κ) : List (Event κ α β) :=
  (s.asked k).toList.map (.ask k) ++
    ((s.asked k).bind fun a => (s.acted k).map fun b => .act k a b).toList ++
      (s.answered k).toList.map (.answer k)

section Steps

variable [DecidableEq κ]

/-- One event. -/
inductive Step : State κ α β → Event κ α β → State κ α β → Prop where
  | ask {s : State κ α β} {k : κ} {a : α} (hnew : s.asked k = none) :
      Step s (.ask k a) { s with asked := Function.update s.asked k (some a) }
  | act {s : State κ α β} {k : κ} {a : α} {b : β} (hasked : s.asked k = some a)
      (hnew : s.acted k = none) :
      Step s (.act k a b) { s with acted := Function.update s.acted k (some b) }
  | answer {s : State κ α β} {k : κ} {b : β} (hacted : s.acted k = some b) (hnew : s.answered k = none) :
      Step s (.answer k b) { s with answered := Function.update s.answered k (some b) }

theorem Step.wellFormed {s s' : State κ α β} {e : Event κ α β} (h : Step s e s') (hs : s.WellFormed) :
    s'.WellFormed := by
  cases h with
  | @ask k a hnew =>
      refine ⟨fun k' hk' => hs.acted k' ?_, hs.answered⟩
      have hk' : Function.update s.asked k (some a) k' = none := hk'
      by_cases heq : k' = k
      · rw [heq, Function.update_self] at hk'
        cases hk'
      · rwa [Function.update_of_ne heq] at hk'
  | @act k a b hasked hnew =>
      refine ⟨fun k' hk' => ?_, fun k' b' hb' => ?_⟩
      · show Function.update s.acted k (some b) k' = none
        have hne : k' ≠ k := by
          intro heq
          rw [heq, hasked] at hk'
          cases hk'
        rw [Function.update_of_ne hne]
        exact hs.acted k' hk'
      · show Function.update s.acted k (some b) k' = some b'
        have hb : s.acted k' = some b' := hs.answered k' b' hb'
        have hne : k' ≠ k := by
          intro heq
          rw [heq, hnew] at hb
          cases hb
        rw [Function.update_of_ne hne]
        exact hb
  | @answer k b hacted hnew =>
      refine ⟨hs.acted, fun k' b' hb' => ?_⟩
      have hb' : Function.update s.answered k (some b) k' = some b' := hb'
      by_cases heq : k' = k
      · rw [heq, Function.update_self] at hb'
        rw [heq, hacted]
        exact hb'
      · rw [Function.update_of_ne heq] at hb'
        exact hs.answered k' b' hb'

/-! ## §2. What was seen of a key. -/

/-- Other keys are not touched by an event. -/
theorem Step.past_other {s s' : State κ α β} {e : Event κ α β} (h : Step s e s') {k : κ}
    (hk : e.key ≠ k) :
    s'.past k = s.past k := by
  have hk : k ≠ e.key := Ne.symm hk
  cases h with
  | @ask k' a hnew =>
      have hne : k ≠ k' := hk
      unfold State.past
      simp only [Function.update_of_ne hne]
  | @act k' a b hasked hnew =>
      have hne : k ≠ k' := hk
      unfold State.past
      simp only [Function.update_of_ne hne]
  | @answer k' b hacted hnew =>
      have hne : k ≠ k' := hk
      unfold State.past
      simp only [Function.update_of_ne hne]

/-- The event comes after what was seen before. -/
theorem Step.past_self {s s' : State κ α β} {e : Event κ α β} (h : Step s e s') (hs : s.WellFormed) :
    s'.past e.key = s.past e.key ++ [e] := by
  have hanswered : ∀ k, s.acted k = none → s.answered k = none := by
    intro k hk
    cases hans : s.answered k with
    | none => rfl
    | some b => rw [hs.answered k b hans] at hk; cases hk
  cases h with
  | @ask k a hnew =>
      have hacted := hs.acted k hnew
      show State.past _ k = s.past k ++ _
      unfold State.past
      simp only [Function.update_self, hnew, hacted, hanswered k hacted]
      rfl
  | @act k a b hasked hnew =>
      show State.past _ k = s.past k ++ _
      unfold State.past
      simp only [Function.update_self, hasked, hnew, hanswered k hnew]
      rfl
  | @answer k b hacted hnew =>
      show State.past _ k = s.past k ++ _
      unfold State.past
      simp only [Function.update_self, hnew, Option.toList_none, List.map_nil, List.append_nil]
      rfl

/-- **What was seen of a key** is what the state says of it. -/
theorem Steps.past {s : State κ α β} {es : List (Event κ α β)} (h : Steps Step State.start es s) :
    s.WellFormed ∧ ∀ k, es.filter (fun e => e.key = k) = s.past k := by
  refine Steps.invariant (I := fun es s => State.WellFormed s ∧ ∀ k,
    es.filter (fun e => e.key = k) = s.past k)
    ?_ h [] ⟨wellFormed_start, fun _ => rfl⟩
  intro es s e s' hI hstep
  obtain ⟨hs, hpast⟩ := hI
  refine ⟨hstep.wellFormed hs, fun k => ?_⟩
  rw [List.filter_append, hpast k]
  by_cases hk : e.key = k
  · subst hk
    have honly : [e].filter (fun e' => e'.key = e.key) = [e] :=
      List.filter_cons_of_pos (by rw [decide_eq_true_eq])
    rw [hstep.past_self hs, honly]
  · rw [hstep.past_other hk, List.filter_cons_of_neg (by rw [decide_eq_true_eq]; exact hk), List.filter_nil,
      List.append_nil]

/-- **The order of things**: of every key is seen a beginning of ask, act,
answer, about one thing and with one outcome. -/
theorem Steps.in_order [Inhabited α] [Inhabited β] {s : State κ α β} {es : List (Event κ α β)}
    (h : Steps Step State.start es s) (k : κ) :
    ∃ a b, es.filter (fun e => e.key = k) <+: [.ask k a, .act k a b, .answer k b] := by
  obtain ⟨hs, hpast⟩ := Steps.past h
  rw [hpast k]
  unfold State.past
  cases hasked : s.asked k with
  | none =>
      have hacted := hs.acted k hasked
      cases hans : s.answered k with
      | none => exact ⟨default, default, List.nil_prefix⟩
      | some b => rw [hs.answered k b hans] at hacted; cases hacted
  | some a =>
      cases hacted : s.acted k with
      | none =>
          cases hans : s.answered k with
          | none => exact ⟨a, default, _, rfl⟩
          | some b => rw [hs.answered k b hans] at hacted; cases hacted
      | some b =>
          refine ⟨a, b, ?_⟩
          cases hans : s.answered k with
          | none => exact ⟨_, rfl⟩
          | some b' =>
              have hb := hs.answered k b' hans
              rw [hacted] at hb
              cases hb
              exact ⟨[], rfl⟩

end Steps

end Service
