/-
  OvsAgent.Lib.IdLedger — ids from a counter that may be set back.

  A counter issues `issued 1, issued 2, …`; ids stay in use for a while, in a
  register or with the clients that are about to enter them.  Setting the
  counter back starts a new count, and the ids in use then are `kept`: they may
  be issued again.  All others are in use once at most, however the register
  and the clients pass them on.

  Main results:
    * `IdLedger.issue` — a further id is issued;
    * `IdLedger.not_listed` — an id a client holds is not in the register,
      unless it was kept.
-/
import Mathlib.Data.List.Basic

/-- The ids in use: `since` ids have been issued since the counter was set. -/
structure IdLedger {α : Type*} [DecidableEq α] [BEq α] [LawfulBEq α] (issued : Nat → α) (since : Nat)
    (kept inUse : List α) : Prop where
  known : ∀ x ∈ inUse, x ∈ kept ∨ ∃ j, 1 ≤ j ∧ j ≤ since ∧ x = issued j
  once : ∀ x, x ∉ kept → inUse.count x ≤ 1

namespace IdLedger

variable {α : Type*} [DecidableEq α] [BEq α] [LawfulBEq α]
variable {issued : Nat → α} {since : Nat} {kept inUse inUse' : List α}

/-- The counter is set. -/
theorem restart (issued : Nat → α) (inUse : List α) : IdLedger issued 0 inUse inUse :=
  ⟨fun _ hx => Or.inl hx,
    fun _ hx => Nat.le_trans (Nat.le_of_eq (List.count_eq_zero.2 hx)) (Nat.zero_le 1)⟩

/-- Ids are passed on, or go out of use. -/
theorem keep (h : IdLedger issued since kept inUse) (hle : ∀ x, inUse'.count x ≤ inUse.count x) :
    IdLedger issued since kept inUse' where
  known x hx := h.known x (List.count_pos_iff.1 (Nat.lt_of_lt_of_le (List.count_pos_iff.2 hx) (hle x)))
  once x hx := Nat.le_trans (hle x) (h.once x hx)

/-- **One more id is issued**, and comes into use once at most. -/
theorem issue (h : IdLedger issued since kept inUse)
    (hnew : ∀ j, 1 ≤ j → j ≤ since → issued j ≠ issued (since + 1))
    (hle : ∀ x, inUse'.count x ≤ inUse.count x + if x = issued (since + 1) then 1 else 0) :
    IdLedger issued (since + 1) kept inUse' where
  known x hx := by
    by_cases heq : x = issued (since + 1)
    · exact Or.inr ⟨since + 1, Nat.le_add_left _ _, Nat.le_refl _, heq⟩
    · have hlex := hle x
      rw [if_neg heq] at hlex
      have hold : x ∈ inUse := List.count_pos_iff.1 (Nat.lt_of_lt_of_le (List.count_pos_iff.2 hx) hlex)
      exact (h.known x hold).imp_right fun ⟨j, h1, hj, hxj⟩ => ⟨j, h1, Nat.le_succ_of_le hj, hxj⟩
  once x hx := by
    have hlex := hle x
    by_cases heq : x = issued (since + 1)
    · -- it was not in use before: none of the ids issued so far is the new one
      have hzero : inUse.count x = 0 := by
        rw [List.count_eq_zero]
        intro hold
        rcases h.known x hold with hkept | ⟨j, h1, hj, hxj⟩
        · exact hx hkept
        · exact hnew j h1 hj (hxj.symm.trans heq)
      rw [if_pos heq, hzero] at hlex
      exact hlex
    · rw [if_neg heq] at hlex
      exact Nat.le_trans hlex (h.once x hx)

/-- **An id about to be entered is new to the register**, or it was kept. -/
theorem not_listed {listed pending : List α} (h : IdLedger issued since kept (listed ++ pending)) {x : α}
    (hx : x ∈ pending) (hkept : x ∉ kept) : x ∉ listed := by
  intro hlisted
  have honce := h.once x hkept
  rw [List.count_append] at honce
  have hl := List.count_pos_iff.2 hlisted
  have hp := List.count_pos_iff.2 hx
  omega

end IdLedger

/-- Counting through a list of clients of which one goes on. -/
theorem List.count_flatMap_set {γ α : Type*} [DecidableEq α] [BEq α] [LawfulBEq α]
    (held : γ → List α) (x : α) {c : γ} (c' : γ) :
    ∀ {cs : List γ} {n : Nat}, cs[n]? = some c →
      ((cs.set n c').flatMap held).count x + (held c).count x = (cs.flatMap held).count x +
        (held c').count x := by
  intro cs
  induction cs with
  | nil => intro n h; cases h
  | cons d cs ih =>
      intro n h
      cases n with
      | zero =>
          cases h
          rw [List.set_cons_zero, List.flatMap_cons, List.flatMap_cons, List.count_append, List.count_append]
          omega
      | succ n =>
          have hrest := ih (n := n) h
          rw [List.set_cons_succ, List.flatMap_cons, List.flatMap_cons, List.count_append, List.count_append]
          omega
