/-
  OvsAgent.Lib.KeyedLog — a log of events about many things, read one thing at
  a time.

  `key` tells which thing an event is about (`none`: not one of those that
  count).  `history k log` is the part of the log about `k`, in order.  An
  operation appends a block of events about ONE thing, so it extends one
  history and leaves the others alone; that is all an invariant over a growing
  log needs.
-/
import Mathlib.Data.List.Basic

namespace KeyedLog

variable {α κ : Type*} [DecidableEq κ] (key : α → Option κ)

/-- The events about `k`, oldest first. -/
def history (k : κ) (log : List α) : List α := log.filter fun x => decide (key x = some k)

variable {key} {k : κ} {log b : List α} {x : α}

theorem history_append : history key k (log ++ b) = history key k log ++ history key k b :=
  List.filter_append ..

theorem mem_history : x ∈ history key k log ↔ x ∈ log ∧ key x = some k := by
  unfold history
  rw [List.mem_filter, decide_eq_true_iff]

/-- A block about `k` is appended to the history of `k` as it is. -/
theorem history_append_own (h : ∀ x ∈ b, key x = some k) :
    history key k (log ++ b) = history key k log ++ b := by
  have hb : history key k b = b := by
    unfold history
    exact List.filter_eq_self.2 fun x hx => decide_eq_true (h x hx)
  rw [history_append, hb]

/-- A block about other things leaves the history of `k` alone. -/
theorem history_append_other (h : ∀ x ∈ b, key x ≠ some k) :
    history key k (log ++ b) = history key k log := by
  have hb : history key k b = [] := by
    unfold history
    exact List.filter_eq_nil_iff.2 fun x hx => by
      rw [decide_eq_true_iff]
      exact h x hx
  rw [history_append, hb, List.append_nil]

/-- Where an event stands in the log is where it stands in its history. -/
theorem history_split {pre post : List α} (h : log = pre ++ x :: post) (hx : key x = some k) :
    history key k log = history key k pre ++ x :: history key k post := by
  have hcons : history key k (x :: post) = x :: history key k post := by
    unfold history
    exact List.filter_cons_of_pos (decide_eq_true hx)
  rw [h, history_append, hcons]

/-- Events that can only be about `k` are counted in the history of `k`. -/
theorem countP_history {p : α → Bool} (h : ∀ x ∈ log, p x = true → key x = some k) :
    (history key k log).countP p = log.countP p := by
  unfold history
  rw [List.countP_filter]
  refine List.countP_congr fun x hx => ?_
  constructor
  · intro hp
    exact (Bool.and_eq_true_iff.1 hp).1
  · intro hp
    exact Bool.and_eq_true_iff.2 ⟨hp, decide_eq_true (h x hx hp)⟩

end KeyedLog
