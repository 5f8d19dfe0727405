/-
  OvsAgent.Lib.Resources — what a program acquires, uses and gives back.

  A run leaves a log of what it did to resources.  The log is lawful when it
  can be replayed:

      acquire r   r is not held          use r, release r   r is held

  so nothing is acquired over itself, used when it is not there, or given back
  twice; and the replay says what is held at the end.  Where a program does use
  some things it does not hold, the log may still be lawful but for these uses.

  Main results:
    * `LawfulBut.acquire`, `.uses`, `.release` — one event more;
    * `LawfulBut.balance` — what is held is what was acquired and not given back;
    * `LawfulBut.between` — between giving back and the next use or release there
      is an acquisition.
-/
import Mathlib.Data.List.Count
import Mathlib.Logic.Function.Basic

namespace Resources

/-- What is done to a resource. -/
inductive Event (ρ : Type*) where
  | acquire (r : ρ)
  | use (r : ρ)
  | release (r : ρ)
  deriving Repr, DecidableEq

variable {ρ : Type*} [DecidableEq ρ]

/-- What is held after the event; `none` when the event is out of place. -/
def Event.apply (held : ρ → Bool) : Event ρ → Option (ρ → Bool)
  | .acquire r => if held r then none else some (Function.update held r true)
  | .use r => if held r then some held else none
  | .release r => if held r then some (Function.update held r false) else none

section Apply

variable {held held' : ρ → Bool} {r : ρ}

/-- An acquisition finds the resource free, -/
theorem apply_acquire : (Event.acquire r).apply held = some held' ↔
    held r = false ∧ Function.update held r true = held' := by
  show (if held r then none else some (Function.update held r true)) = some held' ↔ _
  cases held r <;> simp

/-- a use finds it held, -/
theorem apply_use : (Event.use r).apply held = some held' ↔ held r = true ∧ held = held' := by
  show (if held r then some held else none) = some held' ↔ _
  cases held r <;> simp

/-- and a release finds it held. -/
theorem apply_release : (Event.release r).apply held = some held' ↔
    held r = true ∧ Function.update held r false = held' := by
  show (if held r then some (Function.update held r false) else none) = some held' ↔ _
  cases held r <;> simp

end Apply

/-- What is held after the events, oldest first. -/
def replay (held : ρ → Bool) : List (Event ρ) → Option (ρ → Bool)
  | [] => some held
  | ev :: log => (ev.apply held).bind fun held => replay held log

/-- A log is replayed part by part. -/
theorem replay_append (log b : List (Event ρ)) :
    ∀ held : ρ → Bool, replay held (log ++ b) = (replay held log).bind fun held => replay held b := by
  induction log with
  | nil => intro held; rfl
  | cons ev log ih =>
      intro held
      rw [List.cons_append, replay, replay]
      cases ev.apply held with
      | none => rfl
      | some held' => exact ih held'

/-- The log of a program that started with nothing can be replayed, and `held`
is what it holds now. -/
def Lawful (log : List (Event ρ)) (held : ρ → Bool) : Prop := replay (fun _ => false) log = some held

section Lawful

variable {log b : List (Event ρ)} {held held' : ρ → Bool} {r : ρ}

theorem lawful_nil : Lawful ([] : List (Event ρ)) fun _ => false := rfl

/-- The rule of composition. -/
theorem Lawful.append (h : Lawful log held) (hb : replay held b = some held') : Lawful (log ++ b) held' := by
  unfold Lawful at h ⊢
  rw [replay_append, h]
  exact hb

/-- A lawful log was lawful before. -/
theorem Lawful.of_append (h : Lawful (log ++ b) held) :
    ∃ held', Lawful log held' ∧ replay held' b = some held := by
  unfold Lawful at h ⊢
  rw [replay_append] at h
  cases hlog : replay (fun _ => false) log with
  | none => rw [hlog] at h; cases h
  | some held' =>
      rw [hlog] at h
      exact ⟨held', rfl, h⟩

/-- What one event does to one resource. -/
theorem Event.apply_balance {ev : Event ρ} (h : ev.apply held = some held') (r : ρ) :
    (held r).toNat + [ev].count (.acquire r) = [ev].count (.release r) + (held' r).toNat := by
  cases ev with
  | acquire r' =>
      obtain ⟨hr', rfl⟩ := apply_acquire.1 h
      by_cases hrr : r' = r
      · subst hrr
        simp [hr']
      · simp [Function.update_of_ne (Ne.symm hrr), hrr]
  | use r' =>
      obtain ⟨_, rfl⟩ := apply_use.1 h
      simp
  | release r' =>
      obtain ⟨hr', rfl⟩ := apply_release.1 h
      by_cases hrr : r' = r
      · subst hrr
        simp [hr']
      · simp [Function.update_of_ne (Ne.symm hrr), hrr]

/-- Of every resource as much is acquired as is released or held in the end. -/
theorem replay_balance (r : ρ) (log : List (Event ρ)) :
    ∀ {held held' : ρ → Bool}, replay held log = some held' →
      (held r).toNat + log.count (.acquire r) = log.count (.release r) + (held' r).toNat := by
  induction log with
  | nil =>
      intro held held' h
      cases h
      exact Nat.add_comm ..
  | cons ev log ih =>
      intro held held' h
      rw [replay] at h
      obtain ⟨mid, hmid, hrest⟩ := Option.bind_eq_some_iff.1 h
      have hev := ev.apply_balance hmid r
      have hlog := ih hrest
      have hacq : (ev :: log).count (.acquire r) = [ev].count (.acquire r) + log.count (.acquire r) :=
        by rw [← List.count_append]; rfl
      have hrel : (ev :: log).count (.release r) = [ev].count (.release r) + log.count (.release r) :=
        by rw [← List.count_append]; rfl
      omega

/-- The same from the start, where nothing is held. -/
theorem Lawful.balance (h : Lawful log held) (r : ρ) :
    log.count (.acquire r) = log.count (.release r) + (held r).toNat := by
  have hb := replay_balance r log h
  rw [Bool.toNat_false, Nat.zero_add] at hb
  exact hb

/-- What is not held stays so as long as it is not acquired. -/
theorem replay_not_held (log : List (Event ρ)) :
    ∀ {held held' : ρ → Bool}, replay held log = some held' → held r = false → .acquire r ∉ log →
      held' r = false := by
  induction log with
  | nil => intro held held' h hr _; cases h; exact hr
  | cons ev log ih =>
      intro held held' h hr hno
      rw [replay] at h
      obtain ⟨mid, hmid, hrest⟩ := Option.bind_eq_some_iff.1 h
      refine ih hrest ?_ fun hmem => hno (List.mem_cons_of_mem _ hmem)
      have hb := ev.apply_balance hmid r
      have hacq : [ev].count (.acquire r) = 0 :=
        List.count_eq_zero.2 fun hmem => hno (List.mem_singleton.1 hmem ▸ List.mem_cons_self ..)
      rw [hr, hacq, Bool.toNat_false] at hb
      cases hm : mid r with
      | false => rfl
      | true => rw [hm, Bool.toNat_true] at hb; omega

/-- What is used or released behind a release has been acquired again between. -/
theorem Lawful.between {pre mid post : List (Event ρ)} {ev : Event ρ}
    (h : Lawful (pre ++ .release r :: (mid ++ ev :: post)) held) (hev : ev = .use r ∨ ev = .release r) :
    .acquire r ∈ mid := by
  by_contra hno
  obtain ⟨h₁, _, hrest⟩ := h.of_append
  rw [replay] at hrest
  obtain ⟨h₂, hrel, hrest⟩ := Option.bind_eq_some_iff.1 hrest
  rw [replay_append] at hrest
  obtain ⟨h₃, hmid, hrest⟩ := Option.bind_eq_some_iff.1 hrest
  have hgone : h₂ r = false := by
    rw [← (apply_release.1 hrel).2]
    exact Function.update_self ..
  have hstill := replay_not_held mid hmid hgone hno
  rw [replay] at hrest
  obtain ⟨h₄, happly, _⟩ := Option.bind_eq_some_iff.1 hrest
  have hheld : h₃ r = true := by
    rcases hev with rfl | rfl
    · exact (apply_use.1 happly).1
    · exact (apply_release.1 happly).1
  rw [hstill] at hheld
  cases hheld

end Lawful

/-! ## But for some uses. -/

/-- The event is the use of something `stray`. -/
def Event.strays (stray : ρ → Bool) : Event ρ → Bool
  | .use r => stray r
  | _ => false

/-- The log is lawful but for the uses of what is `stray`. -/
def LawfulBut (stray : ρ → Bool) (log : List (Event ρ)) (held : ρ → Bool) : Prop :=
  Lawful (log.filter fun ev => !ev.strays stray) held

section LawfulBut

variable {stray : ρ → Bool} {log b : List (Event ρ)} {held held' : ρ → Bool} {r : ρ}

theorem lawfulBut_nil : LawfulBut stray [] fun _ => false := lawful_nil

/-- Nothing is left out. -/
theorem lawfulBut_none : LawfulBut (fun _ => false) log held ↔ Lawful log held := by
  have hall : (log.filter fun ev => !ev.strays fun _ => false) = log :=
    List.filter_eq_self.2 fun ev _ => by cases ev <;> rfl
  unfold LawfulBut
  rw [hall]

/-- The rule of composition. -/
theorem LawfulBut.append (h : LawfulBut stray log held)
    (hb : replay held (b.filter fun ev => !ev.strays stray) = some held') :
    LawfulBut stray (log ++ b) held' := by
  unfold LawfulBut
  rw [List.filter_append]
  exact Lawful.append h hb

/-- A resource that is free may be acquired. -/
theorem LawfulBut.acquire (h : LawfulBut stray log held) (hr : held r = false) :
    LawfulBut stray (log ++ [.acquire r]) (Function.update held r true) := by
  refine h.append ?_
  show replay held [.acquire r] = _
  rw [replay, apply_acquire.2 ⟨hr, rfl⟩]
  rfl

/-- A resource that is held may be released. -/
theorem LawfulBut.release (h : LawfulBut stray log held) (hr : held r = true) :
    LawfulBut stray (log ++ [.release r]) (Function.update held r false) := by
  refine h.append ?_
  show replay held [.release r] = _
  rw [replay, apply_release.2 ⟨hr, rfl⟩]
  rfl

/-- Acquired and given back at once. -/
theorem LawfulBut.attempt (h : LawfulBut stray log held) (hr : held r = false) :
    LawfulBut stray (log ++ [.acquire r, .release r]) held := by
  have hrel := (h.acquire hr).release (r := r) (Function.update_self ..)
  rw [Function.update_idem, ← hr, Function.update_eq_self, List.append_assoc] at hrel
  exact hrel

/-- Any number of uses of what is held or stray. -/
theorem LawfulBut.uses {rs : List ρ} (h : LawfulBut stray log held)
    (hr : ∀ r ∈ rs, stray r = true ∨ held r = true) :
    LawfulBut stray (log ++ rs.map Event.use) held := by
  refine h.append ?_
  clear h
  induction rs with
  | nil => rfl
  | cons r rs ih =>
      have hrest := ih fun r' hr' => hr r' (List.mem_cons_of_mem _ hr')
      rw [List.map_cons, List.filter_cons]
      rcases hr r (List.mem_cons_self ..) with hstray | hheld
      · rw [if_neg (by rw [Event.strays, hstray]; exact Bool.false_ne_true)]
        exact hrest
      · split
        · rw [replay, apply_use.2 ⟨hheld, rfl⟩]
          exact hrest
        · exact hrest

/-- A resource that is held may be used. -/
theorem LawfulBut.use (h : LawfulBut stray log held) (hr : held r = true) :
    LawfulBut stray (log ++ [.use r]) held := by
  have huses : LawfulBut stray (log ++ [r].map Event.use) held :=
    h.uses fun r' hr' => .inr (List.mem_singleton.1 hr' ▸ hr)
  exact huses

/-- **The balance**: each resource was acquired as often as it was given back,
and once more when it is held. -/
theorem LawfulBut.balance (h : LawfulBut stray log held) (r : ρ) :
    log.count (.acquire r) = log.count (.release r) + (held r).toNat := by
  have hb := Lawful.balance h r
  rw [List.count_filter rfl, List.count_filter rfl] at hb
  exact hb

/-- **Nothing is touched after it was given back**, until it is acquired again. -/
theorem LawfulBut.between {pre mid post : List (Event ρ)} {ev : Event ρ}
    (h : LawfulBut stray (pre ++ .release r :: (mid ++ ev :: post)) held)
    (hev : ev = .use r ∧ stray r = false ∨ ev = .release r) : .acquire r ∈ mid := by
  have hseen : (!ev.strays stray) = true := by
    rcases hev with ⟨rfl, hr⟩ | rfl
    · rw [Event.strays, hr]
      rfl
    · rfl
  have hpost : ((ev :: post).filter fun ev => !ev.strays stray) = ev :: post.filter
      fun ev => !ev.strays stray :=
    List.filter_cons_of_pos hseen
  unfold LawfulBut at h
  rw [List.filter_append, List.filter_cons_of_pos (by rfl), List.filter_append, hpost] at h
  exact (List.mem_filter.1 (h.between (hev.imp And.left id))).1

end LawfulBut

end Resources
