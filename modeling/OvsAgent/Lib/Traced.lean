/-
  OvsAgent.Lib.Traced — computations that leave a trace.

  A traced computation has a value and the list of events it went through, in
  order.  A law of every event (`All`) is checked part by part:

      (p >>= f).All P  ↔  p.All P ∧ (f p.value).All P

  and a state that the events act on is carried the same way (`exec`), with
what the state allows of them (`Admits`).
-/
import Mathlib.Data.List.Basic

/-- A value and the events on the way to it. -/
structure Traced (ε α : Type) where
  value : α
  trace : List ε

namespace Traced

variable {ε α β σ : Type}

instance : Monad (Traced ε) where
  pure a := ⟨a, []⟩
  bind p f := ⟨(f p.value).value, p.trace ++ (f p.value).trace⟩

/-- One event. -/
def emit (e : ε) : Traced ε Unit := ⟨(), [e]⟩

@[simp] theorem pure_value (a : α) : (pure a : Traced ε α).value = a := rfl
@[simp] theorem pure_trace (a : α) : (pure a : Traced ε α).trace = [] := rfl

/-- The second computation starts from the first one's value. -/
@[simp] theorem bind_value (p : Traced ε α) (f : α → Traced ε β) :
    (p >>= f).value = (f p.value).value :=
  rfl

/-- The second computation's events come behind the first one's. -/
@[simp] theorem bind_trace (p : Traced ε α) (f : α → Traced ε β) :
    (p >>= f).trace = p.trace ++ (f p.value).trace := rfl

@[simp] theorem emit_trace (e : ε) : (emit e).trace = [e] := rfl

/-- The computation, if the condition holds. -/
def when (c : Prop) [Decidable c] (p : Traced ε Unit) : Traced ε Unit := if c then p else pure ()

/-! ## §1. Laws of every event. -/

/-- Every event of the computation satisfies `P`. -/
def All (P : ε → Prop) (p : Traced ε α) : Prop := ∀ e ∈ p.trace, P e

variable {P Q : ε → Prop}

/-- A value without events satisfies every law. -/
@[simp] theorem all_pure (a : α) : (pure a : Traced ε α).All P := by
  intro e he
  cases he

@[simp] theorem all_emit (e : ε) : (emit e).All P ↔ P e := by
  unfold All
  rw [emit_trace, List.forall_mem_singleton]

/-- A sequence is checked part by part. -/
@[simp] theorem all_bind (p : Traced ε α) (f : α → Traced ε β) :
    (p >>= f).All P ↔ p.All P ∧ (f p.value).All P := by
  unfold All
  rw [bind_trace, List.forall_mem_append]

/-- A branch is checked under its condition. -/
theorem all_ite {c : Prop} [Decidable c] (p q : Traced ε α) :
    (if c then p else q).All P ↔ (c → p.All P) ∧ (¬ c → q.All P) := by
  split
  · next h => simp [h]
  · next h => simp [h]

/-- As `all_ite`, for a step that may be left out. -/
@[simp] theorem all_when {c : Prop} [Decidable c] (p : Traced ε Unit) :
    (when c p).All P ↔ (c → p.All P) := by
  unfold when
  rw [all_ite]
  simp

/-! ## §2. A state the events act on. -/

variable (act : ε → σ → σ)

/-- The state after the events. -/
def after (s : σ) (trace : List ε) : σ := trace.foldl (fun s e => act e s) s

@[simp] theorem after_nil (s : σ) : after act s [] = s := rfl
@[simp] theorem after_cons (s : σ) (e : ε) (es : List ε) :
    after act s (e :: es) = after act (act e s) es :=
  rfl

/-- The events act in order. -/
@[simp] theorem after_append (s : σ) (es es' : List ε) :
    after act s (es ++ es') = after act (after act s es) es' := List.foldl_append ..

/-- Every event is one the state allows when it comes. -/
def Allowed (allows : ε → σ → Prop) : σ → List ε → Prop
  | _, [] => True
  | s, e :: es => allows e s ∧ Allowed allows (act e s) es

instance (allows : ε → σ → Prop) [∀ e s, Decidable (allows e s)] :
    (s : σ) → (es : List ε) → Decidable (Allowed act allows s es)
  | _, [] => inferInstanceAs (Decidable True)
  | s, e :: es =>
      have : Decidable (Allowed act allows (act e s) es) := instDecidableAllowed allows (act e s) es
      inferInstanceAs (Decidable (allows e s ∧ Allowed act allows (act e s) es))

/-- What comes later is looked at in the state that what comes earlier leaves. -/
theorem allowed_append (allows : ε → σ → Prop) (es es' : List ε) :
    ∀ s, Allowed act allows s (es ++ es')
      ↔ Allowed act allows s es ∧ Allowed act allows (after act s es) es' := by
  induction es with
  | nil => intro s; simp [Allowed]
  | cons e es ih =>
      intro s
      rw [List.cons_append, Allowed, Allowed, ih, after_cons, and_assoc]

/-- The state behind the computation. -/
def exec (p : Traced ε α) (s : σ) : σ := after act s p.trace

@[simp] theorem exec_pure (a : α) (s : σ) : exec act (pure a) s = s := rfl
@[simp] theorem exec_emit (e : ε) (s : σ) : exec act (emit e) s = act e s := rfl

/-- The second computation runs in the state that the first one leaves. -/
@[simp] theorem exec_bind (p : Traced ε α) (f : α → Traced ε β) (s : σ) :
    exec act (p >>= f) s = exec act (f p.value) (exec act p s) := after_append act s _ _

/-- A step that is left out leaves the state. -/
theorem exec_when {c : Prop} [Decidable c] (p : Traced ε Unit) (s : σ) :
    exec act (when c p) s = if c then exec act p s else s := by
  unfold when
  split <;> rfl

/-- Events that leave the state alone. -/
theorem exec_eq_self {p : Traced ε α} (h : p.All fun e => ∀ s, act e s = s) (s : σ) :
    exec act p s = s := by
  have hall : ∀ es : List ε, (∀ e ∈ es, ∀ s, act e s = s) → after act s es = s := by
    intro es
    induction es with
    | nil => intro _; rfl
    | cons e es ih =>
        intro hes
        rw [after_cons, hes e (List.mem_cons_self ..)]
        exact ih fun e' he' => hes e' (List.mem_cons_of_mem _ he')
  exact hall p.trace h

/-- Every event of the computation is one the state allows when it comes. -/
def Admits (allows : ε → σ → Prop) (p : Traced ε α) (s : σ) : Prop := Allowed act allows s p.trace

section Admits

variable {act} {allows : ε → σ → Prop}

@[simp] theorem admits_pure (a : α) (s : σ) : Admits act allows (pure a) s := trivial

@[simp] theorem admits_emit (e : ε) (s : σ) : Admits act allows (emit e) s ↔ allows e s :=
  and_iff_left trivial

/-- The second computation is looked at in the state that the first one leaves. -/
@[simp] theorem admits_bind (p : Traced ε α) (f : α → Traced ε β) (s : σ) :
    Admits act allows (p >>= f) s ↔ Admits act allows p s ∧
      Admits act allows (f p.value) (exec act p s) :=
  allowed_append act allows _ _ s

end Admits

end Traced
