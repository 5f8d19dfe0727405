/-
  OvsAgent.Lib.SlotTable — direct-mapped tables.

  A table of optional entries in which every entry can stand in one slot only,
  the slot computed from the entry itself.  Two entries with the same slot
  therefore exclude each other: there is no chaining and no probing.

  The placement law is a FIELD of the structure, so a misplaced entry cannot
  be built and every operation carries its own proof of the law.
-/
import Mathlib.Logic.Function.Basic

/-- A table over the index type `ι` whose entries sit at the index `slot` names. -/
structure SlotTable (ι α : Type*) (slot : α → ι) where
  elements : ι → Option α
  slot_eq : ∀ {i a}, elements i = some a → slot a = i

namespace SlotTable

variable {ι α : Type*} {slot : α → ι}

/-- A table is its elements. -/
@[ext] theorem ext {t t' : SlotTable ι α slot} (h : t.elements = t'.elements) : t = t' := by
  cases t; cases t'; cases h; rfl

/-- The table with every slot free. -/
def empty : SlotTable ι α slot := ⟨fun _ => none, by simp⟩

/-- `a` stands somewhere in the table. -/
def Mem (t : SlotTable ι α slot) (a : α) : Prop := t.elements (slot a) = some a

/-- An element is in the table exactly when some slot holds it: its own. -/
theorem mem_iff {t : SlotTable ι α slot} {a : α} : t.Mem a ↔ ∃ i, t.elements i = some a := by
  constructor
  · intro h; exact ⟨slot a, h⟩
  · rintro ⟨i, h⟩
    have hi : slot a = i := t.slot_eq h
    unfold Mem
    rw [hi]; exact h

/-- The slot law in the form used most: an entry is only ever found at its own slot. -/
theorem mem_of_elements {t : SlotTable ι α slot} {i : ι} {a : α} (h : t.elements i = some a) :
    t.Mem a := mem_iff.2 ⟨i, h⟩

/-- Two members with one slot are the same member. -/
theorem mem_unique {t : SlotTable ι α slot} {a b : α} (ha : t.Mem a) (hb : t.Mem b)
    (h : slot a = slot b) : a = b := by
  unfold Mem at ha hb
  rw [h, hb] at ha
  exact (Option.some.inj ha).symm

variable [DecidableEq ι]

/-- Put `a` into its slot, whatever was there. -/
def put (t : SlotTable ι α slot) (a : α) : SlotTable ι α slot where
  elements := Function.update t.elements (slot a) (some a)
  slot_eq := by
    intro i b h
    by_cases hi : i = slot a
    · subst hi
      rw [Function.update_self] at h
      cases h; rfl
    · rw [Function.update_of_ne hi] at h
      exact t.slot_eq h

/-- Free slot `i`. -/
def clear (t : SlotTable ι α slot) (i : ι) : SlotTable ι α slot where
  elements := Function.update t.elements i none
  slot_eq := by
    intro j b h
    by_cases hj : j = i
    · subst hj; rw [Function.update_self] at h; cases h
    · rw [Function.update_of_ne hj] at h; exact t.slot_eq h

@[simp] theorem put_elements_self (t : SlotTable ι α slot) (a : α) :
    (t.put a).elements (slot a) = some a := Function.update_self ..

/-- The other slots keep what they hold. -/
theorem put_elements_of_ne (t : SlotTable ι α slot) {a : α} {i : ι} (h : i ≠ slot a) :
    (t.put a).elements i = t.elements i := Function.update_of_ne h ..

/-- Every slot behind a `put`. -/
theorem put_elements (t : SlotTable ι α slot) (a : α) (i : ι) :
    (t.put a).elements i = if i = slot a then some a else t.elements i := by
  by_cases h : i = slot a
  · rw [if_pos h, h, put_elements_self]
  · rw [if_neg h, put_elements_of_ne t h]

@[simp] theorem clear_elements_self (t : SlotTable ι α slot) (i : ι) :
    (t.clear i).elements i = none := Function.update_self ..

/-- The other slots keep what they hold. -/
theorem clear_elements_of_ne (t : SlotTable ι α slot) {i j : ι} (h : j ≠ i) :
    (t.clear i).elements j = t.elements j := Function.update_of_ne h ..

/-- Every slot behind a `clear`. -/
theorem clear_elements (t : SlotTable ι α slot) (i j : ι) :
    (t.clear i).elements j = if j = i then none else t.elements j := by
  by_cases h : j = i
  · rw [if_pos h, h, clear_elements_self]
  · rw [if_neg h, clear_elements_of_ne t h]

/-- Putting evicts what was in the slot. -/
theorem mem_put {t : SlotTable ι α slot} {a b : α} :
    (t.put a).Mem b ↔ b = a ∨ (slot b ≠ slot a ∧ t.Mem b) := by
  unfold Mem
  rw [put_elements]
  by_cases h : slot b = slot a
  · rw [if_pos h]
    simp [h, eq_comm]
  · rw [if_neg h]
    constructor
    · intro hb; exact Or.inr ⟨h, hb⟩
    · rintro (rfl | ⟨_, hb⟩)
      · exact absurd rfl h
      · exact hb

/-- Clearing takes the slot's element and no other. -/
theorem mem_clear {t : SlotTable ι α slot} {i : ι} {b : α} :
    (t.clear i).Mem b ↔ slot b ≠ i ∧ t.Mem b := by
  unfold Mem
  rw [clear_elements]
  by_cases h : slot b = i
  · rw [if_pos h]; simp [h]
  · rw [if_neg h]; simp [h]

end SlotTable
