/-
  OvsAgent.Lib.NodeHeap — singly linked lists in a heap.

  A heap has cells at some addresses, each with a value and a pointer to the
  next one, or NULL.  `Path h p cells q` says which cells are met on the way
  from `p` to `q`; a list is a path to NULL.

  A list to NULL has no cell twice (`Path.nodup`), so a store to one of its
  cells, or outside, leaves the path to the others alone.  From this come the
  three ways of changing a list:

      link         a new cell behind the last
      unlink       the cell behind a given one is taken out and freed
      unlink_head  the first cell is taken out and freed
-/
import Mathlib.Data.List.Basic
import Mathlib.Data.List.Nodup

/-- A cell: a value and the address of the next cell. -/
structure Cell (α : Type) where
  value : α
  next : Option Nat

/-- The cells in use, by their address. -/
abbrev NodeHeap (α : Type) : Type := Nat → Option (Cell α)

namespace NodeHeap

variable {α : Type}

/-- Write the cell at `a`; `none` frees it. -/
def store (h : NodeHeap α) (a : Nat) (c : Option (Cell α)) : NodeHeap α :=
  fun b => if b = a then c else h b

@[simp] theorem store_same (h : NodeHeap α) (a : Nat) (c : Option (Cell α)) : h.store a c a = c :=
  if_pos rfl

theorem store_other (h : NodeHeap α) {a b : Nat} (c : Option (Cell α)) (hne : b ≠ a) :
    h.store a c b = h b :=
  if_neg hne

/-! ## §1. Paths. -/

/-- From `p` along the pointers, over `cells` (addresses and values), to `q`. -/
inductive Path (h : NodeHeap α) : Option Nat → List (Nat × α) → Option Nat → Prop where
  | nil (p : Option Nat) : Path h p [] p
  | cons {a : Nat} {v : α} {next : Option Nat} {cells : List (Nat × α)} {q : Option Nat}
      (hcell : h a = some ⟨v, next⟩) (hrest : Path h next cells q) : Path h (some a) ((a, v) :: cells) q

namespace Path

variable {h h' : NodeHeap α} {p q r : Option Nat} {cells cells' : List (Nat × α)} {a b : Nat} {v w : α}

theorem nil_inv (hp : Path h p [] q) : p = q := by
  cases hp
  rfl

theorem cons_inv (hp : Path h p ((a, v) :: cells) q) :
    p = some a ∧ ∃ next, h a = some ⟨v, next⟩ ∧ Path h next cells q := by
  cases hp with
  | cons hcell hrest => exact ⟨rfl, _, hcell, hrest⟩

theorem append (h₁ : Path h p cells q) (h₂ : Path h q cells' r) : Path h p (cells ++ cells') r := by
  induction h₁ with
  | nil => exact h₂
  | cons hcell _ ih => exact .cons hcell (ih h₂)

theorem split : ∀ {p : Option Nat} {cells : List (Nat × α)}, Path h p (cells ++ cells') r →
    ∃ q, Path h p cells q ∧ Path h q cells' r := by
  intro p cells
  induction cells generalizing p with
  | nil => intro hp; exact ⟨p, .nil p, hp⟩
  | cons c cells ih =>
      intro hp
      obtain ⟨rfl, next, hcell, hrest⟩ := cons_inv hp
      obtain ⟨q, h₁, h₂⟩ := ih hrest
      exact ⟨q, .cons hcell h₁, h₂⟩

/-- A path depends on its own cells only. -/
theorem frame (hp : Path h p cells q) (hsame : ∀ c ∈ cells, h' c.1 = h c.1) : Path h' p cells q := by
  induction hp with
  | nil p => exact .nil p
  | cons hcell _ ih =>
      refine .cons ((hsame _ (List.mem_cons_self ..)).trans hcell) (ih fun c hc => ?_)
      exact hsame c (List.mem_cons_of_mem _ hc)

/-- The cells are in use. -/
theorem alloc (hp : Path h p cells q) : ∀ c ∈ cells, h c.1 ≠ none := by
  induction hp with
  | nil p => intro c hc; cases hc
  | cons hcell _ ih =>
      intro c hc
      rcases List.mem_cons.1 hc with rfl | hc
      · rw [hcell]
        exact nofun
      · exact ih c hc

/-- The pointers determine the path to NULL. -/
theorem unique (h₁ : Path h p cells none) : ∀ {cells'}, Path h p cells' none → cells = cells' := by
  generalize hq : (none : Option Nat) = q at h₁
  induction h₁ with
  | nil p =>
      intro cells' h₂
      subst hq
      cases h₂
      rfl
  | cons hcell _ ih =>
      intro cells' h₂
      cases h₂ with
      | nil => cases hq
      | cons hcell' hrest' =>
          rw [hcell] at hcell'
          cases hcell'
          rw [ih hq hrest']

/-- **A list to NULL meets no address twice.** -/
theorem nodup (hp : Path h p cells none) : (cells.map Prod.fst).Nodup := by
  induction cells generalizing p with
  | nil => exact List.nodup_nil
  | cons c cells ih =>
      obtain ⟨rfl, next, hcell, hrest⟩ := cons_inv hp
      refine List.nodup_cons.2 ⟨fun hmem => ?_, ih hrest⟩
      obtain ⟨c', hc', haddr⟩ := List.mem_map.1 hmem
      obtain ⟨pre, post, rfl⟩ := List.append_of_mem hc'
      -- the path from the second time on would be the whole path again
      obtain ⟨q, _, hagain⟩ := split hrest
      obtain ⟨rfl, _, _, _⟩ := cons_inv hagain
      rw [haddr] at hagain
      have hlen := congrArg List.length (hp.unique hagain)
      simp only [List.length_cons, List.length_append] at hlen
      omega

/-! ## §2. Changes. -/

/-- A cell that is not on the path can be written. -/
theorem store (hp : Path h p cells q) {c : Option (Cell α)} (hno : a ∉ cells.map Prod.fst) :
    Path (h.store a c) p cells q := by
  refine hp.frame fun c' hc' => store_other h c fun heq => hno ?_
  rw [← heq]
  exact List.mem_map_of_mem hc'

/-- **A new cell behind the last.** -/
theorem link (hp : Path h p (cells ++ [(a, v)]) none) (hfree : h b = none) :
    Path ((h.store b (some ⟨w, none⟩)).store a (some ⟨v, some b⟩)) p (cells ++ [(a, v),
      (b, w)]) none := by
  have hnodup := hp.nodup
  rw [List.map_append, List.nodup_append] at hnodup
  have ha : a ∉ cells.map Prod.fst := fun hmem => hnodup.2.2 a hmem a (List.mem_singleton_self _) rfl
  have hb : ∀ c ∈ cells ++ [(a, v)], c.1 ≠ b := fun c hc heq => hp.alloc c hc (heq ▸ hfree)
  have hbcells : b ∉ cells.map Prod.fst := by
    intro hmem
    obtain ⟨c, hc, heq⟩ := List.mem_map.1 hmem
    exact hb c (List.mem_append_left _ hc) heq
  have hba : b ≠ a := fun heq => hb (a, v) (List.mem_append_right _ (List.mem_singleton_self _)) heq.symm
  obtain ⟨q, hcells, hlast⟩ := split hp
  obtain ⟨rfl, _, _, _⟩ := cons_inv hlast
  refine ((hcells.store hbcells).store ha).append (.cons (store_same _ _ _) (.cons ?_ (.nil none)))
  rw [store_other _ _ hba, store_same]

/-- **The cell behind `a` is taken out and freed.** -/
theorem unlink {pre post : List (Nat × α)} (hp : Path h p (pre ++ (a, v) :: (b, w) :: post) none)
    {next : Option Nat} (hb : h b = some ⟨w, next⟩) :
    Path ((h.store a (some ⟨v, next⟩)).store b none) p (pre ++ (a, v) :: post) none := by
  have hnodup := hp.nodup
  rw [List.map_append, List.map_cons, List.map_cons, List.nodup_append, List.nodup_cons,
    List.nodup_cons] at hnodup
  obtain ⟨_, ⟨ha, hbpost, _⟩, hdisj⟩ := hnodup
  have hab : a ≠ b := fun heq => ha (heq ▸ List.mem_cons_self ..)
  have hapre : a ∉ pre.map Prod.fst := fun hmem => hdisj a hmem a (List.mem_cons_self ..) rfl
  have hbpre : b ∉ pre.map Prod.fst := fun hmem =>
    hdisj b hmem b (List.mem_cons_of_mem _ (List.mem_cons_self ..)) rfl
  have hapost : a ∉ post.map Prod.fst := fun hmem => ha (List.mem_cons_of_mem _ hmem)
  obtain ⟨q, hpre, hrest⟩ := split hp
  obtain ⟨rfl, next', _, hrest'⟩ := cons_inv hrest
  obtain ⟨rfl, next'', hcell, hpost⟩ := cons_inv hrest'
  rw [hb] at hcell
  cases hcell
  refine ((hpre.store hapre).store hbpre).append (.cons ?_ ((hpost.store hapost).store hbpost))
  rw [store_other _ _ hab, store_same]

/-- **The first cell is taken out and freed.** -/
theorem unlink_head {post : List (Nat × α)} (hp : Path h p ((a, v) :: post) none) {next : Option Nat}
    (ha : h a = some ⟨v, next⟩) : Path (h.store a none) next post none := by
  have hnodup := hp.nodup
  rw [List.map_cons, List.nodup_cons] at hnodup
  obtain ⟨_, _, hcell, hpost⟩ := cons_inv hp
  rw [ha] at hcell
  cases hcell
  exact hpost.store hnodup.1

end Path

/-! ## §3. The walk to the last cell. -/

/-- From the cell at `a` on until `next` is NULL. -/
def last (h : NodeHeap α) : Nat → Nat → Option Nat
  | 0, _ => none
  | fuel + 1, a =>
      match h a with
      | none => none
      | some cell =>
          match cell.next with
          | none => some a
          | some b => last h fuel b

/-- The walk ends, and at the last cell. -/
theorem last_eq {h : NodeHeap α} {a : Nat} {v : α} (cells : List (Nat × α)) :
    ∀ {p fuel : Nat}, Path h (some p) (cells ++ [(a, v)]) none → cells.length < fuel →
      h.last fuel p = some a := by
  induction cells with
  | nil =>
      intro p fuel hp hfuel
      obtain ⟨fuel, rfl⟩ := Nat.exists_eq_succ_of_ne_zero (Nat.ne_of_gt hfuel)
      obtain ⟨heq, next, hcell, hrest⟩ := hp.cons_inv
      cases heq
      cases hrest.nil_inv
      simp only [last, hcell]
  | cons c cells ih =>
      intro p fuel hp hfuel
      obtain ⟨fuel, rfl⟩ :=
        Nat.exists_eq_succ_of_ne_zero (Nat.ne_of_gt (Nat.lt_of_le_of_lt (Nat.zero_le _) hfuel))
      obtain ⟨heq, next, hcell, hrest⟩ := hp.cons_inv
      cases heq
      cases next with
      | none => 
          cases cells with
          | nil => cases hrest
          | cons c' cells => cases hrest
      | some b =>
          simp only [last, hcell]
          exact ih hrest (Nat.lt_of_succ_lt_succ hfuel)

end NodeHeap
