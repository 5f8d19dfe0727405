/-
  OvsAgent.DbApi.MonUpdateList — the monitor list and what it stands for.

  mon_update_list.c keeps (id, callback) pairs in a singly linked list.  The
  reference is the association list of those pairs:

      add      appends a pair
      process  calls the callback of the first pair with the id
      remove   deletes the first pair with the id
      clear    leaves nothing

  Main result: `mon_list_refines_iff` — along any sequence of operations the
  linked list agrees with the reference exactly when every removal names the
  first pair's id, or an id no pair has.
-/
import OvsAgent.DbApi.OvsDbApi
import OvsAgent.Lib.Refinement

namespace OvsAgent

open CString (ofString strncpy strncmpEq)

/-! ## §1. The linked list. -/

/-- What an operation answers: its status, and the callback it invoked. -/
structure MonAnswer where
  status : OvsStatus
  invoked : Option (Option OvsInteractCb × RdkbTableConfig)
  deriving Repr, DecidableEq

/-- `mon_list_process`.  Nothing is done to the list after the callback, so
what the callback does to it comes as operations of its own. -/
def monListProcess (uuid : CString) (tableConfig : RdkbTableConfig) : List MonNode → MonAnswer
  | [] => ⟨.failed, none⟩
  | temp :: msgList =>
      if temp.matches uuid then ⟨.success, some (temp.callback, tableConfig)⟩
      else monListProcess uuid tableConfig msgList

/-- An id of at most `MAX_UUID_LEN` bytes. -/
abbrev MonId : Type := { uuid : CString // uuid.length ≤ maxUuidLen }

/-- A call of one of the four list functions. -/
inductive MonListOp where
  | add (malloc : Bool) (uuid : MonId) (cb : Option OvsInteractCb)
  | process (uuid : MonId) (tableConfig : RdkbTableConfig)
  | remove (uuid : MonId)
  | clear

/-- Make the call on the linked list. -/
def monListStep (msgList : List MonNode) : MonListOp → MonAnswer × List MonNode
  | .add malloc uuid cb =>
      match monListAdd malloc uuid.val cb msgList with
      | none => (⟨.failed, none⟩, msgList)
      | some msgList => (⟨.success, none⟩, msgList)
  | .process uuid tableConfig => (monListProcess uuid.val tableConfig msgList, msgList)
  | .remove uuid =>
      match monListRemove uuid.val msgList with
      | none => (⟨.failed, none⟩, msgList)
      | some msgList => (⟨.success, none⟩, msgList)
  | .clear => (⟨.success, none⟩, [])

/-! ## §2. The reference. -/

/-- The pairs, oldest first. -/
abbrev Monitors : Type := List (MonId × Option OvsInteractCb)

namespace Monitors

/-- The first pair with the id. -/
def first (pairs : Monitors) (uuid : MonId) : Option (MonId × Option OvsInteractCb) :=
  pairs.find? fun p => p.1 = uuid

/-- The pairs without the first one with the id. -/
def remove (pairs : Monitors) (uuid : MonId) : Monitors := pairs.eraseP fun p => p.1 = uuid

/-- What the operations mean.  An add without memory for the pair fails. -/
def step (pairs : Monitors) : MonListOp → MonAnswer × Monitors
  | .add malloc uuid cb =>
      if malloc then (⟨.success, none⟩, pairs ++ [(uuid, cb)]) else (⟨.failed, none⟩, pairs)
  | .process uuid tableConfig =>
      match pairs.first uuid with
      | none => (⟨.failed, none⟩, pairs)
      | some p => (⟨.success, some (p.2, tableConfig)⟩, pairs)
  | .remove uuid =>
      match pairs.first uuid with
      | none => (⟨.failed, none⟩, pairs)
      | some _ => (⟨.success, none⟩, pairs.remove uuid)
  | .clear => (⟨.success, none⟩, [])

/-- The linked list of the pairs. -/
def nodes (pairs : Monitors) : List MonNode := pairs.map fun p => ⟨p.1.val, p.2⟩

/-- The linked list holds these pairs in this order. -/
def Represents (msgList : List MonNode) (pairs : Monitors) : Prop := msgList = pairs.nodes

/-- The id is the first pair's, or no pair has it. -/
def HeadOrAbsent (pairs : Monitors) (uuid : MonId) : Prop :=
  (∃ p rest, pairs = p :: rest ∧ p.1 = uuid) ∨ ∀ p ∈ pairs, p.1 ≠ uuid

/-- The removals the code can carry out. -/
def Removable (pairs : Monitors) : MonListOp → Prop
  | .remove uuid => pairs.HeadOrAbsent uuid
  | _ => True

/-! ## §3. One operation. -/

/-- The bounded comparison is exact on ids of this length. -/
theorem matches_iff (uuid id : MonId) (cb : Option OvsInteractCb) :
    MonNode.matches uuid.val ⟨id.val, cb⟩ = true ↔ id = uuid := by
  unfold MonNode.matches
  rw [CString.strncmpEq_iff_eq (Nat.le_succ_of_le uuid.property) (Nat.le_succ_of_le id.property)]
  constructor
  · intro h; exact Subtype.ext h.symm
  · intro h; rw [h]

theorem first_some {uuid : MonId} {pairs : Monitors} {q : MonId × Option OvsInteractCb}
    (h : pairs.first uuid = some q) : q ∈ pairs ∧ q.1 = uuid := by
  unfold first at h
  exact ⟨List.mem_of_find?_eq_some h, by simpa using List.find?_some h⟩

theorem process_nodes (uuid : MonId) (tableConfig : RdkbTableConfig) (pairs : Monitors) :
    monListProcess uuid.val tableConfig pairs.nodes
      = (pairs.step (.process uuid tableConfig)).1 := by
  induction pairs with
  | nil => rfl
  | cons p pairs ih =>
      show (if MonNode.matches uuid.val ⟨p.1.val, p.2⟩ = true then _
        else monListProcess uuid.val tableConfig (nodes pairs)) = _
      by_cases h : p.1 = uuid
      · rw [if_pos ((matches_iff uuid p.1 p.2).2 h)]
        simp only [step, first, List.find?_cons, h, decide_true]
      · rw [if_neg fun hm => h ((matches_iff uuid p.1 p.2).1 hm), ih]
        simp only [step, first, List.find?_cons, h, decide_false]
        cases List.find? (fun p => decide (p.1 = uuid)) pairs <;> rfl

theorem process_snd (pairs : Monitors) (uuid : MonId) (tableConfig : RdkbTableConfig) :
    (pairs.step (.process uuid tableConfig)).2 = pairs := by
  unfold step
  simp only
  split <;> rfl

theorem agree_add (malloc : Bool) (uuid : MonId) (cb : Option OvsInteractCb) (pairs : Monitors) :
    Refinement.Agree monListStep step Represents pairs.nodes pairs (.add malloc uuid cb) := by
  cases malloc with
  | false => exact ⟨rfl, rfl⟩
  | true =>
      refine ⟨rfl, ?_⟩
      show pairs.nodes ++ [⟨strncpy maxUuidLen uuid.val, cb⟩] = nodes (pairs ++ [(uuid, cb)])
      unfold nodes
      rw [CString.strncpy_of_length_le uuid.property, List.map_append]
      rfl

theorem agree_process (uuid : MonId) (tableConfig : RdkbTableConfig) (pairs : Monitors) :
    Refinement.Agree monListStep step Represents pairs.nodes pairs (.process uuid tableConfig) := by
  refine ⟨process_nodes uuid tableConfig pairs, ?_⟩
  show pairs.nodes = nodes (pairs.step (.process uuid tableConfig)).2
  rw [process_snd]

/-- A removal: only the head of the list is ever looked at. -/
theorem agree_remove_iff (uuid : MonId) (pairs : Monitors) :
    Refinement.Agree monListStep step Represents pairs.nodes pairs (.remove uuid)
      ↔ pairs.HeadOrAbsent uuid := by
  cases pairs with
  | nil => exact iff_of_true ⟨rfl, rfl⟩ (Or.inr fun _ h => (by cases h))
  | cons p rest =>
      by_cases h : p.1 = uuid
      · have hm : MonNode.matches uuid.val ⟨p.1.val, p.2⟩ = true := (matches_iff uuid p.1 p.2).2 h
        have himpl : monListStep (nodes (p :: rest)) (.remove uuid)
            = (⟨.success, none⟩, nodes rest) := by
          simp only [monListStep, nodes, List.map_cons, monListRemove, if_pos hm]
        have hspec : step (p :: rest) (.remove uuid) = (⟨.success, none⟩, rest) := by
          simp only [step, first, remove, List.find?_cons, List.eraseP_cons, h, decide_true, cond_true]
        refine iff_of_true ⟨?_, ?_⟩ (Or.inl ⟨p, rest, rfl, h⟩)
        · rw [himpl, hspec]
        · rw [himpl, hspec]; rfl
      · have hm : ¬ MonNode.matches uuid.val ⟨p.1.val, p.2⟩ = true :=
          fun hm => h ((matches_iff uuid p.1 p.2).1 hm)
        have himpl : monListStep (nodes (p :: rest)) (.remove uuid)
            = (⟨.failed, none⟩, nodes (p :: rest)) := by
          simp only [monListStep, nodes, List.map_cons, monListRemove, if_neg hm]
        cases hf : first (p :: rest) uuid with
        | none =>
            have hspec : step (p :: rest) (.remove uuid) = (⟨.failed, none⟩, p :: rest) := by
              simp only [step, hf]
            refine iff_of_true ⟨?_, ?_⟩ (Or.inr fun q hq heq => ?_)
            · rw [himpl, hspec]
            · rw [himpl, hspec]; rfl
            · have := List.find?_eq_none.1 hf q hq
              exact this (decide_eq_true heq)
        | some q =>
            -- the pair is there, behind the head
            have hspec : (step (p :: rest) (.remove uuid)).1 = ⟨.success, none⟩ := by
              simp only [step, hf]
            refine iff_of_false (fun hagree => ?_) (fun hor => ?_)
            · have := hagree.answer
              rw [himpl, hspec] at this
              cases this
            · obtain ⟨hq, hid⟩ := first_some hf
              rcases hor with ⟨_, _, heq, hp⟩ | habs
              · cases heq; exact h hp
              · exact habs q hq hid

/-- The step lemma. -/
theorem agree_iff (msgList : List MonNode) (pairs : Monitors) (op : MonListOp)
    (h : Represents msgList pairs) :
    Refinement.Agree monListStep step Represents msgList pairs op ↔ pairs.Removable op := by
  cases h
  cases op with
  | add malloc uuid cb => exact iff_of_true (agree_add malloc uuid cb pairs) trivial
  | process uuid tableConfig => exact iff_of_true (agree_process uuid tableConfig pairs) trivial
  | remove uuid => exact agree_remove_iff uuid pairs
  | clear => exact iff_of_true ⟨rfl, rfl⟩ trivial

end Monitors

/-! ## §4. Sequences of operations. -/

/-- **The monitor list and the association list.**  From the empty list on, the
two agree along a sequence of operations exactly when every removal in it is
of the first pair, or of an id that is not there. -/
theorem mon_list_refines_iff (ops : List MonListOp) :
    Refinement.Refines monListStep Monitors.step Monitors.Represents [] [] ops
      ↔ Refinement.AllMeet Monitors.step Monitors.Removable [] ops :=
  Refinement.refines_iff_allMeet Monitors.agree_iff ops rfl

/-- Two monitors, of which the second is removed: the code does not find it. -/
theorem second_monitor_not_removed :
    ¬ Refinement.Refines monListStep Monitors.step Monitors.Represents [] []
      [.add true ⟨ofString "1", by decide⟩ (some .gwconfMonCb),
        .add true ⟨ofString "3", by decide⟩ (some .gwconfMonCb),
        .remove ⟨ofString "3", by decide⟩] := by
  intro ⟨_, _, hremove, _⟩
  exact absurd hremove.answer (by decide)

end OvsAgent
