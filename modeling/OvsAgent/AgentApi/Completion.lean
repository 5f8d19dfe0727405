/-
  OvsAgent.AgentApi.Completion — from the receipt to the feedback.

  `update_transaction` finds its entry by the slot of the request id,
  `complete_transaction` finds it by comparing the first `MAX_UUID_LEN` bytes
  of a uuid over all slots.  `LeadsTo` says that the comparison has one answer;
  an update with a new uuid establishes it, updates of other transactions keep
  it, and a completion uses it up.

  Main result: `complete_after_update` — the feedback completes the transaction
  of the receipt, with its own callback and configuration, once.
-/
import OvsAgent.AgentApi.Accounting

namespace OvsAgent

open CString (ofString strncpy strncmpEq atou)

/-! ## §1. The uuid of one transaction. -/

/-- A search for the uuid finds the entry `e` and can find no other. -/
structure LeadsTo (u : CString) (t : TransactionTable) (e : TransactionEntry) : Prop where
  live : t.Mem e
  has : e.hasUuid u = true
  only : ∀ e', t.Mem e' → e'.hasUuid u = true → e' = e

theorem hasUuid_iff {u : CString} {e : TransactionEntry} (hfits : e.uuid.length ≤ maxUuidLen) :
    e.hasUuid u = true ↔ e.uuid = strncpy maxUuidLen u := by
  unfold TransactionEntry.hasUuid
  rw [CString.strncmpEq_iff, List.take_of_length_le hfits]
  rfl

/-- After an update, the entry answers to the uuids with the same beginning. -/
theorem withUuid_hasUuid_iff {u u' : CString} (e : TransactionEntry) :
    (e.withUuid u').hasUuid u = true ↔ strncpy maxUuidLen u' = strncpy maxUuidLen u :=
  hasUuid_iff (CString.strncpy_length_le _ _)

/-- `update_transaction` on the table. -/
theorem updateTransaction_table {rid uuid : CString} {m : TransactionManager} {e : TransactionEntry}
    (he : m.table.Mem e) (hid : e.id = atou rid) :
    (updateTransaction (some rid) (some uuid) m).2.table = m.table.put (e.withUuid uuid) := by
  have hk : m.table.elements (hashCode (atou rid)) = some e := hid ▸ he
  rw [updateTransaction_of_some hk]

/-- A receipt with a uuid no other transaction has. -/
theorem leadsTo_update {rid u : CString} {m : TransactionManager} {e : TransactionEntry}
    (he : m.table.Mem e) (hid : e.id = atou rid)
    (hother : ∀ e', m.table.Mem e' → e' ≠ e → e'.hasUuid u = false) :
    LeadsTo u (updateTransaction (some rid) (some u) m).2.table (e.withUuid u) := by
  rw [updateTransaction_table he hid]
  refine ⟨SlotTable.mem_put.2 (Or.inl rfl), (withUuid_hasUuid_iff e).2 rfl, fun e' he' hu => ?_⟩
  rcases SlotTable.mem_put.1 he' with rfl | ⟨hslot, hm⟩
  · rfl
  · -- an entry of another slot is not `e`
    have hne : e' ≠ e := fun heq => hslot (heq ▸ rfl)
    rw [hother e' hm hne] at hu
    cases hu

/-- A receipt for another transaction, with another uuid. -/
theorem LeadsTo.update {u u' rid : CString} {m : TransactionManager} {e e' : TransactionEntry}
    (h : LeadsTo u m.table e) (he' : m.table.Mem e') (hid : e'.id = atou rid) (hne : e'.id ≠ e.id)
    (hu : strncpy maxUuidLen u' ≠ strncpy maxUuidLen u) :
    LeadsTo u (updateTransaction (some rid) (some u') m).2.table e := by
  have hslot : hashCode e.id ≠ hashCode e'.id := fun hk => by
    rw [SlotTable.mem_unique h.live he' hk] at hne
    exact hne rfl
  rw [updateTransaction_table he' hid]
  refine ⟨SlotTable.mem_put.2 (Or.inr ⟨hslot, h.live⟩), h.has, fun e₁ he₁ hhas => ?_⟩
  rcases SlotTable.mem_put.1 he₁ with rfl | ⟨_, hm⟩
  · exact absurd ((withUuid_hasUuid_iff e').1 hhas) hu
  · exact h.only e₁ hm hhas

/-- The ids of the live transactions are what they were. -/
theorem exists_live_update {rid uuid : CString} {m : TransactionManager} {id : Nat}
    (h : ∃ e, m.table.Mem e ∧ e.id = id) :
    ∃ e, (updateTransaction (some rid) (some uuid) m).2.table.Mem e ∧ e.id = id := by
  obtain ⟨e, he, rfl⟩ := h
  cases hk : m.table.elements (hashCode (atou rid)) with
  | none =>
      rw [updateTransaction_of_free hk]
      exact ⟨e, he, rfl⟩
  | some e₁ =>
      rw [updateTransaction_of_some hk]
      by_cases hslot : hashCode e.id = hashCode e₁.id
      · obtain rfl := SlotTable.mem_unique he (SlotTable.mem_of_elements hk) hslot
        exact ⟨_, SlotTable.mem_put.2 (Or.inl rfl), rfl⟩
      · exact ⟨e, SlotTable.mem_put.2 (Or.inr ⟨hslot, he⟩), rfl⟩

/-- Receipts, one after the other: request id and uuid. -/
def updateTransactions (receipts : List (CString × CString)) (m : TransactionManager) : TransactionManager :=
  receipts.foldl (fun m r => (updateTransaction (some r.1) (some r.2) m).2) m

/-- A receipt for a live transaction other than `id`, with a uuid other than `u`. -/
def OtherReceipt (id : Nat) (u : CString) (m : TransactionManager) (r : CString × CString) : Prop :=
  (∃ e, m.table.Mem e ∧ e.id = atou r.1) ∧ atou r.1 ≠ id ∧
  strncpy maxUuidLen r.2 ≠ strncpy maxUuidLen u

theorem LeadsTo.updates {u : CString} {e : TransactionEntry} {receipts : List (CString × CString)} :
    ∀ {m : TransactionManager}, LeadsTo u m.table e → (∀ r ∈ receipts, OtherReceipt e.id u m r) →
      LeadsTo u (updateTransactions receipts m).table e := by
  induction receipts with
  | nil =>
      intro m h _
      exact h
  | cons r receipts ih =>
      intro m h hall
      obtain ⟨⟨e', he', hid⟩, hne, hu⟩ := hall r (List.mem_cons_self ..)
      refine ih (h.update he' hid (hid ▸ hne) hu) fun r' hr' => ?_
      obtain ⟨hlive, hne', hu'⟩ := hall r' (List.mem_cons_of_mem _ hr')
      exact ⟨exists_live_update hlive, hne', hu'⟩

/-! ## §2. The feedback. -/

/-- `complete_transaction` takes the entry the uuid leads to. -/
theorem takeTransaction_of_leadsTo {u : CString} {status : Int} {m : TransactionManager}
    {e : TransactionEntry} (h : LeadsTo u m.table e) :
    takeTransaction (some u) status m = some ({ e with status := status, state := .complete }, { m with
      table := m.table.clear (hashCode e.id)
      log := m.log ++ e.completion status }) := by
  cases ht : takeTransaction (some u) status m with
  | none =>
      exact absurd (h.has.symm.trans (takeTransaction_none.1 ht e h.live)) Bool.noConfusion
  | some r =>
      obtain ⟨e₁, m'⟩ := r
      obtain ⟨_, e', heq, he', hu, rfl, rfl⟩ := takeTransaction_some ht
      cases heq
      rw [h.only e' he' hu]

/-- With the entry gone, the uuid leads nowhere. -/
theorem takeTransaction_of_cleared {u : CString} {status : Int} {m : TransactionManager}
    {t : TransactionTable} {e : TransactionEntry} (h : LeadsTo u t e)
    (hm : m.table = t.clear (hashCode e.id)) :
    takeTransaction (some u) status m = none := by
  refine takeTransaction_none.2 fun e' he' => Bool.eq_false_iff.2 fun hu => ?_
  rw [hm] at he'
  obtain ⟨hslot, hlive⟩ := SlotTable.mem_clear.1 he'
  exact hslot (by rw [h.only e' hlive hu])

/-- What a callback that leaves the manager alone may do. -/
def LeavesAlone (body : TransactionManager → TransactionManager) : Prop :=
  ∀ m, (body m).table = m.table ∧ (body m).log = m.log

theorem completeTransaction_of_leadsTo {body : TransactionManager → TransactionManager}
    (hbody : LeavesAlone body) (status : Int) {u : CString} {m : TransactionManager} {e : TransactionEntry}
    (h : LeadsTo u m.table e) :
    (completeTransaction body (some u) status m).1 = true ∧
      (completeTransaction body (some u) status m).2.table = m.table.clear (hashCode e.id) ∧
      (completeTransaction body (some u) status m).2.log = m.log ++ e.completion status ++ e.frees := by
  unfold completeTransaction
  rw [takeTransaction_of_leadsTo h]
  refine ⟨rfl, ?_, ?_⟩
  · dsimp only
    rw [destroyTransaction_table]
    split
    · rw [(hbody _).1]
    · rfl
  · unfold destroyTransaction
    dsimp only
    split
    · rw [(hbody _).2]
      rfl
    · rfl

/-! ## §3. Receipt and feedback. -/

/-- The uuid the live entry has been given. -/
def RecordedUuid (m : TransactionManager) (e : TransactionEntry) (u : CString) : Prop :=
  .uuidRecorded e.addr u ∈ m.log ∧ e.uuid = strncpy maxUuidLen u

/-- `complete_transaction` on `m` completed the transaction inserted as `e₀`. -/
structure CompletedOnly (m : TransactionManager) (e₀ : TransactionEntry) (status : Int)
    (r : Bool × TransactionManager) : Prop where
  returned : r.1 = true
  /-- The callback, if there is one, is invoked with the status and the
  configuration it was inserted with, and nobody else's. -/
  log : r.2.log = m.log ++ (.completed e₀.addr status ::
    (e₀.callback.map fun cb => TransactionEvent.invoked e₀.addr cb status e₀.tableConfig).toList ++
      e₀.frees)
  removed : ∃ e, m.table.elements (hashCode e₀.id) = some e ∧ e.addr = e₀.addr ∧
    r.2.table.elements (hashCode e₀.id) = none
  others : ∀ key, key ≠ hashCode e₀.id → r.2.table.elements key = m.table.elements key

/-- An entry other than `e` without the uuid among those recorded does not have it. -/
theorem hasUuid_of_not_recorded {s : ManagerState} (h : Balanced s) {u : CString} (hu : u ≠ [])
    {e : TransactionEntry} (he : s.manager.table.Mem e)
    (hnot : ∀ u', RecordedUuid s.manager e u' → strncpy maxUuidLen u' ≠ strncpy maxUuidLen u) :
    e.hasUuid u = false := by
  refine Bool.eq_false_iff.2 fun hhas => ?_
  rcases h.recorded e he with hnil | ⟨u', hlog, heq⟩
  · -- no uuid yet: only the empty one would be found
    rw [hasUuid_iff (by rw [hnil]; exact Nat.zero_le _), hnil] at hhas
    unfold strncpy at hhas
    rw [eq_comm, List.take_eq_nil_iff] at hhas
    exact hhas.elim (by decide) hu
  · rw [hasUuid_iff (by rw [heq]; exact CString.strncpy_length_le _ _), heq] at hhas
    exact hnot u' ⟨hlog, heq⟩ hhas

/-- **Receipt, then feedback.**  From any reachable table: a receipt gives the
live transaction of `rid` a uuid that no other has, other receipts follow, and
the feedback completes the transaction of `rid` and nothing else; a second
feedback with the uuid finds nothing. -/
theorem complete_after_update {s : ManagerState} (h : managerMachine.Reachable s) {rid u : CString}
    {e : TransactionEntry} (he : s.manager.table.Mem e) (hid : e.id = atou rid) (hu : u ≠ [])
    (hother : ∀ e', s.manager.table.Mem e' → e' ≠ e → ∀ u', RecordedUuid s.manager e' u' →
    strncpy maxUuidLen u' ≠ strncpy maxUuidLen u)
    {receipts : List (CString × CString)}
    (hreceipts : ∀ r ∈ receipts, OtherReceipt (atou rid) u s.manager r)
    {body : TransactionManager → TransactionManager} (hbody : LeavesAlone body) (status : Int) :
    let m := updateTransactions receipts (updateTransaction (some rid) (some u) s.manager).2
    let r := completeTransaction body (some u) status m
    (updateTransaction (some rid) (some u) s.manager).1 = true ∧
      (∃ e₀ : TransactionEntry, .inserted e₀ ∈ s.manager.log ∧ e₀.Same e ∧
        CompletedOnly m e₀ status r) ∧
      ∀ body' status', completeTransaction body' (some u) status' r.2 = (false, r.2) := by
  intro m r
  have hbal := balanced_of_reachable h
  obtain ⟨e₀, hsame, hlife⟩ := (hbal.ledger.account e.addr).live e he rfl
  have hinserted : TransactionEvent.inserted e₀ ∈ s.manager.log := by
    have hmem : TransactionEvent.inserted e₀ ∈ life e.addr s.manager.log := by
      rw [hlife]
      exact List.mem_singleton_self _
    exact (KeyedLog.mem_history.1 hmem).1
  have hslot : hashCode (e.withUuid u).id = hashCode e₀.id := by rw [withUuid_id, hsame.id]
  -- the receipt, and those after it
  have hfirst : LeadsTo u (updateTransaction (some rid) (some u) s.manager).2.table (e.withUuid u) := by
    refine leadsTo_update he hid fun e' he' hne => ?_
    exact hasUuid_of_not_recorded hbal hu he' (hother e' he' hne)
  have hleads : LeadsTo u m.table (e.withUuid u) := by
    refine hfirst.updates fun r hr => ?_
    obtain ⟨hlive, hne, hu'⟩ := hreceipts r hr
    exact ⟨exists_live_update hlive, by rwa [withUuid_id, hid], hu'⟩
  -- the feedback
  obtain ⟨hret, htable, hlog⟩ := completeTransaction_of_leadsTo hbody status hleads
  have hsame' : e₀.Same (e.withUuid u) := hsame.trans ⟨rfl, rfl, rfl, rfl⟩
  refine ⟨?_, ⟨e₀, hinserted, hsame, ⟨hret, ?_, ?_, fun key hkey => ?_⟩⟩,
    fun body' status' => ?_⟩
  · have hk : s.manager.table.elements (hashCode (atou rid)) = some e := hid ▸ he
    rw [updateTransaction_of_some hk]
  · rw [hlog, hsame'.completion, hsame'.frees, List.append_assoc]
    rfl
  · refine ⟨e.withUuid u, hslot ▸ hleads.live, hsame.addr, ?_⟩
    rw [htable, ← hslot, SlotTable.clear_elements_self]
  · rw [htable, SlotTable.clear_elements_of_ne _ (by rwa [hslot])]
  · unfold completeTransaction
    rw [takeTransaction_of_cleared hleads htable]

/-- Requests 1 and 2 wait for their receipts. -/
def insertTwo : List ManagerCall :=
  insertOne ++ [.insert true (some (ofString "2")) (some (.client 1)) (some (.gwConfig none))]

def twoWaiting : ManagerState := (managerMachine.run .start insertTwo).getD .start

/-- The receipts come in, that of request 1 with more bytes than are kept, and
then the feedback for request 1. -/
def bothReceived (u : CString) : TransactionManager :=
  updateTransactions [(ofString "2", ofString "v")]
    (updateTransaction (some (ofString "1")) (some u) twoWaiting.manager).2

theorem complete_after_update_two :
    ∃ e₀ : TransactionEntry, e₀.callback = some (.client 0) ∧
      CompletedOnly (bothReceived (List.replicate 40 97)) e₀ 0
        (completeTransaction id (some (List.replicate 40 97)) 0 (bothReceived (List.replicate 40 97))) := by
  have hrun : managerMachine.run .start insertTwo = some twoWaiting := rfl
  have hreach : managerMachine.Reachable twoWaiting := Machine.reachable_of_run (.init rfl) hrun
  let e : TransactionEntry := ⟨0, 1, [], .init, some (.client 0), .gwConfig none, 1⟩
  have he : twoWaiting.manager.table.Mem e := rfl
  have hother : ∀ e', twoWaiting.manager.table.Mem e' → e' ≠ e →
      ∀ u', RecordedUuid twoWaiting.manager e' u' →
        strncpy maxUuidLen u' ≠ strncpy maxUuidLen (List.replicate 40 97) := by
    intro e' _ _ u' hrec
    -- nothing has been recorded so far
    have hlog : TransactionEvent.uuidRecorded e'.addr u' ∈ [.inserted e, .inserted ⟨1, 2, [], .init,
      some (.client 1), .gwConfig none, 1⟩] := hrec.1
    simp at hlog
  have hreceipts : ∀ r ∈ [(ofString "2", ofString "v")],
      OtherReceipt (atou (ofString "1")) (List.replicate 40 97) twoWaiting.manager r := by
    intro r hr
    rw [List.mem_singleton.1 hr]
    exact ⟨⟨⟨1, 2, [], .init, some (.client 1), .gwConfig none, 1⟩,
      rfl, by decide⟩, by decide, by decide⟩
  obtain ⟨_, ⟨e₀, _, hsame, hdone⟩, _⟩ :=
    complete_after_update hreach he (by decide) (by decide) hother
    hreceipts (fun _ => ⟨rfl, rfl⟩ : LeavesAlone id) 0
  exact ⟨e₀, hsame.callback.symm, hdone⟩

end OvsAgent
