/-
  OvsAgent.DbApi.Steps — the request functions one shared access at a time.

  `DbCall.exec` runs a request function as if nothing else ran.  In a process
  with several threads the id counter, the two lists and the socket are shared,
  and another thread can come in between any two accesses.  `dbStep` makes one
  access; `DbPc` is where a call stands and holds its local variables.

  Main result: `dbRun_start` — a call that is left alone is `DbCall.exec`.
-/
import OvsAgent.DbApi.OvsDbApi

namespace OvsAgent

open CString (utoa)

/-! ## §1. Where a call stands. -/

/-- The local variables of a call whose request text is ready: the text, the
receipt node to add, the monitor node to add and the monitor node to remove. -/
structure Prepared where
  strJson : Json
  rid : CString
  receiptType : OvsdbReceiptId
  receiptCb : Option OvsdbReceiptCb
  mon : Option (CString × OvsInteractCb)
  cancel : Option CString

/-- How many ids the call draws; a NULL argument is refused before the first. -/
def DbCall.draws : DbCall → Nat
  | .monitor _ (some _) _ => 2
  | .monitorCancel (some _) _ => 1
  | .delete _ (some _) (some _) => 1
  | _ => 0

/-- The call once it has drawn its ids; `none` when an argument is NULL or the
encoder refuses. -/
def DbCall.prepare : DbCall → List Nat → Option Prepared
  | .write (some rID) (some config) receiptCb, _ =>
      (ovsdbInsertToJson config rID).map fun strJson =>
        ⟨strJson, rID, .insert, some (receiptCb.getD .dummyReceiptCb), none, none⟩
  | .monitor ovsdbTable (some monCb) receiptCb, [uniqueId, rID] =>
      (ovsdbMonitorToJson ovsdbTable (utoa rID) (utoa uniqueId)).map fun strJson =>
        ⟨strJson, utoa rID, .monitor, some (receiptCb.getD .dummyReceiptCb),
          some (utoa uniqueId, monCb), none⟩
  | .monitorCancel (some rID) receiptCb, [newId] =>
      (ovsdbMonitorCancelToJson rID (utoa newId)).map fun strJson =>
        ⟨strJson, utoa newId, .monitorCancel, receiptCb, none, some rID⟩
  | .delete ovsdbTable (some key) (some value), [newId] =>
      (ovsdbDeleteToJson ovsdbTable (utoa newId) key value).map fun strJson =>
        ⟨strJson, utoa newId, .delete, some .dummyReceiptCb, none, none⟩
  | _, _ => none

/-- The shared access a call makes next. -/
inductive DbPc where
  | idGenerate (call : DbCall) (ids : List Nat)
  | receiptListAdd (p : Prepared)
  | monListAdd (p : Prepared) (uniqueId : CString) (monCb : OvsInteractCb)
  | socketWrite (p : Prepared)
  /-- Undoing a monitor whose write failed, or the end of a cancel that was sent. -/
  | monListRemove (uuid : CString) (sent : Bool)
  | returned (status : OvsStatus)

/-- The next access of a call that has drawn `ids`. -/
def DbCall.ready (call : DbCall) (ids : List Nat) : DbPc :=
  if ids.length < call.draws then .idGenerate call ids
  else
    match call.prepare ids with
    | none => .returned .failed
    | some p => .receiptListAdd p

/-- A call before its first access. -/
def DbCall.start (call : DbCall) : DbPc := call.ready []

/-! ## §2. One access. -/

/-- Make the next access. -/
def dbStep (o : Outcome) : DbPc → OvsDbApi → DbPc × OvsDbApi
  | .idGenerate call ids, db =>
      let (id, db) := idGenerate db
      (call.ready (ids ++ [id]), db)
  | .receiptListAdd p, db =>
      match receiptListAdd o.receiptNode p.rid p.receiptType p.receiptCb db.receipts with
      | none => (.returned .failed, db)
      | some receipts =>
          let db := { db with receipts := receipts }
          match p.mon with
          | none => (.socketWrite p, db)
          | some (uniqueId, monCb) => (.monListAdd p uniqueId monCb, db)
  | .monListAdd p uniqueId monCb, db =>
      match monListAdd o.monNode uniqueId (some monCb) db.monitors with
      | none => (.returned .failed, db)
      | some monitors => (.socketWrite p, { db with monitors := monitors })
  | .socketWrite p, db =>
      match ovsdbSocketWrite o.send p.strJson db with
      | (false, db) =>
          match p.mon with
          | none => (.returned .failed, db)
          | some (uniqueId, _) => (.monListRemove uniqueId false, db)
      | (true, db) =>
          match p.cancel with
          | none => (.returned .success, db)
          | some rID => (.monListRemove rID true, db)
  | .monListRemove uuid sent, db =>
      match monListRemove uuid db.monitors with
      | none => (.returned .failed, db)
      | some monitors =>
          (.returned (if sent then .success else .failed), { db with monitors := monitors })
  | .returned status, db => (.returned status, db)

/-- An access of the layer keeps what was sent. -/
theorem dbStep_sent (o : Outcome) (pc : DbPc) (db : OvsDbApi) : db.sent ⊆ (dbStep o pc db).2.sent := by
  cases pc with
  | idGenerate call ids => exact List.Subset.refl _
  | receiptListAdd p =>
      simp only [dbStep]
      split
      · exact List.Subset.refl _
      · split <;> exact List.Subset.refl _
  | monListAdd p uniqueId monCb =>
      simp only [dbStep]
      split <;> exact List.Subset.refl _
  | socketWrite p =>
      have hkept : db.sent ⊆ (ovsdbSocketWrite o.send p.strJson db).2.sent := by
        unfold ovsdbSocketWrite
        split
        · exact List.Subset.refl _
        · exact List.subset_append_left _ _
      have hdb : (dbStep o (.socketWrite p) db).2 = (ovsdbSocketWrite o.send p.strJson db).2 := by
        simp only [dbStep]
        split
        · next hw => rw [hw]; split <;> rfl
        · next hw => rw [hw]; split <;> rfl
      rw [hdb]
      exact hkept
  | monListRemove uuid sent =>
      simp only [dbStep]
      split <;> exact List.Subset.refl _
  | returned status => exact List.Subset.refl _

/-- `n` accesses with nothing in between. -/
def dbRun (o : Outcome) : Nat → DbPc → OvsDbApi → DbPc × OvsDbApi
  | 0, pc, db => (pc, db)
  | n + 1, pc, db => dbRun o n (dbStep o pc db).1 (dbStep o pc db).2

/-! ## §3. A call that is left alone. -/

theorem dbRun_returned (o : Outcome) (n : Nat) (status : OvsStatus) (db : OvsDbApi) :
    dbRun o n (.returned status) db = (.returned status, db) := by
  induction n with
  | zero => rfl
  | succ n ih => exact ih

theorem dbRun_succ (o : Outcome) (n : Nat) (pc : DbPc) (db : OvsDbApi) :
    dbRun o (n + 1) pc db = dbRun o n (dbStep o pc db).1 (dbStep o pc db).2 := rfl

/-- From the receipt node on, a call without a monitor node to add or remove is
`registerAndWrite`. -/
theorem dbRun_receiptListAdd (o : Outcome) (n : Nat) (strJson : Json) (rid : CString)
    (ty : OvsdbReceiptId) (cb : Option OvsdbReceiptCb) (db : OvsDbApi) :
    dbRun o (n + 2) (.receiptListAdd ⟨strJson, rid, ty, cb, none, none⟩) db
      = (.returned (registerAndWrite o (some strJson) rid ty cb db).1,
          (registerAndWrite o (some strJson) rid ty cb db).2) := by
  rw [dbRun_succ]
  simp only [dbStep, registerAndWrite]
  cases receiptListAdd o.receiptNode rid ty cb db.receipts with
  | none => exact dbRun_returned ..
  | some receipts =>
      simp only
      rw [dbRun_succ]
      simp only [dbStep]
      cases o.send with
      | error => exact dbRun_returned ..
      | short k => exact dbRun_returned ..
      | whole => exact dbRun_returned ..

theorem dbRun_ready_none {call : DbCall} {ids : List Nat} (o : Outcome) (n : Nat) (db : OvsDbApi)
    (hd : ids.length = call.draws) (hp : call.prepare ids = none) :
    dbRun o n (call.ready ids) db = (.returned .failed, db) := by
  unfold DbCall.ready
  rw [if_neg (by omega), hp]
  exact dbRun_returned ..

theorem dbRun_start_monitor (o : Outcome) (t : OvsTable) (monCb : OvsInteractCb)
    (receiptCb : Option OvsdbReceiptCb) (db : OvsDbApi) :
    dbRun o 6 (DbCall.monitor t (some monCb) receiptCb).start db
      = (.returned (ovsdbMonitor o t (some monCb) receiptCb db).1,
          (ovsdbMonitor o t (some monCb) receiptCb db).2) := by
  -- the two draws
  show dbRun o 4 ((DbCall.monitor t (some monCb) receiptCb).ready
    [(idGenerate db).1, (idGenerate (idGenerate db).2).1]) (idGenerate (idGenerate db).2).2 = _
  simp only [ovsdbMonitor]
  cases hj : ovsdbMonitorToJson t (utoa (idGenerate (idGenerate db).2).1)
      (utoa (idGenerate db).1) with
  | none =>
      refine dbRun_ready_none o 4 _ rfl ?_
      simp only [DbCall.prepare, hj, Option.map_none]
  | some strJson =>
      simp only [DbCall.ready, DbCall.draws, DbCall.prepare, hj, Option.map_some, List.length_cons,
        List.length_nil, lt_irrefl, if_false]
      rw [dbRun_succ]
      simp only [dbStep]
      cases receiptListAdd o.receiptNode (utoa (idGenerate (idGenerate db).2).1) .monitor
          (some (receiptCb.getD .dummyReceiptCb)) (idGenerate (idGenerate db).2).2.receipts with
      | none => exact dbRun_returned ..
      | some receipts =>
          simp only
          rw [dbRun_succ]
          simp only [dbStep]
          cases monListAdd o.monNode (utoa (idGenerate db).1) (some monCb)
              (idGenerate (idGenerate db).2).2.monitors with
          | none => exact dbRun_returned ..
          | some monitors =>
              simp only
              rw [dbRun_succ]
              simp only [dbStep]
              cases o.send with
              | short k => exact dbRun_returned ..
              | whole => exact dbRun_returned ..
              | error =>
                  simp only [ovsdbSocketWrite]
                  rw [dbRun_succ]
                  simp only [dbStep]
                  cases monListRemove (utoa (idGenerate db).1) monitors with
                  | none => rfl
                  | some rest => rfl

theorem dbRun_start_monitorCancel (o : Outcome) (rID : CString)
    (receiptCb : Option OvsdbReceiptCb) (db : OvsDbApi) :
    dbRun o 6 (DbCall.monitorCancel (some rID) receiptCb).start db
      = (.returned (ovsdbMonitorCancel o (some rID) receiptCb db).1,
          (ovsdbMonitorCancel o (some rID) receiptCb db).2) := by
  show dbRun o 5 ((DbCall.monitorCancel (some rID) receiptCb).ready [(idGenerate db).1])
    (idGenerate db).2 = _
  simp only [ovsdbMonitorCancel]
  cases hj : ovsdbMonitorCancelToJson rID (utoa (idGenerate db).1) with
  | none =>
      refine dbRun_ready_none o 5 _ rfl ?_
      simp only [DbCall.prepare, hj, Option.map_none]
  | some strJson =>
      simp only [DbCall.ready, DbCall.draws, DbCall.prepare, hj, Option.map_some, List.length_cons,
        List.length_nil, lt_irrefl, if_false, registerAndWrite]
      rw [dbRun_succ]
      simp only [dbStep]
      cases receiptListAdd o.receiptNode (utoa (idGenerate db).1) .monitorCancel receiptCb
          (idGenerate db).2.receipts with
      | none => exact dbRun_returned ..
      | some receipts =>
          simp only
          rw [dbRun_succ]
          simp only [dbStep]
          -- a sent cancel goes on to the monitor list, a refused one ends here
          cases o.send with
          | error => exact dbRun_returned ..
          | short k =>
              simp only [ovsdbSocketWrite]
              rw [dbRun_succ]
              simp only [dbStep]
              cases monListRemove rID (idGenerate db).2.monitors with
              | none => exact dbRun_returned ..
              | some rest => exact dbRun_returned ..
          | whole =>
              simp only [ovsdbSocketWrite]
              rw [dbRun_succ]
              simp only [dbStep]
              cases monListRemove rID (idGenerate db).2.monitors with
              | none => exact dbRun_returned ..
              | some rest => exact dbRun_returned ..

/-- **A call that is left alone** returns what `exec` returns and leaves what
`exec` leaves. -/
theorem dbRun_start (o : Outcome) (call : DbCall) (db : OvsDbApi) :
    dbRun o 6 call.start db = (.returned (call.exec o db).1, (call.exec o db).2) := by
  cases call with
  | write rID config receiptCb =>
      cases rID with
      | none => rfl
      | some rID =>
          cases config with
          | none => rfl
          | some config =>
              simp only [DbCall.exec, ovsdbWrite, DbCall.start]
              cases hj : ovsdbInsertToJson config rID with
              | none =>
                  -- no text: nothing is registered or sent
                  refine dbRun_ready_none o 6 _ rfl ?_
                  simp only [DbCall.prepare, hj, Option.map_none]
              | some strJson =>
                  simp only [DbCall.ready, DbCall.draws, DbCall.prepare, hj, Option.map_some,
                    List.length_nil, lt_irrefl, if_false]
                  exact dbRun_receiptListAdd o 4 ..
  | monitor t monCb receiptCb =>
      cases monCb with
      | none => rfl
      | some monCb => exact dbRun_start_monitor o t monCb receiptCb db
  | monitorCancel rID receiptCb =>
      cases rID with
      | none => rfl
      | some rID => exact dbRun_start_monitorCancel o rID receiptCb db
  | delete t key value =>
      cases key with
      | none => rfl
      | some key =>
          cases value with
          | none => rfl
          | some value =>
              show dbRun o 5 ((DbCall.delete t (some key) (some value)).ready [(idGenerate db).1])
                (idGenerate db).2 = _
              simp only [DbCall.exec, ovsdbDelete]
              cases hj : ovsdbDeleteToJson t (utoa (idGenerate db).1) key value with
              | none =>
                  refine dbRun_ready_none o 5 _ rfl ?_
                  simp only [DbCall.prepare, hj, Option.map_none]
              | some strJson =>
                  simp only [DbCall.ready, DbCall.draws, DbCall.prepare, hj, Option.map_some,
                    List.length_cons, List.length_nil, lt_irrefl, if_false]
                  exact dbRun_receiptListAdd o 3 ..

end OvsAgent
