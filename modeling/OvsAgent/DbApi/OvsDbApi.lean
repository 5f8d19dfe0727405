/-
  OvsAgent.DbApi.OvsDbApi — the OVSDB abstraction layer of one process.

  Follows OvsDbApi.c with the lists of receipt_list.c and mon_update_list.c
  and the write half of ovsdb_socket.c.  The layer's state is the id counter,
  the receipt list, the monitor list and what the socket has accepted.

  What the code does not decide comes in as an `Outcome`: whether `malloc`
  finds room for a list node, and what `send` answers.
-/
import OvsAgent.DbApi.Encoders

namespace OvsAgent

open CString (ofString strncpy strncmpEq utoa)

/-! ## §1. The registries. -/

/-- `receipt_node_t`. -/
structure ReceiptNode where
  rid : CString
  callback : Option OvsdbReceiptCb
  receiptType : OvsdbReceiptId
  deriving Repr, DecidableEq

/-- `mon_node_t`. -/
structure MonNode where
  uuid : CString
  callback : Option OvsInteractCb
  deriving Repr, DecidableEq

/-- `receipt_list_add`; `none` is a failure status and leaves the list alone. -/
def receiptListAdd (malloc : Bool) (rid : CString) (receiptType : OvsdbReceiptId)
    (cb : Option OvsdbReceiptCb) (msgList : List ReceiptNode) : Option (List ReceiptNode) :=
  if malloc then some (msgList ++ [⟨strncpy maxUuidLen rid, cb, receiptType⟩]) else none

/-- `mon_list_add`. -/
def monListAdd (malloc : Bool) (uuid : CString) (cb : Option OvsInteractCb)
    (msgList : List MonNode) : Option (List MonNode) :=
  if malloc then some (msgList ++ [⟨strncpy maxUuidLen uuid, cb⟩]) else none

/-- `strncmp(uuid, node->uuid, sizeof(node->uuid)) == 0`. -/
def MonNode.matches (uuid : CString) (node : MonNode) : Bool :=
  strncmpEq (maxUuidLen + 1) uuid node.uuid

/-- `mon_list_remove`: the list after the removal, `none` for a failure status.
The traversal starts with `next == NULL`, which is the loop's exit test, so
its body never runs and only the head of the list can be removed. -/
def monListRemove (uuid : CString) : List MonNode → Option (List MonNode)
  | [] => none
  | head :: tail => if head.matches uuid then some tail else none

/-! ## §2. The socket. -/

/-- What `send` answers: -1, a count short of the length asked for, or that length. -/
inductive SendResult where
  | error
  | short (n : Nat)
  | whole
  deriving Repr, DecidableEq

/-- A request text handed to `send`, and how much of it the socket took. -/
structure Sent where
  request : Json
  result : SendResult

/-- The choices of the environment during one call of the layer. -/
structure Outcome where
  receiptNode : Bool
  monNode : Bool
  send : SendResult
  deriving Repr, DecidableEq

/-- Memory for every node and a socket that takes everything. -/
def Outcome.ok : Outcome := ⟨true, true, .whole⟩

/-- The static state of OvsDbApi.c, receipt_list.c and mon_update_list.c. -/
structure OvsDbApi where
  id : Nat
  receipts : List ReceiptNode
  monitors : List MonNode
  sent : List Sent

namespace OvsDbApi

/-- After `ovsdb_init(starting_id)`. -/
def start (startingId : Nat) : OvsDbApi := ⟨startingId, [], [], []⟩

end OvsDbApi

/-- `id_generate`: an `unsigned int` that wraps around. -/
def idGenerate (db : OvsDbApi) : Nat × OvsDbApi :=
  let id := (db.id + 1) % 2 ^ 32
  (id, { db with id := id })

theorem idGenerate_lt (db : OvsDbApi) : (idGenerate db).1 < 2 ^ 32 := Nat.mod_lt _ (by decide)

/-- `ovsdb_socket_write`: whether the result is non-negative, and the socket after it. -/
def ovsdbSocketWrite (r : SendResult) (strJson : Json) (db : OvsDbApi) : Bool × OvsDbApi :=
  match r with
  | .error => (false, db)
  | r => (true, { db with sent := db.sent ++ [⟨strJson, r⟩] })

/-! ## §3. Requests. -/

/-- The stages three of the four request functions share: encode, add the
receipt node, write.  A node once added stays in the list when the write fails. -/
def registerAndWrite (o : Outcome) (strJson : Option Json) (rid : CString)
    (receiptType : OvsdbReceiptId) (receiptCb : Option OvsdbReceiptCb) (db : OvsDbApi) :
    OvsStatus × OvsDbApi :=
  match strJson with
  | none => (.failed, db)
  | some strJson =>
      match receiptListAdd o.receiptNode rid receiptType receiptCb db.receipts with
      | none => (.failed, db)
      | some receipts =>
          match ovsdbSocketWrite o.send strJson { db with receipts := receipts } with
          | (false, db) => (.failed, db)
          | (true, db) => (.success, db)

/-- `ovsdb_write`. -/
def ovsdbWrite (o : Outcome) (rID : Option CString) (config : Option RdkbTableConfig)
    (receiptCb : Option OvsdbReceiptCb) (db : OvsDbApi) : OvsStatus × OvsDbApi :=
  match rID, config with
  | some rID, some config =>
      registerAndWrite o (ovsdbInsertToJson config rID) rID .insert
        (some (receiptCb.getD .dummyReceiptCb)) db
  | _, _ => (.failed, db)

/-- `ovsdb_monitor`: draws the monitor's id, then the request's. -/
def ovsdbMonitor (o : Outcome) (ovsdbTable : OvsTable) (monCb : Option OvsInteractCb)
    (receiptCb : Option OvsdbReceiptCb) (db : OvsDbApi) : OvsStatus × OvsDbApi :=
  match monCb with
  | none => (.failed, db)
  | some monCb =>
      let (uniqueId, db) := idGenerate db
      let (rID, db) := idGenerate db
      match ovsdbMonitorToJson ovsdbTable (utoa rID) (utoa uniqueId) with
      | none => (.failed, db)
      | some strJson =>
          match receiptListAdd o.receiptNode (utoa rID) .monitor
              (some (receiptCb.getD .dummyReceiptCb)) db.receipts with
          | none => (.failed, db)
          | some receipts =>
              let db := { db with receipts := receipts }
              match monListAdd o.monNode (utoa uniqueId) (some monCb) db.monitors with
              | none => (.failed, db)
              | some monitors =>
                  match ovsdbSocketWrite o.send strJson { db with monitors := monitors } with
                  | (false, db) =>
                      -- the status of the removal is not looked at
                      let monitors := (monListRemove (utoa uniqueId) db.monitors).getD db.monitors
                      (.failed, { db with monitors := monitors })
                  | (true, db) => (.success, db)

/-- `ovsdb_monitor_cancel`; `rID` is the id of the monitor to cancel. -/
def ovsdbMonitorCancel (o : Outcome) (rID : Option CString)
    (receiptCb : Option OvsdbReceiptCb) (db : OvsDbApi) : OvsStatus × OvsDbApi :=
  match rID with
  | none => (.failed, db)
  | some rID =>
      let (newId, db) := idGenerate db
      match registerAndWrite o (ovsdbMonitorCancelToJson rID (utoa newId)) (utoa newId)
          .monitorCancel receiptCb db with
      | (.success, db) =>
          match monListRemove rID db.monitors with
          | none => (.failed, db)
          | some monitors => (.success, { db with monitors := monitors })
      | r => r

/-- `ovsdb_delete`. -/
def ovsdbDelete (o : Outcome) (ovsdbTable : OvsTable) (key value : Option CString)
    (db : OvsDbApi) : OvsStatus × OvsDbApi :=
  match key, value with
  | some key, some value =>
      let (newId, db) := idGenerate db
      registerAndWrite o (ovsdbDeleteToJson ovsdbTable (utoa newId) key value) (utoa newId)
        .delete (some .dummyReceiptCb) db
  | _, _ => (.failed, db)

/-! ## §4. The four requests as one type. -/

/-- A call of one of the four request functions with its arguments. -/
inductive DbCall where
  | write (rID : Option CString) (config : Option RdkbTableConfig)
      (receiptCb : Option OvsdbReceiptCb)
  | monitor (ovsdbTable : OvsTable) (monCb : Option OvsInteractCb)
      (receiptCb : Option OvsdbReceiptCb)
  | monitorCancel (rID : Option CString) (receiptCb : Option OvsdbReceiptCb)
  | delete (ovsdbTable : OvsTable) (key value : Option CString)

/-- Make the call. -/
def DbCall.exec (o : Outcome) : DbCall → OvsDbApi → OvsStatus × OvsDbApi
  | .write rID config receiptCb => ovsdbWrite o rID config receiptCb
  | .monitor ovsdbTable monCb receiptCb => ovsdbMonitor o ovsdbTable monCb receiptCb
  | .monitorCancel rID receiptCb => ovsdbMonitorCancel o rID receiptCb
  | .delete ovsdbTable key value => ovsdbDelete o ovsdbTable key value

end OvsAgent
