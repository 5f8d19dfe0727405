/-
  OvsAgent.Parties.OvsdbServer — the server the processes talk to.

  The part of the protocol (RFC 7047) that the requests of this code use:
  every connection is FIFO, a committed insert is answered with the row's
  uuid, a monitor request is answered with the rows that are there, and later
  commits are sent as update notifications.

  Main results:
    * `readRequest_insert`, `readRequest_monitor`, `readRequest_delete` — the
      server reads out of a request what the encoder was given;
    * `ovsdbHandleMsg_json` — a process reads out of the server's message what
      the server has put there.
-/
import OvsAgent.AgentApi.Component
import OvsAgent.DbApi.OvsdbParser

namespace OvsAgent

open CString (ofString utoa strncpy)
open Json

/-! ## §1. Requests. -/

/-- What a client asks for. -/
inductive Request where
  | insert (table : CString) (row : Json)
  | delete (table : CString) (clause : Json)
  | monitor (monId table : CString)

/-- The operation of a transact request. -/
def readOperation (op : Json) : Option Request := do
  let name ← stringValue (objectGet (some op) (ofString "op"))
  let table ← stringValue (objectGet (some op) (ofString "table"))
  if name = ofString "insert" then
    return .insert table (← objectGet (some op) (ofString "row"))
  else if name = ofString "delete" then
    return .delete table (← objectGet (some op) (ofString "where"))
  else none

/-- The id and the request of a message: one operation, or a monitor of one table. -/
def readRequest (msg : Json) : Option (CString × Request) := do
  let rid ← stringValue (objectGet (some msg) (ofString "id"))
  let method ← stringValue (objectGet (some msg) (ofString "method"))
  let params := objectGet (some msg) (ofString "params")
  if method = ofString "transact" then
    return (rid, ← readOperation (← arrayGet params 1))
  else if method = ofString "monitor" then
    let monId ← stringValue (arrayGet params 1)
    let member ← (members? (arrayGet params 2)).head?
    return (rid, .monitor monId member.1)
  else none

theorem readRequest_insert {table rid : CString} {row : List (CString × Json)}
    (htable : utf8Valid table = true) (hrid : utf8Valid rid = true) :
    readRequest (transactInsert table row rid) = some (rid, .insert table (.object row)) := by
  unfold transactInsert
  rw [jsonString_of_valid htable, jsonString_of_valid hrid]
  rfl

theorem readRequest_monitor {t : OvsTable} {rID uniqueId : Nat} {js : Json}
    (h : ovsdbMonitorToJson t (utoa rID) (utoa uniqueId) = some js) :
    ∃ table, t.name = some table ∧
      readRequest js = some (utoa rID, .monitor (utoa uniqueId) table) := by
  unfold ovsdbMonitorToJson at h
  rw [jsonString_utoa, jsonString_utoa] at h
  cases t with
  | gwConfig => cases h; exact ⟨_, rfl, rfl⟩
  | feedback => cases h; exact ⟨_, rfl, rfl⟩
  | notify => cases h
  | logbook => cases h

theorem readRequest_delete {t : OvsTable} {rID : Nat} {key value : CString} {js : Json}
    (h : ovsdbDeleteToJson t (utoa rID) key value = some js) :
    ∃ table clause, readRequest js = some (utoa rID, .delete table clause) := by
  unfold ovsdbDeleteToJson at h
  rw [jsonString_utoa] at h
  cases hc : whereJson key value with
  | none => rw [hc] at h; cases t <;> cases h
  | some clause =>
      rw [hc] at h
      cases t with
      | gwConfig => cases h; exact ⟨_, _, rfl⟩
      | feedback => cases h; exact ⟨_, _, rfl⟩
      | notify => cases h
      | logbook => cases h

/-! ## §2. The server's messages. -/

/-- What has become of a row. -/
inductive RowUpdate where
  | new (columns : Json)
  | old (columns : Json)

/-- A message of the server: the reply to a request, or the update of one row
for one monitor. -/
inductive ServerMsg where
  | reply (rid : CString) (result : Json)
  | update (monId table rowUuid : CString) (row : RowUpdate)

namespace ServerMsg

/-- The message on the wire. -/
def json : ServerMsg → Json
  | reply rid result =>
      .object [(ofString "id", .string rid), (ofString "result", result), (ofString "error", .null)]
  | update monId table rowUuid row =>
      let change := match row with
        | .new columns => (ofString "new", columns)
        | .old columns => (ofString "old", columns)
      .object [(ofString "id", .null), (ofString "method", .string (ofString "update")),
        (ofString "params",
          .array [.string monId, .object [(table, .object [(rowUuid, .object [change])])]])]

/-- The calls a process makes for the message. -/
def calls : ServerMsg → List Dispatch
  | reply rid result => [.receipt (some rid) (some result)]
  | update monId table rowUuid (.new columns) =>
      ((parseTable table columns).map fun tableConfig =>
        Dispatch.update monId ⟨tableConfig, strncpy maxUuidLen rowUuid⟩).toList
  | update _ _ _ (.old _) => []

end ServerMsg

/-- `ovsdb_parse_msg` makes one call at most for a message, and makes it with
what the server has sent. -/
theorem ovsdbHandleMsg_json (msg : ServerMsg) : ovsdbHandleMsg msg.json = some msg.calls := by
  cases msg with
  | reply rid result => rfl
  | update monId table rowUuid row =>
      cases row with
      | new columns =>
          have hrows : ovsdbHandleMsg (ServerMsg.update monId table rowUuid (.new columns)).json
              = some (updateRows monId table [(rowUuid, .object [(ofString "new", columns)])] ++ []) := rfl
          have hnew : objectGet (some (.object [(ofString "new", columns)])) (ofString "new") =
              some columns := rfl
          rw [hrows, List.append_nil, updateRows, hnew]
          cases hp : parseTable table columns with
          | none => simp [ServerMsg.calls, hp]
          | some tableConfig => simp [ServerMsg.calls, updateRows, hp]
      | old columns => rfl

/-! ## §3. The server's state. -/

/-- The two connections. -/
inductive Conn where
  | component
  | agent
  deriving Repr, DecidableEq

structure Row where
  table : CString
  uuid : CString
  columns : Json

structure Subscription where
  conn : Conn
  monId : CString
  table : CString
  deriving Repr, DecidableEq

/-- The tables, the monitors, the uuids that have been given (with the table),
how many requests of each connection have been served, and the messages on
their way. -/
structure OvsdbServer where
  rows : List Row
  subscriptions : List Subscription
  given : List (CString × CString)
  servedComponent : Nat
  servedAgent : Nat
  toComponent : List ServerMsg
  toAgent : List ServerMsg

/-- A hexadecimal digit or a hyphen. -/
def isUuidByte (b : UInt8) : Bool :=
  (48 ≤ b.toNat && b.toNat ≤ 57) || (97 ≤ b.toNat && b.toNat ≤ 102) || b.toNat == 45

/-- The form of a row's uuid. -/
def isUuid (uuid : CString) : Bool := uuid.length == maxUuidLen && uuid.all isUuidByte

theorem length_of_isUuid {uuid : CString} (h : isUuid uuid = true) : uuid.length = maxUuidLen := by
  simp only [isUuid, Bool.and_eq_true, beq_iff_eq] at h
  exact h.1

theorem utf8Valid_of_isUuid {uuid : CString} (h : isUuid uuid = true) : utf8Valid uuid = true := by
  simp only [isUuid, Bool.and_eq_true, List.all_eq_true] at h
  refine utf8Valid_of_ascii uuid fun b hb => ?_
  have hbyte := h.2 b hb
  simp only [isUuidByte, Bool.or_eq_true, Bool.and_eq_true, decide_eq_true_eq, beq_iff_eq] at hbyte
  omega

namespace OvsdbServer

def start : OvsdbServer := ⟨[], [], [], 0, 0, [], []⟩

/-- One condition of a `where` clause. -/
def conditionHolds (row : Row) : Json → Bool
  | .array [.string column, _, .array [_, .string uuid]] =>
      column == ovsdbTableUuidAlt && uuid == row.uuid
  | .array [.string column, _, .string value] =>
      stringValue (objectGet (some row.columns) column) == some value
  | _ => false

/-- The rows an operation with this clause is about. -/
def selects (table : CString) (clause : Json) (row : Row) : Bool :=
  row.table == table && match clause with
    | .array conditions => conditions.all (conditionHolds row)
    | _ => false

/-- The updates one connection gets for a change of rows of a table. -/
def updatesFor (sv : OvsdbServer) (conn : Conn) (table : CString)
    (changes : List (CString × RowUpdate)) : List ServerMsg :=
  (sv.subscriptions.filter fun sub => sub.conn == conn && sub.table == table).flatMap fun sub =>
    changes.map fun change => .update sub.monId table change.1 change.2

/-- The updates of a change go out, then the reply to the request that made it. -/
def answer (sv : OvsdbServer) (conn : Conn) (table : CString)
    (changes : List (CString × RowUpdate)) (rid : CString) (result : Json) : OvsdbServer :=
  { sv with
    toComponent := sv.toComponent ++ (sv.updatesFor .component table changes ++
      if conn = .component then [.reply rid result] else [])
    toAgent := sv.toAgent ++ (sv.updatesFor .agent table changes ++
      if conn = .agent then [.reply rid result] else []) }

/-- The result of a delete. -/
def deleteResult (count : Nat) : Json := .array [.object [(ofString "count", .integer count)]]

/-- The result of a monitor request: the rows that are there. -/
def monitorResult (table : CString) (rows : List Row) : Json :=
  .object [(table, .object (rows.map fun row => (row.uuid, .object [(ofString "new", row.columns)])))]

/-- The server carries out a request of `conn`; `uuid` is what a new row gets.
A request it cannot read is answered with an error, which is not modelled. -/
def carryOut (sv : OvsdbServer) (conn : Conn) (uuid : CString) (msg : Json) : Option OvsdbServer :=
  match readRequest msg with
  | none => none
  | some (rid, .insert table row) =>
      if isUuid uuid && !(sv.given.any fun g => g.2 == uuid) then
        let sv : OvsdbServer := { sv with
          rows := sv.rows ++ [⟨table, uuid, row⟩]
          given := sv.given ++ [(table, uuid)] }
        some (sv.answer conn table [(uuid, .new row)] rid (insertResult uuid))
      else none
  | some (rid, .delete table clause) =>
      let gone := sv.rows.filter (selects table clause)
      let sv : OvsdbServer := { sv with rows := sv.rows.filter fun row => !selects table clause row }
      some (sv.answer conn table (gone.map fun row => (row.uuid, .old row.columns)) rid
        (deleteResult gone.length))
  | some (rid, .monitor monId table) =>
      let sv : OvsdbServer := { sv with
        subscriptions := sv.subscriptions ++ [⟨conn, monId, table⟩] }
      some (sv.answer conn table [] rid
        (monitorResult table (sv.rows.filter fun row => row.table == table)))

end OvsdbServer

end OvsAgent
