/-
  OvsAgent.AgentApi.Component — the threads of one process.

  Follows OvsAgentApi.c.  Any number of threads call `ovs_agent_api_interact`;
  one listener thread handles what the server sends.  They share the handle,
  the transaction table and the state of the OVSDB layer, and every access to
  one of these is a step of its own; a table operation is one access.

  Where a step needs something of its environment (memory, what `send`
  answers, which thread a signal wakes) the step's label says what it got.
-/
import OvsAgent.AgentApi.TransactionManager
import OvsAgent.DbApi.Steps
import OvsAgent.Lib.Machine

namespace OvsAgent

open CString (ofString utoa strncmpEq)
open Json (objectGet stringValue)

/-! ## §1. The threads. -/

/-- What `pthread_cond_timedwait` returned: 0, `ETIMEDOUT`, or another error. -/
inductive WaitResult where
  | ok
  | timedOut
  | error
  deriving Repr, DecidableEq

/-- The status `wait_for_callback_completion` takes from the result. -/
def WaitResult.status : WaitResult → OvsStatus
  | ok => .success
  | timedOut => .timedOut
  | error => .timedWaitError

/-- Where a call of `handle_transact_insert_request` stands. -/
inductive CallPc where
  | idGenerate
  | setBlocked
  | insertTransaction
  | ovsdbWrite (pc : DbPc)
  /-- The write failed: `if (g_handle->blocked) g_handle->blocked = false`. -/
  | clearBlocked
  | mutexLock
  /-- `while (g_handle->blocked)`, with the local `status`. -/
  | loopTest (status : OvsStatus)
  | condWait
  /-- Out of the wait queue, the mutex not yet taken again. -/
  | condWoken (result : WaitResult)
  | condReturned (result : WaitResult)
  | mutexUnlock (status : OvsStatus)
  | deleteTransaction
  | returned (rtn : Bool)

/-- A call: its arguments, its `rid`, the entry it inserted, and where it
stands.  `sent`, `expired` and `fed` are history: the request went out, the
wait timed out or failed, and the Feedback for its transaction was fully
processed while the wait had not. -/
structure Call where
  request : OvsInteractRequest
  callback : Option OvsInteractCb
  rid : Nat
  entry : Option Nat
  pc : CallPc
  sent : Bool
  expired : Bool
  fed : Bool

/-- Where the listener thread stands.  `i` is the place of the receipt node in
its list, `addr` the entry whose Feedback is being processed. -/
inductive ListenerPc where
  | idle
  | updateTransaction (i : Nat) (rid uuid : CString)
  | monitorTest (i : Nat)
  | ovsdbMonitor (i : Nat) (pc : DbPc)
  | setMonitorFeedback (i : Nat) (value : Bool)
  | unlink (i : Nat)
  /-- The callback of the completed entry is running. -/
  | callback (e : TransactionEntry) (uuid : CString)
  | deleteGwConfig (addr : Nat) (uuid : CString) (pc : DbPc)
  | deleteFeedback (addr : Nat) (uuid : CString) (pc : DbPc)
  | signalTest (addr : Nat)
  | signalLock (addr : Nat)
  | signalClear (addr : Nat)
  | condSignal (addr : Nat)
  | signalUnlock (addr : Nat)

/-- Who holds `g_handle->mutex`. -/
inductive Owner where
  | listener
  | call (n : Nat)
  deriving Repr, DecidableEq

/-- A process after `ovs_agent_api_init`: the handle, what lies below it, the
calls of its threads (by number) and the listener.  `monitorCalls` are the
monitor requests the process makes itself. -/
structure Component where
  blocked : Bool
  monitorFeedback : Bool
  mutex : Option Owner
  manager : TransactionManager
  db : OvsDbApi
  calls : List Call
  monitorCalls : List DbPc
  listener : ListenerPc

/-- `OVS_STARTING_ID_MULTIPLIER`. -/
abbrev ovsStartingIdMultiplier : Nat := 1000

namespace Call

/-- `request->block_mode == OVS_ENABLE_BLOCK_MODE`. -/
def blocking (c : Call) : Bool := c.request.blockMode = .enable

/-- A call before its first access. -/
def start (request : OvsInteractRequest) (callback : Option OvsInteractCb) : Call :=
  ⟨request, callback, 0, none, .idGenerate, false, false, false⟩

/-- The call goes on to `pc`. -/
def goto (c : Call) (pc : CallPc) : Call := { c with pc := pc }

/-- The call after an access of its `ovsdb_write`. -/
def afterWrite (c : Call) : DbPc → Call
  | .returned .success =>
      { c with sent := true, pc := if c.blocking then .mutexLock else .returned true }
  | .returned _ => c.goto .clearBlocked
  | pc => c.goto (.ovsdbWrite pc)

/-- The call at its `ovsdb_write`. -/
def write (c : Call) (receiptCb : Option OvsdbReceiptCb) : Call :=
  c.afterWrite (DbCall.write (some (utoa c.rid)) (some c.request.tableConfig) receiptCb).start

/-- `callback || request->block_mode == OVS_ENABLE_BLOCK_MODE`. -/
def registers (c : Call) : Bool := c.callback.isSome || c.blocking

/-- The Feedback for the entry at `addr` has been fully processed. -/
def feed (addr : Nat) (c : Call) : Call :=
  { c with fed := c.fed || (c.entry = some addr && c.sent && !c.expired) }

/-- What the call has returned. -/
def result (c : Call) : Option Bool :=
  match c.pc with
  | .returned rtn => some rtn
  | _ => none

theorem pc_of_result {c : Call} {rtn : Bool} (h : c.result = some rtn) : c.pc = .returned rtn := by
  unfold result at h
  split at h
  · next hpc => cases h; exact hpc
  · cases h

/-- The thread is in the wait queue of the condition. -/
def waiting (c : Call) : Bool :=
  match c.pc with
  | .condWait => true
  | _ => false

end Call

namespace Component

/-- After `ovs_agent_api_init(cid)`. -/
def start (cid : Nat) : Component :=
  ⟨false, false, none, .start, .start (cid * ovsStartingIdMultiplier), [], [], .idle⟩

/-- Call `n` becomes `c`. -/
def setCall (s : Component) (n : Nat) (c : Call) : Component :=
  { s with calls := s.calls.set n c }

end Component

/-! ## §2. The steps of a call. -/

/-- The next access of call `n`; `none` when it cannot go on by itself. -/
def callStep (s : Component) (n : Nat) (malloc : Bool) (o : Outcome) : Option Component :=
  match s.calls[n]? with
  | none => none
  | some c =>
      match c.pc with
      | .idGenerate =>
          let (id, db) := idGenerate s.db
          let c := { c with rid := id }
          some ({ s with db := db }.setCall n
            (if c.registers then c.goto .setBlocked else c.write none))
      | .setBlocked =>
          some ({ s with blocked := c.blocking }.setCall n (c.goto .insertTransaction))
      | .insertTransaction =>
          match insertTransaction malloc (some (utoa c.rid)) c.callback
              (some c.request.tableConfig) s.manager with
          | (false, m) => some ({ s with manager := m }.setCall n (c.goto (.returned false)))
          | (true, m) =>
              let c := { c with entry := some s.manager.mallocs }
              some ({ s with manager := m }.setCall n (c.write (some .ovsAgentApiWriteCallback)))
      | .ovsdbWrite pc =>
          let (pc, db) := dbStep o pc s.db
          some ({ s with db := db }.setCall n (c.afterWrite pc))
      | .clearBlocked => some ({ s with blocked := false }.setCall n (c.goto .deleteTransaction))
      | .mutexLock =>
          match s.mutex with
          | none => some ({ s with mutex := some (.call n) }.setCall n (c.goto (.loopTest .failed)))
          | some _ => none
      | .loopTest status =>
          if s.blocked then some ({ s with mutex := none }.setCall n (c.goto .condWait))
          else some (s.setCall n (c.goto (.mutexUnlock status)))
      | .condWait => none
      | .condWoken result =>
          match s.mutex with
          | none => some ({ s with mutex := some (.call n) }.setCall n (c.goto (.condReturned result)))
          | some _ => none
      | .condReturned .ok => some (s.setCall n (c.goto (.loopTest .success)))
      | .condReturned result =>
          some ({ s with blocked := false }.setCall n (c.goto (.loopTest result.status)))
      | .mutexUnlock .success =>
          some ({ s with mutex := none }.setCall n (c.goto (.returned true)))
      | .mutexUnlock _ => some ({ s with mutex := none }.setCall n (c.goto .deleteTransaction))
      | .deleteTransaction =>
          some ({ s with manager := (deleteTransaction (some (utoa c.rid)) s.manager).2 }.setCall n
            (c.goto (.returned false)))
      | .returned _ => none

/-! ## §3. The steps of the listener. -/

/-- The delete request for the acted-on Gateway_Config row. -/
def deleteGwConfigCall (uuid : CString) : DbCall :=
  .delete .gwConfig (some ovsdbTableUuid) (some uuid)

/-- The delete request for the Feedback row itself. -/
def deleteFeedbackCall (uuid : CString) : DbCall :=
  .delete .feedback (some feedbackReqUuid) (some uuid)

/-- `send_monitor_feedback_request`. -/
def monitorFeedbackCall : DbCall :=
  .monitor .feedback (some .ovsAgentApiMonitorFeedbackCallback) none

namespace ListenerPc

/-- After an access of `send_monitor_feedback_request`. -/
def afterMonitor (i : Nat) : DbPc → ListenerPc
  | .returned status => .setMonitorFeedback i (status = .success)
  | pc => .ovsdbMonitor i pc

/-- After an access of the first delete. -/
def afterDeleteGwConfig (addr : Nat) (uuid : CString) : DbPc → ListenerPc
  | .returned .success => .deleteFeedback addr uuid (deleteFeedbackCall uuid).start
  | .returned _ => .idle
  | pc => .deleteGwConfig addr uuid pc

/-- After an access of the second delete. -/
def afterDeleteFeedback (addr : Nat) (uuid : CString) : DbPc → ListenerPc
  | .returned .success => .signalTest addr
  | .returned _ => .idle
  | pc => .deleteFeedback addr uuid pc

/-- The call of a receipt's callback. -/
def receiptCallback (i : Nat) (rid : CString) (cb : OvsdbReceiptCb) (receipt : OvsDbReceipt) :
    ListenerPc :=
  match cb, receipt with
  | .ovsAgentApiWriteCallback, .insert _ uuid => .updateTransaction i rid uuid
  | _, _ => .unlink i

end ListenerPc

/-- The request with this id was given to the socket. -/
def OvsDbApi.asked (db : OvsDbApi) (rid : CString) : Bool :=
  db.sent.any fun x => stringValue (objectGet (some x.request) (ofString "id")) == some rid

/-- `receipt_list_process`: the listener has read a reply to request `rid`.
The node stays in the list while its callback runs. -/
def receiptStep (s : Component) (rid : CString) (result : Option Json) : Option Component :=
  match s.listener, s.db.asked rid with
  | .idle, true =>
      match s.db.receipts.findIdx? fun node => strncmpEq (maxUuidLen + 1) rid node.rid with
      | none => some s
      | some i =>
          match s.db.receipts[i]? with
          | none => some s
          | some node =>
              match ovsdbParseResult node.receiptType result, node.callback with
              | .ok (some receipt), some cb =>
                  some { s with listener := .receiptCallback i rid cb receipt }
              | .ok none, _ => some s
              -- the process is gone
              | _, _ => none
  | _, _ => none

/-- `ovs_agent_api_monitor_feedback_callback` up to the end of
`find_transaction_key` and `remove_transaction_table`. -/
def monitorFeedbackCallback (tableConfig : RdkbTableConfig) (s : Component) : Component :=
  match tableConfig with
  | .feedback (some feedback) =>
      match takeTransaction (some feedback.val.reqUuid) feedback.val.status s.manager with
      | none => s
      | some (e, m) =>
          match e.callback with
          | none =>
              { s with
                manager := destroyTransaction e m
                listener := .afterDeleteGwConfig e.addr feedback.val.reqUuid
                  (deleteGwConfigCall feedback.val.reqUuid).start }
          | some _ => { s with manager := m, listener := .callback e feedback.val.reqUuid }
  | _ => s

/-- The listener has read a row of an update for monitor `monId`:
`parse_table`, then `mon_list_process`.  Other callbacks are the client's. -/
def updateStep (s : Component) (monId tableName : CString) (row : Json) : Option Component :=
  match s.listener with
  | .idle =>
      match parseTable tableName row, s.db.monitors.find? fun node => node.matches monId with
      | some tableConfig, some node =>
          match node.callback with
          | some .ovsAgentApiMonitorFeedbackCallback => some (monitorFeedbackCallback tableConfig s)
          | some _ => some s
          | none => none
      | _, _ => some s
  | _ => none

/-- The end of `signal_callback_completion`. -/
def Component.signalled (s : Component) (addr : Nat) : Component :=
  { s with calls := s.calls.map (Call.feed addr), listener := .idle }

/-- `pthread_cond_signal`: some waiting thread is woken, if there is one. -/
def condSignal (s : Component) (addr : Nat) : Option Nat → Option Component
  | none => if s.calls.any Call.waiting then none else some { s with listener := .signalUnlock addr }
  | some n =>
      match s.calls[n]? with
      | none => none
      | some c =>
          if c.waiting then
            some ({ s with listener := .signalUnlock addr }.setCall n (c.goto (.condWoken .ok)))
          else none

/-- The next access of the listener within the handling of a message. -/
def listenerStep (s : Component) (o : Outcome) (waiter : Option Nat) : Option Component :=
  match s.listener with
  | .idle => none
  | .updateTransaction i rid uuid =>
      match updateTransaction (some rid) (some uuid) s.manager with
      | (true, m) => some { s with manager := m, listener := .monitorTest i }
      | (false, m) => some { s with manager := m, listener := .unlink i }
  | .monitorTest i =>
      if s.monitorFeedback then some { s with listener := .unlink i }
      else some { s with listener := .afterMonitor i monitorFeedbackCall.start }
  | .ovsdbMonitor i pc =>
      let (pc, db) := dbStep o pc s.db
      some { s with db := db, listener := .afterMonitor i pc }
  | .setMonitorFeedback i value => some { s with monitorFeedback := value, listener := .unlink i }
  | .unlink i =>
      some { s with
        db := { s.db with receipts := s.db.receipts.eraseIdx i }
        listener := .idle }
  | .callback e uuid =>
      some { s with
        manager := destroyTransaction e s.manager
        listener := .afterDeleteGwConfig e.addr uuid (deleteGwConfigCall uuid).start }
  | .deleteGwConfig addr uuid pc =>
      let (pc, db) := dbStep o pc s.db
      some { s with db := db, listener := .afterDeleteGwConfig addr uuid pc }
  | .deleteFeedback addr uuid pc =>
      let (pc, db) := dbStep o pc s.db
      some { s with db := db, listener := .afterDeleteFeedback addr uuid pc }
  | .signalTest addr =>
      if s.blocked then some { s with listener := .signalLock addr } else some (s.signalled addr)
  | .signalLock addr =>
      match s.mutex with
      | none => some { s with mutex := some .listener, listener := .signalClear addr }
      | some _ => none
  | .signalClear addr => some { s with blocked := false, listener := .condSignal addr }
  | .condSignal addr => condSignal s addr waiter
  | .signalUnlock addr => some ({ s with mutex := none }.signalled addr)

/-! ## §4. The machine. -/

/-- A step of the process, with the choices of its environment. -/
inductive ComponentStep where
  /-- A thread calls `ovs_agent_api_interact` with an insert request. -/
  | interact (request : OvsInteractRequest) (callback : Option OvsInteractCb)
  | call (n : Nat) (malloc : Bool) (o : Outcome)
  /-- `pthread_cond_timedwait` of call `n` ends, 0 being a spurious wake-up. -/
  | wake (n : Nat) (result : WaitResult)
  /-- A thread calls `ovs_agent_api_interact` with a monitor request. -/
  | interactMonitor (ovsdbTable : OvsTable) (callback : Option OvsInteractCb)
  | monitorCall (n : Nat) (o : Outcome)
  /-- The listener has read a reply. -/
  | receipt (rid : CString) (result : Option Json)
  /-- The listener has read a row of an update. -/
  | update (monId tableName : CString) (row : Json)
  | listener (o : Outcome) (waiter : Option Nat)

/-- `pthread_cond_timedwait` ends for another reason than a signal. -/
def wakeStep (s : Component) (n : Nat) (result : WaitResult) : Option Component :=
  match s.calls[n]? with
  | none => none
  | some c =>
      if c.waiting then
        let c := { c with expired := c.expired || result ≠ WaitResult.ok }
        some (s.setCall n (c.goto (.condWoken result)))
      else none

/-- One step of the process. -/
def componentStep (s : Component) : ComponentStep → Option Component
  | .interact request callback =>
      some { s with calls := s.calls ++ [.start request callback] }
  | .call n malloc o => callStep s n malloc o
  | .wake n result => wakeStep s n result
  | .interactMonitor ovsdbTable callback =>
      some { s with
        monitorCalls := s.monitorCalls ++ [(DbCall.monitor ovsdbTable callback none).start] }
  | .monitorCall n o =>
      match s.monitorCalls[n]? with
      | none => none
      | some pc =>
          let (pc, db) := dbStep o pc s.db
          some { s with db := db, monitorCalls := s.monitorCalls.set n pc }
  | .receipt rid result => receiptStep s rid result
  | .update monId tableName row => updateStep s monId tableName row
  | .listener o waiter => listenerStep s o waiter

/-- The process of component `cid`. -/
def componentMachine (cid : Nat) : Machine Component ComponentStep where
  init s := s = .start cid
  step := componentStep

/-! ## §5. Requests that go well. -/

/-- A request that inserts the Gateway_Config at address `config`. -/
def gatewayRequest (blockMode : OvsBlockMode) (config : Nat) : OvsInteractRequest where
  blockMode := blockMode
  tableConfig := .gwConfig (some ⟨config,
    ⟨ofString "eth1", [], [], [], [], [], ofString "brlan0", 1500, 0, 0, 0⟩⟩)

/-- Call `n` from its id to the end of its write. -/
def writeSteps (n : Nat) : List ComponentStep := List.replicate 5 (.call n true .ok)

/-- A new call, number `n`, that makes the request and writes it. -/
def requestSteps (n : Nat) (request : OvsInteractRequest) : List ComponentStep :=
  .interact request (some (.client n)) :: writeSteps n

/-- The `result` of the server's reply to an insert. -/
def insertResult (uuid : CString) : Json :=
  .array [.object [(ovsdbTableUuid, .array [.string ovsdbTableUuid, .string uuid])]]

/-- A Feedback row. -/
def feedbackRow (uuid : CString) : Json :=
  .object [(feedbackReqUuid, .string uuid), (ofString "status", .integer 0)]

/-- The reply to the first insert of a process, and the monitor request it leads to. -/
def firstReceiptSteps (rid uuid : CString) : List ComponentStep :=
  .receipt rid (some (insertResult uuid)) :: List.replicate 9 (.listener .ok none)

/-- After a completion: the callback returns, the two deletes and the signal to
a thread that waits, `waiter`. -/
def completionSteps (waiter : Option Nat) : List ComponentStep :=
  List.replicate 10 (.listener .ok none) ++ [.listener .ok waiter, .listener .ok none]

/-- Call `n` goes from the end of its write into the wait. -/
def waitSteps (n : Nat) : List ComponentStep := List.replicate 2 (.call n true .ok)

/-- Call `n` returns after a wake-up that finds the flag cleared. -/
def returnSteps (n : Nat) : List ComponentStep := List.replicate 4 (.call n true .ok)

end OvsAgent
