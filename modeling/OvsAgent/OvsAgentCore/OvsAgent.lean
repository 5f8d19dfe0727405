/-
  OvsAgent.OvsAgentCore.OvsAgent — the agent acts on every new row and answers it.

  Follows OvsAgent.c, with the requests of OvsAgentApi.c that do not wait for
  their completion and the dispatch of mon_update_list.c.  The agent's work is
  done on the listener's thread: a row is acted on and answered before the next
  one is looked at.

  Main results:
    * `handleTransactInsertRequest_alone` — such a request is the call of the
      thread model, left alone;
    * `rows_answered_once` — an update is answered row by row.
-/
import OvsAgent.OvsAction.OvsAction
import OvsAgent.AgentApi.Component
import OvsAgent.DbApi.MonUpdateList
import OvsAgent.DbApi.ReceiptList
import OvsAgent.DbApi.Requests

namespace OvsAgent

open CString (ofString utoa strncpy)
open Json (objectGet isString)
open Traced (emit)

/-! ## §1. Requests that do not wait. -/

/-- What the agent does for others to see. -/
inductive AgentEvent where
  /-- `ovs_action_gateway_config` was run and returned this status. -/
  | acted (req : GatewayConfig) (status : OvsStatus)
  /-- `ovsdb_write` was called with this row. -/
  | ovsdbWrite (tableConfig : RdkbTableConfig)
  deriving Repr, DecidableEq

/-- The `ovsdb_write` of `handle_transact_insert_request`, and its cleanup. -/
def writeRequest (o : Outcome) (rid : CString) (tableConfig : RdkbTableConfig) (cb : Option OvsdbReceiptCb)
    (s : Component) : Traced AgentEvent (Bool × Component) := do
  emit (.ovsdbWrite tableConfig)
  match ovsdbWrite o (some rid) (some tableConfig) cb s.db with
  | (.success, db) => pure (true, { s with db := db })
  | (_, db) => pure (false, { s with
      db := db
      blocked := false
      manager := (deleteTransaction (some rid) s.manager).2 })

/-- `handle_transact_insert_request` of a request that does not block. -/
def handleTransactInsertRequest (malloc : Bool) (o : Outcome) (tableConfig : RdkbTableConfig)
    (callback : Option OvsInteractCb) (s : Component) : Traced AgentEvent (Bool × Component) :=
  let (id, db) := idGenerate s.db
  let s := { s with db := db }
  if callback.isSome then
    match insertTransaction malloc (some (utoa id)) callback (some tableConfig) s.manager with
    | (false, m) => pure (false, { s with blocked := false, manager := m })
    | (true, m) => writeRequest o (utoa id) tableConfig (some .ovsAgentApiWriteCallback)
        { s with blocked := false, manager := m }
  else writeRequest o (utoa id) tableConfig none s

/-! ## §2. The thread model. -/

/-- `k` accesses of call `n` with nothing in between. -/
def callRun (n : Nat) (malloc : Bool) (o : Outcome) : Nat → Component → Option Component
  | 0, s => some s
  | k + 1, s => (callStep s n malloc o).bind (callRun n malloc o k)

theorem callRun_succ (n : Nat) (malloc : Bool) (o : Outcome) (k : Nat) (s : Component) :
    callRun n malloc o (k + 1) s = (callStep s n malloc o).bind (callRun n malloc o k) := rfl

section Alone

variable {malloc : Bool} {o : Outcome} {calls : List Call}

theorem callRun_trans {n k k' : Nat} {s s' : Component} (h : callRun n malloc o k s = some s') :
    callRun n malloc o (k + k') s = callRun n malloc o k' s' := by
  induction k generalizing s with
  | zero =>
      cases h
      rw [Nat.zero_add]
  | succ k ih =>
      rw [Nat.succ_add, callRun_succ]
      rw [callRun_succ] at h
      cases hs : callStep s n malloc o with
      | none => rw [hs] at h; cases h
      | some s₁ =>
          rw [hs] at h
          exact ih h

/-- The last call, and the same place after it has gone on. -/
theorem getElem?_last (c : Call) : (calls ++ [c])[calls.length]? = some c := by
  rw [List.getElem?_append_right (Nat.le_refl _), Nat.sub_self]
  rfl

theorem set_last (c c' : Call) : (calls ++ [c]).set calls.length c' = calls ++ [c'] := by
  rw [List.set_append_right _ _ (Nat.le_refl _), Nat.sub_self]
  rfl

theorem afterWrite_goto (c : Call) (pc : CallPc) (p : DbPc) : (c.goto pc).afterWrite p = c.afterWrite p := by
  cases p with
  | returned status => cases status <;> rfl
  | _ => rfl

theorem setCall_last (s : Component) (c c' : Call) :
    Component.setCall { s with calls := calls ++ [c] } calls.length c' =
      { s with calls := calls ++ [c'] } := by
  unfold Component.setCall
  rw [set_last]

/-! ### The accesses of the last call. -/

section Last

variable (calls) (s : Component) (c : Call)

theorem callStep_idGenerate {c' : Call} (hpc : c.pc = .idGenerate)
    (hc' : c' = { c with rid := (idGenerate s.db).1 }) :
    callStep { s with calls := calls ++ [c] } calls.length malloc o = some { s with
      db := (idGenerate s.db).2
      calls := calls ++ [if c'.registers then c'.goto .setBlocked else c'.write none] } := by
  unfold callStep
  simp only [getElem?_last, hpc, hc']
  exact congrArg some (setCall_last { s with db := (idGenerate s.db).2 } c _)

theorem callStep_setBlocked :
    callStep { s with calls := calls ++ [c.goto .setBlocked] } calls.length malloc o
      = some { s with blocked := c.blocking, calls := calls ++ [c.goto .insertTransaction] } := by
  unfold callStep
  simp only [getElem?_last]
  exact congrArg some (setCall_last { s with blocked := c.blocking } _ _)

/-- The table operation, by what it returns. -/
theorem callStep_insertTransaction {ok : Bool} {m : TransactionManager}
    (h : insertTransaction malloc (some (utoa c.rid)) c.callback (some c.request.tableConfig) s.manager =
      (ok, m)) :
    callStep { s with calls := calls ++ [c.goto .insertTransaction] } calls.length malloc o = some { s with
      manager := m
      calls := calls ++
        [if ok then { c with entry := some s.manager.mallocs }.write (some .ovsAgentApiWriteCallback)
        else c.goto (.returned false)] } := by
  have hins : insertTransaction malloc (some (utoa (c.goto .insertTransaction).rid))
      (c.goto .insertTransaction).callback (some (c.goto .insertTransaction).request.tableConfig) s.manager
        = (ok, m) := h
  unfold callStep
  simp only [getElem?_last]
  show (match insertTransaction malloc (some (utoa (c.goto .insertTransaction).rid))
    (c.goto .insertTransaction).callback (some (c.goto .insertTransaction).request.tableConfig) s.manager with
    | (false, m) => _
    | (true, m) => _) = _
  rw [hins]
  cases ok with
  | false => exact congrArg some (setCall_last { s with manager := m } _ _)
  | true => exact congrArg some (setCall_last { s with manager := m } _ _)

theorem callStep_ovsdbWrite (pc : DbPc) :
    callStep { s with calls := calls ++ [c.goto (.ovsdbWrite pc)] } calls.length malloc o = some { s with
      db := (dbStep o pc s.db).2
      calls := calls ++ [c.afterWrite (dbStep o pc s.db).1] } := by
  rw [← afterWrite_goto c (.ovsdbWrite pc)]
  unfold callStep
  simp only [getElem?_last]
  exact congrArg some (setCall_last { s with db := (dbStep o pc s.db).2 } _ _)

theorem callStep_clearBlocked :
    callStep { s with calls := calls ++ [c.goto .clearBlocked] } calls.length malloc o
      = some { s with blocked := false, calls := calls ++ [c.goto .deleteTransaction] } := by
  unfold callStep
  simp only [getElem?_last]
  exact congrArg some (setCall_last { s with blocked := false } _ _)

theorem callStep_deleteTransaction :
    callStep { s with calls := calls ++ [c.goto .deleteTransaction] } calls.length malloc o = some { s with
      manager := (deleteTransaction (some (utoa c.rid)) s.manager).2
      calls := calls ++ [c.goto (.returned false)] } := by
  unfold callStep
  simp only [getElem?_last]
  exact congrArg some (setCall_last { s with manager := (deleteTransaction (some (utoa c.rid)) s.manager).2 }
    _ _)

end Last

/-! ### Its run. -/

/-- One access more in front of a run. -/
theorem callRun_step {n k : Nat} {s s' : Component} (h : callStep s n malloc o = some s') :
    callRun n malloc o (k + 1) s = callRun n malloc o k s' := by
  rw [callRun_succ, h, Option.bind_some]

/-- The accesses of the layer below are accesses of the call. -/
theorem callRun_write (malloc : Bool) (o : Outcome) (calls : List Call) (s : Component) (c : Call) (k : Nat) :
    ∀ (pc : DbPc) (db : OvsDbApi) {status : OvsStatus} {db' : OvsDbApi},
      dbRun o k pc db = (.returned status, db') →
      ∃ k', callRun calls.length malloc o k' { s with db := db, calls := calls ++ [c.afterWrite pc] }
        = some { s with db := db', calls := calls ++ [c.afterWrite (.returned status)] } := by
  induction k with
  | zero =>
      intro pc db status db' h
      cases h
      exact ⟨0, rfl⟩
  | succ k ih =>
      intro pc db status db' h
      by_cases hret : ∃ st, pc = .returned st
      · obtain ⟨st, rfl⟩ := hret
        rw [dbRun_returned] at h
        cases h
        exact ⟨0, rfl⟩
      · have hgoto : c.afterWrite pc = c.goto (.ovsdbWrite pc) := by
          cases pc with
          | returned st => exact absurd ⟨st, rfl⟩ hret
          | _ => rfl
        obtain ⟨k', hk'⟩ := ih (dbStep o pc db).1 (dbStep o pc db).2 h
        refine ⟨k' + 1, ?_⟩
        rw [hgoto, callRun_step (callStep_ovsdbWrite calls { s with db := db } c pc)]
        exact hk'

/-- The write of a call and what comes after it. -/
theorem callRun_writeRequest (malloc : Bool) (o : Outcome) (calls : List Call) (s : Component) {c : Call}
    (hc : c.blocking = false) (cb : Option OvsdbReceiptCb) :
    ∃ k c', callRun calls.length malloc o k { s with calls := calls ++ [c.write cb] }
        = some { (writeRequest o (utoa c.rid) c.request.tableConfig cb
          s).value.2 with calls := calls ++ [c'] } ∧
      c'.result = some (writeRequest o (utoa c.rid) c.request.tableConfig cb s).value.1 := by
  have hrun := dbRun_start o (.write (some (utoa c.rid)) (some c.request.tableConfig) cb) s.db
  obtain ⟨k, hk⟩ := callRun_write malloc o calls s c 6 _ _ hrun
  show ∃ k c', callRun calls.length malloc o k { s with
    db := s.db
    calls := calls ++
      [c.afterWrite (DbCall.write (some (utoa c.rid)) (some c.request.tableConfig) cb).start] } = _ ∧ _
  unfold writeRequest
  simp only [DbCall.exec] at hk ⊢
  cases hw : ovsdbWrite o (some (utoa c.rid)) (some c.request.tableConfig) cb s.db with
  | mk status db =>
      rw [hw] at hk
      by_cases hst : status = .success
      · rw [hst] at hk ⊢
        refine ⟨k, _, hk, ?_⟩
        unfold Call.afterWrite
        simp only [hc]
        rfl
      · have hfail : c.afterWrite (.returned status) = c.goto .clearBlocked := by
          cases status <;> first | rfl | exact absurd rfl hst
        rw [hfail] at hk
        -- the flag is cleared, then the entry is taken out of the table
        refine ⟨k + 2, c.goto (.returned false), ?_, ?_⟩
        · rw [callRun_trans hk, callRun_step (callStep_clearBlocked calls { s with db := db } c),
            callRun_step (callStep_deleteTransaction calls { s with db := db, blocked := false } c)]
          cases status <;> first | rfl | exact absurd rfl hst
        · cases status <;> first | rfl | exact absurd rfl hst

/-- **A request that does not wait**, as a call of the thread model that is left
alone: it returns what the function returns and leaves what the function leaves. -/
theorem handleTransactInsertRequest_alone (malloc : Bool) (o : Outcome) {request : OvsInteractRequest}
    (h : request.blockMode = .disable) (callback : Option OvsInteractCb) (s : Component) :
    ∃ k c, callRun s.calls.length malloc o k { s with calls := s.calls ++ [.start request callback] }
        = some { (handleTransactInsertRequest malloc o request.tableConfig callback s).value.2 with
            calls := s.calls ++ [c] } ∧
      c.result = some (handleTransactInsertRequest malloc o request.tableConfig callback s).value.1 := by
  let c : Call := { Call.start request callback with rid := (idGenerate s.db).1 }
  have hc : c.blocking = false := by
    show decide (request.blockMode = .enable) = false
    rw [h]
    rfl
  have hreg : c.registers = callback.isSome := by
    show (callback.isSome || c.blocking) = _
    rw [hc, Bool.or_false]
  have hid := @callStep_idGenerate malloc o s.calls s (.start request callback) c rfl rfl
  rw [hreg] at hid
  unfold handleTransactInsertRequest
  cases hcb : callback.isSome with
  | false =>
      rw [hcb, if_neg Bool.false_ne_true] at hid
      simp only [Bool.false_eq_true, if_false]
      obtain ⟨k, c', hk, hres⟩ := callRun_writeRequest malloc o s.calls
        { s with db := (idGenerate s.db).2 } hc none
      exact ⟨k + 1, c', (callRun_step hid).trans hk, hres⟩
  | true =>
      rw [hcb, if_pos rfl] at hid
      simp only [if_true]
      have hflag := @callStep_setBlocked malloc o s.calls { s with db := (idGenerate s.db).2 } c
      rw [hc] at hflag
      cases hins : insertTransaction malloc (some (utoa (idGenerate s.db).1)) callback
          (some request.tableConfig) s.manager with
      | mk inserted m =>
          have htable := @callStep_insertTransaction malloc o s.calls
            { s with db := (idGenerate s.db).2, blocked := false } c _ _ hins
          cases inserted with
          | false =>
              refine ⟨3, c.goto (.returned false), ?_, rfl⟩
              rw [callRun_step hid, callRun_step hflag, callRun_step htable]
              rfl
          | true =>
              have hc' : { c with entry := some s.manager.mallocs }.blocking = false := hc
              obtain ⟨k, c', hk, hres⟩ := callRun_writeRequest malloc o s.calls
                { s with db := (idGenerate s.db).2, blocked := false, manager := m } hc'
                (some .ovsAgentApiWriteCallback)
              refine ⟨k + 3, c', ?_, hres⟩
              rw [callRun_step hid, callRun_step hflag, callRun_step htable]
              exact hk

end Alone

/-! ## §3. The callback. -/

/-- The request `gwconf_mon_cb` makes once it has acted on a row, `ret` being
what `ovs_action_gateway_config` returned. -/
def gwconfMonCb (ret : Int) (tableConfig : OvsAgentTableConfig) : OvsInteractRequest where
  blockMode := .disable
  tableConfig := .feedback (some ⟨0, ⟨ret, strncpy maxUuidLen tableConfig.uuid⟩⟩)

/-- What the environment answers while one row is handled. -/
structure RowEnv where
  action : ActionEnv
  malloc : Bool
  outcome : Outcome

/-- The process has its monitor of the Gateway_Config table, with this id. -/
def Component.MonitorsGateway (s : Component) (monId : CString) : Prop :=
  ∃ node, s.db.monitors.find? (fun node => node.matches monId) = some node ∧
    node.callback = some .gwconfMonCb

namespace Agent

/-- `gwconf_mon_cb`. -/
def gwconfMonCb (conf : OvsActionConfig) (env : RowEnv) (tableConfig : OvsAgentTableConfig) (s : Component) :
    Traced AgentEvent Component :=
  match tableConfig.tableConfig with
  | .gwConfig (some config) => do
      let ret := (ovsActionGatewayConfig conf env.action config.val).value
      emit (.acted config.val ret)
      let request := OvsAgent.gwconfMonCb ret.toInt tableConfig
      let r ← handleTransactInsertRequest env.malloc env.outcome request.tableConfig none s
      pure r.2
  -- `config` is NULL; rows of other tables come to other callbacks
  | _ => pure s

/-- One call out of the parser; `none` when the process does not survive it.
The agent's receipts have a callback that does nothing. -/
def dispatch (conf : OvsActionConfig) (env : CString → RowEnv) (s : Component) :
    Dispatch → Traced AgentEvent (Option Component)
  | .update uuid tableConfig =>
      match (monListProcess uuid tableConfig.tableConfig s.db.monitors).invoked with
      | some (some .gwconfMonCb, _) => do
          let s ← gwconfMonCb conf (env tableConfig.uuid) tableConfig s
          pure (some s)
      | some (none, _) => pure none
      | _ => pure (some s)
  | .receipt rid result =>
      match receiptListProcess (fun _ => []) rid result s.db.receipts with
      | .ok r => pure (some { s with db := { s.db with receipts := r.receipts } })
      | .error _ => pure none

/-- The calls out of the parser, one after the other. -/
def dispatches (conf : OvsActionConfig) (env : CString → RowEnv) :
    List Dispatch → Component → Traced AgentEvent (Option Component)
  | [], s => pure (some s)
  | call :: calls, s => do
      let r ← dispatch conf env s call
      match r with
      | some s => dispatches conf env calls s
      | none => pure none

/-- The end of `OvsAgentInit`: the monitor request. -/
def ovsAgentInit (o : Outcome) (s : Component) : Bool × Component :=
  let (status, db) := ovsdbMonitor o .gwConfig (some .gwconfMonCb) none s.db
  (status = .success, { s with db := db })

/-! ## §4. An update. -/

variable {conf : OvsActionConfig} {env : CString → RowEnv} {s : Component}

/-- The agent's part of a row: what a `new` member says. -/
def newConfig (row : CString × Json) : Option GatewayConfig :=
  (objectGet (some row.2) (ofString "new")).map gatewayConfigParser

/-- What is to be done for a row: nothing, or one action and one Feedback with
the row's key and the action's status. -/
def answer (conf : OvsActionConfig) (env : CString → RowEnv) (row : CString × Json) : List AgentEvent :=
  match newConfig row with
  | none => []
  | some req =>
      let status := (ovsActionGatewayConfig conf (env row.1).action req).value
      [.acted req status, .ovsdbWrite (.feedback (some ⟨0, ⟨status.toInt, row.1⟩⟩))]

/-- An update notification for monitor `monId` with the rows `rows` of the
Gateway_Config table and no other table. -/
structure IsUpdate (msg : Json) (monId : CString) (rows : List (CString × Json)) : Prop where
  id : objectGet (some msg) (ofString "id") = some .null
  method : isString (objectGet (some msg) (ofString "method")) = true
  params : objectGet (some msg) (ofString "params")
    = some (.array [.string monId, .object [(gatewayConfigTableName, .object rows)]])
  keys : ∀ row ∈ rows, row.1.length = maxUuidLen

/-- The first monitor with the id is the one whose callback is called. -/
theorem monListProcess_invoked (uuid : CString) (tableConfig : RdkbTableConfig) (msgList : List MonNode) :
    (monListProcess uuid tableConfig msgList).invoked
      = (msgList.find? fun node => node.matches uuid).map fun node => (node.callback, tableConfig) := by
  induction msgList with
  | nil => rfl
  | cons node msgList ih =>
      unfold monListProcess
      cases hm : node.matches uuid with
      | true => simp [hm]
      | false => simpa [hm] using ih

/-- A write leaves the monitors alone, whatever comes of it. -/
theorem ovsdbWrite_monitors (o : Outcome) (rid : CString) (tableConfig : RdkbTableConfig)
    (cb : Option OvsdbReceiptCb) (db : OvsDbApi) :
    (ovsdbWrite o (some rid) (some tableConfig) cb db).2.monitors = db.monitors := by
  show (registerAndWrite o (ovsdbInsertToJson tableConfig rid) rid .insert _ db).2.monitors = _
  cases ovsdbInsertToJson tableConfig rid with
  | none => rfl
  | some strJson =>
      unfold registerAndWrite receiptListAdd
      cases o.receiptNode with
      | false => rfl
      | true => cases hs : o.send <;> simp [ovsdbSocketWrite]

theorem writeRequest_trace (o : Outcome) (rid : CString) (tableConfig : RdkbTableConfig)
    (cb : Option OvsdbReceiptCb) (s : Component) :
    (writeRequest o rid tableConfig cb s).trace = [.ovsdbWrite tableConfig] := by
  unfold writeRequest
  rw [Traced.bind_trace]
  cases ovsdbWrite o (some rid) (some tableConfig) cb s.db with
  | mk status db => cases status <;> rfl

theorem writeRequest_monitors (o : Outcome) (rid : CString) (tableConfig : RdkbTableConfig)
    (cb : Option OvsdbReceiptCb) (s : Component) :
    (writeRequest o rid tableConfig cb s).value.2.db.monitors = s.db.monitors := by
  have h := ovsdbWrite_monitors o rid tableConfig cb s.db
  unfold writeRequest
  rw [Traced.bind_value]
  cases hw : ovsdbWrite o (some rid) (some tableConfig) cb s.db with
  | mk status db =>
      rw [hw] at h
      cases status <;> exact h

/-- The answer of the callback: one action and one Feedback. -/
theorem gwconfMonCb_trace (env : RowEnv) (config : Ptr GatewayConfig) (uuid : CString) :
    (gwconfMonCb conf env ⟨.gwConfig (some config), uuid⟩ s).trace
      = [.acted config.val (ovsActionGatewayConfig conf env.action config.val).value,
        .ovsdbWrite (.feedback (some ⟨0,
          ⟨(ovsActionGatewayConfig conf env.action config.val).value.toInt,
            strncpy maxUuidLen uuid⟩⟩))] := by
  have hwrite := writeRequest_trace env.outcome (utoa (idGenerate s.db).1)
    (.feedback (some ⟨0,
      ⟨(ovsActionGatewayConfig conf env.action config.val).value.toInt, strncpy maxUuidLen uuid⟩⟩))
    none { s with db := (idGenerate s.db).2 }
  show [_] ++ (writeRequest _ _ _ _ _ >>= fun r => pure r.2).trace = _
  rw [Traced.bind_trace, Traced.pure_trace, List.append_nil]
  exact congrArg _ hwrite

theorem gwconfMonCb_monitors (env : RowEnv) (tableConfig : OvsAgentTableConfig) :
    (gwconfMonCb conf env tableConfig s).value.db.monitors = s.db.monitors := by
  unfold gwconfMonCb
  split
  · exact writeRequest_monitors ..
  · rfl

/-- The step lemma: a row of the agent's monitor. -/
theorem dispatch_update {monId : CString} (h : s.MonitorsGateway monId) (config : Ptr GatewayConfig)
    (uuid : CString) :
    ∃ s', (dispatch conf env s (.update monId ⟨.gwConfig (some config), uuid⟩)).value = some s' ∧
      s'.MonitorsGateway monId ∧
      (dispatch conf env s (.update monId ⟨.gwConfig (some config), uuid⟩)).trace
        = (gwconfMonCb conf (env uuid) ⟨.gwConfig (some config), uuid⟩ s).trace := by
  obtain ⟨node, hfind, hcb⟩ := h
  refine ⟨(gwconfMonCb conf (env uuid) ⟨.gwConfig (some config), uuid⟩ s).value, ?_, ?_, ?_⟩
  · unfold dispatch
    simp only [monListProcess_invoked, hfind, Option.map_some, hcb]
    rfl
  · refine ⟨node, ?_, hcb⟩
    rw [gwconfMonCb_monitors]
    exact hfind
  · unfold dispatch
    simp only [monListProcess_invoked, hfind, Option.map_some, hcb, Traced.bind_trace, Traced.pure_trace,
      List.append_nil]

theorem answer_of_old (row : CString × Json) (h : objectGet (some row.2) (ofString "new") = none) :
    answer conf env row = [] := by
  unfold answer newConfig
  rw [h]
  rfl

theorem answer_of_new (row : CString × Json) {newUpdate : Json}
    (h : objectGet (some row.2) (ofString "new") = some newUpdate) :
    answer conf env row
      = [.acted (gatewayConfigParser newUpdate)
          (ovsActionGatewayConfig conf (env row.1).action (gatewayConfigParser newUpdate)).value,
        .ovsdbWrite (.feedback (some ⟨0, ⟨(ovsActionGatewayConfig conf (env row.1).action
          (gatewayConfigParser newUpdate)).value.toInt, row.1⟩⟩))] := by
  unfold answer newConfig
  rw [h]
  rfl

/-- The run lemma: the rows of an update, one after the other. -/
theorem dispatches_updateRows {monId : CString} (rows : List (CString × Json))
    (hkeys : ∀ row ∈ rows, row.1.length = maxUuidLen) :
    ∀ s : Component, s.MonitorsGateway monId →
      (∃ s', (dispatches conf env (updateRows monId gatewayConfigTableName rows) s).value = some s' ∧
        s'.MonitorsGateway monId) ∧
      (dispatches conf env (updateRows monId gatewayConfigTableName rows) s).trace
        = rows.flatMap (answer conf env) := by
  induction rows with
  | nil => intro s h; exact ⟨⟨s, rfl, h⟩, rfl⟩
  | cons row rows ih =>
      intro s h
      obtain ⟨key, value⟩ := row
      have ih := ih fun row hrow => hkeys row (List.mem_cons_of_mem _ hrow)
      have hkey : strncpy maxUuidLen key = key :=
        CString.strncpy_of_length_le (Nat.le_of_eq (hkeys _ (List.mem_cons_self ..)))
      rw [List.flatMap_cons]
      unfold updateRows
      cases hnew : objectGet (some value) (ofString "new") with
      | none =>
          rw [answer_of_old (key, value) hnew, List.nil_append]
          exact ih s h
      | some newUpdate =>
          have hparse : parseTable gatewayConfigTableName newUpdate
              = some (.gwConfig (some ⟨0, gatewayConfigParser newUpdate⟩)) := if_pos rfl
          obtain ⟨s', hvalue, hmon, htrace⟩ := @dispatch_update conf env s monId h
            ⟨0, gatewayConfigParser newUpdate⟩ key
          obtain ⟨hlast, hrest⟩ := ih s' hmon
          rw [gwconfMonCb_trace, hkey] at htrace
          rw [answer_of_new (key, value) hnew]
          simp only [hparse, hkey, dispatches, Traced.bind_value, Traced.bind_trace, hvalue, htrace, hrest]
          exact ⟨hlast, trivial⟩

/-- **Every row is answered once.**  An update for the agent's monitor makes
the agent run `ovs_action_gateway_config` once for each row with a `new` member,
in their order, and after each run call `ovsdb_write` once, with a Feedback row
of that row's key and the status of that run.  The rows without are passed over. -/
theorem rows_answered_once {j : JsonLoads} {text monId : CString} {msg : Json} {rows : List (CString × Json)}
    (conf : OvsActionConfig) (env : CString → RowEnv) (hloads : j.loads text = some (msg, text.length))
    (hupdate : IsUpdate msg monId rows) (hmon : s.MonitorsGateway monId) :
    (dispatches conf env (ovsdbParseMsg j text text.length) s).trace = rows.flatMap (answer conf env) := by
  have hmsg : ovsdbHandleMsg msg = some (updateRows monId gatewayConfigTableName rows) := by
    unfold ovsdbHandleMsg
    rw [hupdate.id]
    simp only [hupdate.method, hupdate.params, if_true]
    show some (updateRows monId gatewayConfigTableName rows ++ []) = _
    rw [List.append_nil]
  rw [ovsdbParseMsg_single hloads hmsg]
  exact (dispatches_updateRows rows hupdate.keys s hmon).2

/-- After a successful `OvsAgentInit` the agent has its monitor. -/
theorem monitorsGateway_ovsAgentInit {o : Outcome} {cid : Nat} (h : (ovsAgentInit o (.start cid)).1 = true) :
    (ovsAgentInit o (.start cid)).2.MonitorsGateway (utoa (idGenerate (Component.start cid).db).1) := by
  let uniqueId := utoa (idGenerate (Component.start cid).db).1
  let rID := utoa (idGenerate (idGenerate (Component.start cid).db).2).1
  have hlen : uniqueId.length ≤ maxUuidLen :=
    Nat.le_trans (CString.utoa_length_le (idGenerate_lt _)) (by decide)
  have hmonitors : (ovsAgentInit o (.start cid)).2.db.monitors = [⟨uniqueId, some .gwconfMonCb⟩] := by
    unfold ovsAgentInit at h ⊢
    have hspec := exec_success_iff o (.monitor .gwConfig (some .gwconfMonCb) none) (Component.start cid).db
    have hsucc := hspec.1 (of_decide_eq_true h)
    have hsend : o.send ≠ .error := hsucc.2.2
    obtain ⟨strJson, hjson⟩ := Option.ne_none_iff_exists'.1 hsucc.1.1
    have hjson : ovsdbMonitorToJson .gwConfig rID uniqueId = some strJson := hjson
    show (ovsdbMonitor o .gwConfig (some .gwconfMonCb) none (Component.start cid).db).2.monitors = _
    simp only [ovsdbMonitor, rID, uniqueId] at hjson ⊢
    simp only [hjson, receiptListAdd, hsucc.1.2, if_true, monListAdd, hsucc.2.1, ovsdbSocketWrite_of_ne hsend]
    show [] ++ [_] = _
    rw [List.nil_append, CString.strncpy_of_length_le hlen]
  refine ⟨⟨uniqueId, some .gwconfMonCb⟩, ?_, rfl⟩
  rw [hmonitors]
  exact List.find?_cons_of_pos (CString.strncmpEq_self _ _)

/-- Two rows, of which one is new and one is gone. -/
def sampleRows : List (CString × Json) :=
  [(ofString "6d1b4a9e-5b7c-4c53-9f0e-0f6a3f1f2b11", .object [(ofString "new",
      .object [(ofString "if_name", .string (ofString "ath0")),
        (ofString "parent_bridge", .string (ofString "brlan0"))])]),
    (ofString "6d1b4a9e-5b7c-4c53-9f0e-0f6a3f1f2b12", .object [(ofString "old", .object [])])]

/-- The update of a fresh agent's monitor with these rows. -/
def sampleUpdate : Json :=
  .object [(ofString "id", .null), (ofString "method", .string (ofString "update")),
    (ofString "params", .array [.string (ofString "1"),
      .object [(gatewayConfigTableName, .object sampleRows)]])]

def sampleUpdateText : CString :=
  ofString ("\x7b\"id\":null,\"method\":\"update\",\"params\":[\"1\",\x7b\"Gateway_Config\":\x7b"
    ++ "\"6d1b4a9e-5b7c-4c53-9f0e-0f6a3f1f2b11\":"
    ++ "\x7b\"new\":\x7b\"if_name\":\"ath0\",\"parent_bridge\":\"brlan0\"\x7d\x7d,"
    ++ "\"6d1b4a9e-5b7c-4c53-9f0e-0f6a3f1f2b12\":\x7b\"old\":\x7b\x7d\x7d\x7d\x7d]\x7d")

def sampleUpdateLoads : JsonLoads := .single sampleUpdateText sampleUpdate (by decide +kernel)

/-- The agent, just started, reads it. -/
theorem rows_answered_once_sample :
    (dispatches ⟨.tg3482g, false⟩ (fun _ => ⟨quietEnv, true, .ok⟩)
        (ovsdbParseMsg sampleUpdateLoads sampleUpdateText sampleUpdateText.length)
        (ovsAgentInit .ok (.start 0)).2).trace
      = sampleRows.flatMap (answer ⟨.tg3482g, false⟩ (fun _ => ⟨quietEnv, true, .ok⟩)) := by
  have hmon : (ovsAgentInit .ok (.start 0)).2.MonitorsGateway (ofString "1") :=
    @monitorsGateway_ovsAgentInit .ok 0 (by decide)
  have hupdate : IsUpdate sampleUpdate (ofString "1") sampleRows := ⟨rfl, rfl, rfl, by decide⟩
  exact rows_answered_once _ _ (JsonLoads.single_loads _ _ _) hupdate hmon

end Agent

end OvsAgent
