/-
  OvsAgent.Parties.CleanUp — the rows that are left.

  Whoever has been told of a Feedback deletes the Feedback row and the row it is
  about.  The deletes are requests like any other: they wait on the connection
  while others insert, and what they are for is a uuid, not a place.  So a row
  is gone when its deletes have been carried out and nothing puts it back:

      Gateway_Config   a uuid is given once
      Feedback         an action is reported once

  Main results:
    * `cleanUp_step` — a completed transaction has its two deletes on their way
      until they are carried out, and a delete that was carried out stays so;
    * `left_rows_pending` — in a network at rest, every row belongs to a
      transaction that was not completed;
    * `tables_empty_at_rest` — after a run that was on time there is no row.
-/
import OvsAgent.Parties.ExactlyOnce
import OvsAgent.Parties.OrphanRows

namespace OvsAgent

open CString (ofString utoa atou strncpy)
open Json

/-! ## §1. An action is reported once. -/

/-- The uuid a Feedback configuration reports on. -/
def RdkbTableConfig.reportedUuid : RdkbTableConfig → Option CString
  | .feedback (some config) => some config.val.reqUuid
  | _ => none

/-- The call has still to report on the row with this uuid. -/
def Call.reportsOn (uuid : CString) (c : Call) : Bool :=
  c.result.isNone && c.request.tableConfig.reportedUuid == some uuid

/-- The row is a Feedback on the row with this uuid. -/
def Row.reportsOn (uuid : CString) (row : Row) : Bool :=
  row.table == feedbackTableName && reqUuidColumn row.columns == some uuid

/-- The request inserts such a row. -/
def Sent.reportsOn (uuid : CString) (x : Sent) : Bool :=
  match readRequest x.request with
  | some (_, .insert table row) => Row.reportsOn uuid ⟨table, [], row⟩
  | _ => false

/-- The reports on a row: committed, asked for, or still to be sent, they are no
more than the actions on it. -/
def ReportedOnce (s : Network) (r : Record) : Prop :=
  ∀ uuid, r.commits.countP (fun c => c.row.reportsOn uuid) + s.agentUnserved.countP (Sent.reportsOn uuid) +
    s.agent.calls.countP (Call.reportsOn uuid) ≤ r.actions.countP (AgentAction.on uuid)

theorem fbRow_reqUuidColumn {uuid : CString} (h : isUuid uuid = true) (ret : Int) :
    reqUuidColumn (.object (fbRow ⟨ret, uuid⟩)) = some uuid := by
  unfold fbRow
  rw [jsonString_of_valid (utf8Valid_of_isUuid h)]
  rfl

theorem Row.reportsOn_iff {uuid : CString} {row : Row} :
    row.reportsOn uuid = true ↔ row.table = feedbackTableName ∧ reqUuidColumn row.columns =
      some uuid := by
  unfold Row.reportsOn
  rw [Bool.and_eq_true, beq_iff_eq, beq_iff_eq]

/-- The row a request inserts reports what the request does. -/
theorem Sent.reportsOn_insert {x : Sent} {rid table u : CString} {row : Json}
    (h : readRequest x.request = some (rid, .insert table row)) (uuid : CString) :
    x.reportsOn uuid = Row.reportsOn uuid ⟨table, u, row⟩ := by
  unfold Sent.reportsOn
  rw [h]
  rfl

theorem Sent.reportsOn_of_other {x : Sent} {uuid : CString}
    (h : ∀ rid row, readRequest x.request ≠ some (rid, .insert feedbackTableName row)) :
    x.reportsOn uuid = false := by
  unfold Sent.reportsOn
  split
  · next rid table row hread =>
      by_contra hno
      obtain ⟨rfl, _⟩ := Row.reportsOn_iff.1 (Bool.eq_true_of_not_eq_false hno)
      exact h rid row hread
  · rfl

section ReportedOnce

variable {s s' : Network} {r : Record}

/-- What a step of the agent can add to its reports. -/
theorem ReportedOnce.agent (h : ReportedOnce s r) {a : Component} {l : List Sent}
    (hsent : a.db.sent = s.agent.db.sent ++ l)
    (hcalls : ∀ uuid, a.calls.countP (Call.reportsOn uuid) + l.countP (Sent.reportsOn uuid)
      ≤ s.agent.calls.countP (Call.reportsOn uuid)) : ReportedOnce { s with agent := a } r := by
  intro uuid
  have hu := h uuid
  have hc := hcalls uuid
  have hsub : (Network.agentUnserved { s with agent := a }).Sublist (s.agentUnserved ++ l) := by
    show (a.db.sent.drop _).Sublist _
    rw [hsent, List.drop_append]
    exact (List.Sublist.refl _).append (List.drop_sublist _ _)
  have hle := hsub.countP_le (p := Sent.reportsOn uuid)
  rw [List.countP_append] at hle
  show r.commits.countP _ + _ + a.calls.countP _ ≤ _
  omega

/-- A call of the agent reports once: with the request it sends, and then it returns. -/
theorem PlainStep.reportsOn_le {a a' : Component} {n : Nat} {c : Call} (h : PlainStep a n c a')
    (hpl : c.Plain agentRole) (hc : a.calls[n]? = some c) {x : AgentAction} (hform : isUuid x.row.uuid = true)
    (hreq : c.request = gwconfMonCb x.ret x.row) :
    ∃ xs, a'.db.sent = a.db.sent ++ xs ∧ ∀ uuid,
      a'.calls.countP (Call.reportsOn uuid) + xs.countP (Sent.reportsOn uuid) ≤
        a.calls.countP (Call.reportsOn uuid) := by
  have hpending : ∀ {pc : CallPc}, c.pc = pc → (∀ rtn, pc ≠ .returned rtn) → c.result = none := by
    intro pc hpc hno
    unfold Call.result
    rw [hpc]
    cases pc with
    | returned rtn => exact absurd rfl (hno rtn)
    | _ => rfl
  -- while the request is prepared nothing is sent
  have hkeep : ∀ {pc : CallPc} {c' : Call}, c.pc = pc → (∀ rtn, pc ≠ .returned rtn) →
      a'.calls = a.calls.set n c' →
      c'.request = c.request → a'.db.sent = a.db.sent → ∃ xs, a'.db.sent = a.db.sent ++ xs ∧ ∀ uuid,
        a'.calls.countP (Call.reportsOn uuid) + xs.countP (Sent.reportsOn uuid)
          ≤ a.calls.countP (Call.reportsOn uuid) := by
    intro pc c' hpc hno hcalls hreq' hsent
    refine ⟨[], hsent.trans (List.append_nil _).symm, fun uuid => ?_⟩
    have hcount := countP_set_add (p := Call.reportsOn uuid) (b := c') hc
    have hle : (c'.reportsOn uuid).toNat ≤ (c.reportsOn uuid).toNat := by
      unfold Call.reportsOn
      rw [hreq', hpending hpc hno]
      show _ ≤ (true && _).toNat
      rw [Bool.true_and]
      cases c'.result.isNone with
      | false => exact Nat.zero_le _
      | true => exact Nat.le_refl _
    rw [hcalls, List.countP_nil]
    omega
  cases h with
  | idGenerate hpc hc' hreg => exact hkeep hpc (fun _ h => by cases h) rfl (by rw [hc']; rfl) rfl
  | idGenerateWrite hpc hc' hp => exact hkeep hpc (fun _ h => by cases h) rfl (by rw [hc']; rfl) rfl
  | setBlocked hpc hreg => exact hkeep hpc (fun _ h => by cases h) rfl rfl rfl
  | insert hpc hp hc' => exact hkeep hpc (fun _ h => by cases h) rfl (by rw [hc']; rfl) rfl
  | receiptListAdd hpc hp => exact hkeep hpc (fun _ h => by cases h) rfl rfl rfl
  | @socketWrite p hpc hp =>
      refine ⟨[Sent.mk p.strJson .whole], rfl, fun uuid => ?_⟩
      have hcount := countP_set_add (p := Call.reportsOn uuid) (b := c.sentOff) hc
      have hdone : c.sentOff.reportsOn uuid = false := by
        have hpc' : c.sentOff.pc = .returned true := if_neg (by rw [hpl.blocking]; decide)
        unfold Call.reportsOn Call.result
        rw [hpc']
        rfl
      have hsame : (Sent.mk p.strJson .whole).reportsOn uuid = c.reportsOn uuid := by
        have hcut : strncpy maxUuidLen x.row.uuid = x.row.uuid :=
          CString.strncpy_of_length_le (Nat.le_of_eq (length_of_isUuid hform))
        obtain ⟨_, _, js, hjs, rfl, _⟩ := hpl.prepares hp
        obtain ⟨js', hjs', hread⟩ := insert_row hpl.name hpl.ptr c.rid
        rw [hjs] at hjs'
        cases hjs'
        rw [Sent.reportsOn_insert (u := []) hread, hreq]
        unfold Call.reportsOn
        rw [hpending hpc (fun _ h => by cases h), hreq]
        show (feedbackTableName == feedbackTableName &&
          reqUuidColumn (.object (fbRow ⟨x.ret, strncpy maxUuidLen x.row.uuid⟩)) == _) =
          (true && some (strncpy maxUuidLen x.row.uuid) == _)
        rw [hcut, fbRow_reqUuidColumn hform, beq_self_eq_true]
      show (a.calls.set n c.sentOff).countP _ + _ ≤ _
      rw [List.countP_singleton, hsame]
      rw [hdone] at hcount
      cases hrep : c.reportsOn uuid with
      | false => rw [hrep] at hcount; simpa using Nat.le_of_eq hcount
      | true => rw [hrep] at hcount; simpa using Nat.le_of_eq hcount

theorem ReportedOnce.stepAgent (h : ReportedOnce s r) (hrec : RecordInv s r) {i : ComponentStep}
    {a : Component} (hallowed : agentAllowed s.agent i = true) (hstep : componentStep s.agent i = some a) :
    ReportedOnce { s with agent := a } r := by
  cases i with
  | interactMonitor t cb =>
      cases hstep
      exact h.agent (l := []) (List.append_nil _).symm fun _ => Nat.le_refl _
  | monitorCall n o =>
      simp only [agentAllowed, decide_eq_true_eq] at hallowed
      subst hallowed
      simp only [componentStep] at hstep
      split at hstep
      · cases hstep
      · next pc hpc =>
          cases hstep
          have hnc : gatewayMonitorCall.NoCancel := (Role.Makes.monitor (r := agentRole) .gwConfig).noCancel
          obtain ⟨_, hacc⟩ := dbStep_access hnc (hrec.monitors pc (List.mem_of_getElem? hpc))
          rcases hacc.sent with heq | ⟨p, hp, _, heq⟩
          · exact h.agent (l := []) (heq.trans (List.append_nil _).symm) fun _ => Nat.le_refl _
          · refine h.agent heq fun uuid => ?_
            rw [List.countP_singleton, Sent.reportsOn_of_other fun rid row hread => ?_]
            · exact Nat.le_refl _
            · obtain ⟨_, hreq⟩ := gatewayMonitorCall_read hp hread
              cases hreq
  | call n malloc o =>
      simp only [agentAllowed, Bool.and_eq_true, decide_eq_true_eq] at hallowed
      obtain ⟨rfl, rfl⟩ := hallowed
      obtain ⟨c, hc, hpl, hps⟩ := plainStep_cases hrec.agent.calls hstep
      obtain ⟨x, hx, hreq⟩ := hrec.reporting c (List.mem_of_getElem? hc)
      obtain ⟨k, hk, _, hku, _⟩ := hrec.action x hx
      obtain ⟨xs, hsent, hle⟩ := hps.reportsOn_le hpl hc (hku ▸ hrec.form k hk) hreq
      exact h.agent hsent hle
  | listener o waiter =>
      simp only [componentStep, listenerStep] at hstep
      rcases hrec.agent.listener with hl | ⟨i, hl⟩
      · rw [hl] at hstep; cases hstep
      · rw [hl] at hstep
        cases hstep
        exact h.agent (l := []) (List.append_nil _).symm fun _ => Nat.le_refl _
  | _ => cases hallowed

/-- A report that is carried out is a row. -/
theorem ReportedOnce.serve {conn : Conn} {uuid rid : CString} {x : Sent} {req : Request}
    {server : OvsdbServer} (h : ReportedOnce s r) (hrec : RecordInv s r)
    (hs : Serve s conn uuid s' x rid req server) :
    ReportedOnce s' { r with commits := r.commits ++ (s.commits conn uuid).toList } := by
  intro u
  have hu := h u
  have hx : x ∈ (s.process conn).db.sent := List.mem_of_getElem? hs.next
  have hnew : (s.commits conn uuid).toList.countP (fun c => c.row.reportsOn u) + s'.agentUnserved.countP
      (Sent.reportsOn u) ≤ s.agentUnserved.countP (Sent.reportsOn u) := by
    rw [hs.commits_eq]
    cases conn with
    | component =>
        rw [hs.agentUnserved.2 rfl]
        suffices hnone : ((req.commit uuid (s.ownerOf .component rid)).toList).countP
          (fun c => c.row.reportsOn u) = 0 by
          omega
        refine List.countP_eq_zero.2 fun c hc hrep => ?_
        -- the component inserts no Feedback
        cases hs.carries with
        | @insert table row _ _ =>
            obtain rfl : table = gatewayConfigTableName :=
              hrec.component.layer.inserts x hx rid table row hs.read
            rw [List.mem_singleton.1 hc] at hrep
            exact absurd (Row.reportsOn_iff.1 hrep).1
              (by show gatewayConfigTableName ≠ feedbackTableName; decide)
        | delete => cases hc
        | monitor => cases hc
    | agent =>
        rw [hs.agentUnserved.1 rfl, List.countP_cons]
        cases hs.carries with
        | @insert table row _ _ =>
            show [_].countP _ + _ ≤ _
            rw [List.countP_singleton, Sent.reportsOn_insert (u := uuid) hs.read]
            exact Nat.le_of_eq (Nat.add_comm ..)
        | delete => exact Nat.le_trans (Nat.le_of_eq (Nat.zero_add _)) (Nat.le_add_right _ _)
        | monitor => exact Nat.le_trans (Nat.le_of_eq (Nat.zero_add _)) (Nat.le_add_right _ _)
  show (r.commits ++ _).countP _ + _ + s'.agent.calls.countP _ ≤ r.actions.countP _
  rw [List.countP_append, hs.agent]
  omega

/-- A new action brings the call that reports it. -/
theorem ReportedOnce.hearAgent {ret : Int} (h : ReportedOnce s r) (hrec : RecordInv s r)
    (hstep : s.hearAgent ret = some s') :
    ReportedOnce s' { r with actions := r.actions ++ (s.acts ret).toList } := by
  intro u
  have hu := h u
  obtain ⟨msg, rest, a, hh, hcases⟩ := hearAgent_inv hrec.agent hstep
  rw [hh.acts_eq]
  have hun : a.db.sent.drop s.server.servedAgent = s.agentUnserved := by rw [hh.db]; rfl
  rcases hcases with ⟨hact, rfl⟩ | ⟨row, hact, rfl⟩
  · rw [hact]
    show r.commits.countP _ + (a.db.sent.drop _).countP _ + a.calls.countP _ ≤ (r.actions ++ []).countP _
    rw [List.append_nil, hun, hh.calls]
    exact hu
  · rw [hact]
    show r.commits.countP _ + (a.db.sent.drop _).countP _ + (a.calls ++ [_]).countP _ ≤
      (r.actions ++ [AgentAction.mk row ret]).countP _
    rw [hun, hh.calls, List.countP_append, List.countP_append, List.countP_singleton, List.countP_singleton]
    have hsame : (Call.start (gwconfMonCb ret row) none).reportsOn u = AgentAction.on u ⟨row, ret⟩ := by
      obtain ⟨_, _, uuid, _, _, _, _, rfl⟩ := actsOn_inv hact
      show (true && some (strncpy maxUuidLen (strncpy maxUuidLen uuid)) == some u) =
        (strncpy maxUuidLen uuid == u)
      rw [CString.strncpy_of_length_le (CString.strncpy_length_le ..), Bool.true_and]
      exact Option.some_beq_some
    rw [hsame]
    omega

theorem reportedOnce_step {i : NetworkStep} (h : ReportedOnce s r) (hrec : RecordInv s r)
    (hstep : networkStep s i = some s') : ReportedOnce s' (i.note s s' r) := by
  cases i with
  | component i =>
      simp only [networkStep] at hstep
      split at hstep
      · obtain ⟨c, _, rfl⟩ := Option.map_eq_some_iff.1 hstep
        exact h
      · cases hstep
  | agent i =>
      simp only [networkStep] at hstep
      split at hstep
      · next hallowed =>
          obtain ⟨a, ha, rfl⟩ := Option.map_eq_some_iff.1 hstep
          exact h.stepAgent hrec hallowed ha
      · cases hstep
  | serve conn uuid =>
      obtain ⟨x, rid, req, server, hs⟩ := serve_inv hstep
      exact h.serve hrec hs
  | hearComponent =>
      simp only [networkStep, Network.hearComponent] at hstep
      split at hstep
      · cases hstep
      · obtain ⟨c, _, rfl⟩ := Option.map_eq_some_iff.1 hstep
        exact h
  | hearAgent ret => exact h.hearAgent hrec hstep

end ReportedOnce

/-! ## §2. The deletes. -/

/-- A delete for what is left of the transaction whose row has this uuid. -/
inductive DeletesFor (uuid : CString) : CString → Json → Prop where
  | gwConfig : DeletesFor uuid gatewayConfigTableName (rowClause uuid)
  | feedback : DeletesFor uuid feedbackTableName (reqUuidClause uuid)

theorem selects_rowClause {uuid : CString} {row : Row} :
    OvsdbServer.selects gatewayConfigTableName (rowClause uuid) row = true ↔
      row.table = gatewayConfigTableName ∧ row.uuid = uuid := by
  show (row.table == gatewayConfigTableName &&
    ((ovsdbTableUuidAlt == ovsdbTableUuidAlt && uuid == row.uuid) && true))
    = true ↔ _
  rw [beq_self_eq_true, Bool.true_and, Bool.and_true, Bool.and_eq_true, beq_iff_eq, beq_iff_eq,
    eq_comm (a := uuid)]

theorem selects_reqUuidClause {uuid : CString} {row : Row} :
    OvsdbServer.selects feedbackTableName (reqUuidClause uuid) row = true ↔ row.reportsOn uuid = true := by
  show (row.table == feedbackTableName && (reqUuidColumn row.columns == some uuid && true)) = true ↔ _
  rw [Bool.and_true]
  rfl

/-- A Feedback on the row with this uuid was committed. -/
def Record.Reported (r : Record) (uuid : CString) : Prop := ∃ c ∈ r.commits, c.row.reportsOn uuid = true

/-- The requests of the component that the server has carried out. -/
def Network.carriedOut (s : Network) : List Sent := s.component.db.sent.take s.server.servedComponent

/-- The two deletes of a transaction are about its own rows; once the
transaction is completed they are on their way, and what they are about is gone
when they have been carried out. -/
structure CleanUp (s : Network) (r : Record) : Prop where
  served : s.server.servedComponent ≤ s.component.db.sent.length
  tables : ∀ c ∈ r.commits, c.row.table = gatewayConfigTableName ∨ c.row.table = feedbackTableName
  listed : ∀ row ∈ s.server.rows, ∃ c ∈ r.commits, c.row = row
  handled : ∀ uuid, s.component.listener.handles = some uuid → r.Reported uuid
  asked : ∀ x ∈ s.component.db.sent, ∀ rid table clause,
    readRequest x.request = some (rid, .delete table clause) →
    ∃ uuid, r.Reported uuid ∧ DeletesFor uuid table clause
  done : ∀ x ∈ s.carriedOut, ∀ rid table clause,
    readRequest x.request = some (rid, .delete table clause) →
    ∀ row ∈ s.server.rows, OvsdbServer.selects table clause row = false
  deletes : ∀ c ∈ r.commits, ∀ a st,
    c.owner = some a → .completed a st ∈ s.component.manager.log →
    Deleting s.component.db c.row.uuid s.component.listener ∨ DeletesSent s.component.db c.row.uuid

theorem cleanUp_start (cid agentCid : Nat) : CleanUp (.start cid agentCid) ⟨[], []⟩ where
  served := Nat.le_refl _
  tables := fun _ h => (by cases h)
  listed := fun _ h => (by cases h)
  handled := fun _ h => (by cases h)
  asked := fun _ h => (by cases h)
  done := fun _ h => (by cases h)
  deletes := fun _ h => (by cases h)

theorem Record.Reported.mono {r : Record} {uuid : CString} (h : r.Reported uuid) {commits : List Commit}
    (actions : List AgentAction) (hsub : r.commits ⊆ commits) :
    Record.Reported ⟨commits, actions⟩ uuid := by
  obtain ⟨c, hc, hrep⟩ := h
  exact ⟨c, hsub hc, hrep⟩

/-- A Feedback is on a row that was committed. -/
theorem RecordInv.known {s : Network} {r : Record} (h : RecordInv s r) {uuid : CString}
    (hrep : r.Reported uuid) :
    isUuid uuid = true ∧ uuid ∈ s.server.given.map Prod.snd := by
  obtain ⟨k, hk, hon⟩ := hrep
  obtain ⟨htable, hcol⟩ := Row.reportsOn_iff.1 hon
  obtain ⟨x, hx, hform, hcolumns⟩ := h.reports hk htable
  rw [hcolumns, fbRow_reqUuidColumn hform] at hcol
  cases hcol
  obtain ⟨c, hc, _, hcu, _⟩ := h.action x hx
  refine ⟨hform, ?_⟩
  rw [h.given, List.map_map]
  exact List.mem_map.2 ⟨c, hc, hcu⟩

/-- What is in the table has not been completed. -/
theorem Balanced.not_completed {s : ManagerState} (h : Balanced s) {e : TransactionEntry}
    (he : s.manager.table.Mem e) (st : Int) : .completed e.addr st ∉ s.manager.log := by
  intro hmem
  obtain ⟨e₀, _, hlife⟩ := (h.ledger.account e.addr).live e he rfl
  have hin : TransactionEvent.completed e.addr st ∈ life e.addr s.manager.log :=
    KeyedLog.mem_history.2 ⟨hmem, rfl⟩
  rw [hlife] at hin
  cases List.mem_singleton.1 hin

/-! ## §3. The component by itself. -/

/-- The component by itself begins at most one transaction, and completes none. -/
theorem ComponentMove.log {s s' : Component} (h : ComponentMove s s') (hshape : ComponentShape s) :
    ∃ evs, s'.manager.log = s.manager.log ++ evs ∧ ((∀ ev ∈ evs, ev.quiet = true) ∨
      ∃ e : TransactionEntry, evs = [.inserted e] ∧ e.addr = s.manager.mallocs) := by
  have hsame : ∃ evs, s.manager.log = s.manager.log ++ evs ∧ ((∀ ev ∈ evs, ev.quiet = true) ∨
      ∃ e : TransactionEntry, evs = [.inserted e] ∧ e.addr = s.manager.mallocs) :=
    ⟨[], (List.append_nil _).symm, Or.inl fun _ h => (by cases h)⟩
  cases h with
  | interact _ _ => exact hsame
  | @call n c _ hc _ hfree hstep =>
      cases hstep with
      | insert hpc hp hc' =>
          unfold Component.slotFree at hfree
          rw [hc] at hfree
          simp only [hpc, Option.isNone_iff_eq_none] at hfree
          exact ⟨_, insertTransaction_log_of_free hfree, Or.inr ⟨_, rfl, rfl⟩⟩
      | _ => exact hsame
  | listener hl =>
      cases hl with
      | @records i rid uuid l' hl hs hr ha =>
          cases hk : s.manager.table.elements (hashCode (atou rid)) with
          | none =>
              rw [updateTransaction_of_free hk]
              exact hsame
          | some e =>
              rw [updateTransaction_of_some hk]
              refine ⟨_, rfl, Or.inl fun ev hev => ?_⟩
              rw [List.mem_singleton.1 hev]
              rfl
      | destroys hl => exact ⟨_, rfl, Or.inl fun ev hev => quiet_frees hev⟩
      | wakes hc hw =>
          rw [(hshape.calls _ (List.mem_of_getElem? hc)).not_waiting] at hw
          cases hw
      | _ => exact hsame

/-- Only a message completes a transaction. -/
theorem ComponentMove.completed {s s' : Component} (h : ComponentMove s s') (hshape : ComponentShape s)
    {a : Nat} {st : Int} (hev : .completed a st ∈ s'.manager.log) : .completed a st ∈ s.manager.log := by
  obtain ⟨evs, hlog, hevs⟩ := h.log hshape
  rw [hlog] at hev
  refine (List.mem_append.1 hev).resolve_right fun hnew => ?_
  rcases hevs with hquiet | ⟨e, rfl, _⟩
  · cases hquiet _ hnew
  · cases List.mem_singleton.1 hnew

theorem afterDeleteGwConfig_handles {addr : Nat} {uuid u : CString} {pc : DbPc}
    (h : (ListenerPc.afterDeleteGwConfig addr uuid pc).handles = some u) : uuid = u := by
  cases pc with
  | returned status => cases status <;> cases h; rfl
  | _ => cases h; rfl

theorem afterDeleteFeedback_handles {addr : Nat} {uuid u : CString} {pc : DbPc}
    (h : (ListenerPc.afterDeleteFeedback addr uuid pc).handles = some u) : uuid = u := by
  cases pc with
  | returned status => cases status <;> cases h
  | _ => cases h; rfl

/-- The listener turns to another row only with a message. -/
theorem listenerStep_handles {s s' : Component} {o : Outcome} {waiter : Option Nat} {uuid : CString}
    (h : listenerStep s o waiter = some s') (hh : s'.listener.handles = some uuid) :
    s.listener.handles = some uuid := by
  unfold listenerStep at h
  cases hl : s.listener with
  | idle => simp only [hl] at h; cases h
  | updateTransaction i rid u =>
      simp only [hl] at h
      split at h
      · cases h; cases hh
      · cases h; cases hh
  | monitorTest i =>
      simp only [hl] at h
      split at h
      · cases h; cases hh
      · cases h; cases hh
  | ovsdbMonitor i pc =>
      simp only [hl] at h
      cases h
      have hh : (ListenerPc.afterMonitor i (dbStep o pc s.db).1).handles = some uuid := hh
      unfold ListenerPc.afterMonitor at hh
      split at hh
      · cases hh
      · cases hh
  | setMonitorFeedback i value => simp only [hl] at h; cases h; cases hh
  | unlink i => simp only [hl] at h; cases h; cases hh
  | callback e u =>
      simp only [hl] at h
      cases h
      have hh : (ListenerPc.afterDeleteGwConfig e.addr u (deleteGwConfigCall u).start).handles = some uuid :=
        hh
      exact congrArg some (afterDeleteGwConfig_handles hh)
  | deleteGwConfig a u pc =>
      simp only [hl] at h
      cases h
      exact congrArg some (afterDeleteGwConfig_handles hh)
  | deleteFeedback a u pc =>
      simp only [hl] at h
      cases h
      exact congrArg some (afterDeleteFeedback_handles hh)
  | signalTest a =>
      simp only [hl] at h
      split at h
      · cases h; cases hh
      · cases h; cases hh
  | signalLock a =>
      simp only [hl] at h
      split at h
      · cases h; cases hh
      · cases h
  | signalClear a => simp only [hl] at h; cases h; cases hh
  | condSignal a =>
      simp only [hl] at h
      rw [(condSignal_frame h).2] at hh
      cases hh
  | signalUnlock a => simp only [hl] at h; cases h; cases hh

/-- The deletes the listener sends are for the row it is handling. -/
theorem access_deletes {l : ListenerPc} {call : DbCall} {pc : DbPc} {p : Prepared} {rid table : CString}
    {clause : Json} (h : l.access = some (call, pc)) (hp : call.Prepares p)
    (hform : ∀ uuid, l.handles = some uuid → isUuid uuid = true)
    (hread : readRequest p.strJson = some (rid, .delete table clause)) :
    ∃ uuid, l.handles = some uuid ∧ DeletesFor uuid table clause := by
  cases l with
  | ovsdbMonitor i pc' =>
      cases h
      obtain ⟨_, _, js, _, hjs, rfl⟩ := prepares_monitor hp
      obtain ⟨t, _, hr⟩ := readRequest_monitor hjs
      rw [hr] at hread
      cases hread
  | deleteGwConfig addr uuid pc' =>
      cases h
      obtain ⟨n, js, hjs, rfl⟩ := prepares_delete hp
      obtain ⟨js', hjs', hr⟩ := deleteGwConfig_encodes (utf8Valid_of_isUuid (hform uuid rfl)) n
      rw [hjs] at hjs'
      cases hjs'
      rw [hr] at hread
      cases hread
      exact ⟨uuid, rfl, .gwConfig⟩
  | deleteFeedback addr uuid pc' =>
      cases h
      obtain ⟨n, js, hjs, rfl⟩ := prepares_delete hp
      obtain ⟨js', hjs', hr⟩ := deleteFeedback_encodes (utf8Valid_of_isUuid (hform uuid rfl)) n
      rw [hjs] at hjs'
      cases hjs'
      rw [hr] at hread
      cases hread
      exact ⟨uuid, rfl, .feedback⟩
  | _ => cases h

section CleanUp

variable {s s' : Network} {r : Record}

/-- The frame lemma: the component may send a request, which is a delete for a
reported row when it is one. -/
theorem CleanUp.component (h : CleanUp s r) {comp : Component} {xs : List Sent}
    (hsent : comp.db.sent = s.component.db.sent ++ xs)
    (hasked : ∀ x ∈ xs, ∀ rid table clause, readRequest x.request = some (rid, .delete table clause) →
      ∃ uuid, r.Reported uuid ∧ DeletesFor uuid table clause)
    (hhandled : ∀ uuid, comp.listener.handles = some uuid → r.Reported uuid)
    (hdeletes : ∀ c ∈ r.commits, ∀ a st, c.owner = some a → .completed a st ∈ comp.manager.log →
      Deleting comp.db c.row.uuid comp.listener ∨ DeletesSent comp.db c.row.uuid) :
    CleanUp { s with component := comp } r := by
  refine ⟨?_, h.tables, h.listed, hhandled, fun x hx rid table clause hread => ?_, ?_, hdeletes⟩
  · show s.server.servedComponent ≤ comp.db.sent.length
    rw [hsent, List.length_append]
    exact Nat.le_trans h.served (Nat.le_add_right _ _)
  · have hx : x ∈ comp.db.sent := hx
    rw [hsent] at hx
    rcases List.mem_append.1 hx with hx | hx
    · exact h.asked x hx rid table clause hread
    · exact hasked x hx rid table clause hread
  · show ∀ x ∈ comp.db.sent.take s.server.servedComponent, _
    rw [hsent, List.take_append_of_le_length h.served]
    exact h.done

/-- What was sent stays sent. -/
theorem CleanUp.deletes_mono (h : CleanUp s r) {comp : Component}
    (hsub : s.component.db.sent ⊆ comp.db.sent) (hl : comp.listener = s.component.listener)
    (hlog : ∀ a st, .completed a st ∈ comp.manager.log → .completed a st ∈ s.component.manager.log) :
    ∀ c ∈ r.commits, ∀ a st, c.owner = some a → .completed a st ∈ comp.manager.log →
      Deleting comp.db c.row.uuid comp.listener ∨ DeletesSent comp.db c.row.uuid := by
  intro c hc a st howner hev
  rw [hl]
  exact (h.deletes c hc a st howner (hlog a st hev)).imp (·.mono hsub) (·.mono hsub)

theorem CleanUp.stepComponent (h : CleanUp s r) (hrec : RecordInv s r) {i : ComponentStep} {comp : Component}
    (hallowed : componentAllowed s.component i = true) (hstep : componentStep s.component i = some comp) :
    CleanUp { s with component := comp } r := by
  have hlog : ∀ a st, .completed a st ∈ comp.manager.log →
      .completed a st ∈ s.component.manager.log :=
    fun a st hev => (componentMove_cases hrec.component hallowed hstep).completed hrec.component hev
  have hnone : ∀ x ∈ ([] : List Sent), ∀ rid table clause,
      readRequest x.request = some (rid, .delete table clause) →
      ∃ uuid, r.Reported uuid ∧ DeletesFor uuid table clause := fun _ hx => (by cases hx)
  cases i with
  | interact request callback =>
      cases hstep
      exact h.component (List.append_nil _).symm hnone h.handled
        (h.deletes_mono (List.Subset.refl _) rfl hlog)
  | call n malloc o =>
      simp only [componentAllowed, Bool.and_eq_true, decide_eq_true_eq] at hallowed
      obtain ⟨⟨rfl, rfl⟩, _⟩ := hallowed
      obtain ⟨c, hc, hpl, hps⟩ := plainStep_cases hrec.component.calls hstep
      obtain ⟨c', hf⟩ := hps.frame hpl
      have hhandled : ∀ uuid, comp.listener.handles = some uuid → r.Reported uuid := by
        rw [hf.listener]
        exact h.handled
      have hdeletes := h.deletes_mono hf.db.sent_prefix.subset hf.listener hlog
      rcases hf.db.sent with heq | ⟨p, hp, _, heq⟩
      · exact h.component (heq.trans (List.append_nil _).symm) hnone hhandled hdeletes
      · refine h.component heq (fun x hx rid table clause hread => ?_) hhandled hdeletes
        -- a call inserts
        rw [List.mem_singleton.1 hx] at hread
        obtain ⟨_, hreq⟩ := hpl.read hp hread
        cases hreq
  | listener o waiter =>
      simp only [componentAllowed, decide_eq_true_eq] at hallowed
      subst hallowed
      have hsub := component_sent hstep
      have hstep : listenerStep s.component .ok waiter = some comp := hstep
      have hhandled : ∀ uuid, comp.listener.handles = some uuid → r.Reported uuid :=
        fun uuid hu => h.handled uuid (listenerStep_handles hstep hu)
      have hdeletes : ∀ c ∈ r.commits, ∀ a st, c.owner = some a →
          .completed a st ∈ comp.manager.log →
          Deleting comp.db c.row.uuid comp.listener ∨ DeletesSent comp.db c.row.uuid := by
        intro c hc a st howner hev
        rcases h.deletes c hc a st howner (hlog a st hev) with hdel | hsent
        · have hgo := hdel.step (utf8Valid_of_isUuid (hrec.form c hc)) rfl (fun _ => rfl) hstep
          exact hgo.imp_right fun hdone => hdone.2
        · exact Or.inr (hsent.mono hsub)
      cases listenerAccess_cases hstep with
      | accesses hacc hl' =>
          have hmk := ListenerPc.access_makes hacc
          obtain ⟨_, hdb⟩ := dbStep_access hmk.noCancel (hrec.component.listener _ _ hacc)
          rcases hdb.sent with heq | ⟨p, hp, _, heq⟩
          · exact h.component (heq.trans (List.append_nil _).symm) hnone hhandled hdeletes
          · refine h.component heq (fun x hx rid table clause hread => ?_) hhandled hdeletes
            rw [List.mem_singleton.1 hx] at hread
            obtain ⟨uuid, hu, hfor⟩ :=
              access_deletes hacc hp (fun uuid hu => (hrec.known (h.handled uuid hu)).1) hread
            exact ⟨uuid, h.handled uuid hu, hfor⟩
      | wakes hc hw =>
          rw [(hrec.component.calls _ (List.mem_of_getElem? hc)).not_waiting] at hw
          cases hw
      | _ => exact h.component (List.append_nil _).symm hnone hhandled hdeletes
  | _ => cases hallowed

/-! ## §4. Messages. -/

theorem Deleting.handles {db : OvsDbApi} {uuid u : CString} {l : ListenerPc} (h : Deleting db uuid l)
    (hu : l.handles = some u) : uuid = u := by
  cases h with
  | callback e => cases hu; rfl
  | gwConfig a hpc => cases hu; rfl
  | feedback a hsent hpc => cases hu; rfl
  | _ => cases hu

/-- A transaction that is completed by a Feedback has its deletes ahead. -/
theorem CleanUp.hearComponent (h : CleanUp s r) (hrec : RecordInv s r) (hp : Provenance s r)
    (hstep : s.hearComponent = some s') : CleanUp s' r := by
  unfold Network.hearComponent at hstep
  cases hq : s.server.toComponent with
  | nil => rw [hq] at hstep; cases hstep
  | cons msg rest =>
      rw [hq] at hstep
      obtain ⟨comp, hear, rfl⟩ := Option.map_eq_some_iff.1 hstep
      have hf := hear_frame hear
      have hsent : comp.db.sent = s.component.db.sent := by rw [hf.db]
      have hold : ∀ c ∈ r.commits, ∀ a st, c.owner = some a →
          .completed a st ∈ s.component.manager.log →
          DeletesSent comp.db c.row.uuid := by
        intro c hc a st howner hev
        rw [hf.db]
        refine (h.deletes c hc a st howner hev).resolve_left fun hdel => ?_
        have hbusy := hdel.not_idle
        rw [hf.idle] at hbusy
        cases hbusy
      have hframe : ∀ (_ : ∀ uuid, comp.listener.handles = some uuid → r.Reported uuid)
          (_ : ∀ c ∈ r.commits, ∀ a st, c.owner = some a → .completed a st ∈ comp.manager.log →
            Deleting comp.db c.row.uuid comp.listener ∨ DeletesSent comp.db c.row.uuid),
          CleanUp { s with component := comp, server := { s.server with toComponent := rest } } r := by
        intro hhandled hdeletes
        refine ⟨?_, h.tables, h.listed, hhandled, ?_, ?_, hdeletes⟩
        · show s.server.servedComponent ≤ comp.db.sent.length
          rw [hsent]
          exact h.served
        · show ∀ x ∈ comp.db.sent, _
          rw [hsent]
          exact h.asked
        · show ∀ x ∈ comp.db.sent.take s.server.servedComponent, _
          rw [hsent]
          exact h.done
      rcases hear_inv hear with ⟨hm, hnone⟩ | ⟨monId, rowUuid, columns, e, m, rfl, ht, hcomp⟩
      · refine hframe (fun uuid hu => by rw [hnone] at hu; cases hu) fun c hc a st howner hev => ?_
        rw [hm] at hev
        exact Or.inr (hold c hc a st howner hev)
      · obtain ⟨e₀, x, evs, htakes⟩ := hp.takes hrec (by rw [hq]; exact List.mem_cons_self ..) ht hcomp
        have hreported : r.Reported x.row.uuid := by
          obtain ⟨k, hk, htable, hcolumns⟩ := htakes.committed
          refine ⟨k, hk, Row.reportsOn_iff.2 ⟨htable, ?_⟩⟩
          rw [hcolumns, htakes.report]
          exact fbRow_reqUuidColumn htakes.form x.ret
        have hdel : Deleting comp.db x.row.uuid comp.listener := by
          rw [hcomp, ← htakes.reqUuid]
          exact RowRun.deleting_of_taken 0 _ ht
        refine hframe (fun uuid hu => hdel.handles hu ▸ hreported) fun c hc a st howner hev => ?_
        rcases htakes.completed hev with hev | ⟨rfl, _⟩
        · exact Or.inr (hold c hc a st howner hev)
        · -- the row of the transaction is the one that was reported on
          obtain ⟨k, hk, hkowner, hkrow⟩ := htakes.rowOf
          have hsame : c = k := hp.distinct c hc k hk (howner.trans hkowner.symm)
            (by rw [howner]; exact Option.some_ne_none _)
          rw [hsame, hkrow]
          exact Or.inl hdel

/-! ## §5. Steps of the server. -/

/-- Where the rows are from. -/
theorem Carries.rows {sv sv' : OvsdbServer} {conn : Conn} {uuid rid : CString} {req : Request}
    (h : Carries sv conn uuid rid req sv') {row : Row} (hrow : row ∈ sv'.rows) :
    row ∈ sv.rows ∨ ∃ table columns, req = .insert table columns ∧
      row = ⟨table, uuid, columns⟩ ∧ uuid ∉ sv.given.map Prod.snd := by
  cases h with
  | insert _ hnew =>
      rcases List.mem_append.1 hrow with hrow | hrow
      · exact Or.inl hrow
      · exact Or.inr ⟨_, _, rfl, List.mem_singleton.1 hrow, hnew⟩
  | delete => exact Or.inl (List.mem_filter.1 hrow).1
  | monitor => exact Or.inl hrow

/-- What a delete is about is gone when it has been carried out. -/
theorem Carries.gone {sv sv' : OvsdbServer} {conn : Conn} {uuid rid table : CString} {clause : Json}
    (h : Carries sv conn uuid rid (.delete table clause) sv') :
    ∀ row ∈ sv'.rows, OvsdbServer.selects table clause row = false := by
  cases h
  intro row hrow
  exact (Bool.not_eq_true' _).mp (List.mem_filter.1 hrow).2

/-- A new row is not what a delete that was carried out was about. -/
theorem Serve.new_row {conn : Conn} {uuid rid : CString} {x : Sent} {table : CString} {row : Json}
    {server : OvsdbServer} (hrec : RecordInv s r) (hrep : ReportedOnce s r)
    (honce : ∀ u, r.actions.countP (AgentAction.on u) ≤ 1)
    (hs : Serve s conn uuid s' x rid (.insert table row) server) (hnew : uuid ∉ s.server.given.map Prod.snd)
    {u t : CString} {clause : Json} (hu : r.Reported u) (hfor : DeletesFor u t clause) :
    OvsdbServer.selects t clause ⟨table, uuid, row⟩ = false := by
  have hx : x ∈ (s.process conn).db.sent := List.mem_of_getElem? hs.next
  rw [Bool.eq_false_iff]
  intro hsel
  cases hfor with
  | gwConfig =>
      obtain ⟨_, huuid⟩ := selects_rowClause.1 hsel
      have huuid : uuid = u := huuid
      exact hnew (huuid ▸ (hrec.known hu).2)
  | feedback =>
      have hon := selects_reqUuidClause.1 hsel
      have htable : table = feedbackTableName := (Row.reportsOn_iff.1 hon).1
      cases conn with
      | component =>
          obtain rfl : table = gatewayConfigTableName :=
            hrec.component.layer.inserts x hx rid table row hs.read
          exact absurd htable (by decide)
      | agent =>
          -- the action on the row was reported already
          have hcount := hrep u
          have hcommitted : 0 < r.commits.countP (fun c => c.row.reportsOn u) := by
            obtain ⟨k, hk, hkon⟩ := hu
            exact List.countP_pos_iff.2 ⟨k, hk, hkon⟩
          have hasked : 0 < s.agentUnserved.countP (Sent.reportsOn u) := by
            rw [hs.agentUnserved.1 rfl]
            refine List.countP_pos_iff.2 ⟨x, List.mem_cons_self .., ?_⟩
            rw [Sent.reportsOn_insert (u := uuid) hs.read]
            exact hon
          have hone := honce u
          omega

/-- The requests carried out are one more. -/
theorem Serve.carriedOut {conn : Conn} {uuid rid : CString} {x : Sent} {req : Request}
    {server : OvsdbServer} (hs : Serve s conn uuid s' x rid req server) :
    ∀ y ∈ s'.carriedOut, y ∈ s.carriedOut ∨ y = x ∧ conn = .component := by
  intro y hy
  unfold Network.carriedOut at hy ⊢
  rw [hs.component] at hy
  cases conn with
  | component =>
      have hserved : s'.server.servedComponent = s.server.servedComponent + 1 := hs.served
      have hnext : s.component.db.sent[s.server.servedComponent]? = some x := hs.next
      rw [hserved, List.take_add_one, hnext] at hy
      exact (List.mem_append.1 hy).imp_right fun hx => ⟨List.mem_singleton.1 hx, rfl⟩
  | agent =>
      have hserved : s'.server.servedComponent = s.server.servedComponent := hs.others .component (by decide)
      rw [hserved] at hy
      exact Or.inl hy

/-- The step lemma of the server. -/
theorem CleanUp.serve {conn : Conn} {uuid rid : CString} {x : Sent} {req : Request} {server : OvsdbServer}
    (h : CleanUp s r) (hrec : RecordInv s r) (hb : Balanced s.component.managerState)
    (hrep : ReportedOnce s r) (honce : ∀ u, r.actions.countP (AgentAction.on u) ≤ 1)
    (hs : Serve s conn uuid s' x rid req server) :
    CleanUp s' { r with commits := r.commits ++ (s.commits conn uuid).toList } := by
  have hsub : r.commits ⊆ r.commits ++ (s.commits conn uuid).toList := List.subset_append_left _ _
  have hserved : s'.server.servedComponent ≤ s'.component.db.sent.length := by
    rw [hs.component]
    cases conn with
    | component =>
        have hserved : s'.server.servedComponent = s.server.servedComponent + 1 := hs.served
        rw [hserved]
        exact (List.getElem?_eq_some_iff.1 hs.next).1
    | agent =>
        rw [show s'.server.servedComponent = s.server.servedComponent from hs.others .component (by decide)]
        exact h.served
  have hhandled : ∀ u, s'.component.listener.handles = some u →
      Record.Reported { r with commits := r.commits ++ (s.commits conn uuid).toList } u := by
    rw [hs.component]
    exact fun u hu => (h.handled u hu).mono _ hsub
  have hasked : ∀ y ∈ s'.component.db.sent, ∀ rid table clause,
      readRequest y.request = some (rid, .delete table clause) →
        ∃ u, Record.Reported { r with commits := r.commits ++ (s.commits conn uuid).toList } u ∧
          DeletesFor u table clause := by
    rw [hs.component]
    intro y hy rid table clause hread
    obtain ⟨u, hu, hfor⟩ := h.asked y hy rid table clause hread
    exact ⟨u, hu.mono _ hsub, hfor⟩
  have hrows : ∀ row ∈ s'.server.rows, row ∈ s.server.rows ∨ ∃ table columns,
      req = .insert table columns ∧
      row = ⟨table, uuid, columns⟩ ∧ uuid ∉ s.server.given.map Prod.snd := by
    rw [hs.rows]
    exact fun row hrow => hs.carries.rows hrow
  -- the transaction that asks for a row is in the table
  have hopen : ∀ c ∈ (s.commits conn uuid).toList, ∀ a st, c.owner = some a →
      .completed a st ∉ s.component.manager.log := by
    rw [hs.commits_eq]
    intro c hc a st howner
    have howned : s.ownerOf conn rid = some a := by
      cases hs.carries with
      | insert _ _ => rw [List.mem_singleton.1 hc] at howner; exact howner
      | delete => cases hc
      | monitor => cases hc
    cases conn with
    | component =>
        obtain ⟨e, he, rfl⟩ := Option.map_eq_some_iff.1 howned
        exact hb.not_completed (SlotTable.mem_of_elements he) st
    | agent => cases howned
  have htables : ∀ c ∈ (s.commits conn uuid).toList,
      c.row.table = gatewayConfigTableName ∨ c.row.table = feedbackTableName := by
    rw [hs.commits_eq]
    have hx : x ∈ (s.process conn).db.sent := List.mem_of_getElem? hs.next
    intro c hc
    cases hs.carries with
    | insert _ _ =>
        rw [List.mem_singleton.1 hc]
        cases conn with
        | component => exact Or.inl (hrec.component.layer.inserts x hx rid _ _ hs.read)
        | agent => exact Or.inr (hrec.agent.layer.inserts x hx rid _ _ hs.read)
    | delete => cases hc
    | monitor => cases hc
  refine ⟨hserved, fun c hc => ?_, fun row hrow => ?_, hhandled, hasked,
    fun y hy rid' t clause hread row hrow => ?_, fun c hc a st howner hev => ?_⟩
  · rcases List.mem_append.1 hc with hc | hc
    · exact h.tables c hc
    · exact htables c hc
  · rcases hrows row hrow with hold | ⟨table, columns, rfl, rfl, _⟩
    · obtain ⟨c, hc, hcrow⟩ := h.listed row hold
      exact ⟨c, hsub hc, hcrow⟩
    · rw [hs.commits_eq]
      exact ⟨_, List.mem_append_right _ (List.mem_singleton_self _), rfl⟩
  · rcases hs.carriedOut y hy with hold | ⟨rfl, _⟩
    · rcases hrows row hrow with hrow | ⟨table, columns, rfl, rfl, hnew⟩
      · exact h.done y hold rid' t clause hread row hrow
      · obtain ⟨u, hu, hfor⟩ := h.asked y (List.mem_of_mem_take hold) rid' t clause hread
        exact hs.new_row hrec hrep honce hnew hu hfor
    · rw [hs.read] at hread
      cases hread
      rw [hs.rows] at hrow
      exact hs.carries.gone row hrow
  · rw [hs.component] at hev ⊢
    rcases List.mem_append.1 hc with hc | hc
    · exact h.deletes c hc a st howner hev
    · exact absurd hev (hopen c hc a st howner)

/-- Nothing but the component and the server matters. -/
theorem CleanUp.frame (h : CleanUp s r) (hc : s'.component = s.component)
    (hrows : s'.server.rows = s.server.rows)
    (hserved : s'.server.servedComponent = s.server.servedComponent) (actions : List AgentAction) :
    CleanUp s' { r with actions := actions } := by
  constructor
  · rw [hc, hserved]; exact h.served
  · exact h.tables
  · rw [hrows]; exact h.listed
  · rw [hc]; exact h.handled
  · rw [hc]; exact h.asked
  · unfold Network.carriedOut
    rw [hc, hserved, hrows]
    exact h.done
  · rw [hc]; exact h.deletes

/-- **The step lemma.** -/
theorem cleanUp_step {i : NetworkStep} (h : CleanUp s r) (hrec : RecordInv s r) (hp : Provenance s r)
    (hb : Balanced s.component.managerState) (hrep : ReportedOnce s r)
    (honce : ∀ u, r.actions.countP (AgentAction.on u) ≤ 1) (hstep : networkStep s i = some s') :
    CleanUp s' (i.note s s' r) := by
  cases i with
  | component i =>
      simp only [networkStep] at hstep
      split at hstep
      · next hallowed =>
          obtain ⟨c, hc, rfl⟩ := Option.map_eq_some_iff.1 hstep
          exact h.stepComponent hrec hallowed hc
      · cases hstep
  | agent i =>
      simp only [networkStep] at hstep
      split at hstep
      · obtain ⟨a, _, rfl⟩ := Option.map_eq_some_iff.1 hstep
        refine h.frame ?_ ?_ ?_ _
        · rfl
        · rfl
        · rfl
      · cases hstep
  | serve conn uuid =>
      obtain ⟨x, rid, req, server, hs⟩ := serve_inv hstep
      exact h.serve hrec hb hrep honce hs
  | hearComponent => exact h.hearComponent hrec hp hstep
  | hearAgent ret =>
      have hkeep : s'.component = s.component ∧ s'.server.rows = s.server.rows ∧
          s'.server.servedComponent = s.server.servedComponent := by
        obtain ⟨_, _, _, _, ⟨_, rfl⟩ | ⟨_, _, rfl⟩⟩ := hearAgent_inv hrec.agent hstep
        · exact ⟨rfl, rfl, rfl⟩
        · exact ⟨rfl, rfl, rfl⟩
      exact h.frame hkeep.1 hkeep.2.1 hkeep.2.2 _

end CleanUp

/-- The run lemma. -/
theorem cleanUp_of_reach {cid agentCid : Nat} {t : Network × Record}
    (h : (recordedNetwork cid agentCid).Reachable t) : CleanUp t.1 t.2 := by
  have hall : (RecordInv t.1 t.2 ∧ Provenance t.1 t.2 ∧ OneMonitor t.1 ∧ ToldOnce t.1 t.2) ∧
      ReportedOnce t.1 t.2 ∧ CleanUp t.1 t.2 := by
    refine Machine.Reach.invariant_recorded (C := fun _ _ => True)
      (I := fun s r => (RecordInv s r ∧ Provenance s r ∧ OneMonitor s ∧ ToldOnce s r) ∧
        ReportedOnce s r ∧ CleanUp s r)
      ?_ ?_ h
    · intro s h0
      have h0 : s = .start cid agentCid := h0
      rw [h0]
      exact ⟨⟨recordInv_start cid agentCid, provenance_start cid agentCid,
        ⟨Nat.zero_le _, Nat.le_refl _⟩,
        fun _ => Nat.le_refl _⟩, fun _ => Nat.le_refl _, cleanUp_start cid agentCid⟩
    · intro s i s' r hreach hI _ hstep
      obtain ⟨⟨hrec, hp, hone, htold⟩, hrep, hclean⟩ := hI
      have hb := balanced_of_component (component_of_network hreach)
      have honce : ∀ u, r.actions.countP (AgentAction.on u) ≤ 1 := by
        intro u
        have hnodup := List.nodup_iff_count_le_one.1 (htold.actions_nodup hrec.fresh) u
        unfold List.count at hnodup
        rwa [List.countP_map] at hnodup
      exact ⟨⟨recordInv_step hrec hstep, provenance_step hp hrec hb hstep,
        oneMonitor_step hone hrec hstep,
        toldOnce_step htold hrec hone hstep⟩, reportedOnce_step hrep hrec hstep,
        cleanUp_step hclean hrec hp hb hrep honce hstep⟩
  exact hall.2.2

/-! ## §6. Main results. -/

/-- The row is the one `e` asked for, or a Feedback on it. -/
def Record.BelongsTo (r : Record) (row : Row) (e : TransactionEntry) : Prop :=
  ∃ uuid, r.RowOf e uuid ∧
    (row = ⟨gatewayConfigTableName, uuid, .object e.tableConfig.row⟩ ∨ row.reportsOn uuid = true)

section Main

variable {cid agentCid : Nat} {t : Network × Record}

/-- A row belongs to a transaction. -/
theorem belongs_of_listed (hrec : RecordInv t.1 t.2) (hp : Provenance t.1 t.2) (hclean : CleanUp t.1 t.2)
    {row : Row} (hrow : row ∈ t.1.server.rows) :
    ∃ e, .inserted e ∈ t.1.component.manager.log ∧ t.2.BelongsTo row e := by
  obtain ⟨c, hc, rfl⟩ := hclean.listed row hrow
  have howner : ∀ k ∈ t.2.commits, k.row.table = gatewayConfigTableName →
      ∃ e, .inserted e ∈ t.1.component.manager.log ∧ t.2.RowOf e k.row.uuid ∧
        k.row = ⟨gatewayConfigTableName, k.row.uuid, .object e.tableConfig.row⟩ := by
    intro k hk htable
    obtain ⟨e, he, howner, _, hcolumns⟩ := hp.commits k hk htable
    have hkrow : k.row = ⟨gatewayConfigTableName, k.row.uuid, .object e.tableConfig.row⟩ := by
      rw [← htable, ← hcolumns]
    exact ⟨e, he, ⟨k, hk, howner, hkrow⟩, hkrow⟩
  rcases hclean.tables c hc with htable | htable
  · obtain ⟨e, he, hrowOf, hcrow⟩ := howner c hc htable
    exact ⟨e, he, _, hrowOf, Or.inl hcrow⟩
  · -- a Feedback, on a row of its own transaction
    obtain ⟨x, hx, hform, hcolumns⟩ := hrec.reports hc htable
    obtain ⟨k, hk, hktable, hku, _⟩ := hrec.action x hx
    obtain ⟨e, he, hrowOf, _⟩ := howner k hk hktable
    refine ⟨e, he, _, hrowOf, Or.inr (Row.reportsOn_iff.2 ⟨htable, ?_⟩)⟩
    rw [hcolumns, hku]
    exact fbRow_reqUuidColumn hform x.ret

/-- At rest nothing that belongs to a completed transaction is left. -/
theorem gone_of_completed (hq : t.1.Quiescent) (hclean : CleanUp t.1 t.2) {row : Row}
    {e : TransactionEntry} (hrow : row ∈ t.1.server.rows) (hbelongs : t.2.BelongsTo row e) (st : Int) :
    .completed e.addr st ∉ t.1.component.manager.log := by
  intro hdone
  obtain ⟨uuid, ⟨c, hc, howner, hcrow⟩, hrowIs⟩ := hbelongs
  -- all requests have been carried out
  have hall : ∀ {table : CString} {clause : Json}, DeleteSent t.1.component.db table clause →
      OvsdbServer.selects table clause row = false := by
    intro table clause hsent
    obtain ⟨x, hx, _, rid, hread⟩ := hsent
    refine hclean.done x ?_ rid table clause hread row hrow
    have hnone : t.1.component.db.sent[t.1.server.servedComponent]? = none :=
      Option.map_eq_none_iff.1 hq.requestsComponent
    unfold Network.carriedOut
    rw [List.take_of_length_le (List.getElem?_eq_none_iff.1 hnone)]
    exact hx
  have hsent : DeletesSent t.1.component.db uuid := by
    have hdel := hclean.deletes c hc e.addr st howner hdone
    rw [hcrow] at hdel
    refine hdel.resolve_left fun hbusy => ?_
    have hbusy := hbusy.not_idle
    rw [hq.component.listener] at hbusy
    cases hbusy
  rcases hrowIs with rfl | hon
  · exact absurd (selects_rowClause.2 ⟨rfl, rfl⟩) (Bool.eq_false_iff.1 (hall hsent.gwConfig))
  · exact absurd (selects_reqUuidClause.2 hon) (Bool.eq_false_iff.1 (hall hsent.feedback))

/-- **What is left.**  In every run, when the network is at rest, each row in
the two tables belongs to a transaction that was inserted and not completed. -/
theorem left_rows_pending (h : (recordedNetwork cid agentCid).Reachable t) (hq : t.1.Quiescent) :
    ∀ row ∈ t.1.server.rows, ∃ e, .inserted e ∈ t.1.component.manager.log ∧ t.2.BelongsTo row e ∧
      ∀ st, .completed e.addr st ∉ t.1.component.manager.log := by
  intro row hrow
  have hp := provenance_of_reach h
  have hclean := cleanUp_of_reach h
  obtain ⟨e, he, hbelongs⟩ := belongs_of_listed (recordInv_of_reach h) hp hclean hrow
  exact ⟨e, he, hbelongs, gone_of_completed hq hclean hrow hbelongs⟩

/-- The Feedback was committed too early, and both rows stay. -/
theorem left_rows_pending_lateMonitor :
    ∃ t : Network × Record, t.1.Quiescent ∧ t.1.server.rows.length = 2 ∧
    ∀ row ∈ t.1.server.rows, ∃ e, .inserted e ∈ t.1.component.manager.log ∧ t.2.BelongsTo row e ∧
      ∀ st, .completed e.addr st ∉ t.1.component.manager.log := by
  have hrun : ((networkMachine 1 2).run (.start 1 2) lateComponentSteps).any (fun s =>
      s.quiescentTest && s.server.rows.length == 2) = true := by
    decide +kernel
  obtain ⟨s, hs, hcheck⟩ := (Option.any_eq_true _ _).1 hrun
  rw [Bool.and_eq_true, beq_iff_eq] at hcheck
  have hr : (networkMachine 1 2).Reachable s := Machine.reachable_of_run (.init rfl) hs
  obtain ⟨r, hr⟩ : ∃ r, (recordedNetwork 1 2).Reachable (s, r) := hr.recorded
  have hq := Network.quiescent_of_test hcheck.1
  exact ⟨(s, r), hq, hcheck.2, left_rows_pending hr hq⟩

/-- **The tables are empty again.**  In every run that is on time, when the
network is at rest there is no row in the database. -/
theorem tables_empty_at_rest
    (h : ((networkMachine cid agentCid).recording ⟨[], []⟩ NetworkStep.note).Reach
      (fun t i => OnTime t.1 i) t)
    (hq : t.1.Quiescent) : t.1.server.rows = [] := by
  have hreach : (recordedNetwork cid agentCid).Reachable t := Machine.Reach.reachable h
  have hp := provenance_of_reach hreach
  have hclean := cleanUp_of_reach hreach
  rw [List.eq_nil_iff_forall_not_mem]
  intro row hrow
  obtain ⟨e, he, hbelongs⟩ := belongs_of_listed (recordInv_of_reach hreach) hp hclean hrow
  obtain ⟨st, hdone⟩ := completed_of_quiescent (Machine.Reach.forget h) hq he
  exact gone_of_completed hq hclean hrow hbelongs st hdone

theorem tables_empty_at_rest_onTime : ∃ t : Network × Record,
    (∃ cb st tc, .invoked 0 cb st tc ∈ t.1.component.manager.log) ∧ t.1.server.rows = [] := by
  obtain ⟨t, h, hq, hev⟩ := onTime_recorded
  exact ⟨t, hev, tables_empty_at_rest h hq⟩

end Main

end OvsAgent
