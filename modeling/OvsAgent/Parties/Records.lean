/-
  OvsAgent.Parties.Records — the network with a record of what was done.

  A row that was deleted, and an action of the agent, leave no trace in the
  network's state.  The record keeps every row the server ever committed, with
  the transaction whose request it is, and every action of the agent:

      Commit        the row, and the entry in the slot of the request's id
      AgentAction   the row `gwconf_mon_cb` was called with, and its result

  Main results:
    * `component_of_network` — the component's part of a run of the network is
      a run of the process, so what holds of the process holds here;
    * `serve_inv` — what one request carried out by the server does;
    * `recordInv_step` — every update on its way is about a committed row,
      every action about a row the agent was told of, and every Feedback
      request reports an action.
-/
import OvsAgent.Lib.History
import OvsAgent.Parties.NoLoss
import OvsAgent.DbApi.RoundTrip

namespace OvsAgent

open CString (ofString utoa atou strncpy)
open Json

/-! ## §1. The record. -/

/-- A row the server has committed; `owner` is the address of the transaction
that stood in the slot of the request's id. -/
structure Commit where
  row : Row
  owner : Option Nat

/-- A row the agent was called with, and what it returned. -/
structure AgentAction where
  row : OvsAgentTableConfig
  ret : Int

structure Record where
  commits : List Commit
  actions : List AgentAction

/-- The commit of a request, when it inserts a row. -/
def Request.commit (uuid : CString) (owner : Option Nat) : Request → Option Commit
  | .insert table row => some ⟨⟨table, uuid, row⟩, owner⟩
  | _ => none

namespace Network

/-- The transaction in the slot of a request id. -/
def ownerOf (s : Network) (conn : Conn) (rid : CString) : Option Nat :=
  match conn with
  | .component => (s.component.manager.table.elements (hashCode (atou rid))).map TransactionEntry.addr
  | .agent => none

/-- The row that is committed when the next request of `conn` is carried out. -/
def commits (s : Network) (conn : Conn) (uuid : CString) : Option Commit :=
  ((s.nextRequest conn).bind readRequest).bind fun r => r.2.commit uuid (s.ownerOf conn r.1)

/-- The action the agent takes when it reads its next message. -/
def acts (s : Network) (ret : Int) : Option AgentAction :=
  (s.server.toAgent.head?.bind s.agent.actsOn).map fun row => ⟨row, ret⟩

end Network

/-- What a step adds to the record. -/
def NetworkStep.note (s : Network) (i : NetworkStep) (_ : Network) (r : Record) : Record :=
  match i with
  | .serve conn uuid => { r with commits := r.commits ++ (s.commits conn uuid).toList }
  | .hearAgent ret => { r with actions := r.actions ++ (s.acts ret).toList }
  | _ => r

/-- The network with its record. -/
def recordedNetwork (cid agentCid : Nat) : Machine (Network × Record) NetworkStep :=
  (networkMachine cid agentCid).recording ⟨[], []⟩ NetworkStep.note

/-! ## §2. The component by itself. -/

/-- Reading a message is a step of the process, or changes nothing. -/
theorem hear_step {s s' : Component} {msg : ServerMsg} (h : s.hear msg = some s') :
    s' = s ∨ ∃ i, componentStep s i = some s' := by
  cases msg with
  | reply rid result => exact Or.inr ⟨.receipt rid (some result), h⟩
  | update monId table rowUuid row =>
      cases row with
      | new columns => exact Or.inr ⟨.update monId table columns, h⟩
      | old columns =>
          simp only [Component.hear] at h
          split at h
          · cases h; exact Or.inl rfl
          · cases h

/-- **The component's part of a run is a run of the process.** -/
theorem component_of_network {cid agentCid : Nat} {s : Network}
    (h : (networkMachine cid agentCid).Reachable s) : (componentMachine cid).Reachable s.component := by
  refine h.invariant (I := fun s => (componentMachine cid).Reachable s.component) ?_ ?_
  · intro s h0
    have h0 : s = .start cid agentCid := h0
    rw [h0]
    exact .init rfl
  · intro s i s' hI _ hstep
    have hstep : networkStep s i = some s' := hstep
    cases i with
    | component i =>
        simp only [networkStep] at hstep
        split at hstep
        · obtain ⟨c, hc, rfl⟩ := Option.map_eq_some_iff.1 hstep
          exact .step hI trivial hc
        · cases hstep
    | agent i =>
        simp only [networkStep] at hstep
        split at hstep
        · obtain ⟨a, _, rfl⟩ := Option.map_eq_some_iff.1 hstep
          exact hI
        · cases hstep
    | serve conn uuid =>
        have hs := serve_cases hstep
        rw [hs.component]
        exact hI
    | hearComponent =>
        simp only [networkStep, Network.hearComponent] at hstep
        split at hstep
        · cases hstep
        · obtain ⟨c, hc, rfl⟩ := Option.map_eq_some_iff.1 hstep
          rcases hear_step hc with rfl | ⟨i, hi⟩
          · exact hI
          · exact .step hI trivial hi
    | hearAgent ret =>
        simp only [networkStep, Network.hearAgent] at hstep
        split at hstep
        · cases hstep
        · split at hstep
          · obtain ⟨a, _, rfl⟩ := Option.map_eq_some_iff.1 hstep
            split
            · exact hI
            · exact hI
          · cases hstep

/-! ## §3. One request carried out. -/

namespace OvsdbServer

/-- The messages on their way to a process. -/
def queue (sv : OvsdbServer) : Conn → List ServerMsg
  | .component => sv.toComponent
  | .agent => sv.toAgent

/-- What is put into a queue when a request of `conn` is answered. -/
theorem queue_answer (sv : OvsdbServer) (conn : Conn) (table : CString)
    (changes : List (CString × RowUpdate)) (rid : CString) (result : Json) (c : Conn) :
    (sv.answer conn table changes rid result).queue c = sv.queue c ++
      (sv.updatesFor c table changes ++ if conn = c then [.reply rid result] else []) := by
  cases c with
  | component => rfl
  | agent => rfl

end OvsdbServer

/-- What a change of rows tells a subscriber: the row and what has become of it. -/
theorem mem_updatesFor_iff {sv : OvsdbServer} {c : Conn} {table : CString}
    {changes : List (CString × RowUpdate)} {msg : ServerMsg} :
    msg ∈ sv.updatesFor c table changes ↔ ∃ sub ∈ sv.subscriptions,
      sub.conn = c ∧ sub.table = table ∧
        ∃ change ∈ changes, msg = .update sub.monId table change.1 change.2 := by
  unfold OvsdbServer.updatesFor
  rw [List.mem_flatMap]
  constructor
  · rintro ⟨sub, hsub, hmsg⟩
    obtain ⟨hsub, hcond⟩ := List.mem_filter.1 hsub
    rw [Bool.and_eq_true, beq_iff_eq, beq_iff_eq] at hcond
    obtain ⟨change, hchange, rfl⟩ := List.mem_map.1 hmsg
    exact ⟨sub, hsub, hcond.1, hcond.2, change, hchange, rfl⟩
  · rintro ⟨sub, hsub, hconn, htable, change, hchange, rfl⟩
    refine ⟨sub, List.mem_filter.2 ⟨hsub, ?_⟩, List.mem_map.2 ⟨change, hchange, rfl⟩⟩
    rw [hconn, htable, beq_self_eq_true, beq_self_eq_true]
    rfl

/-- What the server does with one request. -/
inductive Carries (sv : OvsdbServer) (conn : Conn) (uuid rid : CString) :
    Request → OvsdbServer → Prop where
  | insert {table : CString} {row : Json} (huuid : isUuid uuid = true)
      (hnew : uuid ∉ sv.given.map Prod.snd) :
      Carries sv conn uuid rid (.insert table row)
        (OvsdbServer.answer { sv with
          rows := sv.rows ++ [⟨table, uuid, row⟩]
          given := sv.given ++ [(table, uuid)] } conn table [(uuid, .new row)] rid (insertResult uuid))
  | delete {table : CString} {clause : Json} :
      Carries sv conn uuid rid (.delete table clause)
        (OvsdbServer.answer { sv with
          rows := sv.rows.filter fun row => !OvsdbServer.selects table clause row } conn table
          ((sv.rows.filter (OvsdbServer.selects table clause)).map fun row => (row.uuid, .old row.columns))
          rid (OvsdbServer.deleteResult (sv.rows.filter (OvsdbServer.selects table clause)).length))
  | monitor {monId table : CString} :
      Carries sv conn uuid rid (.monitor monId table)
        (OvsdbServer.answer { sv with
          subscriptions := sv.subscriptions ++ [⟨conn, monId, table⟩] } conn table [] rid
          (OvsdbServer.monitorResult table (sv.rows.filter fun row => row.table == table)))

theorem carryOut_inv {sv sv' : OvsdbServer} {conn : Conn} {uuid : CString} {msg : Json}
    (h : sv.carryOut conn uuid msg = some sv') :
    ∃ rid req, readRequest msg = some (rid, req) ∧ Carries sv conn uuid rid req sv' := by
  unfold OvsdbServer.carryOut at h
  split at h
  · cases h
  · next rid table row hread =>
      split at h
      · next hcond =>
          rw [Bool.and_eq_true, Bool.not_eq_true'] at hcond
          cases h
          refine ⟨rid, _, hread, .insert hcond.1 fun hmem => ?_⟩
          obtain ⟨g, hg, heq⟩ := List.mem_map.1 hmem
          have hany : (sv.given.any fun g => g.2 == uuid) = true :=
            List.any_eq_true.2 ⟨g, hg, beq_iff_eq.2 heq⟩
          rw [hany] at hcond
          cases hcond.2
      · cases h
  · next rid table clause hread => cases h; exact ⟨rid, _, hread, .delete⟩
  · next rid monId table hread => cases h; exact ⟨rid, _, hread, .monitor⟩

namespace Network

/-- How many requests of a connection have been served. -/
def served (s : Network) : Conn → Nat
  | .component => s.server.servedComponent
  | .agent => s.server.servedAgent

theorem nextRequest_eq (s : Network) (conn : Conn) :
    s.nextRequest conn = ((s.process conn).db.sent[s.served conn]?).map Sent.request := by
  cases conn with
  | component => rfl
  | agent => rfl

end Network

/-- The request `x` of `conn` was carried out, which led the server to `server`. -/
structure Serve (s : Network) (conn : Conn) (uuid : CString) (s' : Network) (x : Sent) (rid : CString)
    (req : Request) (server : OvsdbServer) : Prop where
  next : (s.process conn).db.sent[s.served conn]? = some x
  read : readRequest x.request = some (rid, req)
  carries : Carries s.server conn uuid rid req server
  component : s'.component = s.component
  agent : s'.agent = s.agent
  acted : s'.acted = s.acted
  rows : s'.server.rows = server.rows
  subscriptions : s'.server.subscriptions = server.subscriptions
  given : s'.server.given = server.given
  queue : ∀ c, s'.server.queue c = server.queue c
  served : s'.served conn = s.served conn + 1
  others : ∀ c, c ≠ conn → s'.served c = s.served c

/-- Carrying out a request serves nobody's count by itself. -/
theorem Carries.served {sv sv' : OvsdbServer} {conn : Conn} {uuid rid : CString} {req : Request}
    (h : Carries sv conn uuid rid req sv') :
    sv'.servedComponent = sv.servedComponent ∧ sv'.servedAgent = sv.servedAgent := by
  cases h with
  | insert _ _ => exact ⟨rfl, rfl⟩
  | delete => exact ⟨rfl, rfl⟩
  | monitor => exact ⟨rfl, rfl⟩

/-- **What a step of the server does.** -/
theorem serve_inv {s s' : Network} {conn : Conn} {uuid : CString} (h : s.serve conn uuid = some s') :
    ∃ x rid req server, Serve s conn uuid s' x rid req server := by
  unfold Network.serve at h
  cases hmsg : s.nextRequest conn with
  | none => rw [hmsg] at h; cases h
  | some msg =>
      cases hsv : s.server.carryOut conn uuid msg with
      | none => simp [hmsg, hsv] at h
      | some server =>
          obtain ⟨rid, req, hread, hcar⟩ := carryOut_inv hsv
          obtain ⟨hsc, hsa⟩ := hcar.served
          simp only [hmsg, hsv, Option.pure_def, Option.bind_eq_bind, Option.bind_some,
            Option.some.injEq] at h
          rw [Network.nextRequest_eq] at hmsg
          obtain ⟨x, hx, rfl⟩ := Option.map_eq_some_iff.1 hmsg
          subst h
          refine ⟨x, rid, req, server, hx, hread, hcar, rfl, rfl, rfl, ?_, ?_, ?_, fun c => ?_, ?_,
            fun c hc => ?_⟩
          · cases conn <;> rfl
          · cases conn <;> rfl
          · cases conn <;> rfl
          · cases conn <;> cases c <;> rfl
          · cases conn with
            | component => exact congrArg (· + 1) hsc
            | agent => exact congrArg (· + 1) hsa
          · cases conn with
            | component =>
                cases c with
                | component => exact absurd rfl hc
                | agent => exact hsa
            | agent =>
                cases c with
                | component => exact hsc
                | agent => exact absurd rfl hc

/-- A message the server puts into the queue of `c` while it carries out a request. -/
inductive News (sv : OvsdbServer) (conn : Conn) (uuid rid : CString) (req : Request) (c : Conn) :
    ServerMsg → Prop where
  /-- A subscriber is told of the new row. -/
  | row {table : CString} {row : Json} {sub : Subscription} (hreq : req = .insert table row)
      (hsub : sub ∈ sv.subscriptions) (hconn : sub.conn = c) (htable : sub.table = table) :
      News sv conn uuid rid req c (.update sub.monId table uuid (.new row))
  /-- A subscriber is told of a row that is gone. -/
  | gone {monId table rowUuid : CString} {columns : Json} :
      News sv conn uuid rid req c (.update monId table rowUuid (.old columns))
  | inserted {table : CString} {row : Json} (hconn : conn = c) (hreq : req = .insert table row) :
      News sv conn uuid rid req c (.reply rid (insertResult uuid))
  | other {result : Json} (hconn : conn = c) (hreq : ∀ table row, req ≠ .insert table row)
      (hresult : (ServerMsg.reply rid result).insertedUuid = none) :
      News sv conn uuid rid req c (.reply rid result)

/-- The queues only grow, and by news. -/
theorem Carries.news {sv sv' : OvsdbServer} {conn : Conn} {uuid rid : CString} {req : Request}
    (h : Carries sv conn uuid rid req sv') (c : Conn) :
    ∃ news, sv'.queue c = sv.queue c ++ news ∧ ∀ msg ∈ news, News sv conn uuid rid req c msg := by
  have hqueue : ∀ sv₁ : OvsdbServer, sv₁.toComponent = sv.toComponent → sv₁.toAgent = sv.toAgent →
      sv₁.queue c = sv.queue c := by
    intro sv₁ hc ha
    cases c with
    | component => exact hc
    | agent => exact ha
  have hreply : ∀ {result : Json}, News sv conn uuid rid req c (.reply rid result) ∨ conn ≠ c →
      ∀ msg ∈ (if conn = c then [ServerMsg.reply rid result] else []),
        News sv conn uuid rid req c msg := by
    intro result hor msg hmsg
    split at hmsg
    · next heq =>
        rw [List.mem_singleton.1 hmsg]
        exact hor.resolve_right fun hne => hne heq
    · cases hmsg
  cases h with
  | @insert table row huuid hnew =>
      refine ⟨_, (OvsdbServer.queue_answer ..).trans (congrArg (· ++ _) (hqueue _ rfl rfl)),
        fun msg hmsg => ?_⟩
      rcases List.mem_append.1 hmsg with hmsg | hmsg
      · obtain ⟨sub, hsub, hconn, htable, change, hchange, rfl⟩ := mem_updatesFor_iff.1 hmsg
        rw [List.mem_singleton.1 hchange]
        exact .row rfl hsub hconn htable
      · refine hreply ?_ msg hmsg
        by_cases heq : conn = c
        · exact Or.inl (.inserted heq rfl)
        · exact Or.inr heq
  | @delete table clause =>
      refine ⟨_, (OvsdbServer.queue_answer ..).trans (congrArg (· ++ _) (hqueue _ rfl rfl)),
        fun msg hmsg => ?_⟩
      rcases List.mem_append.1 hmsg with hmsg | hmsg
      · obtain ⟨sub, _, _, _, change, hchange, rfl⟩ := mem_updatesFor_iff.1 hmsg
        obtain ⟨row, _, rfl⟩ := List.mem_map.1 hchange
        exact .gone
      · refine hreply ?_ msg hmsg
        by_cases heq : conn = c
        · exact Or.inl (.other heq (fun _ _ h => by cases h) rfl)
        · exact Or.inr heq
  | @monitor monId table =>
      refine ⟨_, (OvsdbServer.queue_answer ..).trans (congrArg (· ++ _) (hqueue _ rfl rfl)),
        fun msg hmsg => ?_⟩
      rcases List.mem_append.1 hmsg with hmsg | hmsg
      · obtain ⟨_, _, _, _, change, hchange, _⟩ := mem_updatesFor_iff.1 hmsg
        cases hchange
      · refine hreply ?_ msg hmsg
        by_cases heq : conn = c
        · exact Or.inl (.other heq (fun _ _ h => by cases h) rfl)
        · exact Or.inr heq

/-! ## §4. What the requests carry. -/

/-- The row of an insert request is that of the configuration it was made from. -/
theorem insert_row {config : RdkbTableConfig} {table : CString} (hname : config.tableId.name = some table)
    (hptr : config.configAddr.isSome) (rid : Nat) :
    ∃ js, ovsdbInsertToJson config (utoa rid) = some js ∧
      readRequest js = some (utoa rid, .insert table (.object config.row)) := by
  have hgw : utf8Valid gatewayConfigTableName = true := by decide
  have hfb : utf8Valid feedbackTableName = true := by decide
  cases config with
  | gwConfig config =>
      cases hname
      cases config with
      | none => cases hptr
      | some config => exact ⟨_, rfl, readRequest_insert hgw (utf8Valid_utoa rid)⟩
  | feedback config =>
      cases hname
      cases config with
      | none => cases hptr
      | some config => exact ⟨_, rfl, readRequest_insert hfb (utf8Valid_utoa rid)⟩
  | notify _ => cases hname
  | logbook _ => cases hname

/-- What the server reads out of the request of a call that goes well. -/
theorem Call.Plain.read {r : Role} {c : Call} {p : Prepared} {rid : CString} {req : Request}
    (h : c.Plain r) (hp : c.writeCall.Prepares p) (hread : readRequest p.strJson = some (rid, req)) :
    rid = utoa c.rid ∧ req = .insert r.table (.object c.request.tableConfig.row) := by
  obtain ⟨_, _, js, hjs, rfl, _⟩ := h.prepares hp
  obtain ⟨js', hjs', hr⟩ := insert_row h.name h.ptr c.rid
  rw [hjs] at hjs'
  cases hjs'
  rw [hr] at hread
  cases hread
  exact ⟨rfl, rfl⟩

/-- The Feedback row an action is reported with. -/
def AgentAction.feedback (a : AgentAction) : Feedback := ⟨a.ret, strncpy maxUuidLen a.row.uuid⟩

/-- The agent's monitor request. -/
def gatewayMonitorCall : DbCall := .monitor .gwConfig (some .gwconfMonCb) none

theorem gatewayMonitorCall_read {p : Prepared} {rid : CString} {req : Request}
    (hp : gatewayMonitorCall.Prepares p) (hread : readRequest p.strJson = some (rid, req)) :
    ∃ monId, req = .monitor monId gatewayConfigTableName := by
  obtain ⟨_, _, js, _, hjs, rfl⟩ := prepares_monitor hp
  obtain ⟨table, htable, hr⟩ := readRequest_monitor hjs
  cases htable
  rw [hr] at hread
  cases hread
  exact ⟨_, rfl⟩

/-! ## §5. The agent and the server. -/

/-- What the record says of the server's rows, the agent's actions and the
Feedback requests. -/
structure RecordInv (s : Network) (r : Record) : Prop where
  component : ComponentShape s.component
  agent : AgentShape s.agent
  given : s.server.given = r.commits.map fun c => (c.row.table, c.row.uuid)
  fresh : (r.commits.map (·.row.uuid)).Nodup
  form : ∀ c ∈ r.commits, isUuid c.row.uuid = true
  /-- An update of a new row is about a committed row. -/
  update : ∀ conn monId table uuid columns,
    .update monId table uuid (.new columns) ∈ s.server.queue conn →
      (∃ c ∈ r.commits, c.row = ⟨table, uuid, columns⟩) ∧
        (conn = .agent → table = gatewayConfigTableName)
  /-- The agent was called with a committed row of the Gateway_Config table. -/
  action : ∀ a ∈ r.actions, ∃ c ∈ r.commits, c.row.table = gatewayConfigTableName ∧
    c.row.uuid = a.row.uuid ∧ parseTable gatewayConfigTableName c.row.columns = some a.row.tableConfig
  reporting : ∀ c ∈ s.agent.calls, ∃ a ∈ r.actions, c.request = gwconfMonCb a.ret a.row
  monitors : ∀ pc ∈ s.agent.monitorCalls, pc.Of gatewayMonitorCall s.agent.db
  reported : ∀ x ∈ s.agent.db.sent, ∀ rid req, readRequest x.request = some (rid, req) →
    (∃ a ∈ r.actions, req = .insert feedbackTableName (.object (fbRow a.feedback))) ∨
      ∃ monId, req = .monitor monId gatewayConfigTableName
  subscribed : ∀ sub ∈ s.server.subscriptions, sub.conn = .agent → sub.table = gatewayConfigTableName
  /-- A Feedback row reports an action. -/
  feedback : ∀ c ∈ r.commits, c.row.table = feedbackTableName →
    ∃ a ∈ r.actions, c.row.columns = .object (fbRow a.feedback)

theorem recordInv_start (cid agentCid : Nat) : RecordInv (.start cid agentCid) ⟨[], []⟩ where
  component := (networkInv_start cid agentCid).component
  agent := (networkInv_start cid agentCid).agent
  given := rfl
  fresh := List.nodup_nil
  form := fun _ h => (by cases h)
  update := fun conn _ _ _ _ h => (by cases conn <;> cases h)
  action := fun _ h => (by cases h)
  reporting := fun _ h => (by cases h)
  monitors := fun _ h => (by cases h)
  reported := fun _ h => (by cases h)
  subscribed := fun _ h => (by cases h)
  feedback := fun _ h => (by cases h)

section Steps

variable {s s' : Network} {r : Record}

/-- A step of the component by itself is no concern of the record. -/
theorem RecordInv.stepComponent {c : Component} (h : RecordInv s r) (hm : ComponentMove s.component c) :
    RecordInv { s with component := c } r :=
  ⟨h.component.move hm, h.agent, h.given, h.fresh, h.form, h.update, h.action, h.reporting, h.monitors,
    h.reported, h.subscribed, h.feedback⟩

/-- A step of the agent by itself sends nothing but reports and its monitor request. -/
theorem RecordInv.stepAgent {i : ComponentStep} {a : Component} (h : RecordInv s r)
    (hallowed : agentAllowed s.agent i = true) (hstep : componentStep s.agent i = some a) :
    RecordInv { s with agent := a } r := by
  have hshape := h.agent.move (agentMove_cases h.agent hallowed hstep)
  -- what is left: the calls, the monitor calls and the requests sent
  have hkeep : (∀ c ∈ a.calls, ∃ x ∈ r.actions, c.request = gwconfMonCb x.ret x.row) →
      (∀ pc ∈ a.monitorCalls, pc.Of gatewayMonitorCall a.db) →
      (∀ x ∈ a.db.sent, ∀ rid req, readRequest x.request = some (rid, req) →
        (∃ y ∈ r.actions, req = .insert feedbackTableName (.object (fbRow y.feedback))) ∨
          ∃ monId, req = .monitor monId gatewayConfigTableName) →
      RecordInv { s with agent := a } r :=
    fun hr hm hs => ⟨h.component, hshape, h.given, h.fresh, h.form, h.update, h.action, hr, hm, hs,
      h.subscribed, h.feedback⟩
  cases i with
  | interactMonitor t cb =>
      simp only [agentAllowed, Bool.and_eq_true, decide_eq_true_eq] at hallowed
      obtain ⟨⟨rfl, rfl⟩, _⟩ := hallowed
      cases hstep
      refine hkeep h.reporting (fun pc hpc => ?_) h.reported
      rcases List.mem_append.1 hpc with hpc | hpc
      · exact h.monitors pc hpc
      · rw [List.mem_singleton.1 hpc]
        exact gatewayMonitorCall.start_of _
  | monitorCall n o =>
      simp only [agentAllowed, decide_eq_true_eq] at hallowed
      subst hallowed
      simp only [componentStep] at hstep
      split at hstep
      · cases hstep
      · next pc hpc =>
          cases hstep
          have hnc : gatewayMonitorCall.NoCancel := (Role.Makes.monitor (r := agentRole) .gwConfig).noCancel
          obtain ⟨hof, hacc⟩ := dbStep_access hnc (h.monitors pc (List.mem_of_getElem? hpc))
          refine hkeep h.reporting (fun pc' hpc' => ?_) (fun x hx rid req hread => ?_)
          · rcases List.mem_or_eq_of_mem_set hpc' with hpc' | rfl
            · exact (h.monitors pc' hpc').mono hacc.monitors_subset
            · exact hof
          · rcases hacc.mem_sent hx with hx | ⟨p, hp, _, rfl⟩
            · exact h.reported x hx rid req hread
            · exact Or.inr (gatewayMonitorCall_read hp hread)
  | call n malloc o =>
      simp only [agentAllowed, Bool.and_eq_true, decide_eq_true_eq] at hallowed
      obtain ⟨rfl, rfl⟩ := hallowed
      obtain ⟨c, hc, hpl, hps⟩ := plainStep_cases h.agent.calls hstep
      obtain ⟨c', hf⟩ := hps.frame hpl
      obtain ⟨y, hy, hreq⟩ := h.reporting c (List.mem_of_getElem? hc)
      refine hkeep (fun d hd => ?_) (fun pc hpc => ?_) (fun x hx rid req hread => ?_)
      · rw [hf.calls] at hd
        rcases List.mem_or_eq_of_mem_set hd with hd | rfl
        · exact h.reporting d hd
        · exact ⟨y, hy, hf.request.trans hreq⟩
      · rw [hf.monitorCalls] at hpc
        exact (h.monitors pc hpc).mono hf.db.monitors_subset
      · rcases hf.db.mem_sent hx with hx | ⟨p, hp, _, rfl⟩
        · exact h.reported x hx rid req hread
        · obtain ⟨_, rfl⟩ := hpl.read hp hread
          refine Or.inl ⟨y, hy, ?_⟩
          rw [hreq]
          rfl
  | listener o waiter =>
      simp only [componentStep, listenerStep] at hstep
      rcases h.agent.listener with hl | ⟨i, hl⟩
      · rw [hl] at hstep; cases hstep
      · rw [hl] at hstep
        cases hstep
        exact hkeep h.reporting h.monitors h.reported
  | _ => cases hallowed

/-- The commit of a request that is carried out. -/
theorem Serve.commits_eq {conn : Conn} {uuid rid : CString} {x : Sent} {req : Request} {server : OvsdbServer}
    (h : Serve s conn uuid s' x rid req server) :
    s.commits conn uuid = req.commit uuid (s.ownerOf conn rid) := by
  unfold Network.commits
  rw [Network.nextRequest_eq, h.next]
  show (readRequest x.request).bind _ = _
  rw [h.read]
  rfl

/-- The record after a request was carried out. -/
theorem RecordInv.serve {conn : Conn} {uuid rid : CString} {x : Sent} {req : Request} {server : OvsdbServer}
    (h : RecordInv s r) (hs : Serve s conn uuid s' x rid req server) :
    RecordInv s' { r with commits := r.commits ++ (s.commits conn uuid).toList } := by
  have hx : x ∈ (s.process conn).db.sent := List.mem_of_getElem? hs.next
  rw [hs.commits_eq]
  -- the updates on their way
  have hupdate : ∀ commits : List Commit, (∀ c ∈ r.commits, c ∈ commits) →
      (∀ table row, req = .insert table row → ∃ c ∈ commits, c.row = ⟨table, uuid, row⟩) →
      ∀ c monId table u columns, .update monId table u (.new columns) ∈ s'.server.queue c →
        (∃ k ∈ commits, k.row = ⟨table, u, columns⟩) ∧
        (c = .agent → table = gatewayConfigTableName) := by
    intro commits hold hnew c monId table u columns hmsg
    obtain ⟨news, hq, hall⟩ := hs.carries.news c
    rw [hs.queue, hq] at hmsg
    rcases List.mem_append.1 hmsg with hmsg | hmsg
    · obtain ⟨⟨k, hk, hrow⟩, hgw⟩ := h.update c monId table u columns hmsg
      exact ⟨⟨k, hold k hk, hrow⟩, hgw⟩
    · cases hall _ hmsg with
      | row hreq hsub hconn htable =>
          refine ⟨hnew _ _ hreq, fun hc => ?_⟩
          rw [← htable]
          exact h.subscribed _ hsub (hconn.trans hc)
  have haction : ∀ commits : List Commit, (∀ c ∈ r.commits, c ∈ commits) → ∀ a ∈ r.actions,
      ∃ c ∈ commits,
      c.row.table = gatewayConfigTableName ∧ c.row.uuid = a.row.uuid ∧
        parseTable gatewayConfigTableName c.row.columns = some a.row.tableConfig := by
    intro commits hold a ha
    obtain ⟨c, hc, hrest⟩ := h.action a ha
    exact ⟨c, hold c hc, hrest⟩
  have hmonitors : ∀ pc ∈ s'.agent.monitorCalls, pc.Of gatewayMonitorCall s'.agent.db := by
    rw [hs.agent]; exact h.monitors
  have hreporting : ∀ c ∈ s'.agent.calls, ∃ a ∈ r.actions, c.request = gwconfMonCb a.ret a.row := by
    rw [hs.agent]; exact h.reporting
  have hreported : ∀ y ∈ s'.agent.db.sent, ∀ rid req, readRequest y.request = some (rid, req) →
      (∃ a ∈ r.actions, req = .insert feedbackTableName (.object (fbRow a.feedback))) ∨
        ∃ monId, req = .monitor monId gatewayConfigTableName := by
    rw [hs.agent]; exact h.reported
  cases hs.carries with
  | @insert table row huuid hnew =>
      have hmem : ∀ c ∈ r.commits,
          c ∈ r.commits ++ (some (Commit.mk ⟨table, uuid, row⟩ (s.ownerOf conn rid))).toList :=
        fun c hc => List.mem_append_left _ hc
      have hsplit : ∀ c ∈
          r.commits ++ (some (Commit.mk ⟨table, uuid, row⟩ (s.ownerOf conn rid))).toList,
          c ∈ r.commits ∨ c = ⟨⟨table, uuid, row⟩, s.ownerOf conn rid⟩ := by
        intro c hc
        rcases List.mem_append.1 hc with hc | hc
        · exact Or.inl hc
        · exact Or.inr (List.mem_singleton.1 hc)
      have hgiven : s.server.given.map Prod.snd = r.commits.map (·.row.uuid) := by
        rw [h.given, List.map_map]; rfl
      rw [hgiven] at hnew
      refine ⟨hs.component ▸ h.component, hs.agent ▸ h.agent, ?_, ?_, fun c hc => ?_,
        hupdate _ hmem fun t' row' heq => ?_, haction _ hmem, hreporting, hmonitors, hreported, ?_,
        fun c hc htable => ?_⟩
      · rw [hs.given]
        show s.server.given ++ [(table, uuid)] = _
        rw [h.given, List.map_append]
        rfl
      · show ((r.commits ++ [_]).map _).Nodup
        rw [List.map_append]
        refine h.fresh.append (List.nodup_singleton _) ?_
        rw [List.map_singleton, List.disjoint_singleton]
        exact hnew
      · rcases hsplit c hc with hc | rfl
        · exact h.form c hc
        · exact huuid
      · cases heq
        exact ⟨_, List.mem_append_right _ (List.mem_singleton_self _), rfl⟩
      · rw [hs.subscriptions]
        exact h.subscribed
      · rcases hsplit c hc with hc | rfl
        · exact h.feedback c hc htable
        · -- only the agent writes Feedback rows
          cases conn with
          | component =>
              have hgw : table = gatewayConfigTableName :=
                h.component.layer.inserts x hx rid table row hs.read
              exact absurd (hgw.symm.trans htable) (by decide)
          | agent =>
              rcases h.reported x hx rid _ hs.read with ⟨a, ha, heq⟩ | ⟨_, heq⟩
              · cases heq
                exact ⟨a, ha, rfl⟩
              · cases heq
  | @delete table clause =>
      show RecordInv s' { r with commits := r.commits ++ [] }
      rw [List.append_nil]
      refine ⟨hs.component ▸ h.component, hs.agent ▸ h.agent, hs.given.trans h.given, h.fresh, h.form,
        hupdate _ (fun _ hc => hc) (fun _ _ heq => by cases heq), h.action, hreporting, hmonitors, hreported,
        ?_, h.feedback⟩
      rw [hs.subscriptions]
      exact h.subscribed
  | @monitor monId table =>
      show RecordInv s' { r with commits := r.commits ++ [] }
      rw [List.append_nil]
      refine ⟨hs.component ▸ h.component, hs.agent ▸ h.agent, hs.given.trans h.given, h.fresh, h.form,
        hupdate _ (fun _ hc => hc) (fun _ _ heq => by cases heq), h.action, hreporting, hmonitors, hreported,
        fun sub hsub hconn => ?_, h.feedback⟩
      rw [hs.subscriptions] at hsub
      rcases List.mem_append.1 hsub with hsub | hsub
      · exact h.subscribed sub hsub hconn
      · rw [List.mem_singleton.1 hsub] at hconn ⊢
        have hconn : conn = .agent := hconn
        subst hconn
        rcases h.reported x hx rid _ hs.read with ⟨_, _, heq⟩ | ⟨_, heq⟩
        · cases heq
        · cases heq; rfl

/-- The agent reads a message: `a` is the agent after it. -/
structure AgentHears (s : Network) (msg : ServerMsg) (rest : List ServerMsg) (a : Component) : Prop where
  queue : s.server.toAgent = msg :: rest
  shape : AgentShape a
  calls : a.calls = s.agent.calls
  db : a.db = s.agent.db
  monitorCalls : a.monitorCalls = s.agent.monitorCalls
  returned : ∀ c ∈ s.agent.calls, c.result.isSome

/-- What the agent's reading of a message does: it takes the action, and makes
the call that reports it. -/
theorem hearAgent_inv {ret : Int} (hshape : AgentShape s.agent) (h : s.hearAgent ret = some s') :
    ∃ msg rest a, AgentHears s msg rest a ∧
      ((s.agent.actsOn msg = none ∧
          s' = { s with agent := a, server := { s.server with toAgent := rest } }) ∨
        ∃ row, s.agent.actsOn msg = some row ∧
          s' = { s with
            agent := { a with calls := a.calls ++ [.start (gwconfMonCb ret row) none] }
            server := { s.server with toAgent := rest }
            acted := s.acted ++ [row.uuid] }) := by
  unfold Network.hearAgent at h
  cases hq : s.server.toAgent with
  | nil => rw [hq] at h; cases h
  | cons msg rest =>
      rw [hq] at h
      by_cases hall : (s.agent.calls.all (·.result.isSome)) = true
      · simp only [hall, if_true] at h
        obtain ⟨a, hear, rfl⟩ := Option.map_eq_some_iff.1 h
        obtain ⟨hsh, hcalls, hdb⟩ := hshape.hear hear
        have hmon : a.monitorCalls = s.agent.monitorCalls := by
          obtain ⟨_, hheard⟩ := hear_cases hear
          cases hheard <;> rfl
        refine ⟨msg, rest, a, ⟨hq, hsh, hcalls, hdb, hmon, List.all_eq_true.1 hall⟩, ?_⟩
        have hacts : a.actsOn msg = s.agent.actsOn msg := actsOn_congr hdb msg
        simp only [hacts]
        cases hact : s.agent.actsOn msg with
        | none => exact Or.inl ⟨rfl, rfl⟩
        | some row => exact Or.inr ⟨row, rfl, rfl⟩
      · rw [Bool.not_eq_true] at hall
        simp only [hall] at h
        cases h

/-- The agent acts on updates only, and is called with the row they carry. -/
theorem actsOn_inv {a : Component} {msg : ServerMsg} {row : OvsAgentTableConfig}
    (h : a.actsOn msg = some row) :
    ∃ monId table uuid columns tableConfig, msg = .update monId table uuid (.new columns) ∧
      parseTable table columns = some tableConfig ∧ row = ⟨tableConfig, strncpy maxUuidLen uuid⟩ := by
  unfold Component.actsOn at h
  split at h
  · next monId table uuid columns =>
      split at h
      · next tc node hparse hfind =>
          split at h
          · cases h
            exact ⟨monId, table, uuid, columns, tc, rfl, hparse, rfl⟩
          · cases h
      · cases h
  · cases h

/-- The action of the step. -/
theorem AgentHears.acts_eq {msg : ServerMsg} {rest : List ServerMsg} {a : Component}
    (h : AgentHears s msg rest a) (ret : Int) :
    s.acts ret = (s.agent.actsOn msg).map fun row => ⟨row, ret⟩ := by
  unfold Network.acts
  rw [h.queue]
  rfl

theorem RecordInv.hearComponent (h : RecordInv s r) (hstep : s.hearComponent = some s') :
    RecordInv s' r := by
  unfold Network.hearComponent at hstep
  cases hq : s.server.toComponent with
  | nil => rw [hq] at hstep; cases hstep
  | cons msg rest =>
      rw [hq] at hstep
      obtain ⟨c, hear, rfl⟩ := Option.map_eq_some_iff.1 hstep
      refine ⟨h.component.hear hear, h.agent, h.given, h.fresh, h.form,
        fun conn monId table u columns hm => ?_,
        h.action, h.reporting, h.monitors, h.reported, h.subscribed, h.feedback⟩
      refine h.update conn monId table u columns ?_
      cases conn with
      | component =>
          show _ ∈ s.server.toComponent
          rw [hq]
          exact List.mem_cons_of_mem _ hm
      | agent => exact hm

theorem RecordInv.hearAgent {ret : Int} (h : RecordInv s r) (hstep : s.hearAgent ret = some s') :
    RecordInv s' { r with actions := r.actions ++ (s.acts ret).toList } := by
  obtain ⟨msg, rest, a, hh, hcases⟩ := hearAgent_inv h.agent hstep
  have hupdate : ∀ (n : Network), n.server = { s.server with toAgent := rest } →
      ∀ conn monId table uuid columns, .update monId table uuid (.new columns) ∈ n.server.queue conn →
        (∃ c ∈ r.commits, c.row = ⟨table, uuid, columns⟩) ∧
          (conn = .agent → table = gatewayConfigTableName) := by
    intro n hn conn monId table uuid columns hm
    rw [hn] at hm
    refine h.update conn monId table uuid columns ?_
    cases conn with
    | component => exact hm
    | agent =>
        show _ ∈ s.server.toAgent
        rw [hh.queue]
        exact List.mem_cons_of_mem _ hm
  rw [hh.acts_eq]
  rcases hcases with ⟨hact, rfl⟩ | ⟨row, hact, rfl⟩
  · rw [hact]
    show RecordInv _ { r with actions := r.actions ++ [] }
    rw [List.append_nil]
    refine ⟨h.component, hh.shape, h.given, h.fresh, h.form, hupdate _ rfl, h.action, ?_, ?_, ?_,
      h.subscribed, h.feedback⟩
    · show ∀ c ∈ a.calls, _
      rw [hh.calls]
      exact h.reporting
    · show ∀ pc ∈ a.monitorCalls, pc.Of gatewayMonitorCall a.db
      rw [hh.monitorCalls, hh.db]
      exact h.monitors
    · show ∀ x ∈ a.db.sent, _
      rw [hh.db]
      exact h.reported
  · rw [hact]
    have hmono : ∀ {P : AgentAction → Prop}, (∃ x ∈ r.actions, P x) →
        ∃ x ∈ r.actions ++ [AgentAction.mk row ret], P x := by
      rintro P ⟨x, hx, hP⟩
      exact ⟨x, List.mem_append_left _ hx, hP⟩
    refine ⟨h.component, hh.shape.acts (plain_gwconfMonCb ret row), h.given, h.fresh, h.form, hupdate _ rfl,
      fun x hx => ?_, fun c hc => ?_, ?_, ?_, h.subscribed, fun c hc ht => hmono (h.feedback c hc ht)⟩
    · rcases List.mem_append.1 hx with hx | hx
      · exact h.action x hx
      · rw [List.mem_singleton.1 hx]
        -- the row of the update that was read
        obtain ⟨monId, table, uuid, columns, tc, rfl, hparse, rfl⟩ := actsOn_inv hact
        obtain ⟨⟨c, hc, hrow⟩, hgw⟩ := h.update .agent monId table uuid columns
          (by show _ ∈ s.server.toAgent; rw [hh.queue]; exact List.mem_cons_self ..)
        have hgw := hgw rfl
        subst hgw
        refine ⟨c, hc, by rw [hrow], ?_, by rw [hrow]; exact hparse⟩
        have hlen : uuid.length ≤ maxUuidLen := by
          have hform := h.form c hc
          rw [hrow] at hform
          exact Nat.le_of_eq (length_of_isUuid hform)
        rw [hrow]
        exact (CString.strncpy_of_length_le hlen).symm
    · rcases List.mem_append.1 hc with hc | hc
      · rw [hh.calls] at hc
        exact hmono (h.reporting c hc)
      · rw [List.mem_singleton.1 hc]
        exact ⟨_, List.mem_append_right _ (List.mem_singleton_self _), rfl⟩
    · show ∀ pc ∈ a.monitorCalls, pc.Of gatewayMonitorCall a.db
      rw [hh.monitorCalls, hh.db]
      exact h.monitors
    · show ∀ x ∈ a.db.sent, _
      rw [hh.db]
      exact fun x hx rid req hread => (h.reported x hx rid req hread).imp_left hmono

/-- **The step lemma of the record.** -/
theorem recordInv_step {i : NetworkStep} (h : RecordInv s r) (hstep : networkStep s i = some s') :
    RecordInv s' (i.note s s' r) := by
  cases i with
  | component i =>
      simp only [networkStep] at hstep
      split at hstep
      · next hallowed =>
          obtain ⟨c, hc, rfl⟩ := Option.map_eq_some_iff.1 hstep
          exact h.stepComponent (componentMove_cases h.component hallowed hc)
      · cases hstep
  | agent i =>
      simp only [networkStep] at hstep
      split at hstep
      · next hallowed =>
          obtain ⟨a, ha, rfl⟩ := Option.map_eq_some_iff.1 hstep
          exact h.stepAgent hallowed ha
      · cases hstep
  | serve conn uuid =>
      obtain ⟨x, rid, req, server, hs⟩ := serve_inv hstep
      exact h.serve hs
  | hearComponent => exact h.hearComponent hstep
  | hearAgent ret => exact h.hearAgent hstep

end Steps

/-- The run lemma. -/
theorem recordInv_of_reach {cid agentCid : Nat} {t : Network × Record}
    (h : (recordedNetwork cid agentCid).Reachable t) : RecordInv t.1 t.2 := by
  refine Machine.Reach.invariant_recorded (C := fun _ _ => True) (I := RecordInv) ?_ ?_ h
  · intro s h0
    have h0 : s = .start cid agentCid := h0
    rw [h0]
    exact recordInv_start cid agentCid
  · exact fun _ _ _ _ _ hI _ hstep => recordInv_step hI hstep

end OvsAgent
