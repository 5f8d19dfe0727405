/-
  OvsAgent.Parties.ExactlyOnce — one action for one transaction.

  A row is committed once and the agent has one monitor, so the agent is told
  of the row once: the updates on their way to the agent and the actions it
  has taken are, for each uuid, no more than the rows committed.

  Main results:
    * `callback_is_answered` — what a callback is told is the agent's result
      for the callback's own configuration;
    * `acts_at_most_once` — every action is on what some transaction asked
      for, and no two actions are for one transaction;
    * `acts_exactly_once` — in a network at rest every transaction has had its
      one action, and was completed with the result of it.
-/
import OvsAgent.Parties.Provenance

namespace OvsAgent

open CString (ofString utoa atou strncpy)
open Json

/-! ## §1. The agent has one monitor. -/

/-- The request has not returned. -/
def DbPc.pending : DbPc → Bool
  | .returned _ => false
  | _ => true

/-- The request is a monitor request. -/
def Sent.monitors (x : Sent) : Bool :=
  match readRequest x.request with
  | some (_, .monitor _ _) => true
  | _ => false

/-- The requests of the agent that the server has still to carry out. -/
def Network.agentUnserved (s : Network) : List Sent := s.agent.db.sent.drop s.server.servedAgent

/-- The agent's monitors: those it is asking for, those asked for, those it has. -/
def Network.agentMonitors (s : Network) : Nat :=
  s.agent.monitorCalls.countP DbPc.pending + s.agentUnserved.countP Sent.monitors +
    s.server.subscriptions.countP (·.conn = .agent)

/-- The agent has one monitor at most. -/
structure OneMonitor (s : Network) : Prop where
  calls : s.agent.monitorCalls.length ≤ 1
  monitors : s.agentMonitors ≤ s.agent.monitorCalls.length

theorem OneMonitor.subscriptions {s : Network} (h : OneMonitor s) :
    s.server.subscriptions.countP (·.conn = .agent) ≤ 1 := by
  have hcalls := h.calls
  have hmonitors := h.monitors
  unfold Network.agentMonitors at hmonitors
  omega

/-- An access of a request that goes well sends it at most once, and then it has returned. -/
theorem dbStep_sends {call : DbCall} {pc : DbPc} {db : OvsDbApi} (hnc : call.NoCancel) (h : pc.Of call db) :
    ∃ xs, (dbStep .ok pc db).2.sent = db.sent ++ xs ∧
      xs.length + (dbStep .ok pc db).1.pending.toNat ≤ pc.pending.toNat := by
  have hnone : ∀ {pc' : DbPc} {db' : OvsDbApi}, dbStep .ok pc db = (pc', db') → db'.sent = db.sent →
      pc.pending = true → ∃ xs, (dbStep .ok pc db).2.sent = db.sent ++ xs ∧
        xs.length + (dbStep .ok pc db).1.pending.toNat ≤ pc.pending.toNat := by
    intro pc' db' heq hsent hpending
    rw [heq, hpending]
    refine ⟨[], hsent.trans (List.append_nil _).symm, ?_⟩
    rw [List.length_nil, Nat.zero_add]
    exact Bool.toNat_le _
  cases pc with
  | idGenerate call' ids => exact hnone rfl rfl rfl
  | receiptListAdd p =>
      cases hm : p.mon with
      | none => exact hnone (dbStep_receiptListAdd db hm) rfl rfl
      | some mon => exact hnone (dbStep_receiptListAdd_mon db hm) rfl rfl
  | monListAdd p uniqueId monCb => exact hnone (dbStep_monListAdd db uniqueId monCb) rfl rfl
  | socketWrite p =>
      rw [dbStep_socketWrite db (hnc p h.1)]
      exact ⟨_, rfl, Nat.le_refl _⟩
  | monListRemove uuid sent => exact h.elim
  | returned status => exact ⟨[], (List.append_nil _).symm, Nat.le_refl _⟩

/-- What a step of the agent can change of its monitors. -/
theorem agentMonitors_le {s : Network} {a : Component} {xs : List Sent} {k : Nat}
    (hsent : a.db.sent = s.agent.db.sent ++ xs)
    (hcalls : a.monitorCalls.countP DbPc.pending + xs.countP Sent.monitors
      ≤ s.agent.monitorCalls.countP DbPc.pending + k) :
    Network.agentMonitors { s with agent := a } ≤ s.agentMonitors + k := by
  have hsub : (Network.agentUnserved { s with agent := a }).Sublist (s.agentUnserved ++ xs) := by
    show (a.db.sent.drop _).Sublist _
    rw [hsent, List.drop_append]
    exact (List.Sublist.refl _).append (List.drop_sublist _ _)
  have hle := hsub.countP_le (p := Sent.monitors)
  rw [List.countP_append] at hle
  unfold Network.agentMonitors
  show a.monitorCalls.countP _ + _ + s.server.subscriptions.countP _ ≤ _
  omega

section OneMonitor

variable {s s' : Network} {r : Record}

theorem OneMonitor.stepAgent (h : OneMonitor s) (hrec : RecordInv s r) {i : ComponentStep} {a : Component}
    (hallowed : agentAllowed s.agent i = true) (hstep : componentStep s.agent i = some a) :
    OneMonitor { s with agent := a } := by
  -- the monitor calls are as many as before, unless the monitor request is made
  have hkeep : ∀ xs, a.db.sent = s.agent.db.sent ++ xs →
      a.monitorCalls.countP DbPc.pending + xs.countP Sent.monitors ≤
        s.agent.monitorCalls.countP DbPc.pending →
      a.monitorCalls.length = s.agent.monitorCalls.length → OneMonitor { s with agent := a } := by
    intro xs hsent hcalls hlength
    refine ⟨?_, ?_⟩
    · show a.monitorCalls.length ≤ 1
      rw [hlength]
      exact h.calls
    · show _ ≤ a.monitorCalls.length
      rw [hlength]
      exact Nat.le_trans (agentMonitors_le (k := 0) hsent hcalls) h.monitors
  cases i with
  | interactMonitor t cb =>
      simp only [agentAllowed, Bool.and_eq_true, List.isEmpty_iff] at hallowed
      obtain ⟨_, hnil⟩ := hallowed
      cases hstep
      have hmonitors := h.monitors
      have hone : Network.agentMonitors { s with agent := { s.agent with
          monitorCalls := s.agent.monitorCalls ++ [(DbCall.monitor t cb none).start] } } ≤
            s.agentMonitors + 1 :=
        agentMonitors_le (List.append_nil _).symm (by rw [hnil]; exact List.countP_le_length)
      refine ⟨?_, ?_⟩
      · show (s.agent.monitorCalls ++ [_]).length ≤ 1
        rw [hnil]
        exact Nat.le_refl _
      · show _ ≤ (s.agent.monitorCalls ++ [_]).length
        rw [List.length_append]
        exact Nat.le_trans hone (Nat.add_le_add_right hmonitors 1)
  | monitorCall n o =>
      simp only [agentAllowed, decide_eq_true_eq] at hallowed
      subst hallowed
      simp only [componentStep] at hstep
      split at hstep
      · cases hstep
      · next pc hpc =>
          cases hstep
          have hnc : gatewayMonitorCall.NoCancel := (Role.Makes.monitor (r := agentRole) .gwConfig).noCancel
          obtain ⟨xs, hsent, hle⟩ := dbStep_sends hnc (hrec.monitors pc (List.mem_of_getElem? hpc))
          have hcount := countP_set_add (p := DbPc.pending) (b := (dbStep .ok pc s.agent.db).1) hpc
          have hxs : xs.countP Sent.monitors ≤ xs.length := List.countP_le_length
          refine hkeep xs hsent ?_ List.length_set
          show (s.agent.monitorCalls.set n _).countP _ + _ ≤ _
          omega
  | call n malloc o =>
      simp only [agentAllowed, Bool.and_eq_true, decide_eq_true_eq] at hallowed
      obtain ⟨rfl, rfl⟩ := hallowed
      obtain ⟨c, hc, hpl, hps⟩ := plainStep_cases hrec.agent.calls hstep
      obtain ⟨c', hf⟩ := hps.frame hpl
      rcases hf.db.sent with heq | ⟨p, hp, _, heq⟩
      · exact hkeep [] (heq.trans (List.append_nil _).symm) (by rw [hf.monitorCalls]; exact Nat.le_refl _)
          (by rw [hf.monitorCalls])
      · refine hkeep _ heq ?_ (by rw [hf.monitorCalls])
        -- the agent's calls insert rows
        have hno : (Sent.mk p.strJson .whole).monitors = false := by
          unfold Sent.monitors
          split
          · next rid monId t hread =>
              obtain ⟨_, hreq⟩ := hpl.read hp hread
              cases hreq
          · rfl
        rw [List.countP_singleton, hno, hf.monitorCalls]
        exact Nat.le_refl _
  | listener o waiter =>
      simp only [componentStep, listenerStep] at hstep
      rcases hrec.agent.listener with hl | ⟨i, hl⟩
      · rw [hl] at hstep; cases hstep
      · rw [hl] at hstep
        cases hstep
        exact hkeep [] (List.append_nil _).symm (Nat.le_refl _) rfl
  | _ => cases hallowed

/-- The requests of the agent that are left when one was served. -/
theorem Serve.agentUnserved {conn : Conn} {uuid rid : CString} {x : Sent} {req : Request}
    {server : OvsdbServer} (h : Serve s conn uuid s' x rid req server) :
    (conn = .agent → s.agentUnserved = x :: s'.agentUnserved) ∧
      (conn = .component → s'.agentUnserved = s.agentUnserved) := by
  constructor
  · rintro rfl
    have hnext : s.agent.db.sent[s.server.servedAgent]? = some x := h.next
    have hserved : s'.server.servedAgent = s.server.servedAgent + 1 := h.served
    obtain ⟨hlt, hx⟩ := List.getElem?_eq_some_iff.1 hnext
    unfold Network.agentUnserved
    rw [h.agent, hserved, List.drop_eq_getElem_cons hlt, hx]
  · rintro rfl
    have hserved : s'.server.servedAgent = s.server.servedAgent := h.others .agent (by decide)
    unfold Network.agentUnserved
    rw [h.agent, hserved]

/-- A monitor request of the agent becomes a subscription. -/
theorem OneMonitor.serve {conn : Conn} {uuid rid : CString} {x : Sent} {req : Request} {server : OvsdbServer}
    (h : OneMonitor s) (hs : Serve s conn uuid s' x rid req server) : OneMonitor s' := by
  have hmonitors := h.monitors
  refine ⟨by rw [hs.agent]; exact h.calls, ?_⟩
  unfold Network.agentMonitors at hmonitors ⊢
  rw [hs.agent, hs.subscriptions]
  have hle : s'.agentUnserved.countP Sent.monitors ≤ s.agentUnserved.countP Sent.monitors := by
    cases conn with
    | component => rw [hs.agentUnserved.2 rfl]
    | agent =>
        rw [hs.agentUnserved.1 rfl, List.countP_cons]
        exact Nat.le_add_right _ _
  cases hs.carries with
  | insert _ _ => exact Nat.le_trans (Nat.add_le_add_right (Nat.add_le_add_left hle _) _) hmonitors
  | delete => exact Nat.le_trans (Nat.add_le_add_right (Nat.add_le_add_left hle _) _) hmonitors
  | @monitor monId table =>
      show _ + _ + (s.server.subscriptions ++ [_]).countP _ ≤ _
      rw [List.countP_append, List.countP_singleton]
      cases conn with
      | component =>
          have hno : decide (Conn.component = Conn.agent) = false := by decide
          simp only [hno, Bool.false_eq_true, if_false]
          omega
      | agent =>
          have hmon : x.monitors = true := by
            unfold Sent.monitors
            rw [hs.read]
          rw [hs.agentUnserved.1 rfl, List.countP_cons, hmon] at hmonitors
          simp only [if_true, decide_true] at hmonitors ⊢
          omega

/-- The step lemma of the agent's monitor. -/
theorem oneMonitor_step {i : NetworkStep} (h : OneMonitor s) (hrec : RecordInv s r)
    (hstep : networkStep s i = some s') : OneMonitor s' := by
  cases i with
  | component i =>
      simp only [networkStep] at hstep
      split at hstep
      · obtain ⟨c, _, rfl⟩ := Option.map_eq_some_iff.1 hstep
        exact ⟨h.calls, h.monitors⟩
      · cases hstep
  | agent i =>
      simp only [networkStep] at hstep
      split at hstep
      · next hallowed =>
          obtain ⟨a, ha, rfl⟩ := Option.map_eq_some_iff.1 hstep
          exact h.stepAgent hrec hallowed ha
      · cases hstep
  | serve conn uuid =>
      obtain ⟨x, rid, req, server, hs⟩ := serve_inv hstep
      exact h.serve hs
  | hearComponent =>
      simp only [networkStep, Network.hearComponent] at hstep
      split at hstep
      · cases hstep
      · obtain ⟨c, _, rfl⟩ := Option.map_eq_some_iff.1 hstep
        exact ⟨h.calls, h.monitors⟩
  | hearAgent ret =>
      have hmonitors := h.monitors
      obtain ⟨msg, rest, a, hh, hcases⟩ := hearAgent_inv hrec.agent hstep
      have hsame : s'.agent.monitorCalls = s.agent.monitorCalls ∧ s'.agentMonitors = s.agentMonitors := by
        rcases hcases with ⟨_, rfl⟩ | ⟨row, _, rfl⟩
        · refine ⟨hh.monitorCalls, ?_⟩
          unfold Network.agentMonitors Network.agentUnserved
          rw [← hh.monitorCalls, ← hh.db]
        · refine ⟨hh.monitorCalls, ?_⟩
          unfold Network.agentMonitors Network.agentUnserved
          rw [← hh.monitorCalls, ← hh.db]
      exact ⟨by rw [hsame.1]; exact h.calls, by rw [hsame.1, hsame.2]; exact h.monitors⟩

end OneMonitor

/-! ## §2. The agent is told of a row once. -/

/-- The message tells of the new row with this uuid. -/
def ServerMsg.tells (uuid : CString) (msg : ServerMsg) : Bool :=
  match msg with
  | .update _ _ u (.new _) => u == uuid
  | _ => false

/-- The action was on the row with this uuid. -/
def AgentAction.on (uuid : CString) (x : AgentAction) : Bool := x.row.uuid == uuid

/-- The row was committed with this uuid. -/
def Commit.on (uuid : CString) (c : Commit) : Bool := c.row.uuid == uuid

/-- For every uuid the agent has acted, or is about to, as often as a row was committed. -/
def ToldOnce (s : Network) (r : Record) : Prop :=
  ∀ uuid, s.server.toAgent.countP (ServerMsg.tells uuid) + r.actions.countP (AgentAction.on uuid)
    ≤ r.commits.countP (Commit.on uuid)

/-- A subscriber is told of a new row once for each of its monitors. -/
theorem countP_updatesFor_new (sv : OvsdbServer) (conn : Conn) (table u : CString) (row : Json)
    (uuid : CString) :
    (sv.updatesFor conn table [(u, .new row)]).countP (ServerMsg.tells uuid)
      ≤ if u == uuid then sv.subscriptions.countP (·.conn = conn) else 0 := by
  unfold OvsdbServer.updatesFor
  induction sv.subscriptions with
  | nil =>
      split
      · exact Nat.le_refl _
      · exact Nat.le_refl _
  | cons sub subs ih =>
      rw [List.filter_cons]
      split
      · next hcond =>
          rw [Bool.and_eq_true, beq_iff_eq] at hcond
          rw [List.flatMap_cons, List.map_singleton, List.countP_append, List.countP_singleton,
            List.countP_cons]
          have htells : ServerMsg.tells uuid (.update sub.monId table u (.new row)) = (u == uuid) := rfl
          rw [htells]
          cases hu : (u == uuid) with
          | false =>
              rw [hu] at ih
              simp only [Bool.false_eq_true, if_false, Nat.zero_add] at ih ⊢
              exact ih
          | true =>
              rw [hu] at ih
              simp only [if_true, hcond.1, decide_true] at ih ⊢
              omega
      · rw [List.countP_cons]
        split
        · next hu =>
            rw [if_pos hu] at ih
            exact Nat.le_trans ih (Nat.le_add_right _ _)
        · next hu =>
            rw [if_neg hu] at ih
            exact ih

/-- A change that makes no row tells of none. -/
theorem countP_updatesFor_old (sv : OvsdbServer) (conn : Conn) (table : CString) (rows : List Row)
    (uuid : CString) :
    (sv.updatesFor conn table (rows.map fun row => (row.uuid, .old row.columns))).countP
    (ServerMsg.tells uuid)
      = 0 := by
  refine List.countP_eq_zero.2 fun msg hmsg => ?_
  obtain ⟨_, _, _, _, change, hchange, rfl⟩ := mem_updatesFor_iff.1 hmsg
  obtain ⟨row, _, rfl⟩ := List.mem_map.1 hchange
  exact Bool.false_ne_true

theorem countP_reply (conn : Conn) (rid : CString) (result : Json) (uuid : CString) :
    (if conn = .agent then [ServerMsg.reply rid result] else []).countP (ServerMsg.tells uuid) = 0 := by
  split
  · rfl
  · rfl

section ToldOnce

variable {s s' : Network} {r : Record}

theorem ToldOnce.serve {conn : Conn} {uuid rid : CString} {x : Sent} {req : Request} {server : OvsdbServer}
    (h : ToldOnce s r) (hone : OneMonitor s) (hs : Serve s conn uuid s' x rid req server) :
    ToldOnce s' { r with commits := r.commits ++ (s.commits conn uuid).toList } := by
  intro u
  have hu := h u
  have hq : s'.server.toAgent = server.toAgent := hs.queue .agent
  rw [hs.commits_eq, hq]
  cases hs.carries with
  | @insert table row huuid hnew =>
      have hnews := countP_updatesFor_new { s.server with
        rows := s.server.rows ++ [⟨table, uuid, row⟩]
        given := s.server.given ++ [(table, uuid)] } .agent table uuid row u
      have hsubs : s.server.subscriptions.countP (·.conn = .agent) ≤ 1 := hone.subscriptions
      show (s.server.toAgent ++ (_ ++ _)).countP _ + r.actions.countP _ ≤
        (r.commits ++ [Commit.mk ⟨table, uuid, row⟩ (s.ownerOf conn rid)]).countP _
      rw [List.countP_append, List.countP_append, countP_reply, List.countP_append, List.countP_singleton]
      have hon : Commit.on u ⟨⟨table, uuid, row⟩, s.ownerOf conn rid⟩ = (uuid == u) := rfl
      rw [hon]
      cases hb : (uuid == u) with
      | false =>
          rw [hb] at hnews
          simp only [Bool.false_eq_true, if_false] at hnews ⊢
          omega
      | true =>
          rw [hb] at hnews
          simp only [if_true] at hnews ⊢
          omega
  | @delete table clause =>
      show (s.server.toAgent ++ (_ ++ _)).countP _ + r.actions.countP _ ≤ (r.commits ++ []).countP _
      rw [List.countP_append, List.countP_append, countP_reply, countP_updatesFor_old, List.append_nil]
      exact hu
  | @monitor monId table =>
      show (s.server.toAgent ++ (_ ++ _)).countP _ + r.actions.countP _ ≤ (r.commits ++ []).countP _
      have hnone : (OvsdbServer.updatesFor { s.server with
          subscriptions := s.server.subscriptions ++ [⟨conn, monId, table⟩] } .agent table []).countP
            (ServerMsg.tells u) = 0 := countP_updatesFor_old _ .agent table [] u
      rw [List.countP_append, List.countP_append, countP_reply, hnone, List.append_nil]
      exact hu

/-- The agent reads an update: what it was told of is what it has acted on. -/
theorem ToldOnce.hearAgent {ret : Int} (h : ToldOnce s r) (hrec : RecordInv s r)
    (hstep : s.hearAgent ret = some s') :
    ToldOnce s' { r with actions := r.actions ++ (s.acts ret).toList } := by
  obtain ⟨msg, rest, a, hh, hcases⟩ := hearAgent_inv hrec.agent hstep
  have hqueue : s'.server.toAgent = rest := by
    rcases hcases with ⟨_, rfl⟩ | ⟨_, _, rfl⟩
    · rfl
    · rfl
  intro u
  have hu := h u
  rw [hh.queue, List.countP_cons] at hu
  rw [hqueue, hh.acts_eq]
  cases hact : s.agent.actsOn msg with
  | none =>
      show _ + (r.actions ++ []).countP _ ≤ r.commits.countP _
      rw [List.append_nil]
      omega
  | some row =>
      show _ + (r.actions ++ [AgentAction.mk row ret]).countP _ ≤ r.commits.countP _
      rw [List.countP_append, List.countP_singleton]
      obtain ⟨monId, table, uuid, columns, tc, rfl, _, rfl⟩ := actsOn_inv hact
      -- the uuid is a row's, so none of it is cut off
      obtain ⟨⟨c, hc, hrow⟩, _⟩ := hrec.update .agent monId table uuid columns
        (by show _ ∈ s.server.toAgent; rw [hh.queue]; exact List.mem_cons_self ..)
      have hform := hrec.form c hc
      rw [hrow] at hform
      have hcut : strncpy maxUuidLen uuid = uuid :=
        CString.strncpy_of_length_le (Nat.le_of_eq (length_of_isUuid hform))
      have hon : AgentAction.on u ⟨⟨tc, strncpy maxUuidLen uuid⟩, ret⟩ = (uuid == u) := by
        unfold AgentAction.on
        rw [hcut]
      have htells : ServerMsg.tells u (.update monId table uuid (.new columns)) = (uuid == u) := rfl
      rw [htells] at hu
      rw [hon]
      omega

theorem toldOnce_step {i : NetworkStep} (h : ToldOnce s r) (hrec : RecordInv s r) (hone : OneMonitor s)
    (hstep : networkStep s i = some s') : ToldOnce s' (i.note s s' r) := by
  cases i with
  | component i =>
      simp only [networkStep] at hstep
      split at hstep
      · obtain ⟨c, _, rfl⟩ := Option.map_eq_some_iff.1 hstep
        exact h
      · cases hstep
  | agent i =>
      simp only [networkStep] at hstep
      split at hstep
      · obtain ⟨a, _, rfl⟩ := Option.map_eq_some_iff.1 hstep
        exact h
      · cases hstep
  | serve conn uuid =>
      obtain ⟨x, rid, req, server, hs⟩ := serve_inv hstep
      exact h.serve hone hs
  | hearComponent =>
      simp only [networkStep, Network.hearComponent] at hstep
      split at hstep
      · cases hstep
      · obtain ⟨c, _, rfl⟩ := Option.map_eq_some_iff.1 hstep
        exact h
  | hearAgent ret => exact h.hearAgent hrec hstep

end ToldOnce

/-- The run lemma. -/
theorem toldOnce_of_reach {cid agentCid : Nat} {t : Network × Record}
    (h : (recordedNetwork cid agentCid).Reachable t) : ToldOnce t.1 t.2 := by
  have hall : RecordInv t.1 t.2 ∧ OneMonitor t.1 ∧ ToldOnce t.1 t.2 := by
    refine Machine.Reach.invariant_recorded (C := fun _ _ => True)
      (I := fun s r => RecordInv s r ∧ OneMonitor s ∧ ToldOnce s r) ?_ ?_ h
    · intro s h0
      have h0 : s = .start cid agentCid := h0
      rw [h0]
      exact ⟨recordInv_start cid agentCid, ⟨Nat.zero_le _, Nat.le_refl _⟩, fun _ => Nat.le_refl _⟩
    · intro s i s' r _ hI _ hstep
      obtain ⟨hrec, hone, htold⟩ := hI
      exact ⟨recordInv_step hrec hstep, oneMonitor_step hone hrec hstep,
        toldOnce_step htold hrec hone hstep⟩
  exact hall.2.2

/-- No two actions were on rows with one uuid. -/
theorem ToldOnce.actions_nodup {s : Network} {r : Record} (h : ToldOnce s r)
    (hfresh : (r.commits.map (·.row.uuid)).Nodup) : (r.actions.map (·.row.uuid)).Nodup := by
  rw [List.nodup_iff_count_le_one] at hfresh ⊢
  intro uuid
  have hu := h uuid
  have hcommits := hfresh uuid
  unfold List.count at hcommits ⊢
  rw [List.countP_map] at hcommits ⊢
  exact Nat.le_trans (Nat.le_trans (Nat.le_add_left _ _) hu) hcommits

/-! ## §3. Transactions and actions. -/

/-- The action was on the row that answers the transaction at this address. -/
def Record.Answers (r : Record) (x : AgentAction) (a : Nat) : Prop :=
  ∃ c ∈ r.commits, c.row.uuid = x.row.uuid ∧ c.owner = some a

/-- The action was taken for `e`: on its row, and with the configuration that
is read from it, which is `e`'s own when that is well formed. -/
structure Record.ActedFor (r : Record) (x : AgentAction) (e : TransactionEntry) : Prop where
  answers : r.Answers x e.addr
  config : parseTable gatewayConfigTableName (.object e.tableConfig.row) = some x.row.tableConfig
  same : e.tableConfig.WellFormed → x.row.tableConfig.SameConfig e.tableConfig

/-- The log inserts one entry at an address. -/
theorem Balanced.inserted_unique {s : ManagerState} (h : Balanced s) {e e' : TransactionEntry}
    (he : .inserted e ∈ s.manager.log) (he' : .inserted e' ∈ s.manager.log) (haddr : e.addr = e'.addr) :
    e = e' := by
  obtain ⟨c, f, hlife, hc, hf⟩ := h.life_eq he
  have hmem : TransactionEvent.inserted e' ∈ life e.addr s.manager.log :=
    KeyedLog.mem_history.2 ⟨he', congrArg some haddr.symm⟩
  rw [hlife] at hmem
  rcases List.mem_cons.1 hmem with heq | hmem
  · cases heq; rfl
  · rcases List.mem_append.1 hmem with hmem | hmem
    · rcases hc with rfl | ⟨st, rfl⟩
      · cases hmem
      · exact absurd hmem inserted_notMem_completion
    · rcases hf with rfl | rfl
      · cases hmem
      · exact absurd hmem inserted_notMem_frees

/-- A callback is only called for a transaction that was inserted with it, and
with the status of its completion. -/
theorem Balanced.invoked_inserted {s : ManagerState} (h : Balanced s) {a : Nat} {cb : OvsInteractCb}
    {st : Int} {tc : RdkbTableConfig} (hev : .invoked a cb st tc ∈ s.manager.log) :
    ∃ e, .inserted e ∈ s.manager.log ∧ e.addr = a ∧ e.callback = some cb ∧ e.tableConfig = tc ∧
      .completed a st ∈ s.manager.log := by
  have hmem : TransactionEvent.invoked a cb st tc ∈ life a s.manager.log :=
    KeyedLog.mem_history.2 ⟨hev, rfl⟩
  obtain ⟨e, he, haddr⟩ : ∃ e, .inserted e ∈ s.manager.log ∧ e.addr = a := by
    have hfirst : ∀ {e : TransactionEntry} {l : List TransactionEvent},
        life a s.manager.log = .inserted e :: l →
        .inserted e ∈ s.manager.log ∧ e.addr = a := by
      intro e l hl
      have hin : TransactionEvent.inserted e ∈
          life a s.manager.log := by rw [hl]; exact List.mem_cons_self ..
      exact ⟨(KeyedLog.mem_history.1 hin).1, Option.some.inj (KeyedLog.mem_history.1 hin).2⟩
    have hacc := h.ledger.account a
    by_cases hlive : ∃ e, s.manager.table.Mem e ∧ e.addr = a
    · obtain ⟨e, he, ha⟩ := hlive
      obtain ⟨e₀, _, hl⟩ := hacc.live e he ha
      exact ⟨e₀, hfirst hl⟩
    · by_cases hrun : ∃ e ∈ s.running, e.addr = a
      · obtain ⟨e, he, ha⟩ := hrun
        obtain ⟨e₀, _, _, _, hl⟩ := hacc.inProgress e he ha
        exact ⟨e₀, hfirst hl⟩
      · rcases hacc.gone (fun e he ha => hlive ⟨e, he, ha⟩) (fun e he ha => hrun ⟨e, he, ha⟩) with
          hnil | ⟨e₀, _, hl | ⟨_, hl⟩⟩
        · have hmem : _ ∈ life a s.manager.log := hmem
          rw [hnil] at hmem
          cases hmem
        · exact ⟨e₀, hfirst hl⟩
        · exact ⟨e₀, hfirst hl⟩
  subst haddr
  obtain ⟨c, f, hlife, hc, hf⟩ := h.life_eq he
  obtain ⟨pre, post, hsplit⟩ := List.append_of_mem hmem
  rw [hlife] at hsplit
  obtain ⟨hcb, htc, hpre⟩ := invoked_split hc hf hsplit
  refine ⟨e, he, rfl, hcb, htc.symm, ?_⟩
  have hin : TransactionEvent.completed e.addr st ∈ life e.addr s.manager.log := by
    rw [hlife, hsplit, hpre]
    exact List.mem_append_left _ (List.mem_cons_of_mem _ (List.mem_singleton_self _))
  exact (KeyedLog.mem_history.1 hin).1

section Transactions

variable {s : Network} {r : Record}

/-- Every action was taken for a transaction. -/
theorem Provenance.acted_for (h : Provenance s r) (hrec : RecordInv s r) {x : AgentAction}
    (hx : x ∈ r.actions) :
    ∃ e, .inserted e ∈ s.component.manager.log ∧ r.ActedFor x e := by
  obtain ⟨c, hc, htable, huuid, hparse⟩ := hrec.action x hx
  obtain ⟨e, he, howner, hname, hcolumns⟩ := h.commits c hc htable
  rw [hcolumns] at hparse
  refine ⟨e, he, ⟨c, hc, huuid, howner⟩, hparse, fun hwf => ?_⟩
  obtain ⟨parsed, hparsed, hsame⟩ := @parseTable_row _ hwf _ hname e.tableConfig.row fun _ _ hmem => hmem
  rw [hparse] at hparsed
  cases hparsed
  exact hsame

/-- A committed row is known by its uuid. -/
theorem RecordInv.commit_unique (h : RecordInv s r) {c c' : Commit} (hc : c ∈ r.commits)
    (hc' : c' ∈ r.commits) (huuid : c.row.uuid = c'.row.uuid) : c = c' :=
  List.inj_on_of_nodup_map h.fresh hc hc' huuid

/-- The transaction an action was taken for is known by its address. -/
theorem Provenance.acted_unique (h : Provenance s r) (hrec : RecordInv s r)
    (hb : Balanced s.component.managerState) {x : AgentAction} {e : TransactionEntry} (hx : x ∈ r.actions)
    (he : .inserted e ∈ s.component.manager.log) (ha : r.Answers x e.addr) : r.ActedFor x e := by
  obtain ⟨e', he', hfor⟩ := h.acted_for hrec hx
  obtain ⟨c, hc, hcu, howner⟩ := ha
  obtain ⟨c', hc', hcu', howner'⟩ := hfor.answers
  have hsame := hrec.commit_unique hc hc' (hcu.trans hcu'.symm)
  rw [hsame, howner'] at howner
  have heq : e' = e := hb.inserted_unique he' he (Option.some.inj howner)
  rw [← heq]
  exact hfor

end Transactions

/-! ## §4. Main results. -/

section Main

variable {cid agentCid : Nat} {t : Network × Record}

theorem balanced_of_recorded (h : (recordedNetwork cid agentCid).Reachable t) :
    Balanced t.1.component.managerState :=
  balanced_of_component (component_of_network (Machine.Reach.forget (C := fun _ _ => True) h))

/-- **What a callback is told.**  In every run, a callback that is called was
inserted with a transaction; the agent was called with that transaction's own
configuration, read from that transaction's own row, and the status the
callback is told is what the agent returned there. -/
theorem callback_is_answered (h : (recordedNetwork cid agentCid).Reachable t) {a : Nat} {cb : OvsInteractCb}
    {st : Int} {tc : RdkbTableConfig} (hev : .invoked a cb st tc ∈ t.1.component.manager.log) :
    ∃ e, .inserted e ∈ t.1.component.manager.log ∧ e.addr = a ∧ e.callback = some cb ∧
      e.tableConfig = tc ∧ ∃ x ∈ t.2.actions, t.2.ActedFor x e ∧ st = toInt x.ret := by
  have hb := balanced_of_recorded h
  have hp := provenance_of_reach h
  have hrec := recordInv_of_reach h
  obtain ⟨e, he, haddr, hcb, htc, hdone⟩ := hb.invoked_inserted hev
  obtain ⟨x, hx, c, hc, huuid, howner, hst⟩ := hp.completed a st hdone
  rw [← haddr] at howner
  exact ⟨e, he, haddr, hcb, htc, x, hx, hp.acted_unique hrec hb hx he ⟨c, hc, huuid, howner⟩, hst⟩

/-- A request from its start to the deletion of its rows, with its record. -/
theorem onTime_recorded : ∃ t : Network × Record,
    ((networkMachine 1 2).recording ⟨[], []⟩ NetworkStep.note).Reach (fun t i => OnTime t.1 i) t ∧
      t.1.Quiescent ∧ ∃ cb st tc, .invoked 0 cb st tc ∈ t.1.component.manager.log := by
  have hrun : ((networkMachine 1 2).checkedRun onTimeTest (.start 1 2) onTimeSteps).any (fun s =>
      s.quiescentTest && s.component.manager.log.any (TransactionEvent.invokes 0)) = true := by
    decide +kernel
  obtain ⟨s, hs, hcheck⟩ := (Option.any_eq_true _ _).1 hrun
  rw [Bool.and_eq_true] at hcheck
  have hreach : (networkMachine 1 2).Reach OnTime s :=
    Machine.reach_of_checkedRun onTime_of_test (.init rfl) hs
  obtain ⟨r, hr⟩ : ∃ r, ((networkMachine 1 2).recording ⟨[], []⟩ NetworkStep.note).Reach
      (fun t i => OnTime t.1 i) (s, r) := hreach.recorded
  refine ⟨(s, r), hr, Network.quiescent_of_test hcheck.1, ?_⟩
  obtain ⟨ev, hev, hinv⟩ := List.any_eq_true.1 hcheck.2
  cases ev with
  | invoked a cb st tc =>
      cases beq_iff_eq.1 hinv
      exact ⟨cb, st, tc, hev⟩
  | _ => cases hinv

theorem callback_is_answered_onTime :
    ∃ t : Network × Record, ∃ e x, .inserted e ∈ t.1.component.manager.log ∧
    x ∈ t.2.actions ∧ t.2.ActedFor x e := by
  obtain ⟨t, h, _, cb, st, tc, hev⟩ := onTime_recorded
  have hreach : (recordedNetwork 1 2).Reachable t := h.reachable
  obtain ⟨e, he, _, _, _, x, hx, hfor, _⟩ := callback_is_answered hreach hev
  exact ⟨t, e, x, he, hx, hfor⟩

/-- **At most once.**  In every run, the agent acts on nothing but what some
transaction asked for, and acts twice for none. -/
theorem acts_at_most_once (h : (recordedNetwork cid agentCid).Reachable t) :
    (∀ x ∈ t.2.actions, ∃ e, .inserted e ∈ t.1.component.manager.log ∧ t.2.ActedFor x e) ∧
      ∀ (i j : Nat) (x y : AgentAction) (a : Nat), t.2.actions[i]? = some x → t.2.actions[j]? = some y →
        t.2.Answers x a → t.2.Answers y a → i = j := by
  have hp := provenance_of_reach h
  have hrec := recordInv_of_reach h
  refine ⟨fun x hx => hp.acted_for hrec hx, ?_⟩
  rintro i j x y a hi hj ⟨c, hc, hcu, howner⟩ ⟨c', hc', hcu', howner'⟩
  -- both were on the one row that answers the transaction
  have hsame : c = c' := hp.distinct c hc c' hc' (howner.trans howner'.symm)
    (by rw [howner]; exact Option.some_ne_none _)
  have huuid : x.row.uuid = y.row.uuid := by rw [← hcu, hsame, hcu']
  have hnodup := (toldOnce_of_reach h).actions_nodup hrec.fresh
  have hi' : (t.2.actions.map (·.row.uuid))[i]? = some x.row.uuid := by
    rw [List.getElem?_map, hi]
    rfl
  have hj' : (t.2.actions.map (·.row.uuid))[j]? = some x.row.uuid := by
    rw [List.getElem?_map, hj, huuid]
    rfl
  have hlt : i < (t.2.actions.map (·.row.uuid)).length := (List.getElem?_eq_some_iff.1 hi').1
  exact (List.getElem?_inj hlt hnodup).1 (hi'.trans hj'.symm)

theorem acts_at_most_once_onTime : ∃ t : Network × Record, t.2.actions ≠ [] ∧
    ∀ x ∈ t.2.actions, ∃ e, .inserted e ∈ t.1.component.manager.log ∧ t.2.ActedFor x e := by
  obtain ⟨t, h, _, cb, st, tc, hev⟩ := onTime_recorded
  have hreach : (recordedNetwork 1 2).Reachable t := h.reachable
  obtain ⟨e, _, _, _, _, hdone⟩ := (balanced_of_recorded hreach).invoked_inserted hev
  obtain ⟨x, hx, _⟩ := (provenance_of_reach hreach).completed 0 st hdone
  exact ⟨t, List.ne_nil_of_mem hx, (acts_at_most_once hreach).1⟩

/-- At rest, after a run that was on time, every transaction has been completed. -/
theorem completed_of_quiescent {s : Network} (h : (networkMachine cid agentCid).Reach OnTime s)
    (hq : s.Quiescent) {e : TransactionEntry} (he : .inserted e ∈ s.component.manager.log) :
    ∃ st, .completed e.addr st ∈ s.component.manager.log := by
  have hinv := networkInv_of_reach h
  have hpending : ∀ e, ¬ s.component.manager.table.Mem e := by
    intro e he
    rcases hinv.tracked.live e he with (⟨c, hc, p, hpc, _⟩ | ⟨j, node, hnode, _, _⟩) | hcoming
    · have hsome := hq.component.calls c hc
      unfold Call.result at hsome
      rw [hpc] at hsome
      cases hsome
    · rw [hq.component.receipts] at hnode; cases hnode
    · exact not_underway_of_quiescent hq _ hcoming
  rcases hinv.tracked.inserted e he with ⟨e', he', _⟩ | hdone
  · exact absurd he' (hpending e')
  · exact hdone

/-- **Exactly once.**  In every run that is on time, when the network is at
rest, each inserted transaction has had one action of the agent, taken with the
transaction's own configuration, and was completed with its result. -/
theorem acts_exactly_once
    (h : ((networkMachine cid agentCid).recording ⟨[], []⟩ NetworkStep.note).Reach
      (fun t i => OnTime t.1 i) t)
    (hq : t.1.Quiescent) {e : TransactionEntry} (he : .inserted e ∈ t.1.component.manager.log) :
    ∃ x ∈ t.2.actions, t.2.ActedFor x e ∧ .completed e.addr (toInt x.ret) ∈
    t.1.component.manager.log ∧
      ∀ y ∈ t.2.actions, t.2.Answers y e.addr → y = x := by
  have hreach : (recordedNetwork cid agentCid).Reachable t := Machine.Reach.reachable h
  have hb := balanced_of_recorded hreach
  have hp := provenance_of_reach hreach
  have hrec := recordInv_of_reach hreach
  obtain ⟨st, hdone⟩ := completed_of_quiescent (Machine.Reach.forget h) hq he
  obtain ⟨x, hx, c, hc, huuid, howner, rfl⟩ := hp.completed e.addr st hdone
  refine ⟨x, hx, hp.acted_unique hrec hb hx he ⟨c, hc, huuid, howner⟩, hdone, ?_⟩
  rintro y hy ⟨c', hc', huuid', howner'⟩
  have hsame : c = c' := hp.distinct c hc c' hc' (howner.trans howner'.symm)
    (by rw [howner]; exact Option.some_ne_none _)
  have hnodup := (toldOnce_of_reach hreach).actions_nodup hrec.fresh
  exact List.inj_on_of_nodup_map hnodup hy hx (by rw [← huuid', ← huuid, hsame])

theorem acts_exactly_once_onTime :
    ∃ t : Network × Record, ∃ e, .inserted e ∈ t.1.component.manager.log ∧
    ∃ x ∈ t.2.actions, t.2.ActedFor x e ∧ ∀ y ∈ t.2.actions, t.2.Answers y e.addr → y = x := by
  obtain ⟨t, h, hq, cb, st, tc, hev⟩ := onTime_recorded
  have hreach : (recordedNetwork 1 2).Reachable t := h.reachable
  obtain ⟨e, he, _⟩ := (balanced_of_recorded hreach).invoked_inserted hev
  obtain ⟨x, hx, hfor, _, honly⟩ := acts_exactly_once h hq he
  exact ⟨t, e, he, x, hx, hfor, honly⟩

end Main

end OvsAgent
