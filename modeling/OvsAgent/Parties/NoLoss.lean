/-
  OvsAgent.Parties.NoLoss — no request and no Feedback is lost.

  A committed Gateway_Config row goes through four stages until its Feedback
  completes the transaction:

      announced   its update is on the way to the agent
      reporting   the agent has acted on it and is writing the Feedback
      reported    the Feedback request is in the socket
      fed         the update with the Feedback row is on the way to the component

  `OnTime` is what it takes to enter the first and the last stage: a row that
  is committed before the monitor of its reader is told of in the reply to the
  monitor request only, and the code looks at nothing in that reply.

  Main result: `nothing_lost` — in every run whose commits are on time, a
  network at rest has lost nothing.
-/
import OvsAgent.Parties.Tracking

namespace OvsAgent

open CString (ofString utoa strncpy)
open Json

/-! ## §1. What the server sends. -/

theorem insertReceiptParser_insertResult {uuid : CString} (h : uuid.length ≤ maxUuidLen) :
    insertReceiptParser (insertResult uuid) = .ok (some (.insert [] uuid)) := by
  show (if uuid.length ≤ maxUuidLen then Except.ok (some (OvsDbReceipt.insert [] uuid))
    else Except.error Fault.overflow) = _
  rw [if_pos h]

theorem insertedUuid_insertResult {rid uuid : CString} (h : uuid.length ≤ maxUuidLen) :
    (ServerMsg.reply rid (insertResult uuid)).insertedUuid = some uuid := by
  simp only [ServerMsg.insertedUuid, insertReceiptParser_insertResult h]

theorem insertedUuid_updatesFor {sv : OvsdbServer} {conn : Conn} {table : CString}
    {changes : List (CString × RowUpdate)} :
    ∀ msg ∈ sv.updatesFor conn table changes, msg.insertedUuid = none := by
  intro msg hmsg
  obtain ⟨sub, _, hmsg⟩ := List.mem_flatMap.1 hmsg
  obtain ⟨change, _, rfl⟩ := List.mem_map.1 hmsg
  rfl

/-- Everybody who monitors the table is told of a new row. -/
theorem mem_updatesFor {sv : OvsdbServer} {conn : Conn} {sub : Subscription} {table uuid : CString}
    {row : Json} (hsub : sub ∈ sv.subscriptions) (hconn : sub.conn = conn) (htable : sub.table = table) :
    .update sub.monId table uuid (.new row) ∈ sv.updatesFor conn table [(uuid, .new row)] := by
  unfold OvsdbServer.updatesFor
  refine List.mem_flatMap.2 ⟨sub, List.mem_filter.2 ⟨hsub, ?_⟩, List.mem_singleton_self _⟩
  rw [hconn, htable, beq_self_eq_true, beq_self_eq_true]
  rfl

/-- What carrying out a request does. -/
inductive CarriedOut (sv : OvsdbServer) (conn : Conn) (uuid : CString) (msg : Json) (sv' : OvsdbServer) :
    Prop where
  | insert {rid table : CString} {row : Json} (hread : readRequest msg = some (rid, .insert table row))
      (huuid : isUuid uuid = true) (hnew : uuid ∉ sv.given.map Prod.snd)
      (hgiven : sv'.given = sv.given ++ [(table, uuid)]) (hsubs : sv'.subscriptions = sv.subscriptions)
      (htoComponent : sv'.toComponent = sv.toComponent ++
        (sv.updatesFor .component table [(uuid, .new row)] ++
          if conn = .component then [.reply rid (insertResult uuid)] else []))
      (htoAgent : ∃ news, sv'.toAgent = sv.toAgent ++
        (sv.updatesFor .agent table [(uuid, .new row)] ++ news))
  | other {rid : CString} {req : Request} {news : List ServerMsg}
      (hread : readRequest msg = some (rid, req)) (hreq : ∀ table row, req ≠ .insert table row)
      (hgiven : sv'.given = sv.given)
      (hsubs : ∀ sub ∈ sv'.subscriptions, sub ∈ sv.subscriptions ∨
        sub.conn = conn ∧ req = .monitor sub.monId sub.table)
      (hnews : ∀ m ∈ news, m.insertedUuid = none)
      (htoComponent : sv'.toComponent = sv.toComponent ++ news)
      (htoAgent : ∃ news, sv'.toAgent = sv.toAgent ++ news)

theorem carryOut_cases {sv sv' : OvsdbServer} {conn : Conn} {uuid : CString} {msg : Json}
    (h : sv.carryOut conn uuid msg = some sv') :
    CarriedOut sv conn uuid msg sv' ∧ sv'.servedAgent = sv.servedAgent := by
  have hreply : ∀ {rid : CString} {result : Json},
      (ServerMsg.reply rid result).insertedUuid = none →
      ∀ m ∈ (if conn = .component then [ServerMsg.reply rid result] else []), m.insertedUuid = none := by
    intro rid result hnone m hm
    split at hm
    · rw [List.mem_singleton.1 hm]; exact hnone
    · cases hm
  unfold OvsdbServer.carryOut at h
  split at h
  · cases h
  · next rid table row hread =>
      split at h
      · next hcond =>
          rw [Bool.and_eq_true, Bool.not_eq_true'] at hcond
          cases h
          refine ⟨.insert hread hcond.1 (fun hmem => ?_) rfl rfl rfl ⟨_, rfl⟩, rfl⟩
          obtain ⟨g, hg, heq⟩ := List.mem_map.1 hmem
          -- a uuid that was given before is refused by the server
          have hany : (sv.given.any fun g => g.2 == uuid) = true :=
            List.any_eq_true.2 ⟨g, hg, beq_iff_eq.2 heq⟩
          rw [hany] at hcond
          cases hcond.2
      · cases h
  · next rid table clause hread =>
      cases h
      refine ⟨.other hread (fun _ _ => by simp) rfl (fun sub hsub => Or.inl hsub) (fun m hm => ?_) rfl
        ⟨_, rfl⟩, rfl⟩
      rcases List.mem_append.1 hm with hm | hm
      · exact insertedUuid_updatesFor m hm
      · exact hreply rfl m hm
  · next rid monId table hread =>
      cases h
      refine ⟨.other hread (fun _ _ => by simp) rfl (fun sub hsub => ?_) (fun m hm => ?_) rfl
        ⟨_, rfl⟩, rfl⟩
      · rcases List.mem_append.1 hsub with hsub | hsub
        · exact Or.inl hsub
        · rw [List.mem_singleton.1 hsub]; exact Or.inr ⟨rfl, rfl⟩
      · rcases List.mem_append.1 hm with hm | hm
        · exact insertedUuid_updatesFor m hm
        · exact hreply rfl m hm

/-! ## §2. The stages of a row. -/

/-- The call writes a Feedback row for this uuid. -/
def Call.Reports (c : Call) (uuid : CString) : Prop :=
  ∃ addr ret, c.request.tableConfig = .feedback (some ⟨addr, ⟨ret, uuid⟩⟩)

/-- The request inserts a Feedback row for this uuid. -/
def Sent.Reports (x : Sent) (uuid : CString) : Prop :=
  ∃ ret rid, x.request = transactInsert feedbackTableName (fbRow ⟨ret, uuid⟩) (utoa rid)

namespace Network

/-- The process at this end of a connection. -/
def process (s : Network) : Conn → Component
  | .component => s.component
  | .agent => s.agent

/-- The update that tells the agent of the row is on its way. -/
structure Announced (s : Network) (uuid : CString) : Prop where
  isUuid : isUuid uuid = true
  message : ∃ monId columns, .update monId gatewayConfigTableName uuid (.new columns) ∈
  s.server.toAgent ∧
    ∃ node ∈ s.agent.db.monitors, node.matches monId = true

/-- The agent is writing the Feedback of the row. -/
def Reporting (s : Network) (uuid : CString) : Prop :=
  ∃ c ∈ s.agent.calls, c.result = none ∧ c.Reports uuid

/-- The server has the Feedback request still to carry out. -/
def Reported (s : Network) (uuid : CString) : Prop :=
  ∃ (k : Nat) (x : Sent), s.server.servedAgent ≤ k ∧ s.agent.db.sent[k]? = some x ∧ x.Reports uuid

/-- The Feedback row is among the messages `q`. -/
def Fed (s : Network) (q : List ServerMsg) (uuid : CString) : Prop :=
  ∃ msg ∈ q, msg.Feeds s.component.db.monitors uuid

/-- The Feedback of the row is still to come; `q` are the messages to the component. -/
structure Underway (s : Network) (q : List ServerMsg) (uuid : CString) : Prop where
  isUuid : OvsAgent.isUuid uuid = true
  stage : s.Announced uuid ∨ s.Reporting uuid ∨ s.Reported uuid ∨ s.Fed q uuid

/-- The row goes on through its stages, and nothing of what was to come is lost. -/
def Onward (s s' : Network) (news : List ServerMsg) : Prop :=
  ∀ q uuid, s.Underway q uuid → s'.Underway (q ++ news) uuid

end Network

/-- Every reply about a new row has the Feedback of that row behind it. -/
def Covered (Coming : List ServerMsg → CString → Prop) : List ServerMsg → Prop
  | [] => True
  | msg :: rest => (∀ uuid, msg.insertedUuid = some uuid → Coming rest uuid) ∧ Covered Coming rest

section Covered

variable {Coming Coming' : List ServerMsg → CString → Prop} {q news : List ServerMsg}

theorem Covered.append (h : Covered Coming q)
    (hc : ∀ q uuid, Coming q uuid → Coming' (q ++ news) uuid) (hnews : Covered Coming' news) :
    Covered Coming' (q ++ news) := by
  induction q with
  | nil => exact hnews
  | cons msg rest ih => exact ⟨fun uuid hu => hc rest uuid (h.1 uuid hu), ih h.2⟩

theorem Covered.mono (h : Covered Coming q) (hc : ∀ q uuid, Coming q uuid → Coming' q uuid) :
    Covered Coming' q := by
  induction q with
  | nil => trivial
  | cons msg rest ih => exact ⟨fun uuid hu => hc rest uuid (h.1 uuid hu), ih h.2⟩

theorem covered_of_none (h : ∀ msg ∈ q, msg.insertedUuid = none) : Covered Coming q := by
  induction q with
  | nil => trivial
  | cons msg rest ih =>
      refine ⟨fun uuid hu => ?_, ih fun m hm => h m (List.mem_cons_of_mem _ hm)⟩
      rw [h msg (List.mem_cons_self ..)] at hu
      cases hu

/-- Updates, and then one reply. -/
theorem covered_snoc {msg : ServerMsg} (h : ∀ msg ∈ q, msg.insertedUuid = none)
    (hmsg : ∀ uuid, msg.insertedUuid = some uuid → Coming [] uuid) : Covered Coming (q ++ [msg]) := by
  induction q with
  | nil => exact ⟨hmsg, trivial⟩
  | cons m rest ih =>
      refine ⟨fun uuid hu => ?_, ih fun m hm => h m (List.mem_cons_of_mem _ hm)⟩
      rw [h m (List.mem_cons_self ..)] at hu
      cases hu

end Covered

/-! ## §3. The invariant. -/

/-- What holds of the network in every run whose commits are on time. -/
structure NetworkInv (s : Network) : Prop where
  component : ComponentShape s.component
  agent : AgentShape s.agent
  subscribed : ∀ sub ∈ s.server.subscriptions,
    ∃ node ∈ (s.process sub.conn).db.monitors, node.matches sub.monId = true
  served : s.server.servedAgent ≤ s.agent.db.sent.length
  acted : ∀ uuid, (gatewayConfigTableName, uuid) ∈ s.server.given → uuid ∈ s.acted ∨
    s.Announced uuid
  covered : Covered s.Underway s.server.toComponent
  tracked : Tracked (s.Underway s.server.toComponent) s.component
  uuids : Uuids (s.server.given.map Prod.snd) (s.server.toComponent.filterMap ServerMsg.insertedUuid)
    s.component

namespace Network

variable {s s' : Network}

theorem Underway.length_le {q : List ServerMsg} {uuid : CString} (h : s.Underway q uuid) :
    uuid.length ≤ maxUuidLen := Nat.le_of_eq (length_of_isUuid h.isUuid)

theorem Fed.mono {q q' : List ServerMsg} {uuid : CString} (h : s.Fed q uuid)
    (hm : s.component.db.monitors ⊆ s'.component.db.monitors) (hq : q ⊆ q') : s'.Fed q' uuid := by
  obtain ⟨msg, hmsg, ⟨monId, rowUuid, ret, heq, node, hnode, hmatch⟩⟩ := h
  exact ⟨msg, hq hmsg, ⟨monId, rowUuid, ret, heq, node, hm hnode, hmatch⟩⟩

theorem Announced.mono {uuid : CString} (h : s.Announced uuid)
    (hm : s.agent.db.monitors ⊆ s'.agent.db.monitors) (hq : s.server.toAgent ⊆ s'.server.toAgent) :
    s'.Announced uuid := by
  obtain ⟨huuid, monId, columns, hmsg, node, hnode, hmatch⟩ := h
  exact ⟨huuid, monId, columns, hq hmsg, node, hm hnode, hmatch⟩

theorem Reported.mono {uuid : CString} (h : s.Reported uuid)
    (hsent : s.agent.db.sent <+: s'.agent.db.sent) (hserved : s'.server.servedAgent = s.server.servedAgent) :
    s'.Reported uuid := by
  obtain ⟨k, x, hk, hx, hr⟩ := h
  obtain ⟨rest, hrest⟩ := hsent
  refine ⟨k, x, hserved ▸ hk, ?_, hr⟩
  rw [← hrest, List.getElem?_append_left (List.getElem?_eq_some_iff.1 hx).1, hx]

end Network

theorem networkInv_start (cid agentCid : Nat) : NetworkInv (.start cid agentCid) where
  component := ⟨.start _ _, fun _ h => (by cases h), fun _ _ h => (by cases h)⟩
  agent := ⟨.start _ _, fun _ h => (by cases h), fun _ h => (by cases h), Or.inl rfl⟩
  subscribed := fun _ h => (by cases h)
  served := Nat.le_refl _
  acted := fun _ h => (by cases h)
  covered := trivial
  tracked := ⟨fun _ h => (by cases h), fun _ _ _ h => (by cases h), fun _ h => (by cases h),
    fun _ h => (by cases h)⟩
  uuids := ⟨List.nodup_nil, fun _ h => (by cases h), fun _ h => (by cases h), fun _ _ h => (by cases h)⟩

/-! ## §4. Steps of the processes. -/

theorem ComponentMove.monitors_subset {c c' : Component} (hshape : ComponentShape c)
    (h : ComponentMove c c') : c.db.monitors ⊆ c'.db.monitors := by
  cases h with
  | interact hpl hpc => exact List.Subset.refl _
  | call hc hpl hfree hstep =>
      obtain ⟨_, hf⟩ := hstep.frame hpl
      exact hf.db.monitors_subset
  | listener hl =>
      cases hl with
      | @accesses call pc l' hl hl' =>
          have hmk := ListenerPc.access_makes hl
          exact (dbStep_access hmk.noCancel (hshape.listener call pc hl)).2.monitors_subset
      | wakes hc hw =>
          rw [(hshape.calls _ (List.mem_of_getElem? hc)).not_waiting] at hw
          cases hw
      | _ => exact List.Subset.refl _

/-- A step of the component leaves every row where it is. -/
theorem onward_component {s : Network} {c : Component} (hm : s.component.db.monitors ⊆ c.db.monitors)
    {q : List ServerMsg} {uuid : CString} (h : s.Underway q uuid) :
    Network.Underway { s with component := c } q uuid := by
  obtain ⟨huuid, hstage⟩ := h
  refine ⟨huuid, ?_⟩
  rcases hstage with hann | hrep | hrepd | hfed
  · exact Or.inl (hann.mono (List.Subset.refl _) (List.Subset.refl _))
  · exact Or.inr (Or.inl hrep)
  · exact Or.inr (Or.inr (Or.inl hrepd))
  · exact Or.inr (Or.inr (Or.inr (hfed.mono hm (List.Subset.refl _))))

/-- What a step of the agent does to the layer, and to the Feedback it is writing. -/
structure AgentFrame (a a' : Component) : Prop where
  monitors : a.db.monitors ⊆ a'.db.monitors
  sent : a.db.sent <+: a'.db.sent
  reports : ∀ uuid, (∃ c ∈ a.calls, c.result = none ∧ c.Reports uuid) →
    (∃ c ∈ a'.calls, c.result = none ∧ c.Reports uuid) ∨
      ∃ (k : Nat) (x : Sent), a.db.sent.length ≤ k ∧ a'.db.sent[k]? = some x ∧ x.Reports uuid

/-- A call that has not written its request yet goes on, or has written it now. -/
theorem PlainStep.reports {a a' : Component} {n : Nat} {c : Call} (hc : a.calls[n]? = some c)
    (hpl : c.Plain agentRole) (h : PlainStep a n c a') {uuid : CString} (hr : c.Reports uuid) :
    (∃ d ∈ a'.calls, d.result = none ∧ d.Reports uuid) ∨
      ∃ (k : Nat) (x : Sent), a.db.sent.length ≤ k ∧ a'.db.sent[k]? = some x ∧ x.Reports uuid := by
  have hset : ∀ d, d ∈ a.calls.set n d :=
    fun d => List.mem_of_getElem? (List.getElem?_set_self (List.getElem?_eq_some_iff.1 hc).1)
  cases h with
  | idGenerate hpc hc' hreg => exact Or.inl ⟨_, hset _, rfl, by rw [hc']; exact hr⟩
  | idGenerateWrite hpc hc' hp => exact Or.inl ⟨_, hset _, rfl, by rw [hc']; exact hr⟩
  | setBlocked hpc hreg => exact Or.inl ⟨_, hset _, rfl, hr⟩
  | insert hpc hp hc' => exact Or.inl ⟨_, hset _, rfl, by rw [hc']; exact hr⟩
  | receiptListAdd hpc hp => exact Or.inl ⟨_, hset _, rfl, hr⟩
  | @socketWrite p hpc hp =>
      obtain ⟨addr, ret, htc⟩ := hr
      obtain ⟨_, _, js, hjs, hstr, _⟩ := hpl.prepares hp
      refine Or.inr ⟨a.db.sent.length, ⟨p.strJson, .whole⟩, Nat.le_refl _,
        List.getElem?_concat_length, ret, c.rid, ?_⟩
      rw [htc] at hjs
      cases hjs
      exact hstr

theorem AgentMove.frame {a a' : Component} (hshape : AgentShape a) (h : AgentMove a a') :
    AgentFrame a a' := by
  cases h with
  | interact hmk hpc => exact ⟨List.Subset.refl _, List.prefix_refl _, fun _ h => Or.inl h⟩
  | monitors hpc =>
      obtain ⟨call, hmk, hof⟩ := hshape.monitorCalls _ (List.mem_of_getElem? hpc)
      have hacc := (dbStep_access hmk.noCancel hof).2
      exact ⟨hacc.monitors_subset, hacc.sent_prefix, fun _ h => Or.inl h⟩
  | @call n c a' hc hpl hstep =>
      obtain ⟨c', hf⟩ := hstep.frame hpl
      refine ⟨hf.db.monitors_subset, hf.db.sent_prefix, fun uuid hr => ?_⟩
      obtain ⟨d, hd, hres, hrep⟩ := hr
      by_cases hsame : d = c
      · rw [hsame] at hrep
        exact hstep.reports hc hpl hrep
      · rw [hf.calls]
        obtain ⟨m, hm⟩ := List.getElem?_of_mem hd
        have hnm : n ≠ m := by
          intro heq
          rw [heq, hm] at hc
          exact hsame (Option.some.inj hc)
        exact Or.inl ⟨d, List.mem_of_getElem? ((List.getElem?_set_ne hnm).trans hm), hres, hrep⟩
  | unlinks i => exact ⟨List.Subset.refl _, List.prefix_refl _, fun _ h => Or.inl h⟩

/-- A step of the agent takes a row from `Reporting` to `Reported`, or leaves it where it is. -/
theorem onward_agent {s : Network} {a : Component} (hf : AgentFrame s.agent a)
    (hserved : s.server.servedAgent ≤ s.agent.db.sent.length) {q : List ServerMsg} {uuid : CString}
    (h : s.Underway q uuid) : Network.Underway { s with agent := a } q uuid := by
  obtain ⟨huuid, hstage⟩ := h
  refine ⟨huuid, ?_⟩
  rcases hstage with hann | hrep | hrepd | hfed
  · exact Or.inl (hann.mono hf.monitors (List.Subset.refl _))
  · rcases hf.reports uuid hrep with hrep | ⟨k, x, hk, hx, hr⟩
    · exact Or.inr (Or.inl hrep)
    · exact Or.inr (Or.inr (Or.inl ⟨k, x, Nat.le_trans hserved hk, hx, hr⟩))
  · exact Or.inr (Or.inr (Or.inl (hrepd.mono hf.sent rfl)))
  · exact Or.inr (Or.inr (Or.inr hfed))

theorem NetworkInv.stepComponent {s : Network} {c : Component} (h : NetworkInv s)
    (hm : ComponentMove s.component c) : NetworkInv { s with component := c } := by
  have hsub := hm.monitors_subset h.component
  constructor
  · exact h.component.move hm
  · exact h.agent
  · intro sub hsub'
    obtain ⟨node, hnode, hmatch⟩ := h.subscribed sub hsub'
    refine ⟨node, ?_, hmatch⟩
    cases hconn : sub.conn with
    | component => rw [hconn] at hnode; exact hsub hnode
    | agent => rw [hconn] at hnode; exact hnode
  · exact h.served
  · intro uuid hu
    exact (h.acted uuid hu).imp_right fun hann => hann.mono (List.Subset.refl _) (List.Subset.refl _)
  · exact h.covered.mono fun _ _ hu => onward_component hsub hu
  · exact (h.tracked.move (fun _ hu => hu.length_le) h.component hm).mono
      fun _ hu => onward_component hsub hu
  · exact h.uuids.move h.component hm

theorem NetworkInv.stepAgent {s : Network} {a : Component} (h : NetworkInv s)
    (hm : AgentMove s.agent a) : NetworkInv { s with agent := a } := by
  have hf := hm.frame h.agent
  constructor
  · exact h.component
  · exact h.agent.move hm
  · intro sub hsub'
    obtain ⟨node, hnode, hmatch⟩ := h.subscribed sub hsub'
    refine ⟨node, ?_, hmatch⟩
    cases hconn : sub.conn with
    | component => rw [hconn] at hnode; exact hnode
    | agent => rw [hconn] at hnode; exact hf.monitors hnode
  · exact Nat.le_trans h.served hf.sent.length_le
  · intro uuid hu
    exact (h.acted uuid hu).imp_right fun hann => hann.mono hf.monitors (List.Subset.refl _)
  · exact h.covered.mono fun _ _ hu => onward_agent hf h.served hu
  · exact h.tracked.mono fun _ hu => onward_agent hf h.served hu
  · exact h.uuids

/-! ## §5. Steps of the server. -/

/-- The server has carried out the request `msg` of `conn`. -/
structure ServeStep (s : Network) (conn : Conn) (uuid : CString) (s' : Network) : Prop where
  component : s'.component = s.component
  agent : s'.agent = s.agent
  acted : s'.acted = s.acted
  request : ∃ msg, s.nextRequest conn = some msg ∧ CarriedOut s.server conn uuid msg s'.server
  served : conn = .component ∧ s'.server.servedAgent = s.server.servedAgent ∨
    conn = .agent ∧ s'.server.servedAgent = s.server.servedAgent + 1

theorem CarriedOut.congr {sv sv' sv'' : OvsdbServer} {conn : Conn} {uuid : CString} {msg : Json}
    (h : CarriedOut sv conn uuid msg sv') (hgiven : sv''.given = sv'.given)
    (hsubs : sv''.subscriptions = sv'.subscriptions) (hC : sv''.toComponent = sv'.toComponent)
    (hA : sv''.toAgent = sv'.toAgent) : CarriedOut sv conn uuid msg sv'' := by
  cases h with
  | insert hread huuid hnew hg hs htc hta =>
      exact .insert hread huuid hnew (hgiven.trans hg) (hsubs.trans hs) (hC.trans htc)
        (by rw [hA]; exact hta)
  | other hread hreq hg hs hnews htc hta =>
      exact .other hread hreq (hgiven.trans hg) (by rw [hsubs]; exact hs) hnews (hC.trans htc)
        (by rw [hA]; exact hta)

theorem serve_cases {s s' : Network} {conn : Conn} {uuid : CString} (h : s.serve conn uuid = some s') :
    ServeStep s conn uuid s' := by
  unfold Network.serve at h
  cases hmsg : s.nextRequest conn with
  | none => rw [hmsg] at h; cases h
  | some msg =>
      cases hsv : s.server.carryOut conn uuid msg with
      | none => simp [hmsg, hsv] at h
      | some server =>
          obtain ⟨hco, hsa⟩ := carryOut_cases hsv
          simp only [hmsg, hsv, Option.pure_def, Option.bind_eq_bind, Option.bind_some,
            Option.some.injEq] at h
          subst h
          cases conn with
          | component =>
              exact ⟨rfl, rfl, rfl, ⟨msg, hmsg, hco.congr rfl rfl rfl rfl⟩, Or.inl ⟨rfl, hsa⟩⟩
          | agent =>
              exact ⟨rfl, rfl, rfl, ⟨msg, hmsg, hco.congr rfl rfl rfl rfl⟩,
                Or.inr ⟨rfl, congrArg (· + 1) hsa⟩⟩

/-- The request the server carries out next was sent by the process at the other end. -/
theorem nextRequest_mem {s : Network} {conn : Conn} {msg : Json} (h : s.nextRequest conn = some msg) :
    ∃ x ∈ (s.process conn).db.sent, x.request = msg := by
  cases conn with
  | component =>
      obtain ⟨x, hx, heq⟩ := Option.map_eq_some_iff.1 h
      exact ⟨x, List.mem_of_getElem? hx, heq⟩
  | agent =>
      obtain ⟨x, hx, heq⟩ := Option.map_eq_some_iff.1 h
      exact ⟨x, List.mem_of_getElem? hx, heq⟩

/-- What the server reads out of a Feedback request. -/
theorem readRequest_reports {x : Sent} {uuid : CString} (h : x.Reports uuid) :
    ∃ ret rid, readRequest x.request
      = some (rid, .insert feedbackTableName (.object (fbRow ⟨ret, uuid⟩))) := by
  obtain ⟨ret, rid, heq⟩ := h
  refine ⟨ret, utoa rid, ?_⟩
  rw [heq]
  exact readRequest_insert (by decide) (utf8Valid_utoa rid)

section Serve

variable {s s' : Network} {conn : Conn} {uuid : CString}

theorem OnTime.feedback {msg : Json} {rid : CString} {row : Json} (h : OnTime s (.serve conn uuid))
    (hmsg : s.nextRequest conn = some msg)
    (hread : readRequest msg = some (rid, .insert feedbackTableName row)) :
    ∃ sub ∈ s.server.subscriptions, sub.conn = .component ∧ sub.table = feedbackTableName :=
  (h conn uuid msg rid _ row rfl hmsg hread).2 rfl

theorem OnTime.gateway {msg : Json} {rid : CString} {row : Json} (h : OnTime s (.serve conn uuid))
    (hmsg : s.nextRequest conn = some msg)
    (hread : readRequest msg = some (rid, .insert gatewayConfigTableName row)) :
    ∃ sub ∈ s.server.subscriptions, sub.conn = .agent ∧ sub.table = gatewayConfigTableName :=
  (h conn uuid msg rid _ row rfl hmsg hread).1 rfl

theorem ServeStep.toAgent (h : ServeStep s conn uuid s') : s.server.toAgent ⊆ s'.server.toAgent := by
  obtain ⟨msg, _, hco⟩ := h.request
  cases hco with
  | insert _ _ _ _ _ _ hta =>
      obtain ⟨news, hta⟩ := hta
      rw [hta]
      exact List.subset_append_left _ _
  | other _ _ _ _ _ _ hta =>
      obtain ⟨news, hta⟩ := hta
      rw [hta]
      exact List.subset_append_left _ _

/-- Carrying out a request takes a row from `Reported` to `Fed`, or leaves it where it is. -/
theorem onward_serve (h : ServeStep s conn uuid s') (hinv : NetworkInv s)
    (hot : OnTime s (.serve conn uuid)) {news : List ServerMsg}
    (hnews : s'.server.toComponent = s.server.toComponent ++ news) : s.Onward s' news := by
  intro q u hu
  obtain ⟨huuid, hstage⟩ := hu
  refine ⟨huuid, ?_⟩
  have hmonC : s.component.db.monitors ⊆ s'.component.db.monitors := by
    rw [h.component]; exact List.Subset.refl _
  have hmonA : s.agent.db.monitors ⊆ s'.agent.db.monitors := by
    rw [h.agent]; exact List.Subset.refl _
  rcases hstage with hann | hrep | hrepd | hfed
  · exact Or.inl (hann.mono hmonA h.toAgent)
  · right; left
    unfold Network.Reporting
    rw [h.agent]
    exact hrep
  · right; right
    obtain ⟨k, x, hk, hx, hr⟩ := hrepd
    rcases h.served with ⟨rfl, hsa⟩ | ⟨rfl, hsa⟩
    · exact Or.inl ⟨k, x, hsa ▸ hk, by rw [h.agent]; exact hx, hr⟩
    -- requests are served in order: this one is still to come, or it is the one served
    · by_cases hlt : s.server.servedAgent < k
      · exact Or.inl ⟨k, x, by omega, by rw [h.agent]; exact hx, hr⟩
      · -- it is this very request
        have hsame : k = s.server.servedAgent := by omega
        subst hsame
        obtain ⟨msg, hmsg, hco⟩ := h.request
        obtain ⟨ret, rid, hread⟩ := readRequest_reports hr
        have hx' : x.request = msg := by
          have hnext : s.nextRequest .agent = some x.request := by
            show (s.agent.db.sent[s.server.servedAgent]?).map Sent.request = _
            rw [hx]
            rfl
          rw [hnext] at hmsg
          exact Option.some.inj hmsg
        rw [hx'] at hread
        obtain ⟨sub, hsub, hconn, htable⟩ := hot.feedback hmsg hread
        obtain ⟨node, hnode, hmatch⟩ := hinv.subscribed sub hsub
        rw [hconn] at hnode
        cases hco with
        | insert hread' _ _ _ _ htc _ =>
            rw [hread] at hread'
            cases hread'
            rw [htc] at hnews
            have hnews := List.append_cancel_left hnews
            refine Or.inr ⟨_, ?_, ⟨sub.monId, uuid, ret, rfl, node, hmonC hnode, hmatch⟩⟩
            rw [← hnews]
            exact List.mem_append_right _ (List.mem_append_left _ (mem_updatesFor hsub hconn htable))
        | other hread' hreq _ _ _ _ _ =>
            rw [hread] at hread'
            cases hread'
            exact absurd rfl (hreq _ _)
  · exact Or.inr (Or.inr (Or.inr (hfed.mono hmonC (List.subset_append_left _ _))))

/-- A row of the component is announced as soon as it is committed. -/
theorem announced_serve (h : ServeStep s conn uuid s') (hinv : NetworkInv s)
    (hot : OnTime s (.serve conn uuid)) (hnew : (gatewayConfigTableName, uuid) ∉ s.server.given)
    (hgiven : (gatewayConfigTableName, uuid) ∈ s'.server.given) : s'.Announced uuid := by
  obtain ⟨msg, hmsg, hco⟩ := h.request
  cases hco with
  | @insert rid table row hread huuid _ hg _ _ hta =>
      rw [hg, List.mem_append, List.mem_singleton] at hgiven
      rcases hgiven with hold | heq
      · exact absurd hold hnew
      · cases heq
        obtain ⟨sub, hsub, hconn, htable⟩ := hot.gateway hmsg hread
        obtain ⟨node, hnode, hmatch⟩ := hinv.subscribed sub hsub
        rw [hconn] at hnode
        obtain ⟨news, hta⟩ := hta
        refine ⟨huuid, sub.monId, row, ?_, node, by rw [h.agent]; exact hnode, hmatch⟩
        rw [hta]
        exact List.mem_append_right _ (List.mem_append_left _ (mem_updatesFor hsub hconn htable))
  | other _ _ hg _ _ _ _ =>
      rw [hg] at hgiven
      exact absurd hgiven hnew

/-- The uuids and the queue after a request was carried out. -/
theorem covered_serve (h : ServeStep s conn uuid s') (hinv : NetworkInv s)
    (hot : OnTime s (.serve conn uuid)) :
    Covered s'.Underway s'.server.toComponent ∧
      Tracked (s'.Underway s'.server.toComponent) s'.component ∧
      Uuids (s'.server.given.map Prod.snd) (s'.server.toComponent.filterMap ServerMsg.insertedUuid)
        s'.component := by
  obtain ⟨msg, hmsg, hco⟩ := h.request
  have htracked : ∀ news, s'.server.toComponent = s.server.toComponent ++ news →
      Tracked (s'.Underway s'.server.toComponent) s'.component := by
    intro news hnews
    rw [hnews, h.component]
    exact hinv.tracked.mono fun u hu => onward_serve h hinv hot hnews _ u hu
  -- messages that tell of no new row
  have hnone : ∀ news, s'.server.toComponent = s.server.toComponent ++ news →
      (∀ m ∈ news, m.insertedUuid = none) → s.server.given ⊆ s'.server.given →
      Covered s'.Underway s'.server.toComponent ∧
        Tracked (s'.Underway s'.server.toComponent) s'.component ∧
        Uuids (s'.server.given.map Prod.snd) (s'.server.toComponent.filterMap ServerMsg.insertedUuid)
          s'.component := by
    intro news hnews hno hgiven
    refine ⟨?_, htracked news hnews, ?_⟩
    · rw [hnews]
      exact hinv.covered.append (onward_serve h hinv hot hnews) (covered_of_none hno)
    · rw [hnews, List.filterMap_append, List.filterMap_eq_nil_iff.2 hno, List.append_nil, h.component]
      exact hinv.uuids.frame (List.Sublist.refl _) (List.map_subset _ hgiven) fun _ he => he
  cases hco with
  | @insert rid table row hread huuid hnew hg _ htc _ =>
      have hsub : s.server.given ⊆ s'.server.given := by rw [hg]; exact List.subset_append_left _ _
      cases conn with
      | agent =>
          rw [if_neg (by decide), List.append_nil] at htc
          exact hnone _ htc insertedUuid_updatesFor hsub
      | component =>
          rw [if_pos rfl] at htc
          -- the component inserts Gateway_Config rows only
          obtain ⟨x, hx, hreq⟩ := nextRequest_mem hmsg
          have htable : table = gatewayConfigTableName :=
            hinv.component.layer.inserts x hx rid table row (by rw [hreq]; exact hread)
          subst htable
          have hlen : uuid.length ≤ maxUuidLen := Nat.le_of_eq (length_of_isUuid huuid)
          have hins := @insertedUuid_insertResult rid _ hlen
          have hann : s'.Announced uuid := by
            refine announced_serve h hinv hot (fun hmem => hnew (List.mem_map_of_mem hmem)) ?_
            rw [hg]
            exact List.mem_append_right _ (List.mem_singleton_self _)
          refine ⟨?_, htracked _ htc, ?_⟩
          · rw [htc]
            refine hinv.covered.append (onward_serve h hinv hot htc)
              (covered_snoc insertedUuid_updatesFor fun u hu => ?_)
            rw [hins] at hu
            cases hu
            exact ⟨huuid, Or.inl hann⟩
          · rw [htc, List.filterMap_append, List.filterMap_append,
              List.filterMap_eq_nil_iff.2 insertedUuid_updatesFor, List.nil_append,
              List.filterMap_cons_some hins, List.filterMap_nil, h.component]
            exact hinv.uuids.commit huuid hnew (by rw [hg, List.map_append]; rfl)
  | other _ _ hg _ hno htc _ => exact hnone _ htc hno (by rw [hg]; exact List.Subset.refl _)

theorem NetworkInv.serve (hinv : NetworkInv s) (hot : OnTime s (.serve conn uuid))
    (h : ServeStep s conn uuid s') : NetworkInv s' := by
  obtain ⟨hcov, htr, huu⟩ := covered_serve h hinv hot
  refine ⟨h.component ▸ hinv.component, h.agent ▸ hinv.agent, ?_, ?_, ?_, hcov, htr, huu⟩
  · have hproc : s'.process = s.process := by
      funext c
      cases c with
      | component => exact h.component
      | agent => exact h.agent
    intro sub hsub
    rw [hproc]
    obtain ⟨msg, hmsg, hco⟩ := h.request
    cases hco with
    | insert _ _ _ _ hs _ _ =>
        rw [hs] at hsub
        exact hinv.subscribed sub hsub
    | other hread _ _ hs _ _ _ =>
        rcases hs sub hsub with hold | ⟨hconn, hreq⟩
        · exact hinv.subscribed sub hold
        · -- the node was in the list before the request was sent
          obtain ⟨x, hx, heq⟩ := nextRequest_mem hmsg
          subst hreq
          rw [← heq] at hread
          rw [hconn]
          cases conn with
          | component => exact hinv.component.layer.monitored x hx _ _ _ hread
          | agent => exact hinv.agent.layer.monitored x hx _ _ _ hread
  · rw [h.agent]
    rcases h.served with ⟨_, hsa⟩ | ⟨hconn, hsa⟩
    · rw [hsa]; exact hinv.served
    · obtain ⟨msg, hmsg, _⟩ := h.request
      subst hconn
      obtain ⟨x, hx, _⟩ := Option.map_eq_some_iff.1 hmsg
      rw [hsa]
      exact (List.getElem?_eq_some_iff.1 hx).1
  · intro u hu
    rw [h.acted]
    by_cases hold : (gatewayConfigTableName, u) ∈ s.server.given
    · refine (hinv.acted u hold).imp_right fun hann => hann.mono ?_ h.toAgent
      rw [h.agent]
      exact List.Subset.refl _
    · have hsame : u = uuid := by
        obtain ⟨msg, _, hco⟩ := h.request
        cases hco with
        | insert _ _ _ hg _ _ _ =>
            rw [hg, List.mem_append, List.mem_singleton] at hu
            rcases hu with hu | heq
            · exact absurd hu hold
            · cases heq; rfl
        | other _ _ hg _ _ _ _ =>
            rw [hg] at hu
            exact absurd hu hold
      subst hsame
      exact Or.inr (announced_serve h hinv hot hold hu)

end Serve

/-! ## §6. Messages read. -/

/-- The component reads a message: what was to come still is, or it is the
Feedback that was read. -/
theorem NetworkInv.hearComponent {s s' : Network} (hinv : NetworkInv s)
    (h : s.hearComponent = some s') : NetworkInv s' := by
  unfold Network.hearComponent at h
  cases hq : s.server.toComponent with
  | nil => rw [hq] at h; cases h
  | cons msg rest =>
      rw [hq] at h
      obtain ⟨c, hear, rfl⟩ := Option.map_eq_some_iff.1 h
      obtain ⟨_, hdb, _, _⟩ := hear_frame hear
      -- the stages of a request depend on the monitors, which reading a message leaves alone
      let s' : Network :=
        { s with component := c, server := { s.server with toComponent := rest } }
      have hmon : s.component.db.monitors ⊆ c.db.monitors := by rw [hdb]; exact List.Subset.refl _
      have hfed : ∀ {q q' : List ServerMsg} {uuid : CString}, q ⊆ q' → s.Fed q uuid →
          s'.Fed q' uuid :=
        fun hsub hf => hf.mono hmon hsub
      have hstage : ∀ q uuid, s.Underway q uuid → s'.Underway q uuid := by
        intro q uuid hu
        obtain ⟨huuid, hst⟩ := hu
        refine ⟨huuid, ?_⟩
        rcases hst with hann | hrep | hrepd | hf
        · exact Or.inl (hann.mono (List.Subset.refl _) (List.Subset.refl _))
        · exact Or.inr (Or.inl hrep)
        · exact Or.inr (Or.inr (Or.inl hrepd))
        · exact Or.inr (Or.inr (Or.inr (hfed (List.Subset.refl _) hf)))
      have hcovered := hinv.covered
      rw [hq] at hcovered
      have htracked := hinv.tracked
      rw [hq] at htracked
      have huuids := hinv.uuids
      rw [hq] at huuids
      have hreplies : (msg :: rest).filterMap ServerMsg.insertedUuid
          = msg.insertedUuid.toList ++ rest.filterMap ServerMsg.insertedUuid := by
        cases hm : msg.insertedUuid with
        | none => rw [List.filterMap_cons_none hm]; rfl
        | some u => rw [List.filterMap_cons_some hm]; rfl
      constructor
      · exact hinv.component.hear hear
      · exact hinv.agent
      · intro sub hsub
        obtain ⟨node, hnode, hmatch⟩ := hinv.subscribed sub hsub
        refine ⟨node, ?_, hmatch⟩
        cases hconn : sub.conn with
        | component => rw [hconn] at hnode; exact hmon hnode
        | agent => rw [hconn] at hnode; exact hnode
      · exact hinv.served
      · intro uuid hu
        exact (hinv.acted uuid hu).imp_right fun hann =>
          hann.mono (List.Subset.refl _) (List.Subset.refl _)
      · exact hcovered.2.mono hstage
      · refine htracked.hear huuids hinv.component (fun _ hu => hu.isUuid) (fun uuid hu => ?_)
          (fun uuid hu => hstage rest uuid (hcovered.1 uuid hu)) hear
        obtain ⟨huuid, hst⟩ := hu
        rcases hst with hann | hrep | hrepd | ⟨m, hm, hfeeds⟩
        · exact Or.inl (hstage rest uuid ⟨huuid, Or.inl hann⟩)
        · exact Or.inl (hstage rest uuid ⟨huuid, Or.inr (Or.inl hrep)⟩)
        · exact Or.inl (hstage rest uuid ⟨huuid, Or.inr (Or.inr (Or.inl hrepd))⟩)
        -- the Feedback is the message read, or it comes behind it
        · rcases List.mem_cons.1 hm with rfl | hm
          · exact Or.inr hfeeds
          · exact Or.inl (hstage rest uuid ⟨huuid, Or.inr (Or.inr (Or.inr ⟨m, hm, hfeeds⟩))⟩)
      · rw [hreplies] at huuids
        exact huuids.hear hear

/-- The agent acts on every row it is told of. -/
theorem actsOn_announced {a : Component} (hshape : AgentShape a) {monId uuid : CString} {columns : Json}
    (huuid : isUuid uuid = true) {node : MonNode} (hnode : node ∈ a.db.monitors)
    (hmatch : node.matches monId = true) :
    ∃ tableConfig, tableConfig.uuid = uuid ∧
      a.actsOn (.update monId gatewayConfigTableName uuid (.new columns)) = some tableConfig := by
  have hfind : ∃ node', (a.db.monitors.find? fun node => node.matches monId) = some node' := by
    rw [← Option.isSome_iff_exists, List.find?_isSome]
    exact ⟨node, hnode, hmatch⟩
  obtain ⟨node', hfind⟩ := hfind
  have hcb := hshape.layer.monCb node' (List.mem_of_find?_eq_some hfind)
  have hparse : parseTable gatewayConfigTableName columns
      = some (.gwConfig (some ⟨0, gatewayConfigParser columns⟩)) := by
    unfold parseTable
    rw [if_pos rfl]
  have hcb : node'.callback = some .gwconfMonCb := hcb
  refine ⟨⟨.gwConfig (some ⟨0, gatewayConfigParser columns⟩), strncpy maxUuidLen uuid⟩,
    CString.strncpy_of_length_le (Nat.le_of_eq (length_of_isUuid huuid)), ?_⟩
  simp only [Component.actsOn, hparse, hfind, hcb, if_true]

theorem actsOn_congr {a a' : Component} (h : a'.db = a.db) (msg : ServerMsg) :
    a'.actsOn msg = a.actsOn msg := by
  unfold Component.actsOn
  rw [h]

/-- What the agent's reading of a message does to the network. -/
structure HearAgentStep (s s' : Network) : Prop where
  component : s'.component = s.component
  agent : AgentShape s'.agent
  db : s'.agent.db = s.agent.db
  calls : s.agent.calls ⊆ s'.agent.calls
  subscriptions : s'.server.subscriptions = s.server.subscriptions
  served : s'.server.servedAgent = s.server.servedAgent
  given : s'.server.given = s.server.given
  toComponent : s'.server.toComponent = s.server.toComponent
  actedOn : s.acted ⊆ s'.acted
  announced : ∀ uuid, s.Announced uuid → s'.Announced uuid ∨ (uuid ∈ s'.acted ∧ s'.Reporting uuid)

theorem hearAgent_cases {s s' : Network} {ret : Int} (hshape : AgentShape s.agent)
    (h : s.hearAgent ret = some s') : HearAgentStep s s' := by
  unfold Network.hearAgent at h
  cases hq : s.server.toAgent with
  | nil => rw [hq] at h; cases h
  | cons msg rest =>
      rw [hq] at h
      by_cases hall : (s.agent.calls.all (·.result.isSome)) = true
      · simp only [hall, if_true] at h
        obtain ⟨a, hear, rfl⟩ := Option.map_eq_some_iff.1 h
        obtain ⟨hsh, hcalls, hdb⟩ := hshape.hear hear
        -- an announcement still in the queue stays there, the one read is acted on
        have hann : ∀ (a' : Component) (acted : List CString) (uuid : CString), a'.db = s.agent.db →
            s.Announced uuid →
            Network.Announced
            { s with agent := a', server := { s.server with toAgent := rest }, acted := acted } uuid
              ∨ ∃ tableConfig, tableConfig.uuid = uuid ∧ s.agent.actsOn msg = some tableConfig := by
          intro a' acted uuid hdb' hann
          obtain ⟨huuid, monId, columns, hmsg, node, hnode, hmatch⟩ := hann
          rw [hq] at hmsg
          rcases List.mem_cons.1 hmsg with rfl | hmsg
          · exact Or.inr (actsOn_announced hshape huuid hnode hmatch)
          · exact Or.inl ⟨huuid, monId, columns, hmsg, node, hdb' ▸ hnode, hmatch⟩
        cases hacts : s.agent.actsOn msg with
        | none =>
            have hacts' : Component.actsOn
                (Network.agent { s with agent := a, server := { s.server with toAgent := rest } }) msg
                  = none := by
              rw [← hacts]
              exact actsOn_congr hdb msg
            simp only [hacts']
            refine ⟨rfl, hsh, hdb, by rw [hcalls]; exact List.Subset.refl _, rfl, rfl, rfl, rfl,
              List.Subset.refl _, fun uuid hu => ?_⟩
            rcases hann a s.acted uuid hdb hu with hstay | ⟨tc, _, hact⟩
            · exact Or.inl hstay
            · rw [hacts] at hact; cases hact
        | some tc =>
            have hacts' : Component.actsOn
                (Network.agent { s with agent := a, server := { s.server with toAgent := rest } }) msg
                  = some tc := by
              rw [← hacts]
              exact actsOn_congr hdb msg
            simp only [hacts']
            refine ⟨rfl, hsh.acts (plain_gwconfMonCb ret tc), hdb, ?_, rfl, rfl, rfl, rfl,
              List.subset_append_left _ _, fun uuid hu => ?_⟩
            · rw [← hcalls]
              exact List.subset_append_left _ _
            · rcases hann { a with calls := a.calls ++ [.start (gwconfMonCb ret tc) none] }
                  (s.acted ++ [tc.uuid]) uuid hdb hu with hstay | ⟨tc', huuid, hact⟩
              · exact Or.inl hstay
              · rw [hacts] at hact
                cases hact
                subst huuid
                right
                refine ⟨List.mem_append_right _ (List.mem_singleton_self _),
                  .start (gwconfMonCb ret tc) none, List.mem_append_right _ (List.mem_singleton_self _),
                  rfl, 0, ret, ?_⟩
                have hlen : tc.uuid.length ≤ maxUuidLen :=
                  Nat.le_of_eq (length_of_isUuid hu.isUuid)
                show RdkbTableConfig.feedback (some ⟨0, ⟨ret, strncpy maxUuidLen tc.uuid⟩⟩) = _
                rw [CString.strncpy_of_length_le hlen]
      · rw [Bool.not_eq_true] at hall
        simp only [hall] at h
        cases h

theorem NetworkInv.hearAgent {s s' : Network} {ret : Int} (hinv : NetworkInv s)
    (h : s.hearAgent ret = some s') : NetworkInv s' := by
  have hs := hearAgent_cases hinv.agent h
  have hstage : ∀ q uuid, s.Underway q uuid → s'.Underway q uuid := by
    intro q uuid hu
    obtain ⟨huuid, hst⟩ := hu
    refine ⟨huuid, ?_⟩
    rcases hst with hann | ⟨c, hc, hres, hr⟩ | hrepd | hf
    -- an announced row waits, or it is this one and a call reports it
    · rcases hs.announced uuid hann with hstay | ⟨_, hrep⟩
      · exact Or.inl hstay
      · exact Or.inr (Or.inl hrep)
    · exact Or.inr (Or.inl ⟨c, hs.calls hc, hres, hr⟩)
    · exact Or.inr (Or.inr (Or.inl (hrepd.mono (hs.db ▸ List.prefix_refl _) hs.served)))
    · exact Or.inr (Or.inr (Or.inr (hf.mono (hs.component ▸ List.Subset.refl _)
        (List.Subset.refl _))))
  constructor
  · rw [hs.component]; exact hinv.component
  · exact hs.agent
  · intro sub hsub
    rw [hs.subscriptions] at hsub
    obtain ⟨node, hnode, hmatch⟩ := hinv.subscribed sub hsub
    refine ⟨node, ?_, hmatch⟩
    cases hconn : sub.conn with
    | component => rw [hconn] at hnode; show node ∈ s'.component.db.monitors; rw [hs.component]; exact hnode
    | agent => rw [hconn] at hnode; show node ∈ s'.agent.db.monitors; rw [hs.db]; exact hnode
  · rw [hs.served, hs.db]
    exact hinv.served
  · intro uuid hu
    rw [hs.given] at hu
    rcases hinv.acted uuid hu with hact | hann
    · exact Or.inl (hs.actedOn hact)
    · rcases hs.announced uuid hann with hstay | ⟨hact, _⟩
      · exact Or.inr hstay
      · exact Or.inl hact
  · rw [hs.toComponent]
    exact hinv.covered.mono hstage
  · rw [hs.toComponent, hs.component]
    exact hinv.tracked.mono (hstage _)
  · rw [hs.given, hs.toComponent, hs.component]
    exact hinv.uuids

/-! ## §7. Nothing is lost. -/

/-- The step lemma. -/
theorem networkInv_step {s s' : Network} {i : NetworkStep} (hinv : NetworkInv s) (hot : OnTime s i)
    (h : networkStep s i = some s') : NetworkInv s' := by
  cases i with
  | component i =>
      simp only [networkStep] at h
      split at h
      · next hallowed =>
          obtain ⟨c, hc, rfl⟩ := Option.map_eq_some_iff.1 h
          exact hinv.stepComponent (componentMove_cases hinv.component hallowed hc)
      · cases h
  | agent i =>
      simp only [networkStep] at h
      split at h
      · next hallowed =>
          obtain ⟨a, ha, rfl⟩ := Option.map_eq_some_iff.1 h
          exact hinv.stepAgent (agentMove_cases hinv.agent hallowed ha)
      · cases h
  | serve conn uuid => exact hinv.serve hot (serve_cases h)
  | hearComponent => exact hinv.hearComponent h
  | hearAgent ret => exact hinv.hearAgent h

/-- The run lemma. -/
theorem networkInv_of_reach {cid agentCid : Nat} {s : Network}
    (h : (networkMachine cid agentCid).Reach OnTime s) : NetworkInv s :=
  h.invariant (fun s h0 => by
    have h0 : s = .start cid agentCid := h0
    rw [h0]
    exact networkInv_start cid agentCid) fun _ _ _ hinv hot hstep => networkInv_step hinv hot hstep

/-- Nothing is to come any more in a network at rest. -/
theorem not_underway_of_quiescent {s : Network} (hq : s.Quiescent)
    (uuid : CString) : ¬ s.Underway s.server.toComponent uuid := by
  intro hu
  rcases hu.stage with
      ⟨_, _, _, hmsg, _⟩ | ⟨c, hc, hres, _⟩ | ⟨k, x, hk, hx, _⟩ | ⟨msg, hmsg, _⟩
  · rw [hq.toAgent] at hmsg; cases hmsg
  · have hsome := hq.agent.calls c hc
    rw [hres] at hsome
    cases hsome
  · have hnone : s.agent.db.sent[s.server.servedAgent]? = none := Option.map_eq_none_iff.1 hq.requestsAgent
    rw [List.getElem?_eq_none_iff] at hnone
    have hlt := (List.getElem?_eq_some_iff.1 hx).1
    omega
  · rw [hq.toComponent] at hmsg; cases hmsg

/-- **Nothing is lost.**  In every run in which a row is only committed once
the process that waits for it has its monitor, a network at rest has no pending
transaction, every transaction was completed, and the agent acted on every row. -/
theorem nothing_lost {cid agentCid : Nat} {s : Network}
    (h : (networkMachine cid agentCid).Reach OnTime s) (hq : s.Quiescent) : s.NothingLost := by
  have hinv := networkInv_of_reach h
  have hpending : ∀ e, ¬ s.component.manager.table.Mem e := by
    intro e he
    rcases hinv.tracked.live e he with (⟨c, hc, p, hpc, _⟩ | ⟨j, node, hnode, _, _⟩) | hcoming
    · -- the write of the request has returned
      have hsome := hq.component.calls c hc
      unfold Call.result at hsome
      rw [hpc] at hsome
      cases hsome
    · rw [hq.component.receipts] at hnode; cases hnode
    · exact not_underway_of_quiescent hq _ hcoming
  refine ⟨hpending, fun e he => ?_, fun uuid hu => ?_⟩
  · rcases hinv.tracked.inserted e he with ⟨e', he', _⟩ | hdone
    · exact absurd he' (hpending e')
    · exact hdone
  · rcases hinv.acted uuid hu with hact | ⟨_, _, _, hmsg, _⟩
    · exact hact
    · rw [hq.toAgent] at hmsg; cases hmsg

/-- `OnTime` as a test. -/
def onTimeTest (s : Network) : NetworkStep → Bool
  | .serve conn _ =>
      match (s.nextRequest conn).bind readRequest with
      | some (_, .insert table _) =>
          (table != gatewayConfigTableName ||
            s.server.subscriptions.any fun sub => sub.conn = .agent && sub.table = table) &&
          (table != feedbackTableName ||
            s.server.subscriptions.any fun sub => sub.conn = .component && sub.table = table)
      | _ => true
  | _ => true

theorem onTime_of_test (s : Network) (i : NetworkStep) (h : onTimeTest s i = true) : OnTime s i := by
  intro conn uuid msg rid table row hi hmsg hread
  subst hi
  have hread' : (s.nextRequest conn).bind readRequest = some (rid, .insert table row) := by
    rw [hmsg]
    exact hread
  simp only [onTimeTest, hread', Bool.and_eq_true, Bool.or_eq_true, bne_iff_ne, ne_eq,
    List.any_eq_true, decide_eq_true_eq] at h
  exact ⟨fun ht => h.1.resolve_left (absurd ht), fun ht => h.2.resolve_left (absurd ht)⟩

/-- `Quiescent` as a test. -/
def Component.restingTest (s : Component) : Bool :=
  (match s.listener with | .idle => true | _ => false) && s.calls.all (·.result.isSome) &&
    (s.monitorCalls.all fun pc => match pc with | .returned _ => true | _ => false) &&
    s.db.receipts.isEmpty

theorem Component.resting_of_test {s : Component} (h : s.restingTest = true) : s.Resting := by
  simp only [Component.restingTest, Bool.and_eq_true, List.all_eq_true, List.isEmpty_iff] at h
  obtain ⟨⟨⟨hl, hc⟩, hm⟩, hr⟩ := h
  refine ⟨?_, hc, fun pc hpc => ?_, hr⟩
  · split at hl
    · next heq => exact heq
    · cases hl
  · have hret := hm pc hpc
    split at hret
    · exact ⟨_, rfl⟩
    · cases hret

def Network.quiescentTest (s : Network) : Bool :=
  (s.nextRequest .component).isNone && (s.nextRequest .agent).isNone && s.server.toComponent.isEmpty &&
    s.server.toAgent.isEmpty && s.component.restingTest && s.agent.restingTest

theorem Network.quiescent_of_test {s : Network} (h : s.quiescentTest = true) : s.Quiescent := by
  simp only [Network.quiescentTest, Bool.and_eq_true, List.isEmpty_iff, Option.isNone_iff_eq_none] at h
  obtain ⟨⟨⟨⟨⟨hc, ha⟩, htc⟩, hta⟩, hrc⟩, hra⟩ := h
  exact ⟨hc, ha, htc, hta, Component.resting_of_test hrc, Component.resting_of_test hra⟩

/-- The agent starts: its monitor request goes out, is carried out and answered. -/
def agentStartSteps : List NetworkStep :=
  .agent (.interactMonitor .gwConfig (some .gwconfMonCb)) ::
    List.replicate 5 (.agent (.monitorCall 0 .ok)) ++
    [.serve .agent [], .hearAgent 0, .agent (.listener .ok none)]

/-- The component makes a request, and the server commits the row. -/
def componentRequestSteps (uuid : CString) : List NetworkStep :=
  (requestSteps 0 (gatewayRequest .disable 100)).map .component ++ [.serve .component uuid]

/-- The component reads the receipt and monitors Feedback. -/
def componentMonitorSteps : List NetworkStep :=
  .hearComponent :: List.replicate 9 (.component (.listener .ok none)) ++ [.serve .component []]

/-- The agent acts on the row and writes the Feedback; the server commits it. -/
def agentActSteps (uuid : CString) : List NetworkStep :=
  .hearAgent 0 :: List.replicate 3 (.agent (.call 0 true .ok)) ++
    [.serve .agent uuid, .hearAgent 0, .agent (.listener .ok none)]

/-- The component reads a reply whose callback does nothing. -/
def componentReplySteps : List NetworkStep := [.hearComponent, .component (.listener .ok none)]

/-- The component reads the Feedback and deletes both rows. -/
def componentFeedbackSteps : List NetworkStep :=
  .hearComponent :: List.replicate 8 (.component (.listener .ok none)) ++
    [.serve .component [], .serve .component []] ++ componentReplySteps ++ .hearComponent ::
    componentReplySteps ++ [.hearAgent 0]

/-- The uuids of a Gateway_Config row and of its Feedback. -/
def gwUuid : CString := ofString "5f0d2c5e-6a5a-4d8e-9d57-0f6f2a7c9b11"
def fbUuid : CString := ofString "0a1b2c3d-6a5a-4d8e-9d57-0f6f2a7c9b22"

/-- A request from its start to the deletion of its rows. -/
def onTimeSteps : List NetworkStep :=
  agentStartSteps ++ componentRequestSteps gwUuid ++ componentMonitorSteps ++ agentActSteps fbUuid ++
    componentReplySteps ++ componentFeedbackSteps

theorem nothing_lost_onTime : ∃ s, (networkMachine 1 2).Reach OnTime s ∧ s.Quiescent ∧
    s.acted = [gwUuid] ∧ s.NothingLost := by
  have hrun : ((networkMachine 1 2).checkedRun onTimeTest (.start 1 2) onTimeSteps).any (fun s =>
      s.quiescentTest && s.acted == [gwUuid]) = true := by
    decide +kernel
  obtain ⟨s, hs, hcheck⟩ := (Option.any_eq_true _ _).1 hrun
  rw [Bool.and_eq_true, beq_iff_eq] at hcheck
  have hr : (networkMachine 1 2).Reach OnTime s :=
    Machine.reach_of_checkedRun onTime_of_test (.init rfl) hs
  have hq := Network.quiescent_of_test hcheck.1
  exact ⟨s, hr, hq, hcheck.2, nothing_lost hr hq⟩

/-- The component's row is committed before the agent's monitor: the agent is
told of it in the reply only. -/
def lateAgentSteps : List NetworkStep :=
  componentRequestSteps gwUuid ++ agentStartSteps ++ componentMonitorSteps ++ componentReplySteps

/-- The Feedback row is committed before the component's monitor. -/
def lateComponentSteps : List NetworkStep :=
  agentStartSteps ++ componentRequestSteps gwUuid ++ agentActSteps fbUuid ++ componentMonitorSteps ++
    componentReplySteps

/-- Both ways to be late leave a transaction pending for good. -/
theorem late_monitor_loses :
    (∃ s, (networkMachine 1 2).Reachable s ∧ s.Quiescent ∧ gwUuid ∉ s.acted ∧ ¬ s.NothingLost) ∧
    (∃ s, (networkMachine 1 2).Reachable s ∧ s.Quiescent ∧ gwUuid ∈ s.acted ∧
      ¬ s.NothingLost) := by
  have hlost : ∀ s : Network, (s.component.manager.table.elements 1).isSome = true →
      ¬ s.NothingLost := by
    intro s hs hn
    obtain ⟨e, he⟩ := Option.isSome_iff_exists.1 hs
    exact hn.pending e (SlotTable.mem_of_elements he)
  have hfirst : ((networkMachine 1 2).run (.start 1 2) lateAgentSteps).any (fun s =>
      s.quiescentTest && !(s.acted.contains gwUuid) &&
        (s.component.manager.table.elements 1).isSome) = true := by
    decide +kernel
  have hsecond : ((networkMachine 1 2).run (.start 1 2) lateComponentSteps).any (fun s =>
      s.quiescentTest && s.acted.contains gwUuid &&
        (s.component.manager.table.elements 1).isSome) = true := by
    decide +kernel
  constructor
  · obtain ⟨s, hs, hcheck⟩ := (Option.any_eq_true _ _).1 hfirst
    simp only [Bool.and_eq_true, Bool.not_eq_true', List.contains_eq_mem, decide_eq_false_iff_not] at hcheck
    exact ⟨s, Machine.reachable_of_run (.init rfl) hs, Network.quiescent_of_test hcheck.1.1,
      hcheck.1.2, hlost s hcheck.2⟩
  · obtain ⟨s, hs, hcheck⟩ := (Option.any_eq_true _ _).1 hsecond
    simp only [Bool.and_eq_true, List.contains_eq_mem, decide_eq_true_eq] at hcheck
    exact ⟨s, Machine.reachable_of_run (.init rfl) hs, Network.quiescent_of_test hcheck.1.1,
      hcheck.1.2, hlost s hcheck.2⟩

end OvsAgent
