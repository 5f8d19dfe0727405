/-
  OvsAgent.Parties.Processes — what a process of the network can look like.

  A process only ever makes a few kinds of requests: the component inserts into
  Gateway_Config, monitors Feedback and deletes; the agent monitors
  Gateway_Config and inserts into Feedback.  Every call in progress, every node
  of the two lists and every request on the wire comes from one of them.

  Main results: `ComponentShape.step` and `AgentShape.step` — no step of the
  network takes a process out of its shape.
-/
import OvsAgent.Parties.Network

namespace OvsAgent

open CString (ofString utoa atou strncpy strncmpEq)
open Json

/-! ## §1. One access of a request function. -/

/-- The receipt node of a prepared call. -/
def Prepared.node (p : Prepared) : ReceiptNode := ⟨strncpy maxUuidLen p.rid, p.receiptCb, p.receiptType⟩

/-- Ids that `id_generate` has drawn. -/
def Drawn (ids : List Nat) : Prop := ∀ id ∈ ids, id < 2 ^ 32

/-- `call` has become `p` once its ids were drawn. -/
def DbCall.Prepares (call : DbCall) (p : Prepared) : Prop :=
  ∃ ids, Drawn ids ∧ call.prepare ids = some p

/-- The monitor node of a prepared call is in the list. -/
def Prepared.Monitored (p : Prepared) (monitors : List MonNode) : Prop :=
  ∀ uniqueId monCb, p.mon = some (uniqueId, monCb) →
    ⟨strncpy maxUuidLen uniqueId, some monCb⟩ ∈ monitors

/-- The access is one of `call`. -/
def DbPc.Of (call : DbCall) (db : OvsDbApi) : DbPc → Prop
  | .idGenerate call' ids => call' = call ∧ Drawn ids
  | .receiptListAdd p => call.Prepares p
  | .monListAdd p uniqueId monCb => call.Prepares p ∧ p.mon = some (uniqueId, monCb)
  | .socketWrite p => call.Prepares p ∧ p.Monitored db.monitors
  | .monListRemove _ _ => False
  | .returned _ => True

/-- The call is no monitor_cancel. -/
def DbCall.NoCancel (call : DbCall) : Prop := ∀ p, call.Prepares p → p.cancel = none

/-- What an access of `call` does to the layer when the environment grants everything. -/
structure DbAccess (call : DbCall) (db db' : OvsDbApi) : Prop where
  receipts : db'.receipts = db.receipts ∨
    ∃ p, call.Prepares p ∧ db'.receipts = db.receipts ++ [p.node]
  monitors : db'.monitors = db.monitors ∨ ∃ p uniqueId monCb, call.Prepares p ∧
    p.mon = some (uniqueId, monCb) ∧
    db'.monitors = db.monitors ++ [⟨strncpy maxUuidLen uniqueId, some monCb⟩]
  sent : db'.sent = db.sent ∨ ∃ p, call.Prepares p ∧ p.Monitored db'.monitors ∧
    db'.sent = db.sent ++ [⟨p.strJson, .whole⟩]

theorem DbAccess.same (call : DbCall) (db : OvsDbApi) : DbAccess call db db :=
  ⟨Or.inl rfl, Or.inl rfl, Or.inl rfl⟩

section DbAccess

variable {call : DbCall} {db db' : OvsDbApi}

/-- Lists only grow, and by what the request prepared. -/
theorem DbAccess.monitors_subset (h : DbAccess call db db') : db.monitors ⊆ db'.monitors := by
  rcases h.monitors with heq | ⟨_, _, _, _, _, heq⟩
  · rw [heq]; exact List.Subset.refl _
  · rw [heq]; exact List.subset_append_left _ _

/-- The same of the receipts, in order, -/
theorem DbAccess.receipts_prefix (h : DbAccess call db db') : db.receipts <+: db'.receipts := by
  rcases h.receipts with heq | ⟨p, _, heq⟩
  · exact heq ▸ List.prefix_refl db.receipts
  · exact heq ▸ List.prefix_append db.receipts [p.node]

/-- and of what is sent. -/
theorem DbAccess.sent_prefix (h : DbAccess call db db') : db.sent <+: db'.sent := by
  rcases h.sent with heq | ⟨p, _, _, heq⟩
  · exact heq ▸ List.prefix_refl db.sent
  · exact heq ▸ List.prefix_append db.sent [⟨p.strJson, .whole⟩]

/-- A receipt node was there, or is the request's. -/
theorem DbAccess.mem_receipts (h : DbAccess call db db') {node : ReceiptNode}
    (hnode : node ∈ db'.receipts) :
    node ∈ db.receipts ∨ ∃ p, call.Prepares p ∧ node = p.node := by
  rcases h.receipts with heq | ⟨p, hp, heq⟩
  · exact Or.inl (heq ▸ hnode)
  · rw [heq, List.mem_append, List.mem_singleton] at hnode
    exact hnode.imp_right fun hnew => ⟨p, hp, hnew⟩

/-- A monitor node was there, or is the request's. -/
theorem DbAccess.mem_monitors (h : DbAccess call db db') {node : MonNode} (hnode : node ∈ db'.monitors) :
    node ∈ db.monitors ∨ ∃ p uniqueId monCb, call.Prepares p ∧ p.mon = some (uniqueId, monCb) ∧
      node = ⟨strncpy maxUuidLen uniqueId, some monCb⟩ := by
  rcases h.monitors with heq | ⟨p, u, cb, hp, hmon, heq⟩
  · exact Or.inl (heq ▸ hnode)
  · rw [heq, List.mem_append, List.mem_singleton] at hnode
    exact hnode.imp_right fun hnew => ⟨p, u, cb, hp, hmon, hnew⟩

/-- A message was sent before, or is the request's, whose monitor is registered by then. -/
theorem DbAccess.mem_sent (h : DbAccess call db db') {x : Sent} (hx : x ∈ db'.sent) :
    x ∈ db.sent ∨
      ∃ p, call.Prepares p ∧ p.Monitored db'.monitors ∧ x = ⟨p.strJson, .whole⟩ := by
  rcases h.sent with heq | ⟨p, hp, hmon, heq⟩
  · exact Or.inl (heq ▸ hx)
  · rw [heq, List.mem_append, List.mem_singleton] at hx
    exact hx.imp_right fun hnew => ⟨p, hp, hmon, hnew⟩

end DbAccess

/-- A monitor stays registered, -/
theorem Prepared.Monitored.mono {p : Prepared} {ms ms' : List MonNode} (h : p.Monitored ms)
    (hsub : ms ⊆ ms') : p.Monitored ms' :=
  fun u cb hmon => hsub (h u cb hmon)

/-- so a request stands well on a longer list. -/
theorem DbPc.Of.mono {call : DbCall} {db db' : OvsDbApi} {pc : DbPc} (h : pc.Of call db)
    (hsub : db.monitors ⊆ db'.monitors) : pc.Of call db' := by
  cases pc with
  | socketWrite p => exact ⟨h.1, h.2.mono hsub⟩
  | _ => exact h

/-- With its ids drawn a request stands well. -/
theorem DbCall.ready_of (call : DbCall) {ids : List Nat} (hids : Drawn ids) (db : OvsDbApi) :
    (call.ready ids).Of call db := by
  unfold DbCall.ready
  split
  · exact ⟨rfl, hids⟩
  · split
    · trivial
    · next p hp => exact ⟨ids, hids, hp⟩

/-- So it does at its first access. -/
theorem DbCall.start_of (call : DbCall) (db : OvsDbApi) : call.start.Of call db :=
  call.ready_of (fun _ h => (by cases h)) db

/-- A drawn id is an `unsigned int`. -/
theorem Drawn.snoc {ids : List Nat} (h : Drawn ids) (db : OvsDbApi) :
    Drawn (ids ++ [(idGenerate db).1]) := by
  intro id hid
  rw [List.mem_append, List.mem_singleton] at hid
  rcases hid with hold | rfl
  · exact h id hold
  · exact Nat.mod_lt _ (by decide)

section Granted

variable {p : Prepared} (db : OvsDbApi)

/-- The accesses of a request when the environment grants everything: the receipt node, -/
theorem dbStep_receiptListAdd (hmon : p.mon = none) : dbStep .ok (.receiptListAdd p) db
    = (.socketWrite p, { db with receipts := db.receipts ++ [p.node] }) := by
  simp only [dbStep, receiptListAdd, hmon]
  rfl

/-- with the monitor to follow, -/
theorem dbStep_receiptListAdd_mon {uniqueId : CString} {monCb : OvsInteractCb}
    (hmon : p.mon = some (uniqueId, monCb)) : dbStep .ok (.receiptListAdd p) db
      = (.monListAdd p uniqueId monCb, { db with receipts := db.receipts ++ [p.node] }) := by
  simp only [dbStep, receiptListAdd, hmon]
  rfl

/-- the monitor node, -/
theorem dbStep_monListAdd (uniqueId : CString) (monCb : OvsInteractCb) :
    dbStep .ok (.monListAdd p uniqueId monCb) db = (.socketWrite p,
      { db with monitors := db.monitors ++ [⟨strncpy maxUuidLen uniqueId, some monCb⟩] }) := rfl

/-- and the message. -/
theorem dbStep_socketWrite (hcancel : p.cancel = none) : dbStep .ok (.socketWrite p) db
    = (.returned .success, { db with sent := db.sent ++ [⟨p.strJson, .whole⟩] }) := by
  simp only [dbStep, ovsdbSocketWrite, Outcome.ok, hcancel]

end Granted

/-- The step lemma of a request function. -/
theorem dbStep_access {call : DbCall} {pc : DbPc} {db : OvsDbApi} (hnc : call.NoCancel)
    (h : pc.Of call db) :
    (dbStep .ok pc db).1.Of call (dbStep .ok pc db).2 ∧ DbAccess call db (dbStep .ok pc db).2 := by
  cases pc with
  | idGenerate call' ids =>
      obtain ⟨rfl, hids⟩ := h
      exact ⟨DbCall.ready_of _ (hids.snoc db) _, ⟨Or.inl rfl, Or.inl rfl, Or.inl rfl⟩⟩
  | receiptListAdd p =>
      have hacc : DbAccess call db { db with receipts := db.receipts ++ [p.node] } :=
        ⟨Or.inr ⟨p, h, rfl⟩, Or.inl rfl, Or.inl rfl⟩
      cases hm : p.mon with
      | none =>
          rw [dbStep_receiptListAdd db hm]
          refine ⟨⟨h, fun u cb hmon => ?_⟩, hacc⟩
          rw [hm] at hmon
          cases hmon
      | some mon =>
          rw [dbStep_receiptListAdd_mon db hm]
          exact ⟨⟨h, hm⟩, hacc⟩
  | monListAdd p uniqueId monCb =>
      rw [dbStep_monListAdd]
      refine ⟨⟨h.1, fun u cb hmon => ?_⟩, Or.inl rfl, Or.inr ⟨p, uniqueId, monCb, h.1, h.2, rfl⟩,
        Or.inl rfl⟩
      -- the node of the monitor that is written next was added last
      rw [h.2] at hmon
      cases hmon
      exact List.mem_append_right _ (List.mem_singleton_self _)
  | socketWrite p =>
      rw [dbStep_socketWrite db (hnc p h.1)]
      exact ⟨trivial, Or.inl rfl, Or.inl rfl, Or.inr ⟨p, h.1, h.2, rfl⟩⟩
  | monListRemove uuid sent => exact h.elim
  | returned status => exact ⟨trivial, DbAccess.same _ _⟩

/-! ## §2. What the two processes ask for. -/

/-- What `ovsdb_write` prepares. -/
theorem prepares_write {rid : CString} {config : RdkbTableConfig} {cb : Option OvsdbReceiptCb}
    {p : Prepared} (h : (DbCall.write (some rid) (some config) cb).Prepares p) :
    ∃ js, ovsdbInsertToJson config rid = some js ∧
      p = ⟨js, rid, .insert, some (cb.getD .dummyReceiptCb), none, none⟩ := by
  obtain ⟨ids, _, hp⟩ := h
  obtain ⟨js, hjs, rfl⟩ := Option.map_eq_some_iff.1 hp
  exact ⟨js, hjs, rfl⟩

/-- What `ovsdb_monitor` prepares, with the two ids it draws. -/
theorem prepares_monitor {t : OvsTable} {monCb : OvsInteractCb} {cb : Option OvsdbReceiptCb}
    {p : Prepared} (h : (DbCall.monitor t (some monCb) cb).Prepares p) :
    ∃ uniqueId rID js, uniqueId < 2 ^ 32 ∧ ovsdbMonitorToJson t (utoa rID) (utoa uniqueId) = some js ∧
      p = ⟨js, utoa rID, .monitor, some (cb.getD .dummyReceiptCb),
        some (utoa uniqueId, monCb), none⟩ := by
  obtain ⟨ids, hids, hp⟩ := h
  match ids, hp with
  | [uniqueId, rID], hp =>
      obtain ⟨js, hjs, rfl⟩ := Option.map_eq_some_iff.1 hp
      exact ⟨uniqueId, rID, js, hids _ (List.mem_cons_self ..), hjs, rfl⟩

/-- What `ovsdb_delete` prepares. -/
theorem prepares_delete {t : OvsTable} {key value : CString} {p : Prepared}
    (h : (DbCall.delete t (some key) (some value)).Prepares p) :
    ∃ newId js, ovsdbDeleteToJson t (utoa newId) key value = some js ∧
      p = ⟨js, utoa newId, .delete, some .dummyReceiptCb, none, none⟩ := by
  obtain ⟨ids, _, hp⟩ := h
  match ids, hp with
  | [newId], hp =>
      obtain ⟨js, hjs, rfl⟩ := Option.map_eq_some_iff.1 hp
      exact ⟨newId, js, hjs, rfl⟩

/-- What a process asks for: monitors with the callback `monCb`, and rows
inserted into `table` with the receipt callback `receiptCb`. -/
structure Role where
  monCb : OvsInteractCb
  table : CString
  receiptCb : Option OvsdbReceiptCb

/-- The component monitors Feedback and inserts Gateway_Config rows. -/
def componentRole : Role :=
  ⟨.ovsAgentApiMonitorFeedbackCallback, gatewayConfigTableName, some .ovsAgentApiWriteCallback⟩

/-- The agent monitors Gateway_Config and inserts Feedback rows. -/
def agentRole : Role := ⟨.gwconfMonCb, feedbackTableName, none⟩

/-- The requests of a process of this role. -/
inductive Role.Makes (r : Role) : DbCall → Prop where
  | insert (rid : Nat) {config : RdkbTableConfig} (hname : config.tableId.name = some r.table)
      (hptr : config.configAddr.isSome) : r.Makes (.write (some (utoa rid)) (some config) r.receiptCb)
  | monitor (t : OvsTable) : r.Makes (.monitor t (some r.monCb) none)
  | delete (t : OvsTable) (key value : CString) : r.Makes (.delete t (some key) (some value))

/-- A row of a named table can be encoded, and the server reads it as an
insertion into that table. -/
theorem insert_encodes {config : RdkbTableConfig} {table : CString}
    (hname : config.tableId.name = some table) (hptr : config.configAddr.isSome) (rid : Nat) :
    ∃ row, ovsdbInsertToJson config (utoa rid) = some (transactInsert table row (utoa rid)) ∧
      readRequest (transactInsert table row (utoa rid)) = some (utoa rid, .insert table (.object row)) := by
  have hgw : utf8Valid gatewayConfigTableName = true := by decide
  have hfb : utf8Valid feedbackTableName = true := by decide
  cases config with
  | gwConfig config =>
      cases hname
      cases config with
      | none => cases hptr
      | some config => exact ⟨gcRow config.val, rfl, readRequest_insert hgw (utf8Valid_utoa rid)⟩
  | feedback config =>
      cases hname
      cases config with
      | none => cases hptr
      | some config => exact ⟨fbRow config.val, rfl, readRequest_insert hfb (utf8Valid_utoa rid)⟩
  | notify _ => cases hname
  | logbook _ => cases hname

section Role

variable {r : Role} {call : DbCall} {p : Prepared}

/-- Nothing is cancelled. -/
theorem Role.Makes.noCancel (h : r.Makes call) : call.NoCancel := by
  intro p hp
  cases h with
  | insert rid hname hptr => obtain ⟨js, _, rfl⟩ := prepares_write hp; rfl
  | monitor t => obtain ⟨_, _, js, _, _, rfl⟩ := prepares_monitor hp; rfl
  | delete t key value => obtain ⟨_, js, _, rfl⟩ := prepares_delete hp; rfl

/-- A receipt node has the role's callback, or the one that does nothing. -/
theorem Role.Makes.receiptCb (h : r.Makes call) (hp : call.Prepares p) :
    p.receiptCb = some .dummyReceiptCb ∨ p.receiptCb = some (r.receiptCb.getD .dummyReceiptCb) := by
  cases h with
  | insert rid hname hptr => obtain ⟨js, _, rfl⟩ := prepares_write hp; exact Or.inr rfl
  | monitor t => obtain ⟨_, _, js, _, _, rfl⟩ := prepares_monitor hp; exact Or.inl rfl
  | delete t key value => obtain ⟨_, js, _, rfl⟩ := prepares_delete hp; exact Or.inl rfl

/-- A monitor node has the role's callback. -/
theorem Role.Makes.monCb (h : r.Makes call) (hp : call.Prepares p) {uniqueId : CString}
    {cb : OvsInteractCb} (hmon : p.mon = some (uniqueId, cb)) :
    uniqueId.length ≤ maxUuidLen ∧ cb = r.monCb := by
  cases h with
  | insert rid hname hptr => obtain ⟨js, _, rfl⟩ := prepares_write hp; cases hmon
  | monitor t =>
      obtain ⟨uniqueId, _, js, hlt, _, rfl⟩ := prepares_monitor hp
      cases hmon
      exact ⟨Nat.le_trans (CString.utoa_length_le hlt) (by decide), rfl⟩
  | delete t key value => obtain ⟨_, js, _, rfl⟩ := prepares_delete hp; cases hmon

/-- What the server reads out of a request: an insertion into the role's
table, a monitor whose node the request function adds, or a delete. -/
theorem Role.Makes.read (h : r.Makes call) (hp : call.Prepares p) {rid : CString} {req : Request}
    (hread : readRequest p.strJson = some (rid, req)) :
    (∃ row, req = .insert r.table row) ∨
    (∃ monId t cb, req = .monitor monId t ∧ p.mon = some (monId, cb))
      ∨ ∃ t clause, req = .delete t clause := by
  cases h with
  | insert n hname hptr =>
      obtain ⟨js, hjs, rfl⟩ := prepares_write hp
      obtain ⟨row, henc, hr⟩ := insert_encodes hname hptr n
      rw [henc] at hjs
      cases hjs
      rw [hr] at hread
      cases hread
      exact Or.inl ⟨_, rfl⟩
  | monitor t =>
      obtain ⟨_, _, js, _, hjs, rfl⟩ := prepares_monitor hp
      obtain ⟨table, _, hr⟩ := readRequest_monitor hjs
      rw [hr] at hread
      cases hread
      exact Or.inr (Or.inl ⟨_, _, _, rfl, rfl⟩)
  | delete t key value =>
      obtain ⟨_, js, hjs, rfl⟩ := prepares_delete hp
      obtain ⟨table, clause, hr⟩ := readRequest_delete hjs
      rw [hr] at hread
      cases hread
      exact Or.inr (Or.inr ⟨_, _, rfl⟩)

/-- What holds of the OVSDB layer of a process of this role. -/
structure Role.Layer (r : Role) (db : OvsDbApi) : Prop where
  receiptRid : ∀ node ∈ db.receipts, node.rid.length ≤ maxUuidLen
  receiptCb : ∀ node ∈ db.receipts,
    node.callback = some .dummyReceiptCb ∨ node.callback = some (r.receiptCb.getD .dummyReceiptCb)
  monCb : ∀ node ∈ db.monitors, node.callback = some r.monCb
  /-- The process inserts into the role's table only. -/
  inserts : ∀ x ∈ db.sent, ∀ rid t row, readRequest x.request = some (rid, .insert t row) →
    t = r.table
  /-- A monitor request on the wire has its node in the list. -/
  monitored : ∀ x ∈ db.sent, ∀ rid monId t, readRequest x.request = some (rid, .monitor monId t) →
    ∃ node ∈ db.monitors, node.matches monId = true

variable {db db' : OvsDbApi}

/-- A fresh layer. -/
theorem Role.Layer.start (r : Role) (id : Nat) : r.Layer (.start id) :=
  ⟨fun _ h => (by cases h), fun _ h => (by cases h), fun _ h => (by cases h), fun _ h => (by cases h),
    fun _ h => (by cases h)⟩

/-- The step lemma of the layer: an access of a request of the role. -/
theorem Role.Layer.access (h : r.Layer db) (hm : r.Makes call) (ha : DbAccess call db db') :
    r.Layer db' := by
  constructor
  · intro node hnode
    rcases ha.mem_receipts hnode with hnode | ⟨p, _, rfl⟩
    · exact h.receiptRid node hnode
    · exact CString.strncpy_length_le _ _
  · intro node hnode
    rcases ha.mem_receipts hnode with hnode | ⟨p, hp, rfl⟩
    · exact h.receiptCb node hnode
    · exact hm.receiptCb hp
  · intro node hnode
    rcases ha.mem_monitors hnode with hnode | ⟨p, u, cb, hp, hmon, rfl⟩
    · exact h.monCb node hnode
    · exact congrArg some (hm.monCb hp hmon).2
  · intro x hx rid t row hread
    rcases ha.mem_sent hx with hx | ⟨p, hp, _, rfl⟩
    · exact h.inserts x hx rid t row hread
    · rcases hm.read hp hread with ⟨_, hreq⟩ | ⟨_, _, _, hreq, _⟩ | ⟨_, _, hreq⟩
      · cases hreq; rfl
      · cases hreq
      · cases hreq
  · intro x hx rid monId t hread
    rcases ha.mem_sent hx with hx | ⟨p, hp, hmon, rfl⟩
    · -- a request that was there keeps its monitor node
      obtain ⟨node, hnode, hmatch⟩ := h.monitored x hx rid monId t hread
      exact ⟨node, ha.monitors_subset hnode, hmatch⟩
    · rcases hm.read hp hread with ⟨_, hreq⟩ | ⟨_, _, cb, hreq, hp'⟩ | ⟨_, _, hreq⟩
      · cases hreq
      · cases hreq
        refine ⟨_, hmon monId cb hp', ?_⟩
        unfold MonNode.matches
        rw [CString.strncpy_of_length_le (hm.monCb hp hp').1]
        exact CString.strncmpEq_self _ _
      · cases hreq

/-- A receipt may go. -/
theorem Role.Layer.eraseReceipt (h : r.Layer db) (i : Nat) :
    r.Layer { db with receipts := db.receipts.eraseIdx i } :=
  ⟨fun node hnode => h.receiptRid node (List.eraseIdx_subset hnode),
    fun node hnode => h.receiptCb node (List.eraseIdx_subset hnode), h.monCb, h.inserts, h.monitored⟩

end Role

/-! ## §3. Calls that go well. -/

/-- The write a call makes. -/
def Call.writeCall (c : Call) : DbCall :=
  .write (some (utoa c.rid)) (some c.request.tableConfig)
    (if c.registers then some .ovsAgentApiWriteCallback else none)

/-- Where a call that does not block and has not failed can stand. -/
def Call.Stands (c : Call) : CallPc → Prop
  | .idGenerate => True
  | .setBlocked => c.registers = true
  | .insertTransaction => c.registers = true
  | .ovsdbWrite (.receiptListAdd p) => c.writeCall.Prepares p
  | .ovsdbWrite (.socketWrite p) => c.writeCall.Prepares p
  | .returned rtn => rtn = true
  | _ => False

/-- A call of the role that does not block and has not failed. -/
structure Call.Plain (r : Role) (c : Call) : Prop where
  blocking : c.blocking = false
  name : c.request.tableConfig.tableId.name = some r.table
  ptr : c.request.tableConfig.configAddr.isSome
  receiptCb : (if c.registers then some .ovsAgentApiWriteCallback else none) = r.receiptCb
  rid : c.rid < 2 ^ 32
  place : c.Stands c.pc

section Plain

variable {r : Role} {c : Call} {p : Prepared}

/-- Its write is one of the requests of the role. -/
theorem Call.Plain.makes (h : c.Plain r) : r.Makes c.writeCall := by
  unfold Call.writeCall
  rw [h.receiptCb]
  exact .insert c.rid h.name h.ptr

/-- The request of a call that goes well. -/
theorem Call.Plain.prepares (h : c.Plain r) (hp : c.writeCall.Prepares p) :
    p.rid = utoa c.rid ∧ p.receiptType = .insert ∧
      ∃ js, ovsdbInsertToJson c.request.tableConfig (utoa c.rid) = some js ∧ p.strJson = js ∧
        p.receiptCb = some (r.receiptCb.getD .dummyReceiptCb) := by
  obtain ⟨js, hjs, rfl⟩ := prepares_write hp
  exact ⟨rfl, rfl, js, hjs, rfl, by rw [← h.receiptCb]⟩

/-- The write gets as far as its receipt node. -/
theorem Call.Plain.write_eq (h : c.Plain r) {cb : Option OvsdbReceiptCb}
    (hcb : cb = if c.registers then some .ovsAgentApiWriteCallback else none) :
    ∃ p, c.writeCall.Prepares p ∧ c.write cb = c.goto (.ovsdbWrite (.receiptListAdd p)) := by
  obtain ⟨row, henc, _⟩ := insert_encodes h.name h.ptr c.rid
  obtain ⟨p, hprep⟩ : ∃ p, c.writeCall.prepare [] = some p := by
    simp only [Call.writeCall, DbCall.prepare, henc, Option.map_some]
    exact ⟨_, rfl⟩
  refine ⟨p, ⟨[], fun _ h => (by cases h), hprep⟩, ?_⟩
  subst hcb
  show c.afterWrite c.writeCall.start = _
  unfold DbCall.start DbCall.ready
  rw [if_neg (by simp [Call.writeCall, DbCall.draws]), hprep]
  rfl

/-- What the next access of a call that goes well does. -/
inductive PlainStep (s : Component) (n : Nat) (c : Call) : Component → Prop where
  | idGenerate (hpc : c.pc = .idGenerate) {c' : Call} (hc' : c' = { c with rid := (idGenerate s.db).1 })
      (hreg : c.registers = true) :
      PlainStep s n c ({ s with db := (idGenerate s.db).2 }.setCall n (c'.goto .setBlocked))
  | idGenerateWrite (hpc : c.pc = .idGenerate) {c' : Call}
      (hc' : c' = { c with rid := (idGenerate s.db).1 }) {p : Prepared} (hp : c'.writeCall.Prepares p) :
      PlainStep s n c ({ s with db := (idGenerate s.db).2 }.setCall n
        (c'.goto (.ovsdbWrite (.receiptListAdd p))))
  | setBlocked (hpc : c.pc = .setBlocked) (hreg : c.registers = true) :
      PlainStep s n c ({ s with blocked := false }.setCall n (c.goto .insertTransaction))
  | insert (hpc : c.pc = .insertTransaction) {p : Prepared} (hp : c.writeCall.Prepares p) {c' : Call}
      (hc' : c' = { c with entry := some s.manager.mallocs }) :
      PlainStep s n c ({ s with manager := (insertTransaction true (some (utoa c.rid)) c.callback
        (some c.request.tableConfig) s.manager).2 }.setCall n (c'.goto (.ovsdbWrite (.receiptListAdd p))))
  | receiptListAdd {p : Prepared} (hpc : c.pc = .ovsdbWrite (.receiptListAdd p))
      (hp : c.writeCall.Prepares p) :
      PlainStep s n c ({ s with db := { s.db with receipts := s.db.receipts ++ [p.node] } }.setCall n
        (c.goto (.ovsdbWrite (.socketWrite p))))
  | socketWrite {p : Prepared} (hpc : c.pc = .ovsdbWrite (.socketWrite p)) (hp : c.writeCall.Prepares p) :
      PlainStep s n c
        ({ s with db := { s.db with sent := s.db.sent ++ [Sent.mk p.strJson .whole] } }.setCall n c.sentOff)

/-- The id it draws is an `unsigned int`. -/
theorem Call.Plain.drawn (h : c.Plain r) (db : OvsDbApi) (hpc : c.pc = .idGenerate) :
    Call.Plain r { c with rid := (OvsAgent.idGenerate db).1 } where
  blocking := h.blocking
  name := h.name
  ptr := h.ptr
  receiptCb := h.receiptCb
  rid := Nat.mod_lt _ (by decide)
  place := by
    show Call.Stands _ c.pc
    rw [hpc]
    trivial

/-- It may go to any place where such calls stand. -/
theorem Call.Plain.goto (h : c.Plain r) {pc : CallPc} (hplace : c.Stands pc) : (c.goto pc).Plain r :=
  ⟨h.blocking, h.name, h.ptr, h.receiptCb, h.rid, hplace⟩

/-- Its entry does not matter. -/
theorem Call.Plain.withEntry (h : c.Plain r) (entry : Option Nat) : Call.Plain r { c with entry := entry } :=
  ⟨h.blocking, h.name, h.ptr, h.receiptCb, h.rid, h.place⟩

/-- The inversion lemma of a call that goes well. -/
theorem plainStep_cases {s s' : Component} {n : Nat} (hplain : ∀ c ∈ s.calls, c.Plain r)
    (h : callStep s n true .ok = some s') :
    ∃ c, s.calls[n]? = some c ∧ c.Plain r ∧ PlainStep s n c s' := by
  obtain ⟨c, hc, hcs⟩ := callStep_cases h
  have hpl := hplain c (List.mem_of_getElem? hc)
  have hplace := hpl.place
  refine ⟨c, hc, hpl, ?_⟩
  cases hcs with
  | @idGenerate hpc c' hc' =>
      have hdrawn : c'.Plain r := hc' ▸ hpl.drawn s.db hpc
      by_cases hreg : c'.registers = true
      · rw [if_pos hreg]
        exact .idGenerate hpc hc' (by rw [hc'] at hreg; exact hreg)
      · rw [if_neg hreg]
        obtain ⟨p, hp, hw⟩ := @Call.Plain.write_eq _ _ hdrawn none (if_neg hreg).symm
        rw [hw]
        exact .idGenerateWrite hpc hc' hp
  | setBlocked hpc =>
      rw [hpl.blocking]
      rw [hpc] at hplace
      exact .setBlocked hpc hplace
  | insertFails _ hm => cases hm
  | @insert hpc _ c' hc' =>
      rw [hpc] at hplace
      have hpl' : c'.Plain r := hc' ▸ hpl.withEntry _
      obtain ⟨p, hp, hw⟩ := @Call.Plain.write_eq _ _ hpl' (some .ovsAgentApiWriteCallback)
        (by subst hc'; exact (if_pos hplace).symm)
      rw [hw]
      exact .insert hpc (by subst hc'; exact hp) hc'
  | @ovsdbWrite pc hpc =>
      rw [hpc] at hplace
      match pc, hplace with
      | .receiptListAdd p, hplace =>
          have hmon : p.mon = none := by obtain ⟨js, _, rfl⟩ := prepares_write hplace; rfl
          rw [dbStep_receiptListAdd s.db hmon]
          exact .receiptListAdd hpc hplace
      | .socketWrite p, hplace =>
          have hcancel : p.cancel = none := by obtain ⟨js, _, rfl⟩ := prepares_write hplace; rfl
          rw [dbStep_socketWrite s.db hcancel]
          exact .socketWrite hpc hplace
  | clearBlocked hpc => rw [hpc] at hplace; exact hplace.elim
  | mutexLock hpc _ => rw [hpc] at hplace; exact hplace.elim
  | loopWait hpc _ => rw [hpc] at hplace; exact hplace.elim
  | loopExit hpc _ => rw [hpc] at hplace; exact hplace.elim
  | relock hpc _ => rw [hpc] at hplace; exact hplace.elim
  | signalled hpc => rw [hpc] at hplace; exact hplace.elim
  | waitFailed hpc _ => rw [hpc] at hplace; exact hplace.elim
  | unlockSuccess hpc => rw [hpc] at hplace; exact hplace.elim
  | unlock hpc _ => rw [hpc] at hplace; exact hplace.elim
  | deleteTransaction hpc => rw [hpc] at hplace; exact hplace.elim

/-- What a step of a call leaves alone, and what it does to the layer. -/
structure PlainFrame (r : Role) (s : Component) (n : Nat) (c c' : Call) (s' : Component) : Prop where
  calls : s'.calls = s.calls.set n c'
  plain : c'.Plain r
  request : c'.request = c.request
  listener : s'.listener = s.listener
  monitorCalls : s'.monitorCalls = s.monitorCalls
  db : DbAccess c.writeCall s.db s'.db

/-- What its step leaves alone. -/
theorem PlainStep.frame {s s' : Component} {n : Nat} (h : PlainStep s n c s') (hpl : c.Plain r) :
    ∃ c', PlainFrame r s n c c' s' := by
  have hsame : ∀ id, DbAccess c.writeCall s.db { s.db with id := id } :=
    fun _ => ⟨Or.inl rfl, Or.inl rfl, Or.inl rfl⟩
  cases h with
  | @idGenerate hpc c' hc' hreg =>
      have hdrawn : c'.Plain r := hc' ▸ hpl.drawn s.db hpc
      have hreg' : c'.registers = true := by rw [hc']; exact hreg
      exact ⟨_, rfl, hdrawn.goto hreg', by rw [hc']; rfl, rfl, rfl, hsame _⟩
  | @idGenerateWrite hpc c' hc' p hp =>
      have hdrawn : c'.Plain r := hc' ▸ hpl.drawn s.db hpc
      exact ⟨_, rfl, hdrawn.goto hp, by rw [hc']; rfl, rfl, rfl, hsame _⟩
  | setBlocked hpc hreg => exact ⟨_, rfl, hpl.goto hreg, rfl, rfl, rfl, hsame _⟩
  | @insert hpc p hp c' hc' =>
      subst hc'
      exact ⟨_, rfl, (hpl.withEntry _).goto hp, rfl, rfl, rfl, hsame _⟩
  | @receiptListAdd p hpc hp =>
      exact ⟨_, rfl, hpl.goto hp, rfl, rfl, rfl, Or.inr ⟨p, hp, rfl⟩, Or.inl rfl, Or.inl rfl⟩
  | @socketWrite p hpc hp =>
      have hmon : p.mon = none := by obtain ⟨js, _, rfl⟩ := prepares_write hp; rfl
      have hmonitored : p.Monitored s.db.monitors := by
        intro u cb h
        rw [hmon] at h
        cases h
      -- the call does not block, so it returns
      have hplace : c.sentOff.pc = .returned true := if_neg (by rw [hpl.blocking]; decide)
      refine ⟨_, rfl, ⟨hpl.blocking, hpl.name, hpl.ptr, hpl.receiptCb, hpl.rid, ?_⟩,
        rfl, rfl, rfl, Or.inl rfl, Or.inl rfl, Or.inr ⟨p, hp, hmonitored, rfl⟩⟩
      rw [hplace]
      rfl

end Plain

/-! ## §4. The listener of the component. -/

namespace ListenerPc

/-- The request the listener is making, and its next access. -/
def access : ListenerPc → Option (DbCall × DbPc)
  | ovsdbMonitor _ pc => some (monitorFeedbackCall, pc)
  | deleteGwConfig _ uuid pc => some (deleteGwConfigCall uuid, pc)
  | deleteFeedback _ uuid pc => some (deleteFeedbackCall uuid, pc)
  | _ => none

/-- The receipt node whose receipt was handed on and which waits to be unlinked. -/
def spent : ListenerPc → Option Nat
  | monitorTest i => some i
  | ovsdbMonitor i _ => some i
  | setMonitorFeedback i _ => some i
  | unlink i => some i
  | _ => none

/-- The uuid that is recorded next, with its receipt node and request id. -/
def recording : ListenerPc → Option (Nat × CString × CString)
  | updateTransaction i rid uuid => some (i, rid, uuid)
  | _ => none

/-- The listener's own requests are of the component's role. -/
theorem access_makes {l : ListenerPc} {call : DbCall} {pc : DbPc} (h : l.access = some (call, pc)) :
    componentRole.Makes call := by
  cases l with
  | ovsdbMonitor i pc' => cases h; exact .monitor ..
  | deleteGwConfig addr uuid pc' => cases h; exact .delete ..
  | deleteFeedback addr uuid pc' => cases h; exact .delete ..
  | _ => cases h

/-- `l'` comes after an access that left the request `call` at `pc`. -/
structure After (call : DbCall) (pc : DbPc) (spent : Option Nat) (l' : ListenerPc) : Prop where
  spent : l'.spent = spent
  recording : l'.recording = none
  access : ∀ call' pc', l'.access = some (call', pc') → (call' = call ∧ pc' = pc) ∨ pc' = call'.start

/-- Behind an access of the monitor request. -/
theorem After.afterMonitor (i : Nat) (pc : DbPc) :
    After monitorFeedbackCall pc (some i) (.afterMonitor i pc) := by
  cases pc with
  | returned status => exact ⟨rfl, rfl, fun _ _ h => (by cases h)⟩
  | _ => exact ⟨rfl, rfl, fun _ _ h => by cases h; exact Or.inl ⟨rfl, rfl⟩⟩

/-- Behind an access of the first delete, whose success starts the second. -/
theorem After.afterDeleteGwConfig (addr : Nat) (uuid : CString) (pc : DbPc) :
    After (deleteGwConfigCall uuid) pc none (.afterDeleteGwConfig addr uuid pc) := by
  cases pc with
  | returned status =>
      cases status with
      | success => exact ⟨rfl, rfl, fun _ _ h => by cases h; exact Or.inr rfl⟩
      | _ => exact ⟨rfl, rfl, fun _ _ h => (by cases h)⟩
  | _ => exact ⟨rfl, rfl, fun _ _ h => by cases h; exact Or.inl ⟨rfl, rfl⟩⟩

/-- Behind an access of the second delete. -/
theorem After.afterDeleteFeedback (addr : Nat) (uuid : CString) (pc : DbPc) :
    After (deleteFeedbackCall uuid) pc none (.afterDeleteFeedback addr uuid pc) := by
  cases pc with
  | returned status =>
      cases status with
      | success => exact ⟨rfl, rfl, fun _ _ h => (by cases h)⟩
      | _ => exact ⟨rfl, rfl, fun _ _ h => (by cases h)⟩
  | _ => exact ⟨rfl, rfl, fun _ _ h => by cases h; exact Or.inl ⟨rfl, rfl⟩⟩

end ListenerPc

open ListenerPc (After)

/-- What the next access of the component's listener does. -/
inductive ListenerAccess (s : Component) : Component → Prop where
  | records {i : Nat} {rid uuid : CString} {l' : ListenerPc}
      (hl : s.listener = .updateTransaction i rid uuid) (hs : l'.spent = some i)
      (hr : l'.recording = none) (ha : l'.access = none) :
      ListenerAccess s { s with
        manager := (updateTransaction (some rid) (some uuid) s.manager).2, listener := l' }
  /-- The listener goes on, perhaps to the first access of a request. -/
  | moves {b : Bool} {l' : ListenerPc} (hr : s.listener.recording = none) (hs : l'.spent = s.listener.spent)
      (hr' : l'.recording = none) (ha : ∀ call pc, l'.access = some (call, pc) → pc = call.start) :
      ListenerAccess s { s with monitorFeedback := b, listener := l' }
  | accesses {call : DbCall} {pc : DbPc} {l' : ListenerPc} (hl : s.listener.access = some (call, pc))
      (hl' : After call (dbStep .ok pc s.db).1 s.listener.spent l') :
      ListenerAccess s { s with db := (dbStep .ok pc s.db).2, listener := l' }
  | unlinks {i : Nat} (hl : s.listener = .unlink i) :
      ListenerAccess s { s with
        db := { s.db with receipts := s.db.receipts.eraseIdx i }, listener := .idle }
  | destroys {e : TransactionEntry} {uuid : CString} (hl : s.listener = .callback e uuid) :
      ListenerAccess s { s with
        manager := destroyTransaction e s.manager
        listener := .afterDeleteGwConfig e.addr uuid (deleteGwConfigCall uuid).start }
  /-- `signal_callback_completion`: nothing but the flag, the mutex and history. -/
  | signals {a : Nat} {b : Bool} {m : Option Owner} {cs : List Call} {l' : ListenerPc}
      (hr : s.listener.recording = none) (hs : s.listener.spent = none)
      (hcs : cs = s.calls ∨ cs = s.calls.map (Call.feed a)) (hs' : l'.spent = none)
      (hr' : l'.recording = none) (ha : l'.access = none) :
      ListenerAccess s { s with blocked := b, mutex := m, calls := cs, listener := l' }
  /-- A waiting thread is woken. -/
  | wakes {n : Nat} {c : Call} {s' : Component} (hc : s.calls[n]? = some c) (hw : c.waiting = true) :
      ListenerAccess s s'

section ListenerAccess

variable {s s' : Component} {l l' : ListenerPc}

/-- `moves`, from the place where the listener stands. -/
theorem ListenerAccess.moves_from {b : Bool} (hl : s.listener = l) (hr : l.recording = none)
    (hs : l'.spent = l.spent) (hr' : l'.recording = none)
    (ha : ∀ call pc, l'.access = some (call, pc) → pc = call.start) :
    ListenerAccess s { s with monitorFeedback := b, listener := l' } := by
  subst hl
  exact .moves hr hs hr' ha

/-- `accesses`, from the place where the listener stands. -/
theorem ListenerAccess.accesses_from {call : DbCall} {pc : DbPc} (hl : s.listener = l)
    (ha : l.access = some (call, pc)) (hl' : After call (dbStep .ok pc s.db).1 l.spent l') :
    ListenerAccess s { s with db := (dbStep .ok pc s.db).2, listener := l' } := by
  subst hl
  exact .accesses ha hl'

/-- `signals`, from the place where the listener stands. -/
theorem ListenerAccess.signals_from (a : Nat) {b : Bool} {m : Option Owner} {cs : List Call}
    (hl : s.listener = l) (hr : l.recording = none) (hs : l.spent = none)
    (hcs : cs = s.calls ∨ cs = s.calls.map (Call.feed a)) (hs' : l'.spent = none)
    (hr' : l'.recording = none) (ha : l'.access = none) :
    ListenerAccess s { s with blocked := b, mutex := m, calls := cs, listener := l' } := by
  subst hl
  exact .signals hr hs hcs hs' hr' ha

/-- The inversion lemma of the component's listener. -/
theorem listenerAccess_cases {waiter : Option Nat}
    (h : listenerStep s .ok waiter = some s') : ListenerAccess s s' := by
  unfold listenerStep at h
  cases hl : s.listener with
  | idle => simp only [hl] at h; cases h
  | updateTransaction i rid uuid =>
      simp only [hl] at h
      obtain ⟨ok, hok⟩ := updateTransaction_eq_pair (some rid) (some uuid) s.manager
      rw [hok] at h
      cases ok with
      | true => cases h; exact .records hl rfl rfl rfl
      | false => cases h; exact .records hl rfl rfl rfl
  | monitorTest i =>
      simp only [hl] at h
      split at h
      · cases h
        exact .moves_from hl rfl rfl rfl fun _ _ h => (by cases h)
      · cases h
        have hafter := After.afterMonitor i monitorFeedbackCall.start
        refine .moves_from hl rfl hafter.spent hafter.recording fun call pc ha => ?_
        rcases hafter.access call pc ha with ⟨rfl, rfl⟩ | hstart
        · rfl
        · exact hstart
  | ovsdbMonitor i pc =>
      simp only [hl] at h
      cases h
      exact .accesses_from hl rfl (.afterMonitor i _)
  | setMonitorFeedback i value =>
      simp only [hl] at h
      cases h
      exact .moves_from hl rfl rfl rfl fun _ _ h => (by cases h)
  | unlink i => simp only [hl] at h; cases h; exact .unlinks hl
  | callback e uuid => simp only [hl] at h; cases h; exact .destroys hl
  | deleteGwConfig a uuid pc =>
      simp only [hl] at h
      cases h
      exact .accesses_from hl rfl (.afterDeleteGwConfig a uuid _)
  | deleteFeedback a uuid pc =>
      simp only [hl] at h
      cases h
      exact .accesses_from hl rfl (.afterDeleteFeedback a uuid _)
  | signalTest a =>
      simp only [hl] at h
      split at h
      · cases h
        exact .signals_from a hl rfl rfl (Or.inl rfl) rfl rfl rfl
      · cases h
        exact .signals_from a hl rfl rfl (Or.inr rfl) rfl rfl rfl
  | signalLock a =>
      simp only [hl] at h
      split at h
      · cases h
        exact .signals_from a hl rfl rfl (Or.inl rfl) rfl rfl rfl
      · cases h
  | signalClear a =>
      simp only [hl] at h
      cases h
      exact .signals_from a hl rfl rfl (Or.inl rfl) rfl rfl rfl
  | condSignal a =>
      simp only [hl, condSignal] at h
      split at h
      · split at h
        · cases h
        · cases h
          exact .signals_from a hl rfl rfl (Or.inl rfl) rfl rfl rfl
      · split at h
        · cases h
        · next c hc =>
            split at h
            · next hw => exact .wakes hc hw
            · cases h
  | signalUnlock a =>
      simp only [hl] at h
      cases h
      exact .signals_from a hl rfl rfl (Or.inr rfl) rfl rfl rfl

end ListenerAccess

/-! ## §5. Messages. -/

/-- A reply finds no receipt it can be handed to, or is handed to the callback
of the first node with its id. -/
theorem receiptStep_access {s s' : Component} {rid : CString} {result : Option Json}
    (h : receiptStep s rid result = some s') :
    s.listener = .idle ∧ (s' = s ∨ ∃ i node cb receipt, s.db.receipts[i]? = some node ∧
      strncmpEq (maxUuidLen + 1) rid node.rid = true ∧ node.callback = some cb ∧
      ovsdbParseResult node.receiptType result = .ok (some receipt) ∧
      s' = { s with listener := .receiptCallback i rid cb receipt }) := by
  unfold receiptStep at h
  split at h
  · next hl _ =>
      refine ⟨hl, ?_⟩
      split at h
      · cases h; exact Or.inl rfl
      · next i hfind =>
          obtain ⟨hlt, hmatch, _⟩ := List.findIdx?_eq_some_iff_getElem.1 hfind
          split at h
          · cases h; exact Or.inl rfl
          · next node hnode =>
              have hget : s.db.receipts[i] = node := by
                rw [List.getElem?_eq_getElem hlt] at hnode
                exact Option.some.inj hnode
              split at h
              · next receipt cb hparse hcb =>
                  cases h
                  exact Or.inr ⟨i, node, cb, receipt, hnode, hget ▸ hmatch, hcb, hparse, rfl⟩
              · cases h; exact Or.inl rfl
              · cases h
  · cases h

/-- A row of an update is given to `monitorFeedbackCallback`, or nothing happens. -/
theorem updateStep_access {s s' : Component} {monId table : CString} {columns : Json}
    (h : updateStep s monId table columns = some s') :
    s.listener = .idle ∧ (s' = s ∨ ∃ tableConfig node, node ∈ s.db.monitors ∧
      node.callback = some .ovsAgentApiMonitorFeedbackCallback ∧
      s' = monitorFeedbackCallback tableConfig s) := by
  unfold updateStep at h
  split at h
  · next hl =>
      refine ⟨hl, ?_⟩
      split at h
      · next tc node _ hfind =>
          split at h
          · next hcb =>
              cases h
              exact Or.inr ⟨tc, node, List.mem_of_find?_eq_some hfind, hcb, rfl⟩
          · cases h; exact Or.inl rfl
          · cases h
      · cases h; exact Or.inl rfl
  · cases h

/-- What a Feedback row does to the component: nothing, or it takes one
transaction and the listener goes on for it. -/
theorem monitorFeedbackCallback_cases (tableConfig : RdkbTableConfig) (s : Component) :
    monitorFeedbackCallback tableConfig s = s ∨ ∃ uuid status e m l',
      takeTransaction (some uuid) status s.manager = some (e, m) ∧
        l'.spent = none ∧ l'.recording = none ∧
        (∀ call pc, l'.access = some (call, pc) → pc = call.start) ∧
        (monitorFeedbackCallback tableConfig s = { s with manager := m, listener := l' } ∨
          monitorFeedbackCallback tableConfig s
            = { s with manager := destroyTransaction e m, listener := l' }) := by
  unfold monitorFeedbackCallback
  split
  · split
    · exact Or.inl rfl
    · next feedback _ e m ht =>
        right
        cases e.callback with
        | none =>
            have hafter := After.afterDeleteGwConfig e.addr feedback.val.reqUuid
              (deleteGwConfigCall feedback.val.reqUuid).start
            refine ⟨_, _, e, m, _, ht, hafter.spent, hafter.recording, fun call pc ha => ?_, Or.inr rfl⟩
            rcases hafter.access call pc ha with ⟨rfl, rfl⟩ | hstart
            · rfl
            · exact hstart
        | some cb => exact ⟨_, _, e, m, _, ht, rfl, rfl, fun _ _ h => (by cases h), Or.inl rfl⟩
  · exact Or.inl rfl

/-- Only the receipt of an insert with the write callback records a uuid. -/
theorem receiptCallback_cases (i : Nat) (rid : CString) (cb : OvsdbReceiptCb) (receipt : OvsDbReceipt) :
    ((cb = .ovsAgentApiWriteCallback → ∀ error uuid, receipt ≠ .insert error uuid) ∧
        ListenerPc.receiptCallback i rid cb receipt = .unlink i) ∨
      ∃ error uuid, cb = .ovsAgentApiWriteCallback ∧ receipt = .insert error uuid ∧
        ListenerPc.receiptCallback i rid cb receipt = .updateTransaction i rid uuid := by
  unfold ListenerPc.receiptCallback
  split
  · exact Or.inr ⟨_, _, rfl, rfl, rfl⟩
  · next hnot => exact Or.inl ⟨fun hcb error uuid hins => hnot error uuid hcb hins, rfl⟩

/-- What a message does to a process that reads it: nothing, or the listener
goes on for a receipt or for a transaction. -/
inductive Heard (s : Component) (msg : ServerMsg) : Component → Prop where
  | ignored : Heard s msg s
  | unlinks {i : Nat} {rid : CString} {result : Json} {node : ReceiptNode} {cb : OvsdbReceiptCb}
      {receipt : OvsDbReceipt} (hmsg : msg = .reply rid result) (hnode : s.db.receipts[i]? = some node)
      (hcb : node.callback = some cb)
      (hparse : ovsdbParseResult node.receiptType (some result) = .ok (some receipt))
      (hnot : cb = .ovsAgentApiWriteCallback → ∀ error uuid, receipt ≠ .insert error uuid) :
      Heard s msg { s with listener := .unlink i }
  | records {i : Nat} {rid : CString} {result : Json} {node : ReceiptNode} {error uuid : CString}
      (hmsg : msg = .reply rid result) (hnode : s.db.receipts[i]? = some node)
      (hmatch : strncmpEq (maxUuidLen + 1) rid node.rid = true)
      (hcb : node.callback = some .ovsAgentApiWriteCallback)
      (hparse : ovsdbParseResult node.receiptType (some result) = .ok (some (.insert error uuid))) :
      Heard s msg { s with listener := .updateTransaction i rid uuid }
  | takes {node : MonNode} {uuid : CString} {status : Int} {e : TransactionEntry} {m m' : TransactionManager}
      {l' : ListenerPc} (hnode : node ∈ s.db.monitors)
      (hcb : node.callback = some .ovsAgentApiMonitorFeedbackCallback)
      (ht : takeTransaction (some uuid) status s.manager = some (e, m))
      (hm' : m' = m ∨ m' = destroyTransaction e m) (hs : l'.spent = none) (hr : l'.recording = none)
      (ha : ∀ call pc, l'.access = some (call, pc) → pc = call.start) :
      Heard s msg { s with manager := m', listener := l' }

/-- The inversion lemma of a message. -/
theorem hear_cases {s s' : Component} {msg : ServerMsg} (h : s.hear msg = some s') :
    s.listener = .idle ∧ Heard s msg s' := by
  cases msg with
  | reply rid result =>
      obtain ⟨hl, rfl | ⟨i, node, cb, receipt, hnode, hmatch, hcb, hparse, rfl⟩⟩ :=
        receiptStep_access h
      · exact ⟨hl, .ignored⟩
      · refine ⟨hl, ?_⟩
        rcases receiptCallback_cases i rid cb receipt with ⟨hnot, heq⟩ | ⟨error, uuid, rfl, rfl, heq⟩
        · rw [heq]; exact .unlinks rfl hnode hcb hparse hnot
        · rw [heq]; exact .records rfl hnode hmatch hcb hparse
  | update monId table rowUuid row =>
      cases row with
      | new columns =>
          obtain ⟨hl, rfl | ⟨tc, node, hnode, hcb, rfl⟩⟩ := updateStep_access h
          · exact ⟨hl, .ignored⟩
          · refine ⟨hl, ?_⟩
            rcases monitorFeedbackCallback_cases tc s with
                heq | ⟨_, _, e, m, l', ht, hs, hr, ha, heq | heq⟩
            · rw [heq]; exact .ignored
            · rw [heq]; exact .takes hnode hcb ht (Or.inl rfl) hs hr ha
            · rw [heq]; exact .takes hnode hcb ht (Or.inr rfl) hs hr ha
      | old columns =>
          simp only [Component.hear] at h
          split at h
          · next hl => cases h; exact ⟨hl, .ignored⟩
          · cases h

/-! ## §6. The component. -/

/-- What holds of the component in every run of the network. -/
structure ComponentShape (s : Component) : Prop where
  layer : componentRole.Layer s.db
  calls : ∀ c ∈ s.calls, c.Plain componentRole
  listener : ∀ call pc, s.listener.access = some (call, pc) → pc.Of call s.db

/-- A step of the component by itself. -/
inductive ComponentMove (s : Component) : Component → Prop where
  | interact {c : Call} (hpl : c.Plain componentRole) (hpc : c.pc = .idGenerate) :
      ComponentMove s { s with calls := s.calls ++ [c] }
  | call {n : Nat} {c : Call} {s' : Component} (hc : s.calls[n]? = some c) (hpl : c.Plain componentRole)
      (hfree : s.slotFree n = true) (hstep : PlainStep s n c s') : ComponentMove s s'
  | listener {s' : Component} (hl : ListenerAccess s s') : ComponentMove s s'

/-- A request that is allowed is one that goes well. -/
theorem plain_of_interact {request : OvsInteractRequest} {callback : Option OvsInteractCb} {s : Component}
    (h : componentAllowed s (.interact request callback) = true) :
    (Call.start request callback).Plain componentRole := by
  simp only [componentAllowed, Bool.and_eq_true, decide_eq_true_eq] at h
  obtain ⟨⟨hblock, hcb⟩, htc⟩ := h
  have hblocking : (Call.start request callback).blocking = false := by
    show decide (request.blockMode = .enable) = false
    rw [hblock]
    rfl
  have hreg : (Call.start request callback).registers = true := by
    show (callback.isSome || _) = true
    rw [hcb]
    rfl
  have hgw : request.tableConfig.tableId.name = some gatewayConfigTableName ∧
      request.tableConfig.configAddr.isSome := by
    cases hreq : request.tableConfig with
    | gwConfig config =>
        rw [hreq] at htc
        cases config with
        | none => cases htc
        | some config => exact ⟨rfl, rfl⟩
    | _ => rw [hreq] at htc; cases htc
  exact ⟨hblocking, hgw.1, hgw.2, if_pos hreg, by show 0 < 2 ^ 32; decide, trivial⟩

/-- The inversion lemma of a step that is allowed to the component. -/
theorem componentMove_cases {s s' : Component} {i : ComponentStep} (h : ComponentShape s)
    (hallowed : componentAllowed s i = true) (hstep : componentStep s i = some s') :
    ComponentMove s s' := by
  cases i with
  | interact request callback => cases hstep; exact .interact (plain_of_interact hallowed) rfl
  | call n malloc o =>
      simp only [componentAllowed, Bool.and_eq_true, decide_eq_true_eq] at hallowed
      obtain ⟨⟨rfl, rfl⟩, hfree⟩ := hallowed
      obtain ⟨c, hc, hpl, hcs⟩ := plainStep_cases h.calls hstep
      exact .call hc hpl hfree hcs
  | listener o waiter =>
      simp only [componentAllowed, decide_eq_true_eq] at hallowed
      subst hallowed
      exact .listener (listenerAccess_cases hstep)
  | _ => cases hallowed

/-- It does not block. -/
theorem Call.Plain.not_waiting {r : Role} {c : Call} (h : c.Plain r) : c.waiting = false := by
  have hplace := h.place
  cases hpc : c.pc with
  | condWait => rw [hpc] at hplace; exact hplace.elim
  | _ => unfold Call.waiting; rw [hpc]

/-- A signal is nothing to it. -/
theorem Call.Plain.feed {r : Role} {c : Call} (h : c.Plain r) (a : Nat) : (c.feed a).Plain r :=
  ⟨h.blocking, h.name, h.ptr, h.receiptCb, h.rid, h.place⟩

/-- One call may go on. -/
theorem plain_set {r : Role} {calls : List Call} {n : Nat} {c' : Call} (h : ∀ c ∈ calls, c.Plain r)
    (h' : c'.Plain r) : ∀ c ∈ calls.set n c', c.Plain r := by
  intro c hc
  rcases List.mem_or_eq_of_mem_set hc with hc | rfl
  · exact h c hc
  · exact h'

/-- No step of the component takes it out of its shape. -/
theorem ComponentShape.move {s s' : Component} (h : ComponentShape s) (hm : ComponentMove s s') :
    ComponentShape s' := by
  cases hm with
  | interact hpl _ =>
      refine ⟨h.layer, fun c hc => ?_, h.listener⟩
      rcases List.mem_append.1 hc with hc | hc
      · exact h.calls c hc
      · rw [List.mem_singleton.1 hc]; exact hpl
  | call hc hpl _ hstep =>
      obtain ⟨c', hf⟩ := hstep.frame hpl
      refine ⟨h.layer.access hpl.makes hf.db, ?_, fun call pc ha => ?_⟩
      · rw [hf.calls]; exact plain_set h.calls hf.plain
      · rw [hf.listener] at ha
        exact (h.listener call pc ha).mono hf.db.monitors_subset
  | listener hl =>
      cases hl with
      | records _ _ _ ha => exact ⟨h.layer, h.calls, fun _ _ h => by rw [ha] at h; cases h⟩
      | moves _ _ _ ha =>
          exact ⟨h.layer, h.calls, fun call pc hpc => ha call pc hpc ▸ call.start_of _⟩
      | @accesses call pc l' hl hafter =>
          have hmk := ListenerPc.access_makes hl
          obtain ⟨hof, hacc⟩ := dbStep_access hmk.noCancel (h.listener call pc hl)
          refine ⟨h.layer.access hmk hacc, h.calls, fun call' pc' hpc => ?_⟩
          rcases hafter.access call' pc' hpc with ⟨rfl, rfl⟩ | rfl
          · exact hof
          · exact call'.start_of _
      | unlinks _ => exact ⟨h.layer.eraseReceipt _, h.calls, fun _ _ h => (by cases h)⟩
      | @destroys e uuid hl =>
          refine ⟨h.layer, h.calls, fun call pc hpc => ?_⟩
          have hafter := After.afterDeleteGwConfig e.addr uuid (deleteGwConfigCall uuid).start
          rcases hafter.access call pc hpc with ⟨rfl, rfl⟩ | rfl
          · exact DbCall.start_of _ _
          · exact call.start_of _
      | signals _ _ hcs _ _ ha =>
          refine ⟨h.layer, fun c hc => ?_, fun _ _ h => by rw [ha] at h; cases h⟩
          rcases hcs with rfl | rfl
          · exact h.calls c hc
          · obtain ⟨c₀, hc₀, rfl⟩ := List.mem_map.1 hc
            exact (h.calls c₀ hc₀).feed _
      | wakes hc hw =>
          rw [(h.calls _ (List.mem_of_getElem? hc)).not_waiting] at hw
          cases hw

/-- No message takes the component out of its shape. -/
theorem ComponentShape.hear {s s' : Component} {msg : ServerMsg} (h : ComponentShape s)
    (hstep : s.hear msg = some s') : ComponentShape s' := by
  obtain ⟨_, hheard⟩ := hear_cases hstep
  cases hheard with
  | ignored => exact h
  | unlinks => exact ⟨h.layer, h.calls, fun _ _ hpc => (by cases hpc)⟩
  | records => exact ⟨h.layer, h.calls, fun _ _ hpc => (by cases hpc)⟩
  | takes _ _ _ _ _ _ ha =>
      exact ⟨h.layer, h.calls, fun call pc hpc => ha call pc hpc ▸ call.start_of _⟩

/-! ## §7. The agent. -/

/-- What holds of the agent in every run of the network. -/
structure AgentShape (s : Component) : Prop where
  layer : agentRole.Layer s.db
  calls : ∀ c ∈ s.calls, c.Plain agentRole
  monitorCalls : ∀ pc ∈ s.monitorCalls, ∃ call, agentRole.Makes call ∧ pc.Of call s.db
  listener : s.listener = .idle ∨ ∃ i, s.listener = .unlink i

/-- A step of the agent by itself. -/
inductive AgentMove (s : Component) : Component → Prop where
  | interact {pc : DbPc} {call : DbCall} (hmk : agentRole.Makes call) (hpc : pc = call.start) :
      AgentMove s { s with monitorCalls := s.monitorCalls ++ [pc] }
  | monitors {n : Nat} {pc : DbPc} (hpc : s.monitorCalls[n]? = some pc) :
      AgentMove s { s with
        db := (dbStep .ok pc s.db).2, monitorCalls := s.monitorCalls.set n (dbStep .ok pc s.db).1 }
  | call {n : Nat} {c : Call} {s' : Component} (hc : s.calls[n]? = some c) (hpl : c.Plain agentRole)
      (hstep : PlainStep s n c s') : AgentMove s s'
  | unlinks (i : Nat) :
      AgentMove s { s with
        db := { s.db with receipts := s.db.receipts.eraseIdx i }, listener := .idle }

/-- The inversion lemma of a step that is allowed to the agent. -/
theorem agentMove_cases {s s' : Component} {i : ComponentStep} (h : AgentShape s)
    (hallowed : agentAllowed s i = true) (hstep : componentStep s i = some s') : AgentMove s s' := by
  cases i with
  | interactMonitor t cb =>
      simp only [agentAllowed, Bool.and_eq_true, decide_eq_true_eq] at hallowed
      obtain ⟨⟨rfl, rfl⟩, _⟩ := hallowed
      cases hstep
      exact .interact (.monitor .gwConfig) rfl
  | monitorCall n o =>
      simp only [agentAllowed, decide_eq_true_eq] at hallowed
      subst hallowed
      simp only [componentStep] at hstep
      split at hstep
      · cases hstep
      · next pc hpc => cases hstep; exact .monitors hpc
  | call n malloc o =>
      simp only [agentAllowed, Bool.and_eq_true, decide_eq_true_eq] at hallowed
      obtain ⟨rfl, rfl⟩ := hallowed
      obtain ⟨c, hc, hpl, hcs⟩ := plainStep_cases h.calls hstep
      exact .call hc hpl hcs
  | listener o waiter =>
      simp only [componentStep, listenerStep] at hstep
      rcases h.listener with hl | ⟨i, hl⟩
      · rw [hl] at hstep; cases hstep
      · rw [hl] at hstep
        cases hstep
        exact .unlinks i
  | _ => cases hallowed

/-- No step of the agent takes it out of its shape. -/
theorem AgentShape.move {s s' : Component} (h : AgentShape s) (hm : AgentMove s s') : AgentShape s' := by
  have hmono : ∀ db, s.db.monitors ⊆ db.monitors →
      ∀ pc ∈ s.monitorCalls, ∃ call, agentRole.Makes call ∧ pc.Of call db := by
    intro db hsub pc hpc
    obtain ⟨call, hmk, hof⟩ := h.monitorCalls pc hpc
    exact ⟨call, hmk, hof.mono hsub⟩
  cases hm with
  | @interact pc call hmk hpc =>
      refine ⟨h.layer, h.calls, fun pc' hpc' => ?_, h.listener⟩
      rcases List.mem_append.1 hpc' with hpc' | hpc'
      · exact h.monitorCalls pc' hpc'
      · rw [List.mem_singleton.1 hpc', hpc]
        exact ⟨call, hmk, call.start_of _⟩
  | @monitors n pc hpc =>
      obtain ⟨call, hmk, hof⟩ := h.monitorCalls pc (List.mem_of_getElem? hpc)
      obtain ⟨hof', hacc⟩ := dbStep_access hmk.noCancel hof
      refine ⟨h.layer.access hmk hacc, h.calls, fun pc' hpc' => ?_, h.listener⟩
      rcases List.mem_or_eq_of_mem_set hpc' with hpc' | rfl
      · exact hmono _ hacc.monitors_subset pc' hpc'
      · exact ⟨call, hmk, hof'⟩
  | call hc hpl hstep =>
      obtain ⟨c', hf⟩ := hstep.frame hpl
      refine ⟨h.layer.access hpl.makes hf.db, ?_, ?_, ?_⟩
      · rw [hf.calls]; exact plain_set h.calls hf.plain
      · rw [hf.monitorCalls]; exact hmono _ hf.db.monitors_subset
      · rw [hf.listener]; exact h.listener
  | unlinks i => exact ⟨h.layer.eraseReceipt i, h.calls, hmono _ (List.Subset.refl _), Or.inl rfl⟩

/-- No message takes the agent out of its shape. -/
theorem AgentShape.hear {s s' : Component} {msg : ServerMsg} (h : AgentShape s)
    (hstep : s.hear msg = some s') : AgentShape s' ∧ s'.calls = s.calls ∧ s'.db = s.db := by
  obtain ⟨_, hheard⟩ := hear_cases hstep
  cases hheard with
  | ignored => exact ⟨h, rfl, rfl⟩
  | @unlinks i => exact ⟨⟨h.layer, h.calls, h.monitorCalls, Or.inr ⟨i, rfl⟩⟩, rfl, rfl⟩
  | records _ hnode _ hcb _ =>
      -- the agent has no such callback
      rcases h.layer.receiptCb _ (List.mem_of_getElem? hnode) with hd | hd
      · rw [hd] at hcb; cases hcb
      · rw [hd] at hcb; cases hcb
  | takes hnode hcb =>
      rw [h.layer.monCb _ hnode] at hcb
      cases hcb

/-- A new request of the agent. -/
theorem AgentShape.acts {s : Component} {c : Call} (h : AgentShape s) (hc : c.Plain agentRole) :
    AgentShape { s with calls := s.calls ++ [c] } := by
  refine ⟨h.layer, fun d hd => ?_, h.monitorCalls, h.listener⟩
  rcases List.mem_append.1 hd with hd | hd
  · exact h.calls d hd
  · rw [List.mem_singleton.1 hd]; exact hc

/-- The Feedback request of `gwconf_mon_cb` is a call of the agent's kind. -/
theorem plain_gwconfMonCb (ret : Int) (tableConfig : OvsAgentTableConfig) :
    (Call.start (gwconfMonCb ret tableConfig) none).Plain agentRole :=
  ⟨rfl, rfl, rfl, rfl, by show 0 < 2 ^ 32; decide, trivial⟩

end OvsAgent
