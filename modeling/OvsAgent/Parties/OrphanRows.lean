/-
  OvsAgent.Parties.OrphanRows — whether the rows of a request are deleted.

  An insert leaves two rows in the database, the Gateway_Config row and the
  Feedback row of the agent, and the component that inserted the first deletes
  both after it has processed the Feedback.  The deletes come after
  `complete_transaction`, and the callback returns before them when no
  transaction with the row's uuid is in the table any more.

  Main results:
    * `carryOut_rowClause`, `carryOut_reqUuidClause` — a server that carries
      out the two requests is rid of both rows;
    * `no_orphan_rows_iff` — along every run, every acknowledged row whose
      Feedback was processed has both deletes sent exactly when every step
      meets the condition.
-/
import OvsAgent.AgentApi.FeedbackRows
import OvsAgent.Parties.OvsdbServer

namespace OvsAgent

open CString (ofString utoa strncpy)
open Json

/-! ## §1. The two delete requests. -/

/-- The row with this `_uuid`. -/
def rowClause (uuid : CString) : Json :=
  .array [.array [.string ovsdbTableUuidAlt, .string (ofString "=="),
    .array [.string ovsdbTableUuid, .string uuid]]]

/-- The rows with this `req_uuid`. -/
def reqUuidClause (uuid : CString) : Json :=
  .array [.array [.string feedbackReqUuid, .string (ofString "=="), .string uuid]]

/-- The socket took a whole request that the server reads as this deletion. -/
def DeleteSent (db : OvsDbApi) (table : CString) (clause : Json) : Prop :=
  ∃ x ∈ db.sent, x.result = .whole ∧ ∃ rid, readRequest x.request = some (rid, .delete table clause)

/-- Both deletes for the uuid of a row went out. -/
structure DeletesSent (db : OvsDbApi) (uuid : CString) : Prop where
  gwConfig : DeleteSent db gatewayConfigTableName (rowClause uuid)
  feedback : DeleteSent db feedbackTableName (reqUuidClause uuid)

section Sent

variable {db db' : OvsDbApi} {table uuid : CString} {clause : Json}

theorem DeleteSent.mono (h : DeleteSent db table clause) (hsub : db.sent ⊆ db'.sent) :
    DeleteSent db' table clause := by
  obtain ⟨x, hx, hread⟩ := h
  exact ⟨x, hsub hx, hread⟩

theorem DeletesSent.mono (h : DeletesSent db uuid) (hsub : db.sent ⊆ db'.sent) : DeletesSent db' uuid :=
  ⟨h.gwConfig.mono hsub, h.feedback.mono hsub⟩

end Sent

/-- The first delete says what it should, whatever id it draws. -/
theorem deleteGwConfig_encodes {uuid : CString} (hu : utf8Valid uuid = true) (n : Nat) :
    ∃ js, ovsdbDeleteToJson .gwConfig (utoa n) ovsdbTableUuid uuid = some js ∧
      readRequest js = some (utoa n, .delete gatewayConfigTableName (rowClause uuid)) := by
  unfold ovsdbDeleteToJson
  have hclause : whereJson ovsdbTableUuid uuid = some (rowClause uuid) := by
    unfold whereJson
    rw [if_pos (Or.inl rfl), jsonString_of_valid hu]
    rfl
  rw [jsonString_utoa, hclause]
  exact ⟨_, rfl, rfl⟩

/-- So does the second. -/
theorem deleteFeedback_encodes {uuid : CString} (hu : utf8Valid uuid = true) (n : Nat) :
    ∃ js, ovsdbDeleteToJson .feedback (utoa n) feedbackReqUuid uuid = some js ∧
      readRequest js = some (utoa n, .delete feedbackTableName (reqUuidClause uuid)) := by
  unfold ovsdbDeleteToJson
  have hkey : utf8Valid feedbackReqUuid = true := by decide
  have hclause : whereJson feedbackReqUuid uuid = some (reqUuidClause uuid) := by
    unfold whereJson
    rw [if_neg (by decide), jsonString_of_valid hu, jsonString_of_valid hkey]
    rfl
  rw [jsonString_utoa, hclause]
  exact ⟨_, rfl, rfl⟩

/-! ## §2. What the server makes of them. -/

/-- A delete leaves no row that its clause selects. -/
theorem carryOut_delete {sv sv' : OvsdbServer} {conn : Conn} {given rid table : CString} {msg clause : Json}
    (hread : readRequest msg = some (rid, .delete table clause)) (h : sv.carryOut conn given msg = some sv') :
    ∀ row ∈ sv'.rows, OvsdbServer.selects table clause row = false := by
  unfold OvsdbServer.carryOut at h
  rw [hread] at h
  cases h
  intro row hrow
  have hrow : row ∈ sv.rows.filter fun row => !OvsdbServer.selects table clause row := hrow
  simpa using (List.mem_filter.1 hrow).2

/-- The first request takes the row itself. -/
theorem carryOut_rowClause {sv sv' : OvsdbServer} {conn : Conn} {given rid uuid : CString} {msg : Json}
    (hread : readRequest msg = some (rid, .delete gatewayConfigTableName (rowClause uuid)))
    (h : sv.carryOut conn given msg = some sv') :
    ∀ row ∈ sv'.rows, row.table = gatewayConfigTableName → row.uuid ≠ uuid := by
  intro row hrow htable huuid
  have hnot := carryOut_delete hread h row hrow
  subst huuid
  simp [OvsdbServer.selects, rowClause, OvsdbServer.conditionHolds, htable] at hnot

/-- The second takes its Feedback. -/
theorem carryOut_reqUuidClause {sv sv' : OvsdbServer} {conn : Conn} {given rid uuid : CString} {msg : Json}
    (hread : readRequest msg = some (rid, .delete feedbackTableName (reqUuidClause uuid)))
    (h : sv.carryOut conn given msg = some sv') :
    ∀ row ∈ sv'.rows, row.table = feedbackTableName → reqUuidColumn row.columns ≠ some uuid := by
  intro row hrow htable hcol
  have hnot := carryOut_delete hread h row hrow
  have hcol : stringValue (objectGet (some row.columns) feedbackReqUuid) = some uuid := hcol
  simp [OvsdbServer.selects, reqUuidClause, OvsdbServer.conditionHolds, htable, hcol] at hnot

/-! ## §3. The process with its history. -/

/-- The listener waits for a message. -/
def ListenerPc.isIdle : ListenerPc → Bool
  | idle => true
  | _ => false

/-- A request with this id, for a Gateway_Config row and with somebody to be
told of it, went out. -/
def Component.inserted (s : Component) (rid : CString) : Bool :=
  s.calls.any fun c =>
    c.sent && c.registers && utoa c.rid == rid && c.request.tableConfig.tableId == .gwConfig

/-- The uuid of a row of this process's, by the receipt the label brings.  A
text that comes out of a message is valid UTF-8. -/
def ackedUuid (s : Component) : ComponentStep → Option CString
  | .receipt rid result =>
      match ovsdbParseResult .insert result with
      | .ok (some (.insert _ uuid)) => if s.inserted rid && utf8Valid uuid then some uuid else none
      | _ => none
  | _ => none

/-- The `req_uuid` of the row the label brings to the Feedback callback. -/
def feedbackUuid (s : Component) : ComponentStep → Option CString
  | .update monId tableName row =>
      match s.db.monitors.find? fun node => node.matches monId with
      | some node =>
          if tableName = feedbackTableName ∧ node.callback = some .ovsAgentApiMonitorFeedbackCallback then
            reqUuidColumn row
          else none
      | none => none
  | _ => none

/-- The socket takes everything that is written in this step. -/
def ComponentStep.wholeWrites : ComponentStep → Bool
  | .call _ _ o => o.send = .whole
  | .monitorCall _ o => o.send = .whole
  | .listener o _ => o.send = .whole
  | _ => true

/-- A process, the uuids of its rows by the receipts so far, the `req_uuid` of
the Feedback row it is at, and those of the Feedback rows it is done with. -/
structure RowRun where
  process : Component
  received : List CString
  current : Option CString
  processed : List CString

namespace RowRun

def start (cid : Nat) : RowRun := ⟨.start cid, [], none, []⟩

/-- The history after a step to `s'`: the processing of a row is over when the
listener is free again. -/
def next (t : RowRun) (i : ComponentStep) (s' : Component) : RowRun :=
  let current := (feedbackUuid t.process i).or t.current
  { process := s'
    received := t.received ++ (ackedUuid t.process i).toList
    current := if s'.listener.isIdle then none else current
    processed := if s'.listener.isIdle then t.processed ++ current.toList else t.processed }

/-- Every acknowledged row whose Feedback was processed has both deletes sent. -/
def NoOrphans (t : RowRun) : Prop :=
  ∀ uuid ∈ t.received, uuid ∈ t.processed → DeletesSent t.process.db uuid

end RowRun

/-- The runs of component `cid` while the socket takes everything. -/
def rowMachine (cid : Nat) : Machine RowRun ComponentStep where
  init t := t = .start cid
  step t i := if i.wholeWrites then (componentStep t.process i).map (t.next i) else none

theorem rowMachine_step {cid : Nat} {t t' : RowRun} {i : ComponentStep}
    (h : (rowMachine cid).step t i = some t') :
    i.wholeWrites = true ∧ ∃ s', componentStep t.process i = some s' ∧ t' = t.next i s' := by
  simp only [rowMachine] at h
  split at h
  · next hw =>
      obtain ⟨s', hs', rfl⟩ := Option.map_eq_some_iff.1 h
      exact ⟨hw, s', hs', rfl⟩
  · cases h

/-! ## §4. The condition. -/

/-- The access is the allocation of a receipt node. -/
def DbPc.addsNode : DbPc → Bool
  | receiptListAdd _ => true
  | _ => false

/-- The listener is about to allocate the receipt node of a delete. -/
def ListenerPc.addsNode : ListenerPc → Bool
  | deleteGwConfig _ _ pc => pc.addsNode
  | deleteFeedback _ _ pc => pc.addsNode
  | _ => false

/-- The condition of one step, for the rows whose deletes did not go out before:
a Feedback row of an acknowledged row finds its transaction in the table, the
receipt of a row comes before its Feedback, and there is memory for the
receipt nodes of the two deletes. -/
structure RowRun.Finds (t : RowRun) (i : ComponentStep) : Prop where
  update : ∀ uuid, feedbackUuid t.process i = some uuid → uuid ∈ t.received →
    DeletesSent t.process.db uuid ∨ ∃ e, t.process.manager.table.Mem e ∧ e.hasUuid uuid = true
  receipt : ∀ uuid, ackedUuid t.process i = some uuid → uuid ∈ t.processed →
    DeletesSent t.process.db uuid
  node : ∀ uuid o waiter, i = .listener o waiter → t.current = some uuid → uuid ∈ t.received →
    t.process.listener.addsNode = true → DeletesSent t.process.db uuid ∨ o.receiptNode = true

/-! ## §5. The two deletes in progress. -/

/-- The request is ready, is this one, and concerns no monitor. -/
structure Prepared.Asks (p : Prepared) (req : Request) : Prop where
  mon : p.mon = none
  cancel : p.cancel = none
  reads : ∃ rid, readRequest p.strJson = some (rid, req)

/-- Where a delete request that the server reads as `req` can stand. -/
inductive DeleteAt (t : OvsTable) (key uuid : CString) (req : Request) : DbPc → Prop where
  | draws : DeleteAt t key uuid req (.idGenerate (.delete t (some key) (some uuid)) [])
  | registers {p : Prepared} (hp : p.Asks req) : DeleteAt t key uuid req (.receiptListAdd p)
  | writes {p : Prepared} (hp : p.Asks req) : DeleteAt t key uuid req (.socketWrite p)

/-- The step lemma of a delete: it goes on, or it is sent. -/
theorem DeleteAt.step {t : OvsTable} {key uuid table : CString} {clause : Json} {pc : DbPc} {o : Outcome}
    {db : OvsDbApi} (h : DeleteAt t key uuid (.delete table clause) pc)
    (henc : ∀ n, ∃ js, ovsdbDeleteToJson t (utoa n) key uuid = some js ∧
      readRequest js = some (utoa n, .delete table clause))
    (hsend : o.send = .whole) (hnode : pc.addsNode = true → o.receiptNode = true) :
    DeleteAt t key uuid (.delete table clause) (dbStep o pc db).1
      ∨ (dbStep o pc db).1 = .returned .success ∧ DeleteSent (dbStep o pc db).2 table clause := by
  cases h with
  | draws =>
      -- the text can be encoded whatever the id, so the call goes on to its receipt node
      obtain ⟨js, hjs, hread⟩ := henc (idGenerate db).1
      left
      have hnext : (dbStep o (.idGenerate (.delete t (some key) (some uuid)) []) db).1
          = .receiptListAdd ⟨js, utoa (idGenerate db).1, .delete, some .dummyReceiptCb, none, none⟩ := by
        simp only [dbStep, DbCall.ready, DbCall.draws, DbCall.prepare, hjs, Option.map_some, List.nil_append,
          List.length_cons, List.length_nil, lt_irrefl, if_false]
      rw [hnext]
      exact .registers ⟨rfl, rfl, _, hread⟩
  | @registers p hp =>
      left
      have hnext : (dbStep o (.receiptListAdd p) db).1 = .socketWrite p := by
        simp only [dbStep, receiptListAdd, hnode rfl, hp.mon, if_true]
      rw [hnext]
      exact .writes hp
  | @writes p hp =>
      right
      obtain ⟨rid, hread⟩ := hp.reads
      have hnext : dbStep o (.socketWrite p) db
          = (.returned .success, { db with sent := db.sent ++ [⟨p.strJson, .whole⟩] }) := by
        simp only [dbStep, ovsdbSocketWrite, hsend, hp.cancel]
      rw [hnext]
      exact ⟨rfl, _, List.mem_append_right _ (List.mem_singleton_self _), rfl, rid, hread⟩

/-- Where the listener can stand between `complete_transaction` and the end of
the callback, and what it has sent by then. -/
inductive Deleting (db : OvsDbApi) (uuid : CString) : ListenerPc → Prop where
  | callback (e : TransactionEntry) : Deleting db uuid (.callback e uuid)
  | gwConfig (addr : Nat) {pc : DbPc}
      (hpc : DeleteAt .gwConfig ovsdbTableUuid uuid (.delete gatewayConfigTableName (rowClause uuid)) pc) :
      Deleting db uuid (.deleteGwConfig addr uuid pc)
  | feedback (addr : Nat) {pc : DbPc} (hsent : DeleteSent db gatewayConfigTableName (rowClause uuid))
      (hpc : DeleteAt .feedback feedbackReqUuid uuid (.delete feedbackTableName (reqUuidClause uuid)) pc) :
      Deleting db uuid (.deleteFeedback addr uuid pc)
  | signalTest (addr : Nat) (hsent : DeletesSent db uuid) : Deleting db uuid (.signalTest addr)
  | signalLock (addr : Nat) (hsent : DeletesSent db uuid) : Deleting db uuid (.signalLock addr)
  | signalClear (addr : Nat) (hsent : DeletesSent db uuid) : Deleting db uuid (.signalClear addr)
  | condSignal (addr : Nat) (hsent : DeletesSent db uuid) : Deleting db uuid (.condSignal addr)
  | signalUnlock (addr : Nat) (hsent : DeletesSent db uuid) : Deleting db uuid (.signalUnlock addr)

section Deleting

variable {db db' : OvsDbApi} {uuid : CString} {l : ListenerPc}

theorem Deleting.mono (h : Deleting db uuid l) (hsub : db.sent ⊆ db'.sent) : Deleting db' uuid l := by
  cases h with
  | callback e => exact .callback e
  | gwConfig a hpc => exact .gwConfig a hpc
  | feedback a hsent hpc => exact .feedback a (hsent.mono hsub) hpc
  | signalTest a hsent => exact .signalTest a (hsent.mono hsub)
  | signalLock a hsent => exact .signalLock a (hsent.mono hsub)
  | signalClear a hsent => exact .signalClear a (hsent.mono hsub)
  | condSignal a hsent => exact .condSignal a (hsent.mono hsub)
  | signalUnlock a hsent => exact .signalUnlock a (hsent.mono hsub)

theorem Deleting.not_idle (h : Deleting db uuid l) : l.isIdle = false := by
  cases h with
  | _ => rfl

/-- The first delete at its first access. -/
theorem Deleting.begins (addr : Nat) (uuid : CString) :
    Deleting db uuid (.afterDeleteGwConfig addr uuid (deleteGwConfigCall uuid).start) :=
  .gwConfig addr .draws

/-- After an access of the first delete. -/
theorem Deleting.afterDeleteGwConfig (addr : Nat) {pc : DbPc}
    (h : DeleteAt .gwConfig ovsdbTableUuid uuid (.delete gatewayConfigTableName (rowClause uuid)) pc
      ∨ pc = .returned .success ∧ DeleteSent db gatewayConfigTableName (rowClause uuid)) :
    Deleting db uuid (.afterDeleteGwConfig addr uuid pc) := by
  rcases h with hpc | ⟨rfl, hsent⟩
  · have hgo : ListenerPc.afterDeleteGwConfig addr uuid pc = .deleteGwConfig addr uuid pc := by
      cases hpc with
      | _ => rfl
    rw [hgo]
    exact .gwConfig addr hpc
  · exact .feedback addr hsent .draws

/-- After an access of the second. -/
theorem Deleting.afterDeleteFeedback (addr : Nat) {pc : DbPc}
    (hgw : DeleteSent db gatewayConfigTableName (rowClause uuid))
    (h : DeleteAt .feedback feedbackReqUuid uuid (.delete feedbackTableName (reqUuidClause uuid)) pc
      ∨ pc = .returned .success ∧ DeleteSent db feedbackTableName (reqUuidClause uuid)) :
    Deleting db uuid (.afterDeleteFeedback addr uuid pc) := by
  rcases h with hpc | ⟨rfl, hsent⟩
  · have hgo : ListenerPc.afterDeleteFeedback addr uuid pc = .deleteFeedback addr uuid pc := by
      cases hpc with
      | _ => rfl
    rw [hgo]
    exact .feedback addr hgw hpc
  · exact .signalTest addr ⟨hgw, hsent⟩

end Deleting

/-- The step lemma of the callback, with memory for the receipt nodes. -/
theorem Deleting.step {s s' : Component} {o : Outcome} {waiter : Option Nat} {uuid : CString}
    (hw : Deleting s.db uuid s.listener) (hu : utf8Valid uuid = true) (hsend : o.send = .whole)
    (hnode : s.listener.addsNode = true → o.receiptNode = true) (h : listenerStep s o waiter = some s') :
    Deleting s'.db uuid s'.listener ∨ s'.listener.isIdle = true ∧ DeletesSent s'.db uuid := by
  -- the cases are the places between `complete_transaction` and the end of the callback
  unfold listenerStep at h
  generalize hl : s.listener = l at hw hnode h
  cases hw with
  | callback e => cases h; exact Or.inl (.begins ..)
  | gwConfig a hpc =>
      cases h
      exact Or.inl (.afterDeleteGwConfig a (hpc.step (deleteGwConfig_encodes hu) hsend hnode))
  | feedback a hsent hpc =>
      cases h
      exact Or.inl (.afterDeleteFeedback a (hsent.mono (dbStep_sent ..))
        (hpc.step (deleteFeedback_encodes hu) hsend hnode))
  | signalTest a hsent =>
      simp only at h
      split at h
      · cases h; exact Or.inl (.signalLock a hsent)
      · -- nobody is blocked: the callback returns without a signal
        cases h
        exact Or.inr ⟨rfl, hsent⟩
  | signalLock a hsent =>
      simp only at h
      split at h
      · cases h; exact Or.inl (.signalClear a hsent)
      · cases h
  | signalClear a hsent => cases h; exact Or.inl (.condSignal a hsent)
  | condSignal a hsent =>
      obtain ⟨hdb, hl'⟩ := condSignal_frame h
      rw [hdb, hl']
      exact Or.inl (.signalUnlock a hsent)
  | signalUnlock a hsent => cases h; exact Or.inr ⟨rfl, hsent⟩

/-- Without memory for the receipt node the callback ends there. -/
theorem listenerStep_noNode {s s' : Component} {o : Outcome} {waiter : Option Nat}
    (hadds : s.listener.addsNode = true) (hnode : o.receiptNode = false)
    (h : listenerStep s o waiter = some s') : s'.listener.isIdle = true ∧ s'.db = s.db := by
  have hfails : ∀ pc : DbPc, pc.addsNode = true → dbStep o pc s.db = (.returned .failed, s.db) := by
    intro pc hpc
    cases pc with
    | receiptListAdd p => simp only [dbStep, receiptListAdd, hnode, Bool.false_eq_true, if_false]
    | _ => cases hpc
  unfold listenerStep at h
  generalize hl : s.listener = l at hadds h
  cases l with
  | deleteGwConfig a uuid pc => simp only [hfails pc hadds] at h; cases h; exact ⟨rfl, rfl⟩
  | deleteFeedback a uuid pc => simp only [hfails pc hadds] at h; cases h; exact ⟨rfl, rfl⟩
  | _ => cases hadds

/-! ## §6. One step of the history. -/

theorem ackedUuid_spec {s : Component} {i : ComponentStep} {uuid : CString} (h : ackedUuid s i = some uuid) :
    utf8Valid uuid = true ∧ uuid.length ≤ maxUuidLen := by
  cases i with
  | receipt rid result =>
      simp only [ackedUuid] at h
      split at h
      · next error u hparse =>
          split at h
          · next hcond =>
              cases h
              rw [Bool.and_eq_true] at hcond
              exact ⟨hcond.2, ovsdbParseResult_insert hparse⟩
          · cases h
      · cases h
  | _ => cases h

theorem feedbackUuid_spec {s : Component} {i : ComponentStep} {uuid : CString}
    (h : feedbackUuid s i = some uuid) :
    ∃ row, FeedbackUpdate s i row ∧ reqUuidColumn row = some uuid := by
  cases i with
  | update monId tableName row =>
      simp only [feedbackUuid] at h
      split at h
      · next node hfind =>
          split at h
          · next hcond =>
              obtain ⟨rfl, hcb⟩ := hcond
              exact ⟨row, ⟨monId, node, rfl, hfind, hcb⟩, h⟩
          · cases h
      · cases h
  | _ => cases h

namespace RowRun

variable {t : RowRun} {i : ComponentStep} {s' : Component}

/-- The invariant: what was received can be asked for, and between a row and
the end of its callback the listener is at the deletes. -/
structure Sound (t : RowRun) : Prop where
  received : ∀ uuid ∈ t.received, utf8Valid uuid = true ∧ uuid.length ≤ maxUuidLen
  busy : ∀ uuid, t.current = some uuid → t.process.listener.isIdle = false
  working : ∀ uuid, t.current = some uuid → uuid ∈ t.received →
    Deleting t.process.db uuid t.process.listener

/-- No row is being processed while the listener is free. -/
theorem Sound.current_none (hs : t.Sound) (hl : t.process.listener = .idle) : t.current = none := by
  cases hc : t.current with
  | none => rfl
  | some uuid =>
      have hbusy := hs.busy uuid hc
      rw [hl] at hbusy
      cases hbusy

/-- The row the listener is at after the step, if it is not done with it. -/
theorem Sound.next (hs : t.Sound)
    (hwork : ∀ uuid, (feedbackUuid t.process i).or t.current = some uuid →
      uuid ∈ t.received ++ (ackedUuid t.process i).toList → s'.listener.isIdle = false →
      Deleting s'.db uuid s'.listener) : (t.next i s').Sound := by
  -- a row is kept as the current one only while the listener is busy with it
  have hcurrent : ∀ uuid, (t.next i s').current = some uuid →
      s'.listener.isIdle = false ∧ (feedbackUuid t.process i).or t.current = some uuid := by
    intro uuid hc
    simp only [RowRun.next] at hc
    split at hc
    · cases hc
    · next hidle => exact ⟨Bool.eq_false_iff.2 hidle, hc⟩
  refine ⟨fun uuid hmem => ?_, fun uuid hc => (hcurrent uuid hc).1, fun uuid hc hmem => ?_⟩
  · rcases List.mem_append.1 hmem with hold | hnew
    · exact hs.received uuid hold
    · exact ackedUuid_spec (Option.mem_toList.1 hnew)
  · exact hwork uuid (hcurrent uuid hc).2 hmem (hcurrent uuid hc).1

/-- What a step that brings no receipt adds to the rows that are done with. -/
theorem noOrphans_next (hno : t.NoOrphans) (hack : ackedUuid t.process i = none)
    (hsub : t.process.db.sent ⊆ s'.db.sent) :
    (t.next i s').NoOrphans ↔ ∀ uuid, (feedbackUuid t.process i).or t.current = some uuid →
      uuid ∈ t.received → s'.listener.isIdle = true → DeletesSent s'.db uuid := by
  have hreceived : (t.next i s').received = t.received := by
    simp only [RowRun.next, hack, Option.toList_none, List.append_nil]
  constructor
  · intro h uuid hcur hmem hidle
    refine h uuid (hreceived ▸ hmem) ?_
    simp only [RowRun.next, hidle, if_true, hcur, Option.toList_some]
    exact List.mem_append_right _ (List.mem_singleton_self _)
  · intro h uuid hmem hproc
    rw [hreceived] at hmem
    simp only [RowRun.next] at hproc
    split at hproc
    · next hidle =>
        -- done with before the step, or with this one
        rcases List.mem_append.1 hproc with hold | hnew
        · exact (hno uuid hmem hold).mono hsub
        · exact h uuid (Option.mem_toList.1 hnew) hmem hidle
    · exact (hno uuid hmem hproc).mono hsub

/-- The law of one step. -/
structure Lawful (t : RowRun) (i : ComponentStep) (t' : RowRun) : Prop where
  sound : t'.Sound
  law : t.NoOrphans → (t'.NoOrphans ↔ t.Finds i)

/-- The row the listener is at, when it has been acknowledged, is still at the
deletes after the step or is done with both. -/
theorem lawful_of_goesOn (hs : t.Sound) (hack : ackedUuid t.process i = none)
    (hsub : t.process.db.sent ⊆ s'.db.sent)
    (hgo : ∀ uuid, (feedbackUuid t.process i).or t.current = some uuid → uuid ∈ t.received →
      Deleting s'.db uuid s'.listener ∨ s'.listener.isIdle = true ∧ DeletesSent s'.db uuid)
    (hfinds : t.Finds i) : t.Lawful i (t.next i s') := by
  constructor
  · refine hs.next fun uuid hcur hmem hbusy => ?_
    rw [hack, Option.toList_none, List.append_nil] at hmem
    rcases hgo uuid hcur hmem with hd | ⟨hidle, _⟩
    · exact hd
    · rw [hidle] at hbusy; cases hbusy
  · intro hno
    refine iff_of_true ((noOrphans_next hno hack hsub).2 fun uuid hcur hmem hidle => ?_) hfinds
    rcases hgo uuid hcur hmem with hd | ⟨_, hsent⟩
    · rw [hd.not_idle] at hidle; cases hidle
    · exact hsent

/-- The callback ends with this step and nothing was sent. -/
theorem lawful_of_ends (hs : t.Sound) (hack : ackedUuid t.process i = none)
    (hidle : s'.listener.isIdle = true) (hdb : s'.db = t.process.db)
    (hfinds : t.Finds i ↔ ∀ uuid, (feedbackUuid t.process i).or t.current = some uuid →
      uuid ∈ t.received → DeletesSent t.process.db uuid) : t.Lawful i (t.next i s') := by
  constructor
  · refine hs.next fun uuid _ _ hbusy => ?_
    rw [hidle] at hbusy; cases hbusy
  · intro hno
    have hsub : t.process.db.sent ⊆ s'.db.sent := by
      rw [hdb]; exact List.Subset.refl _
    rw [noOrphans_next hno hack hsub, hdb, hfinds]
    exact ⟨fun h uuid hcur hmem => h uuid hcur hmem hidle, fun h uuid hcur hmem _ => h uuid hcur hmem⟩

/-- A step of another thread: the listener stays where it is. -/
theorem lawful_other (hs : t.Sound) (hstep : componentStep t.process i = some s')
    (hf : feedbackUuid t.process i = none) (hack : ackedUuid t.process i = none)
    (hi : ∀ o waiter, i ≠ .listener o waiter) (hl : s'.listener = t.process.listener) :
    t.Lawful i (t.next i s') := by
  have hsub := component_sent hstep
  refine lawful_of_goesOn hs hack hsub (fun uuid hcur hmem => ?_) ⟨fun uuid h => ?_, fun uuid h => ?_, ?_⟩
  · rw [hf, Option.none_or] at hcur
    rw [hl]
    exact Or.inl ((hs.working uuid hcur hmem).mono hsub)
  · rw [hf] at h; cases h
  · rw [hack] at h; cases h
  · intro uuid o waiter h; exact absurd h (hi o waiter)

/-- A receipt comes in while the listener is free. -/
theorem lawful_receipt {rid : CString} {result : Option Json} (hs : t.Sound)
    (hstep : receiptStep t.process rid result = some s') :
    t.Lawful (.receipt rid result) (t.next (.receipt rid result) s') := by
  obtain ⟨hl, l', rfl, _⟩ := receiptStep_cases hstep
  -- the receipt parser runs to its end while no row is being processed
  have hcur : t.current = none := hs.current_none hl
  have hnone : (feedbackUuid t.process (.receipt rid result)).or t.current = none := by
    rw [hcur]; rfl
  constructor
  · refine hs.next fun uuid h => ?_
    rw [hnone] at h
    cases h
  · intro hno
    have hproc : (t.next (.receipt rid result) { t.process with listener := l' }).processed =
        t.processed := by
      simp only [RowRun.next, hnone, Option.toList_none, List.append_nil, ite_self]
    constructor
    · intro h
      refine ⟨fun uuid hf => (by cases hf), fun uuid hack hmem => ?_,
        fun uuid o waiter hi => (by cases hi)⟩
      exact h uuid (List.mem_append_right _ (Option.mem_toList.2 hack)) (hproc ▸ hmem)
    · intro hfinds uuid hmem hmemp
      rw [hproc] at hmemp
      rcases List.mem_append.1 hmem with hold | hnew
      · exact hno uuid hold hmemp
      · exact hfinds.receipt uuid (Option.mem_toList.1 hnew) hmemp

/-- A row whose transaction is in the table: the callback goes on to the deletes. -/
theorem deleting_of_taken {s : Component} {feedback : Feedback} (addr : Nat) (db : OvsDbApi)
    {p : TransactionEntry × TransactionManager}
    (ht : takeTransaction (some feedback.reqUuid) feedback.status s.manager = some p) :
    Deleting db feedback.reqUuid (monitorFeedbackCallback (.feedback (some ⟨addr, feedback⟩))
      s).listener := by
  obtain ⟨e, m⟩ := p
  simp only [monitorFeedbackCallback, ht]
  cases e.callback with
  | none => exact .begins ..
  | some cb => exact .callback e

/-- A row of an update comes in while the listener is free. -/
theorem lawful_update {monId tableName : CString} {row : Json} (hs : t.Sound)
    (hstep : updateStep t.process monId tableName row = some s') :
    t.Lawful (.update monId tableName row) (t.next (.update monId tableName row) s') := by
  have hl : t.process.listener = .idle := (updateStep_cases hstep).1
  have hcur : t.current = none := hs.current_none hl
  have hsub : t.process.db.sent ⊆ s'.db.sent := @component_sent _ _ (.update monId tableName row) hstep
  cases hf : feedbackUuid t.process (.update monId tableName row) with
  | none =>
      -- a row for somebody else, or one without the column
      refine lawful_of_goesOn hs rfl hsub (fun uuid h => ?_) ⟨fun uuid h => ?_, fun uuid h => ?_, ?_⟩
      · rw [hf, hcur] at h; cases h
      · rw [hf] at h; cases h
      · cases h
      · intro uuid o waiter h; cases h
  | some u =>
      obtain ⟨row', hrow, hcol⟩ := feedbackUuid_spec hf
      have hs' := feedbackUpdate_step hrow hstep
      -- the parser cuts the column, but no uuid of a receipt
      have hread : u ∈ t.received → (feedbackConfigParser row').reqUuid = u := by
        intro hmem
        rw [feedbackConfigParser_reqUuid, hcol]
        exact CString.strncpy_of_length_le (hs.received u hmem).2
      cases ht : takeTransaction (some (feedbackConfigParser row').reqUuid)
          (feedbackConfigParser row').status t.process.manager with
      | none =>
          -- the callback returns before the deletes
          have hsame : s' = t.process := by
            rw [hs']
            simp only [monitorFeedbackCallback, ht]
          refine lawful_of_ends hs rfl (by rw [hsame, hl]; rfl) (by rw [hsame]) ?_
          rw [hf, Option.some_or]
          constructor
          · intro hfinds uuid huuid hmem
            cases huuid
            rcases hfinds.update u hf hmem with hsent | ⟨e, he, huuid⟩
            · exact hsent
            · rw [← hread hmem, takeTransaction_none.1 ht e he] at huuid
              cases huuid
          · intro h
            refine ⟨fun uuid huuid hmem => ?_, fun _ h => (by cases h), fun _ _ _ h => (by cases h)⟩
            rw [hf] at huuid
            exact Or.inl (h uuid huuid hmem)
      | some p =>
          -- the transaction found is the one the condition asks for
          obtain ⟨_, e, hu, he, hmatch, _, _⟩ := takeTransaction_some ht
          cases hu
          refine lawful_of_goesOn hs rfl hsub (fun uuid huuid hmem => Or.inl ?_)
            ⟨fun uuid huuid hmem => ?_, ?_, ?_⟩
          · rw [hf, Option.some_or] at huuid
            cases huuid
            have hdeleting := deleting_of_taken 0 s'.db ht
            rw [← hs', hread hmem] at hdeleting
            exact hdeleting
          · rw [hf] at huuid
            cases huuid
            exact Or.inr ⟨e, he, hread hmem ▸ hmatch⟩
          · intro uuid h; cases h
          · intro uuid o waiter h; cases h

/-- The listener goes on. -/
theorem lawful_listener {o : Outcome} {waiter : Option Nat} (hs : t.Sound) (hsend : o.send = .whole)
    (hstep : listenerStep t.process o waiter = some s') :
    t.Lawful (.listener o waiter) (t.next (.listener o waiter) s') := by
  by_cases hfails : t.process.listener.addsNode = true ∧ o.receiptNode = false
  · -- the delete fails here, and the callback with it
    obtain ⟨hadds, hnode⟩ := hfails
    obtain ⟨hidle, hdb⟩ := listenerStep_noNode hadds hnode hstep
    refine lawful_of_ends hs rfl hidle hdb ⟨fun hfinds uuid hcur hmem => ?_, fun h => ⟨?_, ?_, ?_⟩⟩
    · rcases hfinds.node uuid o waiter rfl hcur hmem hadds with hsent | htrue
      · exact hsent
      · rw [hnode] at htrue; cases htrue
    · intro uuid h; cases h
    · intro uuid h; cases h
    · intro uuid _ _ _ hcur hmem _
      exact Or.inl (h uuid hcur hmem)
  · have hnode : t.process.listener.addsNode = true → o.receiptNode = true := by
      intro hadds
      cases hn : o.receiptNode with
      | true => rfl
      | false => exact absurd ⟨hadds, hn⟩ hfails
    refine lawful_of_goesOn hs rfl (listenerStep_sent hstep) (fun uuid hcur hmem => ?_) ⟨?_, ?_, ?_⟩
    · exact (hs.working uuid hcur hmem).step (hs.received uuid hmem).1 hsend hnode hstep
    · intro uuid h; cases h
    · intro uuid h; cases h
    · intro uuid o' waiter' h _ _ hadds
      cases h
      exact Or.inr (hnode hadds)

/-- The step lemma. -/
theorem lawful_step {cid : Nat} {t' : RowRun} (hs : t.Sound) (hstep : (rowMachine cid).step t i = some t') :
    t.Lawful i t' := by
  obtain ⟨hw, s', hc, rfl⟩ := rowMachine_step hstep
  cases i with
  | interact request callback =>
      refine lawful_other hs hc rfl rfl (fun _ _ h => by cases h) ?_
      cases hc; rfl
  | call n malloc o =>
      refine lawful_other hs hc rfl rfl (fun _ _ h => by cases h) ?_
      obtain ⟨c, _, hcs⟩ := callStep_cases hc
      cases hcs <;> rfl
  | wake n result =>
      refine lawful_other hs hc rfl rfl (fun _ _ h => by cases h) ?_
      obtain ⟨c, _, _, rfl⟩ := wakeStep_cases hc
      rfl
  | interactMonitor ovsdbTable callback =>
      refine lawful_other hs hc rfl rfl (fun _ _ h => by cases h) ?_
      cases hc; rfl
  | monitorCall n o =>
      refine lawful_other hs hc rfl rfl (fun _ _ h => by cases h) ?_
      obtain ⟨db, pcs, rfl⟩ := monitorCallStep_cases hc
      rfl
  | receipt rid result => exact lawful_receipt hs hc
  | update monId tableName row => exact lawful_update hs hc
  | listener o waiter => exact lawful_listener hs (of_decide_eq_true hw) hc

end RowRun

/-! ## §7. Runs. -/

/-- **No orphan rows.**  All the states of a run have both deletes sent for
every acknowledged row whose Feedback was processed if and only if all its
steps meet the condition. -/
theorem no_orphan_rows_iff (cid : Nat) (is : List ComponentStep) :
    (rowMachine cid).AllSteps (fun _ _ t' => t'.NoOrphans) (.start cid) is
      ↔ (rowMachine cid).AllSteps (fun t i _ => t.Finds i) (.start cid) is := by
  refine Machine.allSteps_invariant_iff (J := RowRun.Sound) ?_ ?_ is _ ?_ ?_
  · intro t i t' hs hstep
    exact (RowRun.lawful_step hs hstep).sound
  · intro t i t' hs hno hstep
    exact (RowRun.lawful_step hs hstep).law hno
  · exact ⟨fun _ h => (by cases h), fun _ h => (by cases h), fun _ h => (by cases h)⟩
  · intro uuid hmem
    cases hmem

/-- A blocking request gets its receipt and then times out. -/
def timedOutSteps : List ComponentStep :=
  requestSteps 0 (gatewayRequest .enable 100) ++ waitSteps 0 ++
    firstReceiptSteps (ofString "1001") (ofString "5f0d2c5e-6a5a-4d8e-9d57-0f6f2a7c9b11") ++
    .wake 0 .timedOut :: List.replicate 5 (.call 0 true .ok)

/-- The agent's Feedback comes late. -/
def lateFeedback : ComponentStep :=
  .update (ofString "1002") feedbackTableName
    (feedbackRow (ofString "5f0d2c5e-6a5a-4d8e-9d57-0f6f2a7c9b11"))

/-- The request deletes rows. -/
def Sent.isDelete (x : Sent) : Bool :=
  match readRequest x.request with
  | some (_, .delete _ _) => true
  | _ => false

/-- Neither row of the request is deleted. -/
theorem timedOut_rows_orphaned :
    ¬ (rowMachine 1).AllSteps (fun _ _ t' => t'.NoOrphans) (.start 1) (timedOutSteps ++ [lateFeedback]) := by
  have hrun : ((rowMachine 1).run (.start 1) timedOutSteps).any (fun t =>
      ((rowMachine 1).step t lateFeedback).any fun t' =>
        t'.received.contains (ofString "5f0d2c5e-6a5a-4d8e-9d57-0f6f2a7c9b11") &&
          t'.processed.contains (ofString "5f0d2c5e-6a5a-4d8e-9d57-0f6f2a7c9b11") &&
          t'.process.db.sent.all fun x => !x.isDelete) = true := by
    decide +kernel
  obtain ⟨t, ht, hcheck⟩ := (Option.any_eq_true _ _).1 hrun
  obtain ⟨t', ht', hcheck⟩ := (Option.any_eq_true _ _).1 hcheck
  simp only [Bool.and_eq_true, List.contains_eq_mem, decide_eq_true_eq, List.all_eq_true] at hcheck
  obtain ⟨⟨hreceived, hprocessed⟩, hsent⟩ := hcheck
  refine Machine.not_allSteps_of_run ht ht' fun hno => ?_
  obtain ⟨x, hx, _, rid, hread⟩ := (hno _ hreceived hprocessed).gwConfig
  have hnot := hsent x hx
  rw [Sent.isDelete, hread] at hnot
  cases hnot

end OvsAgent
