/-
  OvsAgent.DbApi.Requests — what the four request functions leave behind.

  Every request goes through the same stages: an encoder prints the JSON text,
  nodes are registered, the text is handed to `send`, and (for a cancel) the
  monitor's node is removed.  `strJson` is the first stage of all four, and
  `Registers`, `Completes` say how far a call gets from its inputs alone:

      status = success  ↔  Registers ∧ Completes          (`exec_success_iff`)

  Main results:
    * `failed_unchanged_iff` — a call that fails leaves both lists as they
      were exactly when it is refused before its receipt node is added;
    * `requests_whole` — as long as no `send` answers a short count, the bytes
      the socket took are complete request texts, one after the other.
-/
import OvsAgent.DbApi.OvsDbApi
import OvsAgent.Lib.Machine

namespace OvsAgent

open CString (ofString utoa)

/-! ## §1. How far a call gets. -/

/-- The request text's JSON value: `none` when an argument is NULL or the
encoder refuses. -/
def DbCall.strJson : DbCall → OvsDbApi → Option Json
  | .write (some rID) (some config) _, _ => ovsdbInsertToJson config rID
  | .write _ _ _, _ => none
  | .monitor _ none _, _ => none
  | .monitor ovsdbTable (some _) _, db =>
      let (uniqueId, db) := idGenerate db
      let (rID, _) := idGenerate db
      ovsdbMonitorToJson ovsdbTable (utoa rID) (utoa uniqueId)
  | .monitorCancel none _, _ => none
  | .monitorCancel (some rID) _, db => ovsdbMonitorCancelToJson rID (utoa (idGenerate db).1)
  | .delete ovsdbTable (some key) (some value), db =>
      ovsdbDeleteToJson ovsdbTable (utoa (idGenerate db).1) key value
  | .delete _ _ _, _ => none

/-- The call adds its receipt node: it has a text and memory for the node. -/
def DbCall.Registers (o : Outcome) (call : DbCall) (db : OvsDbApi) : Prop :=
  call.strJson db ≠ none ∧ o.receiptNode = true

/-- Nothing after the receipt node goes wrong. -/
def DbCall.Completes (o : Outcome) : DbCall → OvsDbApi → Prop
  | .monitor _ _ _, _ => o.monNode = true ∧ o.send ≠ .error
  | .monitorCancel rID _, db =>
      o.send ≠ .error ∧ ∀ r, rID = some r → (monListRemove r db.monitors).isSome
  | _, _ => o.send ≠ .error

/-- The two lists, as a pair. -/
def OvsDbApi.registries (db : OvsDbApi) : List ReceiptNode × List MonNode :=
  (db.receipts, db.monitors)

@[simp] theorem idGenerate_monitors (db : OvsDbApi) : (idGenerate db).2.monitors = db.monitors := rfl

theorem ovsdbSocketWrite_of_ne {r : SendResult} (h : r ≠ .error) (j : Json) (db : OvsDbApi) :
    ovsdbSocketWrite r j db = (true, { db with sent := db.sent ++ [⟨j, r⟩] }) := by
  cases r <;> first | rfl | exact absurd rfl h

/-! ## §2. What a call does at each stage. -/

/-- A call that never reaches `receipt_list_add`. -/
structure DbCall.Refused (call : DbCall) (o : Outcome) (db : OvsDbApi) : Prop where
  registers : ¬ call.Registers o db
  status : (call.exec o db).1 = .failed
  registries : (call.exec o db).2.registries = db.registries
  sent : (call.exec o db).2.sent = db.sent

/-- A call that adds its receipt node, and how it may end. -/
structure DbCall.Registered (call : DbCall) (o : Outcome) (db : OvsDbApi) : Prop where
  registers : call.Registers o db
  status : (call.exec o db).1 = .success ↔ call.Completes o db
  receipts : ∃ node, (call.exec o db).2.receipts = db.receipts ++ [node]
  sent : (¬ call.Completes o db ∧ (call.exec o db).2.sent = db.sent) ∨
    ∃ j, call.strJson db = some j ∧ o.send ≠ .error ∧
      (call.exec o db).2.sent = db.sent ++ [⟨j, o.send⟩]

section RegisterAndWrite

variable {o : Outcome} {strJson : Option Json} {j : Json} (rid : CString) (ty : OvsdbReceiptId)
  (cb : Option OvsdbReceiptCb) (db : OvsDbApi)

theorem registerAndWrite_refused (h : ¬ (strJson ≠ none ∧ o.receiptNode = true)) :
    registerAndWrite o strJson rid ty cb db = (.failed, db) := by
  cases strJson with
  | none => rfl
  | some j =>
      have hm : ¬ o.receiptNode = true := fun hm => h ⟨by simp, hm⟩
      simp only [registerAndWrite, receiptListAdd, if_neg hm]

theorem registerAndWrite_error (hm : o.receiptNode = true) (hs : o.send = .error) :
    registerAndWrite o (some j) rid ty cb db
      = (.failed, { db with
          receipts := db.receipts ++ [⟨CString.strncpy maxUuidLen rid, cb, ty⟩] }) := by
  simp only [registerAndWrite, receiptListAdd, if_pos hm, hs, ovsdbSocketWrite]

theorem registerAndWrite_sent (hm : o.receiptNode = true) (hs : o.send ≠ .error) :
    registerAndWrite o (some j) rid ty cb db
      = (.success, { db with
          receipts := db.receipts ++ [⟨CString.strncpy maxUuidLen rid, cb, ty⟩]
          sent := db.sent ++ [⟨j, o.send⟩] }) := by
  simp only [registerAndWrite, receiptListAdd, if_pos hm, ovsdbSocketWrite_of_ne hs]

end RegisterAndWrite

/-- A call that is `registerAndWrite` and nothing more. -/
theorem exec_spec_of_eq {call : DbCall} {o : Outcome} {db db₁ : OvsDbApi} {rid : CString}
    {ty : OvsdbReceiptId} {cb : Option OvsdbReceiptCb}
    (he : call.exec o db = registerAndWrite o (call.strJson db) rid ty cb db₁)
    (hc : call.Completes o db ↔ o.send ≠ .error)
    (hreg : db₁.registries = db.registries) (hsent : db₁.sent = db.sent) :
    call.Refused o db ∨ call.Registered o db := by
  have hrec : db₁.receipts = db.receipts := congrArg Prod.fst hreg
  by_cases h : call.Registers o db
  · right
    obtain ⟨j, hj⟩ := Option.ne_none_iff_exists'.1 h.1
    rw [hj] at he
    by_cases hs : o.send = .error
    · rw [registerAndWrite_error rid ty cb db₁ h.2 hs] at he
      have hnc : ¬ call.Completes o db := fun hcc => hc.1 hcc hs
      exact ⟨h, by rw [he]; simp [hnc], ⟨_, by rw [he, ← hrec]⟩,
        Or.inl ⟨hnc, by rw [he, ← hsent]⟩⟩
    · rw [registerAndWrite_sent rid ty cb db₁ h.2 hs] at he
      exact ⟨h, by rw [he]; simp [hc, hs], ⟨_, by rw [he, ← hrec]⟩,
        Or.inr ⟨j, hj, hs, by rw [he, ← hsent]⟩⟩
  · left
    rw [registerAndWrite_refused rid ty cb db₁ h] at he
    exact ⟨h, by rw [he], by rw [he, hreg], by rw [he, hsent]⟩

theorem ovsdbWrite_spec (o : Outcome) (rID : Option CString) (config : Option RdkbTableConfig)
    (receiptCb : Option OvsdbReceiptCb) (db : OvsDbApi) :
    (DbCall.write rID config receiptCb).Refused o db ∨
      (DbCall.write rID config receiptCb).Registered o db := by
  cases rID with
  | none => exact Or.inl ⟨fun h => h.1 rfl, rfl, rfl, rfl⟩
  | some rID =>
      cases config with
      | none => exact Or.inl ⟨fun h => h.1 rfl, rfl, rfl, rfl⟩
      | some config => exact exec_spec_of_eq rfl Iff.rfl rfl rfl

theorem ovsdbDelete_spec (o : Outcome) (t : OvsTable) (key value : Option CString)
    (db : OvsDbApi) :
    (DbCall.delete t key value).Refused o db ∨ (DbCall.delete t key value).Registered o db := by
  cases key with
  | none => exact Or.inl ⟨fun h => h.1 rfl, rfl, rfl, rfl⟩
  | some key =>
      cases value with
      | none => exact Or.inl ⟨fun h => h.1 rfl, rfl, rfl, rfl⟩
      | some value =>
          have he : (DbCall.delete t (some key) (some value)).exec o db
              = registerAndWrite o ((DbCall.delete t (some key) (some value)).strJson db)
                  (utoa (idGenerate db).1) .delete (some .dummyReceiptCb) (idGenerate db).2 := rfl
          exact exec_spec_of_eq he Iff.rfl rfl rfl

theorem ovsdbMonitorCancel_spec (o : Outcome) (rID : Option CString)
    (receiptCb : Option OvsdbReceiptCb) (db : OvsDbApi) :
    (DbCall.monitorCancel rID receiptCb).Refused o db ∨
      (DbCall.monitorCancel rID receiptCb).Registered o db := by
  cases rID with
  | none => exact Or.inl ⟨fun h => h.1 rfl, rfl, rfl, rfl⟩
  | some rID =>
      let newId := utoa (idGenerate db).1
      let node : ReceiptNode := ⟨CString.strncpy maxUuidLen newId, receiptCb, .monitorCancel⟩
      by_cases h : (DbCall.monitorCancel (some rID) receiptCb).Registers o db
      · right
        obtain ⟨j, hj⟩ := Option.ne_none_iff_exists'.1 h.1
        have hj' : ovsdbMonitorCancelToJson rID newId = some j := hj
        by_cases hs : o.send = .error
        · have he : (DbCall.monitorCancel (some rID) receiptCb).exec o db
              = (.failed, { (idGenerate db).2 with receipts := db.receipts ++ [node] }) := by
            simp only [DbCall.exec, ovsdbMonitorCancel, newId, hj',
              registerAndWrite_error _ _ _ _ h.2 hs]
            rfl
          exact ⟨h, by rw [he]; simp [DbCall.Completes, hs], ⟨node, by rw [he]⟩,
            Or.inl ⟨fun hc => hc.1 hs, by rw [he]; rfl⟩⟩
        · have hw := registerAndWrite_sent (j := j) newId .monitorCancel receiptCb
            (idGenerate db).2 h.2 hs
          -- the request is out; the status is that of the removal
          cases hr : monListRemove rID db.monitors with
          | none =>
              have he : (DbCall.monitorCancel (some rID) receiptCb).exec o db
                  = (.failed, { (idGenerate db).2 with
                      receipts := db.receipts ++ [node]
                      sent := db.sent ++ [⟨j, o.send⟩] }) := by
                simp only [DbCall.exec, ovsdbMonitorCancel, newId, hj', hw, idGenerate_monitors, hr]
                rfl
              exact ⟨h, by rw [he]; simp [DbCall.Completes, hr], ⟨node, by rw [he]⟩,
                Or.inr ⟨j, hj, hs, by rw [he]⟩⟩
          | some monitors =>
              have he : (DbCall.monitorCancel (some rID) receiptCb).exec o db
                  = (.success, { (idGenerate db).2 with
                      receipts := db.receipts ++ [node]
                      monitors := monitors
                      sent := db.sent ++ [⟨j, o.send⟩] }) := by
                simp only [DbCall.exec, ovsdbMonitorCancel, newId, hj', hw, idGenerate_monitors, hr]
                rfl
              exact ⟨h, by rw [he]; simp [DbCall.Completes, hr, hs], ⟨node, by rw [he]⟩,
                Or.inr ⟨j, hj, hs, by rw [he]⟩⟩
      · left
        have hw : registerAndWrite o (ovsdbMonitorCancelToJson rID newId) newId .monitorCancel
            receiptCb (idGenerate db).2 = (.failed, (idGenerate db).2) :=
          registerAndWrite_refused _ _ _ _ h
        have he : (DbCall.monitorCancel (some rID) receiptCb).exec o db
            = (.failed, (idGenerate db).2) := by
          simp only [DbCall.exec, ovsdbMonitorCancel, newId] at hw ⊢
          rw [hw]
        exact ⟨h, by rw [he], by rw [he]; rfl, by rw [he]; rfl⟩

theorem ovsdbMonitor_spec (o : Outcome) (t : OvsTable) (monCb : Option OvsInteractCb)
    (receiptCb : Option OvsdbReceiptCb) (db : OvsDbApi) :
    (DbCall.monitor t monCb receiptCb).Refused o db ∨
      (DbCall.monitor t monCb receiptCb).Registered o db := by
  cases monCb with
  | none => exact Or.inl ⟨fun h => h.1 rfl, rfl, rfl, rfl⟩
  | some monCb =>
      let db₂ := (idGenerate (idGenerate db).2).2
      let uniqueId := utoa (idGenerate db).1
      let rID := utoa (idGenerate (idGenerate db).2).1
      let node : ReceiptNode :=
        ⟨CString.strncpy maxUuidLen rID, some (receiptCb.getD .dummyReceiptCb), .monitor⟩
      let mon : MonNode := ⟨CString.strncpy maxUuidLen uniqueId, some monCb⟩
      cases hj : (DbCall.monitor t (some monCb) receiptCb).strJson db with
      | none =>
          have hj' : ovsdbMonitorToJson t rID uniqueId = none := hj
          have he : (DbCall.monitor t (some monCb) receiptCb).exec o db = (.failed, db₂) := by
            simp only [DbCall.exec, ovsdbMonitor, rID, uniqueId, hj']; rfl
          exact Or.inl ⟨fun h => h.1 hj, by rw [he], by rw [he]; rfl, by rw [he]; rfl⟩
      | some j =>
          have hj' : ovsdbMonitorToJson t rID uniqueId = some j := hj
          by_cases hm : o.receiptNode = true
          · right
            have hr : (DbCall.monitor t (some monCb) receiptCb).Registers o db := ⟨by simp [hj], hm⟩
            by_cases hn : o.monNode = true
            · by_cases hs : o.send = .error
              · -- the undo may remove a monitor node; the receipt node stays
                have he : (DbCall.monitor t (some monCb) receiptCb).exec o db
                    = (.failed, { db₂ with
                        receipts := db.receipts ++ [node]
                        monitors := (monListRemove uniqueId (db.monitors ++ [mon])).getD
                          (db.monitors ++ [mon]) }) := by
                  simp only [DbCall.exec, ovsdbMonitor, rID, uniqueId, hj', receiptListAdd,
                    if_pos hm, monListAdd, if_pos hn, hs, ovsdbSocketWrite]
                  rfl
                exact ⟨hr, by rw [he]; simp [DbCall.Completes, hs], ⟨node, by rw [he]⟩,
                  Or.inl ⟨fun hc => hc.2 hs, by rw [he]; rfl⟩⟩
              -- both nodes are added and the request is out
              · have he : (DbCall.monitor t (some monCb) receiptCb).exec o db
                    = (.success, { db₂ with
                        receipts := db.receipts ++ [node]
                        monitors := db.monitors ++ [mon]
                        sent := db.sent ++ [⟨j, o.send⟩] }) := by
                  simp only [DbCall.exec, ovsdbMonitor, rID, uniqueId, hj', receiptListAdd,
                    if_pos hm, monListAdd, if_pos hn, ovsdbSocketWrite_of_ne hs]
                  rfl
                exact ⟨hr, by rw [he]; simp [DbCall.Completes, hs, hn], ⟨node, by rw [he]⟩,
                  Or.inr ⟨j, hj, hs, by rw [he]⟩⟩
            -- no memory for the monitor: its receipt node stays all the same
            · have he : (DbCall.monitor t (some monCb) receiptCb).exec o db
                  = (.failed, { db₂ with receipts := db.receipts ++ [node] }) := by
                simp only [DbCall.exec, ovsdbMonitor, rID, uniqueId, hj', receiptListAdd,
                  if_pos hm, monListAdd, if_neg hn]
                rfl
              exact ⟨hr, by rw [he]; simp [DbCall.Completes, hn], ⟨node, by rw [he]⟩,
                Or.inl ⟨fun hc => hn hc.1, by rw [he]; rfl⟩⟩
          · have he : (DbCall.monitor t (some monCb) receiptCb).exec o db = (.failed, db₂) := by
              simp only [DbCall.exec, ovsdbMonitor, rID, uniqueId, hj', receiptListAdd, if_neg hm]
              rfl
            exact Or.inl ⟨fun h => hm h.2, by rw [he], by rw [he]; rfl, by rw [he]; rfl⟩

/-- **What a call can do**: it is refused with nothing registered and nothing
sent, or its receipt node is added and the inputs decide the rest. -/
theorem exec_spec (o : Outcome) (call : DbCall) (db : OvsDbApi) :
    call.Refused o db ∨ call.Registered o db := by
  cases call with
  | write rID config receiptCb => exact ovsdbWrite_spec o rID config receiptCb db
  | monitor t monCb receiptCb => exact ovsdbMonitor_spec o t monCb receiptCb db
  | monitorCancel rID receiptCb => exact ovsdbMonitorCancel_spec o rID receiptCb db
  | delete t key value => exact ovsdbDelete_spec o t key value db

theorem exec_success_iff (o : Outcome) (call : DbCall) (db : OvsDbApi) :
    (call.exec o db).1 = .success ↔ call.Registers o db ∧ call.Completes o db := by
  rcases exec_spec o call db with h | h
  · simp [h.status, h.registers]
  · simp [h.status, h.registers]

/-! ## §3. Failed requests and the registries. -/

/-- **Failed requests and the lists.**  A call that does not return success
leaves the receipt list and the monitor list as they were exactly when it is
refused before its receipt node is added; no later failure point undoes that
registration. -/
theorem failed_unchanged_iff (o : Outcome) (call : DbCall) (db : OvsDbApi) :
    ((call.exec o db).1 ≠ .success → (call.exec o db).2.registries = db.registries)
      ↔ ¬ call.Registers o db ∨ call.Completes o db := by
  rcases exec_spec o call db with h | h
  · simp [h.registers, h.registries]
  · constructor
    · intro hk
      by_contra hnot
      push Not at hnot
      have hns : (call.exec o db).1 ≠ .success := fun hs => hnot.2 (h.status.1 hs)
      obtain ⟨node, hnode⟩ := h.receipts
      have hsame : (call.exec o db).2.receipts = db.receipts := congrArg Prod.fst (hk hns)
      rw [hsame] at hnode
      simpa using congrArg List.length hnode
    · rintro (hr | hc) hns
      · exact absurd h.registers hr
      · exact absurd (h.status.2 hc) hns

/-- A delete whose `send` answers -1 leaves its receipt node behind. -/
theorem ovsdbDelete_failed_leaves_node :
    let call := DbCall.delete .gwConfig (some ovsdbTableUuid) (some (ofString "u"))
    let o : Outcome := ⟨true, true, .error⟩
    ¬ ((call.exec o (.start 0)).1 ≠ .success →
        (call.exec o (.start 0)).2.registries = (OvsDbApi.start 0).registries) := by
  decide

/-! ## §4. The outgoing byte stream. -/

variable (dumps : Json → CString)

/-- The bytes of a request text that the socket took; `dumps` is `json_dumps`. -/
def Sent.accepted (s : Sent) : CString :=
  match s.result with
  | .error => []
  | .short n => (dumps s.request).take n
  | .whole => dumps s.request

/-- All bytes the socket has taken so far. -/
def OvsDbApi.stream (db : OvsDbApi) : CString := db.sent.flatMap (Sent.accepted dumps)

/-- The bytes taken so far are complete request texts, one after the other. -/
def OvsDbApi.WholeRequests (db : OvsDbApi) : Prop :=
  ∃ js : List Json, (∀ j ∈ js, j ∈ db.sent.map Sent.request) ∧ db.stream dumps = js.flatMap dumps

/-- If the call returns success, the socket has taken its whole text. -/
def DbCall.Whole (o : Outcome) (call : DbCall) (db : OvsDbApi) : Prop :=
  (call.exec o db).1 = .success →
    ∃ j, call.strJson db = some j ∧ (call.exec o db).2.stream dumps = db.stream dumps ++ dumps j

/-- `send` took nothing or everything. -/
def Outcome.NotShort (o : Outcome) : Prop := ∀ n, o.send ≠ .short n

/-- Calls of the request functions on a connected socket, in any order. -/
def requestMachine : Machine OvsDbApi (DbCall × Outcome) where
  init db := db.sent = []
  step db i := some (i.1.exec i.2 db).2

/-- Every text handed to the socket so far was taken whole. -/
def OvsDbApi.AllWhole (db : OvsDbApi) : Prop := ∀ s ∈ db.sent, s.result = .whole

/-- The step lemma: a call with no short count keeps `AllWhole`. -/
theorem allWhole_exec {o : Outcome} {call : DbCall} {db : OvsDbApi} (ho : o.NotShort)
    (h : db.AllWhole) : (call.exec o db).2.AllWhole := by
  rcases exec_spec o call db with hr | hr
  · unfold OvsDbApi.AllWhole
    rw [hr.sent]; exact h
  · rcases hr.sent with ⟨_, hsent⟩ | ⟨j, _, hne, hsent⟩
    · unfold OvsDbApi.AllWhole
      rw [hsent]; exact h
    · have hw : o.send = .whole := by
        cases hs : o.send with
        | error => exact absurd hs hne
        | short n => exact absurd hs (ho n)
        | whole => rfl
      intro s hs
      rw [hsent, List.mem_append, List.mem_singleton] at hs
      rcases hs with hs | rfl
      · exact h s hs
      · exact hw

/-- The run lemma. -/
theorem allWhole_of_reach {db : OvsDbApi}
    (h : requestMachine.Reach (fun _ i => i.2.NotShort) db) : db.AllWhole := by
  refine h.invariant (I := OvsDbApi.AllWhole) ?_ ?_
  · intro db h0 s hs
    have h0 : db.sent = [] := h0
    rw [h0] at hs; cases hs
  · intro db i db' hI hc hstep
    cases hstep
    exact allWhole_exec hc hI

theorem stream_of_allWhole {db : OvsDbApi} (h : db.AllWhole) :
    db.stream dumps = (db.sent.map Sent.request).flatMap dumps := by
  unfold OvsDbApi.stream
  rw [List.flatMap_map]
  refine List.flatMap_congr fun s hs => ?_
  rw [Sent.accepted, h s hs]

/-- **Outgoing stream integrity.**  In every run of request calls in which no
`send` answers a short count, the bytes taken so far are complete request
texts, and a further such call that returns success has its whole text taken. -/
theorem requests_whole {db : OvsDbApi}
    (h : requestMachine.Reach (fun _ i => i.2.NotShort) db) :
    db.WholeRequests dumps ∧ ∀ (call : DbCall) (o : Outcome), o.NotShort → call.Whole dumps o db := by
  have hall := allWhole_of_reach h
  refine ⟨⟨_, fun _ hj => hj, stream_of_allWhole dumps hall⟩, fun call o ho hsucc => ?_⟩
  rcases exec_spec o call db with hr | hr
  · rw [hr.status] at hsucc; cases hsucc
  · rcases hr.sent with ⟨hnc, _⟩ | ⟨j, hj, _, hsent⟩
    · exact absurd (hr.status.1 hsucc) hnc
    · refine ⟨j, hj, ?_⟩
      rw [stream_of_allWhole dumps (allWhole_exec ho hall), stream_of_allWhole dumps hall, hsent]
      simp

mutual

/-- `json_dumps(js, JSON_COMPACT)` of a value whose strings need no escapes. -/
def compactText : Json → CString
  | .null => ofString "null"
  | .bool b => if b then ofString "true" else ofString "false"
  | .integer i => if i < 0 then ofString "-" ++ utoa i.natAbs else utoa i.natAbs
  | .real text => text
  | .string s => ofString "\"" ++ s ++ ofString "\""
  | .array elements => ofString "[" ++ compactElements elements ++ ofString "]"
  | .object members => ofString "\x7b" ++ compactMembers members ++ ofString "\x7d"

def compactElements : List Json → CString
  | [] => []
  | [value] => compactText value
  | value :: elements => compactText value ++ ofString "," ++ compactElements elements

def compactMembers : List (CString × Json) → CString
  | [] => []
  | [(key, value)] => ofString "\"" ++ key ++ ofString "\":" ++ compactText value
  | (key, value) :: members =>
      ofString "\"" ++ key ++ ofString "\":" ++ compactText value ++ ofString "," ++ compactMembers members

end

/-- A monitor request of a fresh process, and the text `json_dumps` prints for it. -/
def firstMonitor : DbCall := .monitor .gwConfig (some .gwconfMonCb) none

def firstMonitorText : CString :=
  ofString "\x7b\"method\":\"monitor\",\"params\":[\"Open_vSwitch\",\"1\"," ++
    ofString "\x7b\"Gateway_Config\":\x7b\x7d\x7d],\"id\":\"2\"\x7d"

/-- The process after its first monitor request; the second one has other ids. -/
def firstMonitorDb : OvsDbApi := (firstMonitor.exec .ok (.start 0)).2

theorem requests_whole_firstMonitor : firstMonitorDb.stream compactText = firstMonitorText ∧
    firstMonitorDb.WholeRequests compactText ∧ firstMonitor.Whole compactText .ok firstMonitorDb := by
  have hns : Outcome.ok.NotShort := by intro n hn; cases hn
  have h0 : requestMachine.init (.start 0) := rfl
  have hr : requestMachine.Reach (fun _ i => i.2.NotShort) firstMonitorDb :=
    .step (i := (firstMonitor, .ok)) (.init h0) hns rfl
  obtain ⟨hw, hc⟩ := requests_whole compactText hr
  exact ⟨by decide +kernel, hw, hc firstMonitor .ok hns⟩

/-- A `send` that takes five bytes of it: the call returns success all the same. -/
theorem firstMonitor_cut_short :
    ¬ (firstMonitor.Whole (fun _ => firstMonitorText) ⟨true, true, .short 5⟩ (.start 0) ∧
        (firstMonitor.exec ⟨true, true, .short 5⟩ (.start 0)).2.WholeRequests
          (fun _ => firstMonitorText)) := by
  rintro ⟨hw, _⟩
  obtain ⟨j, _, hj⟩ := hw (by decide)
  have hall : (firstMonitor.exec ⟨true, true, .short 5⟩ (.start 0)).2.stream
      (fun _ => firstMonitorText) = firstMonitorText := hj
  exact absurd hall (by decide)

end OvsAgent
