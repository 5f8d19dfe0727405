/-
  OvsAgent.DbApi.WireIds — the id in the request and the id in the list.

  `ovsdb_write` prints its `rID` whole into the JSON text and hands it to
  `receipt_list_add`, which keeps the first `MAX_UUID_LEN` bytes.  A reply
  brings the printed id back, and `receipt_list_process` compares one byte more
  than was kept: an id that lost its end is never found again.

  Main result: `written_reply_matched_iff` — the reply to an accepted write
  reaches the entry of that write exactly when the id was kept whole.
-/
import OvsAgent.DbApi.Requests
import OvsAgent.DbApi.ReceiptList
import OvsAgent.DbApi.ReceiptSafety

namespace OvsAgent

open CString (ofString strncpy strncmpEq)
open Json

/-! ## §1. The id on the wire. -/

/-- The id of the request the socket took last. -/
def OvsDbApi.sentId (db : OvsDbApi) : Option CString :=
  match db.sent.getLast? with
  | none => none
  | some sent => stringValue (objectGet (some sent.request) (ofString "id"))

/-- The envelope carries the id it was given, whatever the row. -/
theorem transactInsert_id {rid : CString} (hrid : utf8Valid rid = true) (table : CString)
    (row : List (CString × Json)) :
    objectGet (some (transactInsert table row rid)) (ofString "id") = some (.string rid) := by
  unfold transactInsert
  rw [jsonString_of_valid hrid]
  rfl

/-- The request goes out under the caller's id. -/
theorem insertToJson_id {rid : CString} (hrid : utf8Valid rid = true) {config : RdkbTableConfig} {msg : Json}
    (h : ovsdbInsertToJson config rid = some msg) :
    objectGet (some msg) (ofString "id") = some (.string rid) := by
  match config with
  | .gwConfig (some config) =>
      cases h
      exact transactInsert_id hrid _ _
  | .feedback (some config) =>
      cases h
      exact transactInsert_id hrid _ _
  | .gwConfig none | .feedback none | .notify _ | .logbook _ => cases h

/-- The entry `ovsdb_write` registers. -/
def writtenNode (rID : CString) (receiptCb : Option OvsdbReceiptCb) : ReceiptNode :=
  ⟨strncpy maxUuidLen rID, some (receiptCb.getD .dummyReceiptCb), .insert⟩

/-- **What an accepted write leaves behind**: its entry at the end of the list,
and its id on the wire. -/
theorem ovsdbWrite_success {o : Outcome} {rID : CString} {config : RdkbTableConfig}
    {receiptCb : Option OvsdbReceiptCb} {db db' : OvsDbApi} (hrid : utf8Valid rID = true)
    (h : ovsdbWrite o (some rID) (some config) receiptCb db = (.success, db')) :
    db'.receipts = db.receipts ++ [writtenNode rID receiptCb] ∧ db'.sentId = some rID := by
  have hcall : ((DbCall.write (some rID) (some config) receiptCb).exec o db).1 = .success :=
    congrArg Prod.fst h
  obtain ⟨⟨hjson, hmem⟩, hsend⟩ := (exec_success_iff _ _ _).1 hcall
  obtain ⟨msg, hmsg⟩ := Option.ne_none_iff_exists'.1 hjson
  have hmsg : ovsdbInsertToJson config rID = some msg := hmsg
  have hwrite : ovsdbWrite o (some rID) (some config) receiptCb db
      = (.success, { db with
          receipts := db.receipts ++ [writtenNode rID receiptCb]
          sent := db.sent ++ [⟨msg, o.send⟩] }) := by
    unfold ovsdbWrite
    dsimp only
    rw [hmsg]
    exact registerAndWrite_sent rID .insert (some (receiptCb.getD .dummyReceiptCb)) db hmem hsend
  rw [hwrite] at h
  cases h
  refine ⟨rfl, ?_⟩
  unfold OvsDbApi.sentId
  rw [List.getLast?_concat]
  show stringValue (objectGet (some msg) (ofString "id")) = some rID
  rw [insertToJson_id hrid hmsg]
  rfl

/-! ## §2. The reply. -/

/-- An id longer than the array of an entry matches nothing. -/
theorem receiptListSearch_long {adds : CallbackAdds} {rid : CString} {result : Option Json}
    (hlong : maxUuidLen < rid.length) {nodes : List ReceiptNode}
    (hfit : ∀ n ∈ nodes, n.rid.length ≤ maxUuidLen) :
    receiptListSearch adds rid result nodes = .ok ⟨.failed, [], nodes⟩ := by
  refine receiptListSearch_absent hfit fun n hn => ?_
  rintro rfl
  exact absurd (hfit n hn) (Nat.not_le.2 hlong)

/-- A reply under an id that no receipt can hold leaves the list. -/
theorem Reply.handle_long {j : JsonLoads} (reply : Reply j) (adds : CallbackAdds) (l : ReceiptList)
    (hlong : maxUuidLen < reply.rid.length) : reply.handle adds l = .ok ([], l.nodes) := by
  unfold Reply.handle
  rw [reply.parse]
  simp only [processReceipts, receiptListProcess]
  rw [receiptListSearch_long hlong l.fits]
  rfl

/-- **Ids on the wire.**  Let `ovsdb_write` accept a request whose id is none of
those in the list, and register `node` for it.  Whatever entries before it are
gone by then and whatever entries came behind it: a success reply that brings
back the id in the text sent is matched to `node`, whose callback is invoked
and which is removed, exactly when the id has at most `MAX_UUID_LEN` bytes. -/
theorem written_reply_matched_iff {j : JsonLoads} {o : Outcome} {rID : CString} {config : RdkbTableConfig}
    {receiptCb : Option OvsdbReceiptCb} {db db' : OvsDbApi} {node : ReceiptNode}
    (hwrite : ovsdbWrite o (some rID) (some config) receiptCb db = (.success, db'))
    (hrid : utf8Valid rID = true) (hnew : ∀ n ∈ db.receipts, n.rid ≠ rID)
    (hnode : db'.receipts = db.receipts ++ [node])
    {l : ReceiptList} {kept later : List ReceiptNode} (hkept : kept.Sublist db.receipts)
    (hl : l.nodes = kept ++ node :: later)
    (reply : Reply j) (hecho : db'.sentId = some reply.rid) (hresult : Accepts .insert reply.result)
    (adds : CallbackAdds) :
    l.Consumes adds reply.rid node (reply.handle adds l) ↔ rID.length ≤ maxUuidLen := by
  obtain ⟨hnodes, hsent⟩ := ovsdbWrite_success hrid hwrite
  rw [hsent] at hecho
  cases hecho
  -- the node at the end of the list is the one written
  obtain rfl : node = writtenNode reply.rid receiptCb := by
    rw [hnode] at hnodes
    exact List.singleton_inj.1 (List.append_cancel_left hnodes)
  by_cases hlen : reply.rid.length ≤ maxUuidLen
  · refine iff_of_true ?_ hlen
    have hid : (writtenNode reply.rid receiptCb).rid = reply.rid := CString.strncpy_of_length_le hlen
    have hpre : ∀ n ∈ kept, n.rid ≠ reply.rid := fun n hn => hnew n (hkept.subset hn)
    have hcb : (writtenNode reply.rid receiptCb).callback.isSome := rfl
    obtain ⟨call, hans, _⟩ := @ReceiptNode.exists_call _ reply.rid _ hcb hresult
    obtain ⟨_, hcall, hrid'⟩ := ReceiptNode.answer_eq_call hans
    rw [reply.handle_eq adds hl hid hpre, hans]
    exact ⟨kept, later, call, hl, hpre, hcall, hrid', rfl⟩
  · refine iff_of_false ?_ hlen
    intro ⟨_, _, _, _, _, _, _, hr⟩
    rw [reply.handle_long adds l (Nat.not_le.1 hlen)] at hr
    cases hr

/-- The reply to an insert under `rid`, and its text. -/
def echoMsg (rid : CString) : Json :=
  .object [(ofString "id", .string rid),
    (ofString "result", insertedAs (.array [.string ovsdbTableUuid, .string (ofString "u")])),
    (ofString "error", .null)]

/-- The text of the reply. -/
def echoText (rid : CString) : CString :=
  ofString "\x7b\"id\":\"" ++ rid
    ++ ofString "\",\"result\":[\x7b\"uuid\":[\"uuid\",\"u\"]\x7d],\"error\":null\x7d"

theorem echoText_ne_nil (rid : CString) : echoText rid ≠ [] := by
  intro h
  cases h

def echoReply (rid : CString) : Reply (.single (echoText rid) (echoMsg rid) (echoText_ne_nil rid)) where
  text := echoText rid
  msg := echoMsg rid
  rid := rid
  loads := JsonLoads.single_loads _ _ _
  id := rfl

/-- An insert takes it for a success. -/
theorem echoReply_accepted (rid : CString) : Accepts .insert (echoReply rid).result :=
  ⟨_, _, _, _, rfl, rfl, by decide⟩

/-- A process that has written one Feedback under `rID`, and its list. -/
def writtenOne (rID : CString) : OvsStatus × OvsDbApi :=
  ovsdbWrite .ok (some rID) (some (.feedback (some ⟨0, ⟨0, ofString "u"⟩⟩))) none (.start 0)

def writtenList (rID : CString) : ReceiptList where
  nodes := [writtenNode rID none]
  fits := by
    intro n hn
    rw [List.mem_singleton.1 hn]
    exact CString.strncpy_length_le _ _

theorem written_reply_matched_iff_one :
    (writtenList (ofString "1")).Consumes (fun _ => []) (ofString "1") (writtenNode (ofString "1") none)
      ((echoReply (ofString "1")).handle (fun _ => []) (writtenList (ofString "1"))) := by
  have hwrite : writtenOne (ofString "1") = (.success, (writtenOne (ofString "1")).2) := rfl
  have hnew : ∀ n ∈ (OvsDbApi.start 0).receipts, n.rid ≠ ofString "1" := by
    intro n hn
    cases hn
  have hkept : List.Sublist [] (OvsDbApi.start 0).receipts := List.Sublist.refl _
  exact (written_reply_matched_iff hwrite (by decide) hnew rfl hkept rfl
    (echoReply (ofString "1")) rfl (echoReply_accepted _) (fun _ => [])).2 (by decide)

/-- An id of 37 bytes: the write is accepted and the id sent, and the reply that
brings it back leaves the entry where it is. -/
theorem long_id_not_matched :
    let rID : CString := List.replicate 37 97
    utf8Valid rID = true ∧ (writtenOne rID).1 = .success ∧ (writtenOne rID).2.receipts =
      (writtenList rID).nodes ∧
      (writtenOne rID).2.sentId = some (echoReply rID).rid ∧ Accepts .insert (echoReply rID).result ∧
      ¬ (writtenList rID).Consumes (fun _ => []) rID (writtenNode rID none)
        ((echoReply rID).handle (fun _ => []) (writtenList rID)) := by
  have hvalid : utf8Valid (List.replicate 37 97) = true := by decide
  have hwrite : writtenOne (List.replicate 37 97) = (.success, (writtenOne (List.replicate 37 97)).2) := rfl
  refine ⟨hvalid, rfl, rfl, (ovsdbWrite_success hvalid hwrite).2, echoReply_accepted _, ?_⟩
  intro ⟨_, _, _, _, _, _, _, hr⟩
  rw [Reply.handle_long _ _ _ (by decide)] at hr
  cases hr

end OvsAgent
