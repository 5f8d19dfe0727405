/-
  OvsAgent.DbApi.ReceiptList — a reply and the request it answers.

  Follows `receipt_list_process`: the first entry with the reply's id is
  looked up, the reply's `result` goes through the parser of the entry's type,
  and only then is the callback called and the entry unlinked.  Nothing on the
  way looks at the reply's `error` member.

  Main results:
    * `consumed_iff` — a reply consumes its entry exactly when the result is
      one that the parser of the entry's type takes (and there is a callback);
    * `error_not_success_iff` — a reply with an error is kept from being
      reported as success exactly when its result is not such a one, nor one
      whose uuid is copied past the end of its array.
-/
import OvsAgent.DbApi.OvsDbApi
import OvsAgent.DbApi.OvsdbParser
import OvsAgent.DbApi.ReceiptSafety

namespace OvsAgent

open CString (ofString strncpy strncmpEq)
open Json

/-! ## §1. `receipt_list_process`. -/

/-- A callback invoked with a receipt. -/
structure ReceiptCall where
  callback : OvsdbReceiptCb
  rid : CString
  receipt : OvsDbReceipt
  deriving Repr, DecidableEq

/-- What a callback adds to the list with requests of its own: the entry is
still there while it runs. -/
abbrev CallbackAdds : Type := ReceiptCall → List ReceiptNode

/-- What `receipt_list_process` comes back with. -/
structure ReceiptListResult where
  status : OvsStatus
  calls : List ReceiptCall
  receipts : List ReceiptNode

/-- What is done for the entry found: `none` when the result was not parsed. -/
def ReceiptNode.answer (node : ReceiptNode) (rid : CString) (result : Option Json) :
    Except Fault (Option ReceiptCall) :=
  match ovsdbParseResult node.receiptType result with
  | .error fault => .error fault
  | .ok none => .ok none
  | .ok (some receipt) =>
      match node.callback with
      | none => .error .nullCall
      | some cb => .ok (some ⟨cb, rid, receipt⟩)

/-- The search of `receipt_list_process`; what is done for the head of the list
and for a later node is the same. -/
def receiptListSearch (adds : CallbackAdds) (rid : CString) (result : Option Json) :
    List ReceiptNode → Except Fault ReceiptListResult
  | [] => .ok ⟨.failed, [], []⟩
  | node :: msgList =>
      if strncmpEq (maxUuidLen + 1) rid node.rid then
        match node.answer rid result with
        | .error fault => .error fault
        -- the entry stays
        | .ok none => .ok ⟨.failed, [], node :: msgList⟩
        | .ok (some call) => .ok ⟨.success, [call], msgList ++ adds call⟩
      else
        match receiptListSearch adds rid result msgList with
        | .error fault => .error fault
        | .ok r => .ok { r with receipts := node :: r.receipts }

/-- `receipt_list_process`. -/
def receiptListProcess (adds : CallbackAdds) (rid : Option CString) (result : Option Json)
    (msgList : List ReceiptNode) : Except Fault ReceiptListResult :=
  match rid with
  | none => .ok ⟨.failed, [], msgList⟩
  | some rid => receiptListSearch adds rid result msgList

/-- What the calls out of the parser do to the receipt list, and the callbacks
they invoke; `mon_list_process` leaves this list alone. -/
def processReceipts (adds : CallbackAdds) :
    List Dispatch → List ReceiptNode → Except Fault (List ReceiptCall × List ReceiptNode)
  | [], msgList => .ok ([], msgList)
  | .update _ _ :: calls, msgList => processReceipts adds calls msgList
  | .receipt rid result :: calls, msgList =>
      match receiptListProcess adds rid result msgList with
      | .error fault => .error fault
      | .ok r =>
          match processReceipts adds calls r.receipts with
          | .error fault => .error fault
          | .ok (later, receipts) => .ok (r.calls ++ later, receipts)

/-! ## §2. The list. -/

/-- The receipt list: an id lies in an array of `MAX_UUID_LEN + 1` bytes. -/
structure ReceiptList where
  nodes : List ReceiptNode
  fits : ∀ node ∈ nodes, node.rid.length ≤ maxUuidLen

namespace ReceiptList

/-- The first entry with the id. -/
def first (l : ReceiptList) (rid : CString) : Option ReceiptNode := l.nodes.find? fun node => node.rid = rid

/-- Where the first entry stands. -/
theorem first_split {l : ReceiptList} {rid : CString} {node : ReceiptNode} (h : l.first rid = some node) :
    node.rid = rid ∧ ∃ pre post, l.nodes = pre ++ node :: post ∧ ∀ n ∈ pre, n.rid ≠ rid := by
  unfold first at h
  obtain ⟨hid, pre, post, heq, hpre⟩ := List.find?_eq_some_iff_append.1 h
  refine ⟨of_decide_eq_true hid, pre, post, heq, fun n hn hid' => ?_⟩
  have := hpre n hn
  rw [decide_eq_true hid'] at this
  cases this

end ReceiptList

/-- The search passes over entries with other ids. -/
theorem receiptListSearch_append {adds : CallbackAdds} {rid : CString} {result : Option Json}
    (hrid : rid.length ≤ maxUuidLen) {pre : List ReceiptNode} (rest : List ReceiptNode)
    (hfit : ∀ n ∈ pre, n.rid.length ≤ maxUuidLen) (hne : ∀ n ∈ pre, n.rid ≠ rid) :
    receiptListSearch adds rid result (pre ++ rest)
      = (receiptListSearch adds rid result rest).map fun r => { r with receipts := pre ++ r.receipts } := by
  induction pre with
  | nil =>
      rw [List.nil_append]
      cases receiptListSearch adds rid result rest <;> rfl
  | cons n pre ih =>
      have hn : ¬ strncmpEq (maxUuidLen + 1) rid n.rid = true := by
        rw [CString.strncmpEq_iff_eq (Nat.le_succ_of_le hrid)
          (Nat.le_succ_of_le (hfit n (List.mem_cons_self ..)))]
        exact fun h => hne n (List.mem_cons_self ..) h.symm
      rw [List.cons_append, receiptListSearch, if_neg hn,
        ih (fun n hn => hfit n (List.mem_cons_of_mem _ hn)) fun n hn => hne n (List.mem_cons_of_mem _ hn)]
      cases receiptListSearch adds rid result rest <;> rfl

/-- The search ends at the first entry with the id. -/
theorem receiptListSearch_first {adds : CallbackAdds} {l : ReceiptList} {rid : CString} {result : Option Json}
    {node : ReceiptNode} {pre post : List ReceiptNode} (heq : l.nodes = pre ++ node :: post)
    (hid : node.rid = rid) (hpre : ∀ n ∈ pre, n.rid ≠ rid) :
    receiptListSearch adds rid result l.nodes = match node.answer rid result with
      | .error fault => .error fault
      | .ok none => .ok ⟨.failed, [], l.nodes⟩
      | .ok (some call) => .ok ⟨.success, [call], pre ++ post ++ adds call⟩ := by
  have hfit : ∀ n ∈ pre, n.rid.length ≤ maxUuidLen := by
    intro n hn
    exact l.fits n (heq ▸ List.mem_append_left _ hn)
  have hnode : node.rid.length ≤ maxUuidLen :=
    l.fits node (heq ▸ List.mem_append_right _ (List.mem_cons_self ..))
  have hsame : strncmpEq (maxUuidLen + 1) rid node.rid = true := by
    rw [hid]
    exact CString.strncmpEq_self _ _
  rw [heq, receiptListSearch_append (hid ▸ hnode) _ hfit hpre, receiptListSearch, if_pos hsame]
  match node.answer rid result with
  | .error fault => rfl
  | .ok none => rfl
  | .ok (some call) => simp only [Except.map, List.append_assoc]

/-- The search for an id that no entry has. -/
theorem receiptListSearch_absent {adds : CallbackAdds} {rid : CString} {result : Option Json}
    {nodes : List ReceiptNode} (hfit : ∀ n ∈ nodes, n.rid.length ≤ maxUuidLen)
    (hno : ∀ n ∈ nodes, n.rid ≠ rid) :
    receiptListSearch adds rid result nodes = .ok ⟨.failed, [], nodes⟩ := by
  induction nodes with
  | nil => rfl
  | cons n nodes ih =>
      -- the comparison sees the end of the stored id
      have hne : ¬ strncmpEq (maxUuidLen + 1) rid n.rid = true := fun h =>
        hno n (List.mem_cons_self ..) (CString.eq_of_strncmpEq_succ (hfit n (List.mem_cons_self ..)) h).symm
      rw [receiptListSearch, if_neg hne,
        ih (fun n' hn' => hfit n' (List.mem_cons_of_mem _ hn'))
        fun n' hn' => hno n' (List.mem_cons_of_mem _ hn')]

/-! ## §3. What the parsers take. -/

/-- The results the parser of the type makes a receipt of. -/
def Accepts : OvsdbReceiptId → Option Json → Prop
  | .unknown, _ => False
  | _, none => False
  | .insert, some result => ∃ first rest uuid tail, result = .array (first :: rest) ∧
      objectGet (some first) ovsdbTableUuid
        = some (.array (.string ovsdbTableUuid :: .string uuid :: tail)) ∧ uuid.length ≤ maxUuidLen
  | .delete, some result => ∃ first rest count, result = .array (first :: rest) ∧
      objectGet (some first) (ofString "count") = some (.integer count)
  -- the parsers of the other two look at nothing
  | _, some _ => True

/-- A receipt that claims success. -/
def OvsDbReceipt.ClaimsSuccess : OvsDbReceipt → Prop
  | .insert error _ => error = []
  | .monitor error _ => error = []
  | .monitorCancel error isSuccessful => error = [] ∧ isSuccessful = true
  | .delete error _ => error = []

/-- The function made a receipt, and one that claims success. -/
def MakesReceipt (r : Except Fault (Option OvsDbReceipt)) : Prop :=
  ∃ receipt, r = .ok (some receipt) ∧ receipt.ClaimsSuccess

theorem not_makesReceipt_none : ¬ MakesReceipt (.ok none) := by
  intro ⟨_, h, _⟩
  cases h

theorem not_makesReceipt_error (fault : Fault) : ¬ MakesReceipt (.error fault) := by
  intro ⟨_, h, _⟩
  cases h

/-- What the element under `"uuid"` has to be. -/
theorem insertReceiptParser_tagged (first : Json) (rest : List Json) {elements : List Json}
    (h : objectGet (some first) ovsdbTableUuid = some (.array elements)) :
    MakesReceipt (insertReceiptParser (.array (first :: rest)))
      ↔ ∃ uuid tail, elements = .string ovsdbTableUuid :: .string uuid :: tail ∧
        uuid.length ≤ maxUuidLen := by
  have hget : arrayGet (some (.array (first :: rest))) 0 = some first := rfl
  unfold insertReceiptParser
  simp only [isArray, hget, h, Bool.not_true, Bool.false_eq_true, if_false]
  cases elements with
  | nil => exact iff_of_false not_makesReceipt_none (by rintro ⟨_, _, ⟨⟩, _⟩)
  | cons element tail =>
      cases element with
      | string tag =>
          simp only [arrayGet, List.getElem?_cons_zero, stringValue]
          by_cases htag : tag = ovsdbTableUuid
          · rw [if_neg (not_not.2 htag)]
            subst htag
            rcases tail with _ | ⟨uuid, tail⟩
            -- the tag without a string behind it: `strcpy` from NULL
            · exact iff_of_false (not_makesReceipt_error _) (by rintro ⟨_, _, ⟨⟩, _⟩)
            cases uuid with
            | string uuid =>
                simp only [List.getElem?_cons_succ, List.getElem?_cons_zero]
                by_cases hlen : uuid.length ≤ maxUuidLen
                · rw [if_pos hlen]
                  exact iff_of_true ⟨_, rfl, rfl⟩ ⟨uuid, tail, rfl, hlen⟩
                · rw [if_neg hlen]
                  refine iff_of_false (not_makesReceipt_error _) ?_
                  rintro ⟨_, _, heq, hlen'⟩
                  cases heq
                  exact hlen hlen'
            | _ => exact iff_of_false (not_makesReceipt_error _) (by rintro ⟨_, _, ⟨⟩, _⟩)
          · rw [if_pos htag]
            refine iff_of_false not_makesReceipt_none ?_
            rintro ⟨_, _, heq, _⟩
            cases heq
            exact htag rfl
      | _ => exact iff_of_false not_makesReceipt_none (by rintro ⟨_, _, ⟨⟩, _⟩)

theorem insertReceiptParser_iff (result : Json) :
    MakesReceipt (insertReceiptParser result) ↔ Accepts .insert (some result) := by
  unfold Accepts
  match result with
  | .array (first :: rest) =>
      cases h : objectGet (some first) ovsdbTableUuid with
      | some value =>
          match value with
          | .array elements =>
              rw [insertReceiptParser_tagged first rest h]
              constructor
              · intro ⟨uuid, tail, heq, hlen⟩
                exact ⟨first, rest, uuid, tail, rfl, heq ▸ h, hlen⟩
              · intro ⟨_, _, uuid, tail, heq, hget, hlen⟩
                cases heq
                rw [h] at hget
                cases hget
                exact ⟨uuid, tail, rfl, hlen⟩
          | .null | .bool _ | .integer _ | .real _ | .string _ | .object _ =>
              refine iff_of_false ?_ fun ⟨_, _, _, _, heq, hget, _⟩ => ?_
              · simp only [insertReceiptParser, arrayGet, List.getElem?_cons_zero, h]
                exact not_makesReceipt_none
              · cases heq; rw [h] at hget; cases hget
      | none =>
          refine iff_of_false ?_ fun ⟨_, _, _, _, heq, hget, _⟩ => ?_
          · simp only [insertReceiptParser, arrayGet, List.getElem?_cons_zero, h]
            exact not_makesReceipt_none
          · cases heq; rw [h] at hget; cases hget
  | .array [] | .null | .bool _ | .integer _ | .real _ | .string _ | .object _ =>
      exact iff_of_false not_makesReceipt_none fun ⟨_, _, _, _, heq, _⟩ => by cases heq

theorem deleteReceiptParser_iff (result : Json) :
    MakesReceipt (deleteReceiptParser result) ↔ Accepts .delete (some result) := by
  unfold Accepts
  match result with
  | .array (first :: rest) =>
      have hget : arrayGet (some (.array (first :: rest))) 0 = some first := rfl
      unfold deleteReceiptParser
      simp only [isArray, hget, Bool.not_true, Bool.false_eq_true, if_false]
      cases h : objectGet (some first) (ofString "count") with
      | some value =>
          match value with
          | .integer count => exact iff_of_true ⟨_, rfl, rfl⟩ ⟨first, rest, count, rfl, h⟩
          | .null | .bool _ | .real _ | .string _ | .array _ | .object _ =>
              refine iff_of_false not_makesReceipt_none fun ⟨_, _, _, heq, hget'⟩ => ?_
              cases heq; rw [h] at hget'; cases hget'
      | none =>
          refine iff_of_false not_makesReceipt_none fun ⟨_, _, _, heq, hget'⟩ => ?_
          cases heq; rw [h] at hget'; cases hget'
  | .array [] | .null | .bool _ | .integer _ | .real _ | .string _ | .object _ =>
      exact iff_of_false not_makesReceipt_none fun ⟨_, _, _, heq, _⟩ => by cases heq

/-- **What `ovsdb_parse_result` takes**, and that every receipt it makes claims
success: no parser writes an error text. -/
theorem ovsdbParseResult_iff (type : OvsdbReceiptId) (result : Option Json) :
    MakesReceipt (ovsdbParseResult type result) ↔ Accepts type result := by
  cases result with
  | none => cases type <;> exact iff_of_false not_makesReceipt_none id
  | some result =>
      cases type with
      | unknown => exact iff_of_false (not_makesReceipt_error _) id
      | insert => exact insertReceiptParser_iff result
      | monitor => exact iff_of_true ⟨_, rfl, rfl⟩ trivial
      | monitorCancel => exact iff_of_true ⟨_, rfl, rfl, rfl⟩ trivial
      | delete => exact deleteReceiptParser_iff result

theorem claimsSuccess_of_parsed {type : OvsdbReceiptId} {result : Option Json} {receipt : OvsDbReceipt}
    (h : ovsdbParseResult type result = .ok (some receipt)) : receipt.ClaimsSuccess := by
  cases result with
  | none => cases type <;> cases h
  | some result =>
      cases type with
      | unknown => cases h
      | insert => obtain ⟨uuid, rfl, _⟩ := insertReceiptParser_ok h; rfl
      | monitor => cases h; rfl
      | monitorCancel => cases h; exact ⟨rfl, rfl⟩
      | delete => obtain ⟨count, rfl⟩ := deleteReceiptParser_ok h; rfl

theorem accepts_of_parsed {type : OvsdbReceiptId} {result : Option Json} {receipt : OvsDbReceipt}
    (h : ovsdbParseResult type result = .ok (some receipt)) : Accepts type result :=
  (ovsdbParseResult_iff type result).1 ⟨receipt, h, claimsSuccess_of_parsed h⟩

/-! ## §4. A reply. -/

/-- A reply and its text, with a request's id. -/
structure Reply (j : JsonLoads) where
  text : CString
  msg : Json
  rid : CString
  loads : j.loads text = some (msg, text.length)
  id : objectGet (some msg) (ofString "id") = some (.string rid)

/-- The reply's `result` member. -/
def Reply.result {j : JsonLoads} (reply : Reply j) : Option Json :=
  objectGet (some reply.msg) (ofString "result")

/-- A reply whose `error` member is present and not null. -/
structure ErrorReply (j : JsonLoads) extends Reply j where
  error : ∃ e, objectGet (some msg) (ofString "error") = some e ∧ isNull (some e) = false

/-- The reply is read by `ovsdb_parse_msg`. -/
def Reply.handle {j : JsonLoads} (reply : Reply j) (adds : CallbackAdds) (l : ReceiptList) :
    Except Fault (List ReceiptCall × List ReceiptNode) :=
  processReceipts adds (ovsdbParseMsg j reply.text reply.text.length) l.nodes

/-- The text is one reply: it is looked up once. -/
theorem Reply.parse {j : JsonLoads} (reply : Reply j) :
    ovsdbParseMsg j reply.text reply.text.length = [.receipt (some reply.rid) reply.result] := by
  have hmsg : ovsdbHandleMsg reply.msg = some [.receipt (some reply.rid) reply.result] := by
    unfold ovsdbHandleMsg
    rw [reply.id]
    rfl
  exact ovsdbParseMsg_single reply.loads hmsg

/-- What the reply does is what the parser of the first entry's type says. -/
theorem Reply.handle_eq {j : JsonLoads} (reply : Reply j) (adds : CallbackAdds) {l : ReceiptList}
    {node : ReceiptNode} {pre post : List ReceiptNode} (heq : l.nodes = pre ++ node :: post)
    (hid : node.rid = reply.rid) (hpre : ∀ n ∈ pre, n.rid ≠ reply.rid) :
    reply.handle adds l = match node.answer reply.rid reply.result with
      | .error fault => .error fault
      | .ok none => .ok ([], l.nodes)
      | .ok (some call) => .ok ([call], pre ++ post ++ adds call) := by
  unfold Reply.handle
  rw [reply.parse]
  simp only [processReceipts, receiptListProcess]
  rw [receiptListSearch_first heq hid hpre]
  match node.answer reply.rid reply.result with
  | .error fault => rfl
  | .ok none => rfl
  | .ok (some call) => simp only [List.append_nil]

theorem ReceiptNode.answer_eq_call {node : ReceiptNode} {rid : CString} {result : Option Json}
    {call : ReceiptCall} (h : node.answer rid result = .ok (some call)) :
    ovsdbParseResult node.receiptType result = .ok (some call.receipt) ∧
      node.callback = some call.callback ∧ call.rid = rid := by
  unfold ReceiptNode.answer at h
  split at h
  · cases h
  · cases h
  · next receipt hparse =>
      split at h
      · cases h
      · next cb hcb => cases h; exact ⟨hparse, hcb, rfl⟩

theorem ReceiptNode.exists_call {node : ReceiptNode} {rid : CString} {result : Option Json}
    (hcb : node.callback.isSome) (h : Accepts node.receiptType result) :
    ∃ call, node.answer rid result = .ok (some call) ∧ call.receipt.ClaimsSuccess := by
  obtain ⟨receipt, hparse, hclaims⟩ := (ovsdbParseResult_iff _ _).2 h
  obtain ⟨cb, hcb⟩ := Option.isSome_iff_exists.1 hcb
  refine ⟨⟨cb, rid, receipt⟩, ?_, hclaims⟩
  unfold ReceiptNode.answer
  rw [hparse, hcb]

/-- A reply to request 1, and its text. -/
def replyMsg (result error : Json) : Json :=
  .object [(ofString "id", .string (ofString "1")), (ofString "result", result), (ofString "error", error)]

def Reply.one (text : CString) (h : text ≠ []) (result error : Json) :
    Reply (.single text (replyMsg result error) h) where
  text := text
  msg := replyMsg result error
  rid := ofString "1"
  loads := JsonLoads.single_loads _ _ _
  id := rfl

/-- One pending request, with id 1. -/
def pendingRequest (type : OvsdbReceiptId) (cb : OvsdbReceiptCb) : ReceiptList where
  nodes := [⟨ofString "1", some cb, type⟩]
  fits := by
    intro node hnode
    rw [List.mem_singleton] at hnode
    rw [hnode]
    show (ofString "1").length ≤ maxUuidLen
    decide

/-- The entry is consumed: its callback is invoked once, with the reply's id,
and the entry is removed from the list and no other. -/
def ReceiptList.Consumes (l : ReceiptList) (adds : CallbackAdds) (rid : CString) (node : ReceiptNode)
    (r : Except Fault (List ReceiptCall × List ReceiptNode)) : Prop :=
  ∃ pre post call, l.nodes = pre ++ node :: post ∧ (∀ n ∈ pre, n.rid ≠ rid) ∧
    node.callback = some call.callback ∧ call.rid = rid ∧ r = .ok ([call], pre ++ post ++ adds call)

/-- **Answered requests.**  A reply to a request consumes the first entry with
its id exactly when its `result` member is there and is one the parser of the
request's type takes, and the entry has a callback. -/
theorem consumed_iff {j : JsonLoads} (reply : Reply j) (adds : CallbackAdds) {l : ReceiptList}
    {node : ReceiptNode} (hnode : l.first reply.rid = some node) :
    l.Consumes adds reply.rid node (reply.handle adds l)
      ↔ node.callback.isSome ∧ Accepts node.receiptType reply.result := by
  obtain ⟨hid, pre, post, heq, hpre⟩ := ReceiptList.first_split hnode
  rw [reply.handle_eq adds heq hid hpre]
  constructor
  · intro ⟨_, _, call, _, _, hcb, _, hr⟩
    match hans : node.answer reply.rid reply.result with
    | .error fault => rw [hans] at hr; cases hr
    | .ok none => rw [hans] at hr; cases hr
    | .ok (some call') =>
        obtain ⟨hparse, _, _⟩ := ReceiptNode.answer_eq_call hans
        exact ⟨hcb ▸ rfl, accepts_of_parsed hparse⟩
  · intro ⟨hcb, hacc⟩
    obtain ⟨call, hans, _⟩ := @ReceiptNode.exists_call _ reply.rid _ hcb hacc
    obtain ⟨_, hcall, hrid⟩ := ReceiptNode.answer_eq_call hans
    rw [hans]
    exact ⟨pre, post, call, heq, hpre, hcall, hrid, rfl⟩

/-- The reply to an insert that went well. -/
def insertedReply :=
  Reply.one (ofString "\x7b\"id\":\"1\",\"result\":[\x7b\"uuid\":[\"uuid\",\"u\"]\x7d],\"error\":null\x7d")
    (by decide)
    (.array [.object [(ovsdbTableUuid, .array [.string ovsdbTableUuid, .string (ofString "u")])]]) .null

theorem consumed_iff_inserted :
    (pendingRequest .insert .ovsAgentApiWriteCallback).Consumes (fun _ => []) (ofString "1")
      ⟨ofString "1", some .ovsAgentApiWriteCallback, .insert⟩
      (insertedReply.handle (fun _ => []) (pendingRequest .insert .ovsAgentApiWriteCallback)) :=
  (consumed_iff insertedReply (fun _ => []) rfl).2
    ⟨rfl, ⟨_, _, _, _, rfl, rfl, by decide⟩⟩

/-- The reply to an insert the server refused: an error object in the result. -/
def refusedReply :=
  Reply.one
    (ofString "\x7b\"id\":\"1\",\"result\":[\x7b\"error\":\"constraint violation\"\x7d],\"error\":null\x7d")
    (by decide)
    (.array [.object [(ofString "error", .string (ofString "constraint violation"))]]) .null

/-- Its entry stays in the list, and nobody is called. -/
theorem refusedReply_not_consumed :
    ¬ (pendingRequest .insert .ovsAgentApiWriteCallback).Consumes (fun _ => []) (ofString "1")
      ⟨ofString "1", some .ovsAgentApiWriteCallback, .insert⟩
      (refusedReply.handle (fun _ => []) (pendingRequest .insert .ovsAgentApiWriteCallback)) := by
  intro ⟨pre, post, call, _, _, _, _, hr⟩
  have hkept : refusedReply.handle (fun _ => []) (pendingRequest .insert .ovsAgentApiWriteCallback)
      = .ok ([], [⟨ofString "1", some .ovsAgentApiWriteCallback, .insert⟩]) := by
    decide +kernel
  rw [hkept] at hr
  cases hr

/-- It is certain that no callback was given a receipt that claims success.
Behind a copy past the end of a uuid it is not: the code may have gone on. -/
def NoSuccess (r : Except Fault (List ReceiptCall × List ReceiptNode)) : Prop :=
  r ≠ .error .overflow ∧
    ∀ calls receipts, r = .ok (calls, receipts) → ∀ call ∈ calls, ¬ call.receipt.ClaimsSuccess

theorem ReceiptNode.answer_overflow_iff (node : ReceiptNode) (rid : CString) (result : Option Json) :
    node.answer rid result = .error .overflow ↔ Overflows node.receiptType result := by
  rw [← ovsdbParseResult_overflow_iff]
  unfold ReceiptNode.answer
  cases hparse : ovsdbParseResult node.receiptType result with
  | error fault => exact ⟨fun h => by cases h; rfl, fun h => by cases h; rfl⟩
  | ok receipt =>
      refine iff_of_false ?_ fun h => by cases h
      cases receipt with
      | none => exact fun h => by cases h
      | some receipt => cases node.callback <;> exact fun h => by cases h

/-- **Error replies.**  What keeps a reply with an error from being reported as
success is its `result` member alone: there is none, or the parser of the
request's type does not take it (or nobody is there to be called), and it has no
uuid that is too long. -/
theorem error_not_success_iff {j : JsonLoads} (reply : ErrorReply j) (adds : CallbackAdds)
    {l : ReceiptList} {node : ReceiptNode} (hnode : l.first reply.rid = some node) :
    NoSuccess (reply.handle adds l)
      ↔ ¬ (node.callback.isSome ∧ Accepts node.receiptType reply.result) ∧
        ¬ Overflows node.receiptType reply.result := by
  obtain ⟨hid, pre, post, heq, hpre⟩ := ReceiptList.first_split hnode
  rw [reply.handle_eq adds heq hid hpre, ← node.answer_overflow_iff reply.rid]
  constructor
  · intro ⟨hno, h⟩
    constructor
    · intro ⟨hcb, hacc⟩
      obtain ⟨call, hans, hclaims⟩ := @ReceiptNode.exists_call _ reply.rid _ hcb hacc
      rw [hans] at h
      exact h _ _ rfl call (List.mem_singleton_self _) hclaims
    · intro hans
      rw [hans] at hno
      exact hno rfl
  · intro ⟨hnot, hno⟩
    match hans : node.answer reply.rid reply.result with
    | .error fault =>
        refine ⟨fun hr => ?_, fun calls receipts hr => (by cases hr)⟩
        cases hr
        exact hno hans
    | .ok none =>
        refine ⟨fun hr => (by cases hr), fun calls receipts hr call hcall => ?_⟩
        cases hr
        cases hcall
    | .ok (some call') =>
        obtain ⟨hparse, hcb, _⟩ := ReceiptNode.answer_eq_call hans
        exact absurd ⟨hcb ▸ rfl, accepts_of_parsed hparse⟩ hnot

/-- A reply that says the request failed: no result, and an error. -/
def errorText : CString :=
  ofString "\x7b\"id\":\"1\",\"result\":null,\"error\":\"unknown database\"\x7d"

def errorReply :
    ErrorReply (.single errorText (replyMsg .null (.string (ofString "unknown database"))) (by decide)) where
  toReply := Reply.one errorText (by decide) .null (.string (ofString "unknown database"))
  error := ⟨_, rfl, rfl⟩

theorem error_not_success_iff_insert :
    NoSuccess (errorReply.handle (fun _ => []) (pendingRequest .insert .ovsAgentApiWriteCallback)) := by
  refine (error_not_success_iff errorReply (fun _ => []) rfl).2 ⟨?_, ?_⟩
  · intro ⟨_, _, _, _, _, harray, _⟩
    cases harray
  · intro h
    cases h.2.1

/-- For a monitor request, the callback hears of a success. -/
theorem errorReply_monitor_success :
    ¬ NoSuccess (errorReply.handle (fun _ => []) (pendingRequest .monitor .dummyReceiptCb)) := by
  intro h
  have hcall : errorReply.handle (fun _ => []) (pendingRequest .monitor .dummyReceiptCb)
      = .ok ([⟨.dummyReceiptCb, ofString "1", .monitor [] 0⟩], []) := by
    decide +kernel
  exact h.2 _ _ hcall _ (List.mem_singleton_self _) rfl

end OvsAgent
