/-
  OvsAgent.DbApi.ParseStatus — what a status of `ovsdb_parse_msg` says.

  Three loops, over the messages of a buffer, the parameters of a notification
  and the rows of an update, keep their status in one variable each and write
  it anew in every round.  What is returned is therefore the status of the last
  thing that was looked at: a reply, a parameter or a row.

      status  =  status of the last item,  if the loop ends on `size`

  Main result: `parse_success_covers_iff` — success says that everything in
  the buffer was dispatched exactly when no item that fails has one behind it
  that is the last and is taken.
-/
import OvsAgent.DbApi.MessageLoop
import OvsAgent.DbApi.MonUpdateList
import OvsAgent.DbApi.ReceiptNodes

namespace OvsAgent

open CString (ofString strncpy strncmpEq)
open Json

/-! ## §1. The items of a buffer. -/

/-- A thing that gives the status a value. -/
inductive Item where
  /-- Success, with nothing to call. -/
  | passed
  /-- A failure, with nothing called. -/
  | refused
  | call (d : Dispatch)

/-- The calls the items ask for. -/
def Item.calls : Item → List Dispatch
  | .call d => [d]
  | _ => []

/-- The rows of an update; one that cannot be parsed ends them. -/
def rowItems (uuid tableName : CString) : List (CString × Json) → List Item
  | [] => []
  | (updateUuid, value) :: rows =>
      match objectGet (some value) (ofString "new") with
      | none => .passed :: rowItems uuid tableName rows
      | some newUpdate =>
          match parseTable tableName newUpdate with
          | none => [.refused]
          | some tableConfig =>
              .call (.update uuid ⟨tableConfig, strncpy maxUuidLen updateUuid⟩) ::
                rowItems uuid tableName rows

/-- An update is of one table, with rows in it. -/
def updateItems (uuid : CString) (update : Json) : List Item :=
  match members? (some update) with
  | [(tableName, tableValue)] =>
      match members? (some tableValue) with
      | [] => [.refused]
      | row :: rows => rowItems uuid tableName (row :: rows)
  | _ => [.refused]

/-- The updates of a notification; what is no object ends them. -/
def paramItems (uuid : CString) : List Json → List Item
  | [] => []
  | value :: params =>
      if isObject (some value) then updateItems uuid value ++ paramItems uuid params else [.refused]

/-- The parameters of a notification: the id of its monitor, and updates. -/
def paramsItems : List Json → List Item
  | [] => [.passed]
  | value :: params =>
      match stringValue (some value) with
      | none => [.refused]
      | some uuid => .passed :: paramItems uuid params

/-- The items of a message, `none` when `ovsdb_parse_msg` returns at it. -/
def msgItems (msg : Json) : Option (List Item) :=
  match objectGet (some msg) (ofString "id") with
  | none => none
  | some .null =>
      if isString (objectGet (some msg) (ofString "method")) then
        match objectGet (some msg) (ofString "params") with
        | some (.array params) => some (paramsItems params)
        | _ => none
      else none
  | some id => some [.call (.receipt (stringValue (some id)) (objectGet (some msg) (ofString "result")))]

/-- The messages that fill the buffer up to `size`, `none` when the loop ends
before: at bytes that are no value, or at a message it returns at. -/
def messagesFrom (j : JsonLoads) (size : Nat) : Nat → Nat → CString → Option (List Json)
  | 0, _, _ => none
  | fuel + 1, bytesRead, jsonStr =>
      match j.loads jsonStr with
      | none => none
      | some (msg, position) =>
          if (msgItems msg).isNone then none
          else if bytesRead + position = size then some [msg]
          else (messagesFrom j size fuel (bytesRead + position) (jsonStr.drop position)).map (msg :: ·)

def bufferMessages (j : JsonLoads) (jsonStr : CString) (size : Nat) : Option (List Json) :=
  messagesFrom j size jsonStr.length 0 jsonStr

/-- The items of the messages. -/
def itemsOf (msgs : List Json) : List Item := msgs.flatMap fun msg => (msgItems msg).getD []

/-! ## §2. The loops run through the items. -/

section Run

variable {m : Type → Type} [Monad m] (call : Dispatch → m OvsStatus)

/-- Every item overwrites the status. -/
def runItems : OvsStatus → List Item → m OvsStatus
  | status, [] => pure status
  | _, .passed :: items => runItems .success items
  | _, .refused :: items => runItems .failed items
  | _, .call d :: items => do
      let status ← call d
      runItems status items

/-- The callees, by the calls they stand for. -/
def callingMonitors : MonListProcess m := fun uuid tableConfig => call (.update uuid tableConfig)

def callingCallees : MsgCallees m where
  receiptListProcess rid result := call (.receipt rid result)
  ovsdbParseParams := parseParams (callingMonitors call)

theorem rowsStatus_eq (uuid tableName : CString) (rows : List (CString × Json)) :
    ∀ status, rowsStatus (callingMonitors call) uuid tableName status rows
      = runItems call status (rowItems uuid tableName rows) := by
  induction rows with
  | nil => intro status; rfl
  | cons row rows ih =>
      intro status
      obtain ⟨updateUuid, value⟩ := row
      unfold rowsStatus rowItems
      cases objectGet (some value) (ofString "new") with
      | none => exact ih .success
      | some newUpdate =>
          dsimp only
          cases parseTable tableName newUpdate with
          | none => rfl
          | some tableConfig => exact congrArg (bind _) (funext ih)

/-- What the status was before an update does not matter. -/
theorem monitorUpdateStatus_eq (uuid : CString) (update : Json) (status : OvsStatus) :
    monitorUpdateStatus (callingMonitors call) uuid update =
      runItems call status (updateItems uuid update) := by
  unfold monitorUpdateStatus updateItems
  cases members? (some update) with
  | nil => rfl
  | cons table tables =>
      cases tables with
      | cons _ _ => rfl
      | nil =>
          obtain ⟨tableName, tableValue⟩ := table
          dsimp only
          cases members? (some tableValue) with
          | nil => rfl
          | cons row rows =>
              dsimp only
              rw [rowsStatus_eq]
              -- the first row writes the status
              obtain ⟨updateUuid, value⟩ := row
              unfold rowItems
              cases objectGet (some value) (ofString "new") with
              | none => rfl
              | some newUpdate =>
                  dsimp only
                  cases parseTable tableName newUpdate <;> rfl

variable [LawfulMonad m]

theorem runItems_append (xs ys : List Item) :
    ∀ status, runItems call status (xs ++ ys) = runItems call status xs >>=
    fun s => runItems call s ys := by
  induction xs with
  | nil =>
      intro status
      exact (pure_bind status fun s => runItems call s ys).symm
  | cons x xs ih =>
      intro status
      cases x with
      | passed => exact ih .success
      | refused => exact ih .failed
      | call d =>
          show (call d >>= fun s => runItems call s (xs ++ ys)) =
            (call d >>= fun s => runItems call s xs) >>= _
          rw [bind_assoc]
          exact congrArg (bind _) (funext ih)

theorem paramsStatus_eq (uuid : CString) (params : List Json) :
    ∀ status, paramsStatus (callingMonitors call) uuid status params
      = runItems call status (paramItems uuid params) := by
  induction params with
  | nil => intro status; rfl
  | cons value params ih =>
      intro status
      unfold paramsStatus paramItems
      split
      · rw [runItems_append, monitorUpdateStatus_eq call uuid value status]
        exact congrArg (bind _) (funext ih)
      · rfl

theorem parseParams_eq (params : List Json) (status : OvsStatus) :
    parseParams (callingMonitors call) params = runItems call status (paramsItems params) := by
  cases params with
  | nil => rfl
  | cons value params =>
      unfold parseParams paramsItems
      dsimp only
      cases stringValue (some value) with
      | none => rfl
      | some uuid => exact paramsStatus_eq call uuid params .success

/-- One message. -/
theorem handleMsg_eq (msg : Json) (status : OvsStatus) :
    (callingCallees call).handleMsg msg = (msgItems msg).map (runItems call status) := by
  unfold MsgCallees.handleMsg msgItems
  cases objectGet (some msg) (ofString "id") with
  | none => rfl
  | some id =>
      cases id with
      | null =>
          dsimp only
          split
          · cases objectGet (some msg) (ofString "params") with
            | none => rfl
            | some params =>
                cases params with
                | array params => exact congrArg some (parseParams_eq call params status)
                | _ => rfl
          · rfl
      | _ => exact congrArg some (bind_pure (call _)).symm

/-- **The loop over a buffer** that its messages fill is a run through their
items. -/
theorem loop_eq_runItems {j : JsonLoads} {size : Nat} : ∀ {fuel bytesRead s msgs},
    messagesFrom j size fuel bytesRead s = some msgs → ∀ status,
      (callingCallees call).loop j size fuel bytesRead s = runItems call status (itemsOf msgs) := by
  intro fuel
  induction fuel with
  | zero => intro bytesRead s msgs h; cases h
  | succ fuel ih =>
      intro bytesRead s msgs h status
      unfold messagesFrom at h
      unfold MsgCallees.loop
      cases hl : j.loads s with
      | none => rw [hl] at h; cases h
      | some r =>
          obtain ⟨msg, position⟩ := r
          rw [hl] at h
          dsimp only at h ⊢
          rw [handleMsg_eq call msg status]
          cases hitems : msgItems msg with
          | none => rw [hitems] at h; cases h
          | some items =>
              rw [hitems] at h
              dsimp only [Option.isNone_some, Option.map_some] at h ⊢
              rw [if_neg (by decide)] at h
              split at h
              · next hsize =>
                  -- the last message
                  cases h
                  simp only [hsize, if_true, bind_pure]
                  unfold itemsOf
                  rw [List.flatMap_singleton, hitems]
                  rfl
              · next hsize =>
                  obtain ⟨rest, hrest, rfl⟩ := Option.map_eq_some_iff.1 h
                  simp only [hsize, if_false]
                  have hcons : itemsOf (msg :: rest) = items ++ itemsOf rest := by
                    unfold itemsOf
                    rw [List.flatMap_cons, hitems]
                    rfl
                  rw [hcons, runItems_append]
                  exact congrArg (bind _) (funext fun status => ih hrest status)

end Run

/-! ## §3. The calls. -/

/-- The two lists, as a call finds them. -/
structure Lists where
  receipts : List ReceiptNode
  monitors : List MonNode

/-- The first entry of the receipt list with the id. -/
def Lists.receipt (lists : Lists) (rid : Option CString) : Option ReceiptNode :=
  rid.bind fun rid => lists.receipts.find? fun node => strncmpEq (maxUuidLen + 1) rid node.rid

/-- The first entry of the monitor list with the uuid. -/
def Lists.monitor (lists : Lists) (uuid : CString) : Option MonNode :=
  lists.monitors.find? (MonNode.matches uuid)

/-- A receipt whose uuid was copied past the end of its array is taken to go on
as a receipt, to the entry's callback. -/
def pastOverflow (callback : Option OvsdbReceiptCb) : Except Fault OvsStatus → Except Fault OvsStatus
  | .error .overflow => if callback.isSome then .ok .success else .error .nullCall
  | answer => answer

/-- What the call comes back with; what it does to the lists is up to `World`. -/
def Dispatch.answer (lists : Lists) : Dispatch → Except Fault OvsStatus
  | .receipt rid result =>
      pastOverflow ((lists.receipt rid).bind ReceiptNode.callback)
        ((receiptListProcess (fun _ => []) rid result lists.receipts).map ReceiptListResult.status)
  | .update uuid tableConfig =>
      match monListProcess uuid tableConfig.tableConfig lists.monitors with
      | ⟨_, some (none, _)⟩ => .error .nullCall
      | ⟨status, _⟩ => .ok status

/-- The parser of the entry's type makes a receipt of the result, be it with a
uuid that is too long. -/
def ReceiptNode.Parses (node : ReceiptNode) (result : Option Json) : Prop :=
  Accepts node.receiptType result ∨ Overflows node.receiptType result

/-- Nothing is read or called through NULL for the entry: its type has a parser,
an insert's tag has a string behind it, and there is a callback for a receipt. -/
def ReceiptNode.GoesOn (node : ReceiptNode) (result : Option Json) : Prop :=
  (∀ value, result = some value → node.receiptType.Registered ∧
      (node.receiptType = .insert → Tagged value → ∃ u,
        arrayGet (uuidPair value) 1 = some (.string u))) ∧
    (node.Parses result → node.callback.isSome)

/-- The call finds an entry that takes it: a pending request whose parser makes
a receipt of the result, or a registered monitor. -/
def Dispatch.Taken (lists : Lists) : Dispatch → Prop
  | .receipt rid result =>
      ∃ node, lists.receipt rid = some node ∧ node.callback.isSome ∧ node.Parses result
  | .update uuid _ => ∃ node, lists.monitor uuid = some node ∧ node.callback.isSome

/-- The process survives the call. -/
def Dispatch.Survived (lists : Lists) : Dispatch → Prop
  | .receipt rid result => ∀ node, lists.receipt rid = some node → node.GoesOn result
  | .update uuid _ => ∀ node, lists.monitor uuid = some node → node.callback.isSome

/-- The status for an entry. -/
def ReceiptNode.status (node : ReceiptNode) (rid : CString) (result : Option Json) : Except Fault OvsStatus :=
  pastOverflow node.callback
    ((node.answer rid result).map fun call => if call.isSome then .success else .failed)

/-- The first entry with the id is answered for, and no other. -/
theorem receiptListSearch_status (adds : CallbackAdds) (rid : CString) (result : Option Json)
    (nodes : List ReceiptNode) :
    (receiptListSearch adds rid result nodes).map ReceiptListResult.status
      = match nodes.find? fun node => strncmpEq (maxUuidLen + 1) rid node.rid with
        | none => .ok .failed
        | some node =>
            (node.answer rid result).map fun call => if call.isSome then .success else .failed := by
  induction nodes with
  | nil => rfl
  | cons node nodes ih =>
      unfold receiptListSearch
      rw [List.find?_cons]
      cases strncmpEq (maxUuidLen + 1) rid node.rid with
      | true =>
          dsimp only
          rw [if_pos rfl]
          cases node.answer rid result with
          | error fault => rfl
          | ok answer => cases answer <;> rfl
      | false =>
          dsimp only
          rw [if_neg (by decide), ← ih]
          cases receiptListSearch adds rid result nodes <;> rfl

/-- The first entry with the id says what comes back. -/
theorem answer_receipt (lists : Lists) (rid : Option CString) (result : Option Json) :
    (Dispatch.receipt rid result).answer lists = match lists.receipt rid with
      | none => .ok .failed
      | some node => node.status (rid.getD []) result := by
  cases rid with
  | none => rfl
  | some rid =>
      simp only [Dispatch.answer, Lists.receipt, receiptListProcess, Option.bind_some,
        receiptListSearch_status]
      cases lists.receipts.find? fun node => strncmpEq (maxUuidLen + 1) rid node.rid with
      | none => rfl
      | some node => rfl

theorem monListProcess_eq (uuid : CString) (tableConfig : RdkbTableConfig) (nodes : List MonNode) :
    monListProcess uuid tableConfig nodes = match nodes.find? (MonNode.matches uuid) with
      | none => ⟨.failed, none⟩
      | some node => ⟨.success, some (node.callback, tableConfig)⟩ := by
  induction nodes with
  | nil => rfl
  | cons node nodes ih =>
      unfold monListProcess
      rw [List.find?_cons]
      cases MonNode.matches uuid node with
      | true => rfl
      | false => exact ih

/-- The first entry with the uuid is called. -/
theorem answer_update (lists : Lists) (uuid : CString) (tableConfig : OvsAgentTableConfig) :
    (Dispatch.update uuid tableConfig).answer lists = match lists.monitor uuid with
      | none => .ok .failed
      | some node => if node.callback.isSome then .ok .success else .error .nullCall := by
  simp only [Dispatch.answer, Lists.monitor, monListProcess_eq]
  cases lists.monitors.find? (MonNode.matches uuid) with
  | none => rfl
  | some node =>
      obtain ⟨_, callback⟩ := node
      cases callback <;> rfl

/-- Off the overflow, the status is that of the answer. -/
theorem ReceiptNode.status_of_not_overflows {node : ReceiptNode} {result : Option Json}
    (h : ¬ Overflows node.receiptType result) (rid : CString) :
    node.status rid result = (node.answer rid result).map
    fun call => if call.isSome then .success else .failed := by
  have hans := mt (node.answer_overflow_iff rid result).1 h
  unfold ReceiptNode.status
  cases hcase : node.answer rid result with
  | ok call => rfl
  | error fault =>
      cases fault with
      | overflow => exact absurd hcase hans
      | nullRead => rfl
      | nullCall => rfl

theorem ReceiptNode.status_of_overflows {node : ReceiptNode} {result : Option Json}
    (h : Overflows node.receiptType result) (rid : CString) :
    node.status rid result = if node.callback.isSome then .ok .success else .error .nullCall := by
  unfold ReceiptNode.status
  rw [(node.answer_overflow_iff rid result).2 h]
  rfl

theorem ReceiptNode.answer_some_iff (node : ReceiptNode) (rid : CString) (result : Option Json) :
    (∃ call, node.answer rid result = .ok (some call)) ↔ node.callback.isSome ∧
      Accepts node.receiptType result := by
  constructor
  · intro ⟨call, h⟩
    obtain ⟨hparse, hcb, _⟩ := ReceiptNode.answer_eq_call h
    exact ⟨hcb ▸ rfl, accepts_of_parsed hparse⟩
  · intro ⟨hcb, hacc⟩
    obtain ⟨call, h, _⟩ := ReceiptNode.exists_call hcb hacc
    exact ⟨call, h⟩

theorem ReceiptNode.status_success_iff (node : ReceiptNode) (rid : CString) (result : Option Json) :
    node.status rid result = .ok .success ↔ node.callback.isSome ∧ node.Parses result := by
  unfold ReceiptNode.Parses
  by_cases ho : Overflows node.receiptType result
  · rw [ReceiptNode.status_of_overflows ho, and_iff_left (Or.inr ho)]
    cases node.callback.isSome with
    | true => exact iff_of_true rfl rfl
    | false => exact iff_of_false nofun nofun
  · rw [ReceiptNode.status_of_not_overflows ho, or_iff_left ho, ← node.answer_some_iff rid result]
    cases node.answer rid result with
    | error fault => exact iff_of_false nofun nofun
    | ok answer =>
        cases answer with
        | none => exact iff_of_false nofun nofun
        | some call => exact iff_of_true rfl ⟨call, rfl⟩

/-- Off the overflow, going on is being able to answer. -/
theorem ReceiptNode.goesOn_iff_canAnswer {node : ReceiptNode} {result : Option Json}
    (h : ¬ Overflows node.receiptType result) : node.GoesOn result ↔ node.CanAnswer result := by
  unfold ReceiptNode.GoesOn ReceiptNode.CanAnswer ReceiptNode.Parses
  rw [or_iff_left h]
  refine and_congr_left fun _ => forall_congr' fun value => ?_
  constructor
  · intro hall heq
    obtain ⟨hreg, htagged⟩ := hall heq
    refine ⟨hreg, fun ⟨htype, ht, hlong⟩ => h ?_⟩
    obtain ⟨u, hget⟩ := htagged htype ht
    rw [heq]
    exact ⟨htype, ht, u, hget, hlong u hget⟩
  · intro hall heq
    obtain ⟨hreg, hbad⟩ := hall heq
    refine ⟨hreg, fun htype ht => ?_⟩
    by_contra hno
    exact hbad ⟨htype, ht, fun u hget => absurd ⟨u, hget⟩ hno⟩

theorem ReceiptNode.status_ok_iff (node : ReceiptNode) (rid : CString) (result : Option Json) :
    (∃ status, node.status rid result = .ok status) ↔ node.GoesOn result := by
  by_cases ho : Overflows node.receiptType result
  · have hgoes : node.GoesOn result ↔ node.callback.isSome := by
      refine ⟨fun h => h.2 (Or.inr ho), fun hcb => ⟨fun value heq => ?_, fun _ => hcb⟩⟩
      rw [heq] at ho
      obtain ⟨htype, _, u, hget, _⟩ := ho
      exact ⟨by rw [htype]; exact nofun, fun _ _ => ⟨u, hget⟩⟩
    rw [ReceiptNode.status_of_overflows ho, hgoes]
    cases node.callback.isSome with
    | true => exact iff_of_true ⟨_, rfl⟩ rfl
    | false => exact iff_of_false nofun nofun
  · have herror := node.answer_error_iff rid result
    rw [ReceiptNode.status_of_not_overflows ho, ReceiptNode.goesOn_iff_canAnswer ho]
    cases hans : node.answer rid result with
    | error fault => exact iff_of_false nofun (herror.1 ⟨fault, hans⟩)
    | ok call =>
        refine iff_of_true ⟨_, rfl⟩ ?_
        by_contra hno
        obtain ⟨_, h⟩ := herror.2 hno
        rw [hans] at h
        cases h

/-- **A call succeeds** exactly when it is taken. -/
theorem answer_success_iff (lists : Lists) (d : Dispatch) :
    d.answer lists = .ok .success ↔ d.Taken lists := by
  cases d with
  | receipt rid result =>
      show _ ↔ ∃ node, lists.receipt rid = some node ∧ node.callback.isSome ∧ node.Parses result
      rw [answer_receipt]
      cases lists.receipt rid with
      | none => exact iff_of_false nofun nofun
      | some node =>
          simp only [Option.some.injEq, exists_eq_left']
          exact node.status_success_iff _ result
  | update uuid tableConfig =>
      show _ ↔ ∃ node, lists.monitor uuid = some node ∧ node.callback.isSome
      rw [answer_update]
      cases lists.monitor uuid with
      | none => exact iff_of_false nofun nofun
      | some node =>
          simp only [Option.some.injEq, exists_eq_left']
          cases node.callback.isSome with
          | false => exact iff_of_false nofun nofun
          | true => exact iff_of_true rfl rfl

/-- It comes back exactly when the process survives it. -/
theorem answer_ok_iff (lists : Lists) (d : Dispatch) :
    (∃ status, d.answer lists = .ok status) ↔ d.Survived lists := by
  cases d with
  | receipt rid result =>
      show _ ↔ ∀ node, lists.receipt rid = some node → node.GoesOn result
      rw [answer_receipt]
      cases lists.receipt rid with
      | none => exact iff_of_true ⟨_, rfl⟩ nofun
      | some node =>
          simp only [Option.some.injEq, forall_eq']
          exact node.status_ok_iff _ result
  | update uuid tableConfig =>
      show _ ↔ ∀ node, lists.monitor uuid = some node → node.callback.isSome
      rw [answer_update]
      cases lists.monitor uuid with
      | none => exact iff_of_true ⟨_, rfl⟩ nofun
      | some node =>
          simp only [Option.some.injEq, forall_eq']
          cases node.callback.isSome with
          | false => exact iff_of_false nofun nofun
          | true => exact iff_of_true ⟨_, rfl⟩ rfl

/-! ## §4. A run, with the answers to its calls. -/

/-- What a call finds after the calls before it: callbacks and other threads may
have done anything to the lists in between. -/
abbrev World : Type := List Dispatch → Lists

/-- A computation of the parser: the calls and their answers so far, or a fault. -/
abbrev Logged (α : Type) : Type := StateT (List (Dispatch × OvsStatus)) (Except Fault) α

/-- The call is made and its answer noted. -/
def World.call (world : World) (d : Dispatch) : Logged OvsStatus := fun log =>
  match d.answer (world (log.map Prod.fst)) with
  | .error fault => .error fault
  | .ok status => .ok (status, log ++ [(d, status)])

/-- `ovsdb_parse_msg(json_str, size)`: its status and its calls, or a fault in one. -/
def World.ovsdbParseMsg (world : World) (j : JsonLoads) (jsonStr : CString) (size : Nat) :
    Except Fault (OvsStatus × List (Dispatch × OvsStatus)) :=
  ((callingCallees world.call).ovsdbParseMsg j jsonStr size).run []

/-- Each item with the lists it finds, `before` being the calls made already. -/
def placed (world : World) : List Dispatch → List Item → List (Lists × Item)
  | _, [] => []
  | before, item :: items => (world before, item) :: placed world (before ++ item.calls) items

/-- The status the item leaves. -/
def Item.status (lists : Lists) : Item → Except Fault OvsStatus
  | .passed => .ok .success
  | .refused => .ok .failed
  | .call d => d.answer lists

def Item.Taken (lists : Lists) : Item → Prop
  | .passed => True
  | .refused => False
  | .call d => d.Taken lists

def Item.Survived (lists : Lists) : Item → Prop
  | .call d => d.Survived lists
  | _ => True

theorem Item.status_success_iff (lists : Lists) (item : Item) :
    item.status lists = .ok .success ↔ item.Taken lists := by
  cases item with
  | passed => exact iff_of_true rfl trivial
  | refused => exact iff_of_false nofun id
  | call d => exact answer_success_iff lists d

theorem Item.status_ok_iff (lists : Lists) (item : Item) :
    (∃ status, item.status lists = .ok status) ↔ item.Survived lists := by
  cases item with
  | passed => exact iff_of_true ⟨_, rfl⟩ trivial
  | refused => exact iff_of_true ⟨_, rfl⟩ trivial
  | call d => exact answer_ok_iff lists d

/-- The calls among the items, with the statuses they left. -/
def callStatuses : List Item → List OvsStatus → List (Dispatch × OvsStatus)
  | item :: items, status :: statuses => item.calls.map (·, status) ++ callStatuses items statuses
  | _, _ => []

/-- The items leave these statuses. -/
abbrev Leave (places : List (Lists × Item)) (statuses : List OvsStatus) : Prop :=
  List.Forall₂ (fun place status => place.2.status place.1 = .ok status) places statuses

/-- The first item, whatever it is, leaves its status behind. -/
theorem runItems_cons_run (world : World) (item : Item) (items : List Item) (status : OvsStatus)
    (log : List (Dispatch × OvsStatus)) :
    (runItems world.call status (item :: items)).run log
      = match item.status (world (log.map Prod.fst)) with
        | .error fault => .error fault
        | .ok status => (runItems world.call status items).run (log ++ item.calls.map (·, status)) := by
  cases item with
  | passed =>
      show _ = (runItems world.call .success items).run (log ++ [])
      rw [List.append_nil]
      rfl
  | refused =>
      show _ = (runItems world.call .failed items).run (log ++ [])
      rw [List.append_nil]
      rfl
  | call d =>
      show (world.call d log >>= _) = match d.answer (world (log.map Prod.fst)) with
        | .error fault => _
        | .ok status => _
      unfold World.call
      cases d.answer (world (log.map Prod.fst)) <;> rfl

/-- **A run through items** comes back when all of them do, with the status of
the last one. -/
theorem runItems_run_iff (world : World) (items : List Item) :
    ∀ (status : OvsStatus) (log : List (Dispatch × OvsStatus)) (final : OvsStatus)
      (log' : List (Dispatch × OvsStatus)),
      (runItems world.call status items).run log = .ok (final, log') ↔
        ∃ statuses, Leave (placed world (log.map Prod.fst) items) statuses ∧
          final = statuses.getLastD status ∧ log' = log ++ callStatuses items statuses := by
  induction items with
  | nil =>
      intro status log final log'
      show Except.ok (status, log) = .ok (final, log') ↔ _
      constructor
      · intro h
        cases h
        exact ⟨[], .nil, rfl, (List.append_nil log).symm⟩
      · intro ⟨statuses, hleave, hfinal, hlog⟩
        cases hleave
        rw [hfinal, hlog]
        exact congrArg (fun log => Except.ok (status, log)) (List.append_nil log).symm
  | cons item items ih =>
      intro status log final log'
      rw [runItems_cons_run]
      have hplaces : placed world (log.map Prod.fst) (item :: items)
          = (world (log.map Prod.fst), item) :: placed world (log.map Prod.fst ++ item.calls) items := rfl
      have hlast : ∀ (status' : OvsStatus) statuses,
          (status' :: statuses).getLastD status = statuses.getLastD status' := by
        intro status' statuses
        cases statuses <;> rfl
      rw [hplaces]
      cases hstatus : item.status (world (log.map Prod.fst)) with
      | error fault =>
          -- the process ends here, and nothing is returned
          refine iff_of_false nofun fun ⟨_, hleave, _⟩ => ?_
          cases hleave with
          | cons hok _ =>
              rw [hstatus] at hok
              cases hok
      | ok status' =>
          -- the lists the other items find depend on the calls, not on their statuses
          have hbefore :
              (log ++ item.calls.map (·, status')).map Prod.fst = log.map Prod.fst ++ item.calls := by
            rw [List.map_append, List.map_map]
            exact congrArg (log.map Prod.fst ++ ·) (List.map_id item.calls)
          dsimp only
          rw [ih status' _ final log', hbefore]
          constructor
          · intro ⟨statuses, hleave, hfinal, hlog⟩
            refine ⟨status' :: statuses, .cons hstatus hleave, hfinal.trans (hlast status' statuses).symm,
              ?_⟩
            rw [hlog, List.append_assoc]
            rfl
          · intro ⟨statuses, hleave, hfinal, hlog⟩
            cases hleave with
            | cons hok hleave =>
                rw [hstatus] at hok
                cases hok
                refine ⟨_, hleave, hfinal.trans (hlast status' _), ?_⟩
                rw [hlog, List.append_assoc]
                rfl

/-- A status of success comes from the end of the loop on `size`. -/
theorem messages_of_success {world : World} {j : JsonLoads} {size : Nat} : ∀ {fuel bytesRead s log log'},
    ((callingCallees world.call).loop j size fuel bytesRead s).run log = .ok (.success, log') →
      ∃ msgs, messagesFrom j size fuel bytesRead s = some msgs := by
  intro fuel
  induction fuel with
  | zero => intro bytesRead s log log' h; cases h
  | succ fuel ih =>
      intro bytesRead s log log' h
      unfold MsgCallees.loop at h
      unfold messagesFrom
      cases hl : j.loads s with
      | none => rw [hl] at h; cases h
      | some r =>
          obtain ⟨msg, position⟩ := r
          rw [hl] at h
          dsimp only at h ⊢
          rw [handleMsg_eq world.call msg .failed] at h
          cases hitems : msgItems msg with
          | none => rw [hitems] at h; cases h
          | some items =>
              rw [hitems] at h
              dsimp only [Option.map_some, Option.isNone_some] at h ⊢
              rw [if_neg (by decide)]
              split
              · exact ⟨_, rfl⟩
              · next hsize =>
                  -- the rounds behind this message end well
                  simp only [hsize, if_false, StateT.run_bind] at h
                  cases hfirst : (runItems world.call .failed items).run log with
                  | error fault => rw [hfirst] at h; cases h
                  | ok r =>
                      rw [hfirst] at h
                      obtain ⟨msgs, hmsgs⟩ := ih h
                      exact ⟨msg :: msgs, by rw [hmsgs]; rfl⟩

/-! ## §5. Success. -/

/-- Everything in the buffer was dispatched with success: its messages end on
`size`, nothing in them was refused, and each reply and each row with a `new`
member was taken by the call it asks for. -/
def AllDispatched (j : JsonLoads) (jsonStr : CString) (size : Nat) (log : List (Dispatch × OvsStatus)) :
    Prop :=
  ∃ msgs, bufferMessages j jsonStr size = some msgs ∧ Item.refused ∉ itemsOf msgs ∧
    log = ((itemsOf msgs).flatMap Item.calls).map (·, .success)

/-- A status of success says that everything was dispatched. -/
def SuccessCovers (world : World) (j : JsonLoads) (jsonStr : CString) (size : Nat) : Prop :=
  ∀ log, world.ovsdbParseMsg j jsonStr size = .ok (.success, log) → AllDispatched j jsonStr size log

/-- If the messages end on `size`, the process survives their calls and the last
item is taken, then so is every other. -/
def NothingMasked (world : World) (j : JsonLoads) (jsonStr : CString) (size : Nat) : Prop :=
  ∀ msgs, bufferMessages j jsonStr size = some msgs →
    (∀ place ∈ placed world [] (itemsOf msgs), place.2.Survived place.1) →
    (∃ place, (placed world [] (itemsOf msgs)).getLast? = some place ∧ place.2.Taken place.1) →
    ∀ place ∈ placed world [] (itemsOf msgs), place.2.Taken place.1

/-- The last status is success exactly when the last item is taken. -/
theorem last_taken_iff {places : List (Lists × Item)} {statuses : List OvsStatus}
    (h : Leave places statuses) :
    statuses.getLastD .failed = .success ↔ ∃ place, places.getLast? = some place ∧
      place.2.Taken place.1 := by
  induction h with
  | nil => exact iff_of_false nofun nofun
  | @cons place status places statuses hstatus hrest ih =>
      cases hrest with
      | nil =>
          show status = .success ↔ ∃ place', some place = some place' ∧ _
          simp only [Option.some.injEq, exists_eq_left']
          rw [← Item.status_success_iff, hstatus, Except.ok.injEq]
      | cons _ _ => exact ih

/-- Nothing was refused and every call succeeded exactly when every item is taken. -/
theorem all_taken_iff {world : World} {items : List Item} :
    ∀ {before : List Dispatch} {statuses : List OvsStatus},
    Leave (placed world before items) statuses →
      ((Item.refused ∉ items ∧ callStatuses items statuses =
        (items.flatMap Item.calls).map (·, .success))
        ↔ ∀ place ∈ placed world before items, place.2.Taken place.1) := by
  induction items with
  | nil =>
      intro before statuses h
      cases h
      exact iff_of_true ⟨List.not_mem_nil, rfl⟩ nofun
  | cons item items ih =>
      intro before statuses h
      have hplaces : placed world before (item :: items)
          = (world before, item) :: placed world (before ++ item.calls) items := rfl
      rw [hplaces] at h ⊢
      cases h with
      | @cons _ status _ statuses hstatus hleave =>
          -- the log shows the calls only; that an item was refused it does not
          have hitem : item ≠ .refused ∧ item.calls.map (·, status) = item.calls.map (·,
              OvsStatus.success)
              ↔ item.Taken (world before) := by
            rw [← Item.status_success_iff, hstatus, Except.ok.injEq]
            cases item with
            | passed => cases hstatus; exact iff_of_true ⟨nofun, rfl⟩ rfl
            | refused => cases hstatus; exact iff_of_false (fun h => h.1 rfl) nofun
            | call d =>
                constructor
                · intro ⟨_, heq⟩
                  exact congrArg Prod.snd (List.cons.inj heq).1
                · intro heq
                  rw [heq]
                  exact ⟨nofun, rfl⟩
          have hlen : (item.calls.map (·, status)).length =
              (item.calls.map (·, OvsStatus.success)).length := by
            rw [List.length_map, List.length_map]
          rw [List.forall_mem_cons, ← hitem, ← ih hleave, List.mem_cons, not_or, List.flatMap_cons,
            List.map_append]
          constructor
          · intro ⟨⟨hne, hrest⟩, hlog⟩
            obtain ⟨hcalls, hlog⟩ := List.append_inj hlog hlen
            exact ⟨⟨Ne.symm hne, hcalls⟩, hrest, hlog⟩
          · intro ⟨⟨hne, hcalls⟩, hrest, hlog⟩
            exact ⟨⟨Ne.symm hne, hrest⟩, congrArg₂ (· ++ ·) hcalls hlog⟩

/-- The statuses that items leave, when the process survives them. -/
theorem exists_leave {places : List (Lists × Item)} (h : ∀ place ∈ places, place.2.Survived place.1) :
    ∃ statuses, Leave places statuses := by
  induction places with
  | nil => exact ⟨[], .nil⟩
  | cons place places ih =>
      obtain ⟨hfirst, hrest⟩ := List.forall_mem_cons.1 h
      obtain ⟨status, hstatus⟩ := (place.2.status_ok_iff place.1).2 hfirst
      obtain ⟨statuses, hleave⟩ := ih hrest
      exact ⟨status :: statuses, .cons hstatus hleave⟩

theorem Leave.survived {places : List (Lists × Item)} {statuses : List OvsStatus}
    (h : Leave places statuses) :
    ∀ place ∈ places, place.2.Survived place.1 := by
  induction h with
  | nil => nofun
  | cons hstatus _ ih => exact List.forall_mem_cons.2 ⟨(Item.status_ok_iff _ _).1 ⟨_, hstatus⟩, ih⟩

/-- **What success covers.**  A status of success says that everything in the
buffer was dispatched exactly when nothing that fails is masked. -/
theorem parse_success_covers_iff (world : World) (j : JsonLoads) (jsonStr : CString) (size : Nat) :
    SuccessCovers world j jsonStr size ↔ NothingMasked world j jsonStr size := by
  have hrun : ∀ {msgs}, bufferMessages j jsonStr size = some msgs → ∀ log,
      world.ovsdbParseMsg j jsonStr size = .ok (.success, log) ↔ ∃ statuses,
        Leave (placed world [] (itemsOf msgs)) statuses ∧ .success = statuses.getLastD .failed ∧
          log = callStatuses (itemsOf msgs) statuses := by
    intro msgs hmsgs log
    unfold World.ovsdbParseMsg MsgCallees.ovsdbParseMsg
    rw [loop_eq_runItems world.call hmsgs .failed]
    exact runItems_run_iff world (itemsOf msgs) .failed [] .success log
  constructor
  · intro h msgs hmsgs hsurvived hlast
    -- this very run returns success
    obtain ⟨statuses, hleave⟩ := exists_leave hsurvived
    have hsuccess := (last_taken_iff hleave).2 hlast
    obtain ⟨msgs', hmsgs', hno, hlog⟩ := h _ ((hrun hmsgs _).2 ⟨statuses, hleave, hsuccess.symm, rfl⟩)
    rw [hmsgs] at hmsgs'
    cases hmsgs'
    exact (all_taken_iff hleave).1 ⟨hno, hlog⟩
  · intro h log hok
    obtain ⟨msgs, hmsgs⟩ := messages_of_success hok
    obtain ⟨statuses, hleave, hsuccess, hlog⟩ := (hrun hmsgs log).1 hok
    have hall := h msgs hmsgs hleave.survived ((last_taken_iff hleave).1 hsuccess.symm)
    obtain ⟨hno, hcalls⟩ := (all_taken_iff hleave).2 hall
    exact ⟨msgs, hmsgs, hno, hlog.trans hcalls⟩

/-- A reply to request 7. -/
def lateText : CString := ofString "\x7b\"id\":\"7\",\"result\":\x7b\x7d,\"error\":null\x7d"

def lateMsg : Json :=
  .object [(ofString "id", .string (ofString "7")), (ofString "result", .object []),
  (ofString "error", .null)]

def repliesLoads : JsonLoads :=
  .ofTexts [(lateText, lateMsg), (replyText, reply.msg)]
    (by
      intro e he
      rcases List.mem_pair.1 he with rfl | rfl
      · exact ⟨_, _, rfl, by decide⟩
      · exact ⟨_, _, rfl, by decide⟩)
    (by
      have hdiffer : ¬ lateText <+: replyText ∧ ¬ replyText <+: lateText := by decide +kernel
      intro e he e' he'
      rcases List.mem_pair.1 he with rfl | rfl <;> rcases List.mem_pair.1 he' with rfl | rfl
      · intro _; rfl
      · exact fun h => absurd h hdiffer.1
      · exact fun h => absurd h hdiffer.2
      · intro _; rfl)

/-- Request 1 is pending and request 7 is not.  The reply to 7 finds no entry,
and behind it comes the reply to 1. -/
theorem late_reply_masked :
    ¬ SuccessCovers (fun _ => ⟨(pendingRequest .monitor .dummyReceiptCb).nodes, []⟩) repliesLoads
      (lateText ++ replyText) (lateText ++ replyText).length := by
  intro h
  have hok : World.ovsdbParseMsg (fun _ => ⟨(pendingRequest .monitor .dummyReceiptCb).nodes, []⟩)
      repliesLoads
      (lateText ++ replyText) (lateText ++ replyText).length
        = .ok (.success, [(.receipt (some (ofString "7")) (some (.object [])), .failed),
            (.receipt (some (ofString "1")) (some (.object [])), .success)]) := rfl
  obtain ⟨msgs, _, _, hlog⟩ := h _ hok
  -- the first call failed
  cases hcalls : (itemsOf msgs).flatMap Item.calls with
  | nil =>
      rw [hcalls] at hlog
      cases hlog
  | cons d ds =>
      rw [hcalls] at hlog
      cases (List.cons.inj hlog).1

end OvsAgent
