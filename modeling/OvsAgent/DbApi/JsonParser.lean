/-
  OvsAgent.DbApi.JsonParser — rows to JSON, JSON to rows, results to receipts.

  Follows json_parser/gateway_config.c, feedback.c, table_parser.c and
  receipt_parser.c.  The encoders ignore what `json_object_set_new` returns
  (they test `0 < …` where the failure value is -1), so a field that cannot be
  encoded is left out of the row; the row parsers read a missing column, or
  one of another type, as the empty string or 0.

  Allocation is assumed to succeed here.
-/
import OvsAgent.DataTypes

namespace OvsAgent

open CString (ofString strncpy)
open Json

/-! ## §1. Encoders. -/

/-- The envelope both encoders end with: the transact request `unique_id`
inserting `row` into `table`. -/
def transactInsert (table : CString) (row : List (CString × Json)) (uniqueId : CString) : Json :=
  let mainObj := objectSetNew! [] (ofString "op") (jsonString (ofString "insert"))
  let mainObj := objectSetNew! mainObj (ofString "table") (jsonString table)
  let mainObj := objectSetNew! mainObj (ofString "row") (some (.object row))
  let params := arrayAppendNew [] (jsonString ovsdbDefDb)
  let params := arrayAppendNew params (some (.object mainObj))
  let main := objectSetNew! [] (ofString "method") (jsonString (ofString "transact"))
  let main := objectSetNew! main (ofString "id") (jsonString uniqueId)
  let main := objectSetNew! main (ofString "params") (some (.array params))
  .object main

/-- What `json_integer` is given for a field of an enumerated type.  These
types are unsigned, so the `int` a row has brought in goes out zero-extended. -/
def enumValue (i : Int) : Int := i % 2 ^ 32

/-- The row object `gc_insert_to_json` builds, one column after the other. -/
def gcRow (config : GatewayConfig) : List (CString × Json) :=
  let row := objectSetNew! [] (ofString "gre_ifname") (jsonString (ofString "null"))
  let row := objectSetNew! row (ofString "if_name") (jsonString config.ifName)
  let row := objectSetNew! row (ofString "if_type") (some (.integer (enumValue config.ifType)))
  let row := objectSetNew! row (ofString "if_cmd") (some (.integer (enumValue config.ifCmd)))
  let row := objectSetNew! row (ofString "inet_addr") (jsonString config.inetAddr)
  let row := objectSetNew! row (ofString "netmask") (jsonString config.netmask)
  let row := objectSetNew! row (ofString "gre_remote_inet_addr")
    (jsonString config.greRemoteInetAddr)
  let row := objectSetNew! row (ofString "gre_local_inet_addr")
    (jsonString config.greLocalInetAddr)
  let row := objectSetNew! row (ofString "parent_ifname") (jsonString config.parentIfname)
  let row := objectSetNew! row (ofString "mtu") (some (.integer config.mtu))
  let row := objectSetNew! row (ofString "parent_bridge") (jsonString config.parentBridge)
  objectSetNew! row (ofString "vlan_id") (some (.integer config.vlanId))

/-- `gc_insert_to_json`. -/
def gcInsertToJson (config : Option GatewayConfig) (uniqueId : Option CString) : Option Json :=
  match config, uniqueId with
  | some config, some uniqueId =>
      some (transactInsert gatewayConfigTableName (gcRow config) uniqueId)
  | _, _ => none

/-- The row object `fb_insert_to_json` builds. -/
def fbRow (feedback : Feedback) : List (CString × Json) :=
  let row := objectSetNew! [] (ofString "req_uuid") (jsonString feedback.reqUuid)
  objectSetNew! row (ofString "status") (some (.integer (enumValue feedback.status)))

/-- `fb_insert_to_json`. -/
def fbInsertToJson (feedback : Option Feedback) (uniqueId : Option CString) : Option Json :=
  match feedback, uniqueId with
  | some feedback, some uniqueId =>
      some (transactInsert feedbackTableName (fbRow feedback) uniqueId)
  | _, _ => none

/-! ## §2. Row parsers. -/

/-- `(int)` of a `json_int_t`. -/
def toInt (i : Int) : Int := i.bmod (2 ^ 32)

/-- `json_fetch_string`. -/
def jsonFetchString (root : Option Json) (key : CString) : Option CString :=
  stringValue (objectGet root key)

/-- An enumeration that comes back is the `int` it was. -/
@[simp] theorem toInt_enumValue (i : Int) : toInt (enumValue i) = toInt i := Int.emod_bmod i (2 ^ 32)

/-- A string column copied into a zeroed array of `size` bytes. -/
def fetchInto (size : Nat) (root : Option Json) (key : CString) : CString :=
  match jsonFetchString root key with
  | some s => strncpy (size - 1) s
  | none => []

/-- An integer column. -/
def fetchInt (root : Option Json) (key : CString) : Int :=
  toInt (integerValue (objectGet root key))

/-- `gateway_config_parser`: every string field is a 16-byte array. -/
def gatewayConfigParser (json : Json) : GatewayConfig where
  ifName := fetchInto 16 (some json) (ofString "if_name")
  inetAddr := fetchInto 16 (some json) (ofString "inet_addr")
  netmask := fetchInto 16 (some json) (ofString "netmask")
  greRemoteInetAddr := fetchInto 16 (some json) (ofString "gre_remote_inet_addr")
  greLocalInetAddr := fetchInto 16 (some json) (ofString "gre_local_inet_addr")
  parentIfname := fetchInto 16 (some json) (ofString "parent_ifname")
  parentBridge := fetchInto 16 (some json) (ofString "parent_bridge")
  mtu := fetchInt (some json) (ofString "mtu")
  vlanId := fetchInt (some json) (ofString "vlan_id")
  ifType := fetchInt (some json) (ofString "if_type")
  ifCmd := fetchInt (some json) (ofString "if_cmd")

/-- `feedback_config_parser`. -/
def feedbackConfigParser (json : Json) : Feedback where
  reqUuid := fetchInto (maxUuidLen + 1) (some json) feedbackReqUuid
  status := fetchInt (some json) (ofString "status")

/-- `parse_table`: the parsed configuration, or `none` for a failure status.
The block it is parsed into is freed by the caller; nothing looks at its address. -/
def parseTable (tableName : CString) (update : Json) : Option RdkbTableConfig :=
  if tableName = gatewayConfigTableName then
    some (.gwConfig (some ⟨0, gatewayConfigParser update⟩))
  else if tableName = feedbackTableName then
    some (.feedback (some ⟨0, feedbackConfigParser update⟩))
  else none

theorem fetchInto_length_le (size : Nat) (root : Option Json) (key : CString) :
    (fetchInto size root key).length ≤ size - 1 := by
  unfold fetchInto
  cases jsonFetchString root key with
  | none => exact Nat.zero_le _
  | some s => exact CString.strncpy_length_le _ _

/-! ## §3. Receipt parsers. -/

/-- `insert_receipt_parser`.  The element after the `"uuid"` tag is copied
without a look at its presence, its type or its length.  A string too long for
the array is answered with `overflow`: up to three bytes more still lie in the
receipt's padding, which makes a receipt of it; any more are written behind it. -/
def insertReceiptParser (receipt : Json) : Except Fault (Option OvsDbReceipt) :=
  if !isArray (some receipt) then .ok none
  else
    let jsonUuid := objectGet (arrayGet (some receipt) 0) ovsdbTableUuid
    if !isArray jsonUuid then .ok none
    else
      match stringValue (arrayGet jsonUuid 0) with
      | none => .ok none
      | some tag =>
          if tag ≠ ovsdbTableUuid then .ok none
          else
            match stringValue (arrayGet jsonUuid 1) with
            | none => .error .nullRead
            | some uuid =>
                if uuid.length ≤ maxUuidLen then .ok (some (.insert [] uuid))
                else .error .overflow

/-- `monitor_receipt_parser`: nothing of the result is looked at. -/
def monitorReceiptParser (_receipt : Json) : Except Fault (Option OvsDbReceipt) :=
  .ok (some (.monitor [] 0))

/-- `monitor_cancel_receipt_parser`. -/
def monitorCancelReceiptParser (_receipt : Json) : Except Fault (Option OvsDbReceipt) :=
  .ok (some (.monitorCancel [] true))

/-- `delete_receipt_parser`. -/
def deleteReceiptParser (receipt : Json) : Except Fault (Option OvsDbReceipt) :=
  if !isArray (some receipt) then .ok none
  else
    let jsonCount := objectGet (arrayGet (some receipt) 0) (ofString "count")
    if !isInteger jsonCount then .ok none
    else .ok (some (.delete [] (toInt (integerValue jsonCount))))

/-- `parser_lkup_tbl`; the slot of the unknown receipt id is NULL. -/
def parserLkupTbl : OvsdbReceiptId → Option (Json → Except Fault (Option OvsDbReceipt))
  | .unknown => none
  | .insert => some insertReceiptParser
  | .monitor => some monitorReceiptParser
  | .monitorCancel => some monitorCancelReceiptParser
  | .delete => some deleteReceiptParser

/-- `ovsdb_parse_result`. -/
def ovsdbParseResult (type : OvsdbReceiptId) (receipt : Option Json) :
    Except Fault (Option OvsDbReceipt) :=
  match receipt with
  | none => .ok none
  | some receipt =>
      match parserLkupTbl type with
      | none => .error .nullCall
      | some parser => parser receipt

/-- The only way out of the parser with a receipt; its uuid fits the field it
was copied to. -/
theorem insertReceiptParser_ok {result : Json} {receipt : OvsDbReceipt}
    (h : insertReceiptParser result = .ok (some receipt)) :
    ∃ uuid, receipt = .insert [] uuid ∧ uuid.length ≤ maxUuidLen := by
  unfold insertReceiptParser at h
  split at h
  · cases h
  · simp only at h
    split at h
    · cases h
    · split at h
      · cases h
      · split at h
        · cases h
        · split at h
          · cases h
          · split at h
            · next hlen => cases h; exact ⟨_, rfl, hlen⟩
            · cases h

theorem deleteReceiptParser_ok {result : Json} {receipt : OvsDbReceipt}
    (h : deleteReceiptParser result = .ok (some receipt)) : ∃ count, receipt = .delete [] count := by
  unfold deleteReceiptParser at h
  split at h
  · cases h
  · simp only at h
    split at h
    · cases h
    · cases h; exact ⟨_, rfl⟩

/-- A receipt is of the type of its request. -/
theorem ovsdbParseResult_receiptId {type : OvsdbReceiptId} {result : Option Json} {receipt : OvsDbReceipt}
    (h : ovsdbParseResult type result = .ok (some receipt)) : receipt.receiptId = type := by
  cases result with
  | none => cases h
  | some result =>
      cases type with
      | unknown => cases h
      | insert => obtain ⟨uuid, rfl, _⟩ := insertReceiptParser_ok h; rfl
      | monitor => cases h; rfl
      | monitorCancel => cases h; rfl
      | delete => obtain ⟨count, rfl⟩ := deleteReceiptParser_ok h; rfl

theorem ovsdbParseResult_insert {type : OvsdbReceiptId} {result : Option Json}
    {error uuid : CString} (h : ovsdbParseResult type result = .ok (some (.insert error uuid))) :
    uuid.length ≤ maxUuidLen := by
  obtain rfl : OvsdbReceiptId.insert = type := ovsdbParseResult_receiptId h
  cases result with
  | none => cases h
  | some result =>
      obtain ⟨_, heq, hlen⟩ := insertReceiptParser_ok h
      cases heq
      exact hlen

end OvsAgent
