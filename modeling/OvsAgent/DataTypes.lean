/-
  OvsAgent.DataTypes — the records and enumerations the layers share.

  Follows OvsDataTypes.h, OvsConfig.h, gateway_config.h, feedback.h and
  OvsDbDefs.h.  Enumerations that travel through a JSON row are stored as the
  C `int` they arrive as; a pointer is its address together with what it
  points to, and NULL is `none`.
-/
import OvsAgent.Lib.Json

namespace OvsAgent

/-- `MAX_UUID_LEN`: a UUID string without its terminator. -/
abbrev maxUuidLen : Nat := 36

/-! ## §1. Status codes and request kinds. -/

/-- `OVS_STATUS`. -/
inductive OvsStatus where
  | success
  | unknown
  | failed
  | timedOut
  | timedWaitError
  deriving Repr, DecidableEq

/-- The enumerator's value. -/
def OvsStatus.toInt : OvsStatus → Int
  | .success => 0
  | .unknown => 1
  | .failed => 2
  | .timedOut => 3
  | .timedWaitError => 4

/-- `OVS_TABLE`. -/
inductive OvsTable where
  | gwConfig
  | feedback
  | notify
  | logbook
  deriving Repr, DecidableEq

/-- `OVS_BLOCK_MODE`. -/
inductive OvsBlockMode where
  | disable
  | enable
  deriving Repr, DecidableEq

/-! ## §2. Table rows. -/

/-- `Gateway_Config`. -/
structure GatewayConfig where
  ifName : CString
  inetAddr : CString
  netmask : CString
  greRemoteInetAddr : CString
  greLocalInetAddr : CString
  parentIfname : CString
  parentBridge : CString
  mtu : Int
  vlanId : Int
  ifType : Int
  ifCmd : Int
  deriving Repr, DecidableEq

/-- `Feedback`; `status` holds whatever integer the row carried. -/
structure Feedback where
  status : Int
  reqUuid : CString
  deriving Repr, DecidableEq

/-- A non-NULL pointer: where it points and what is there. -/
structure Ptr (α : Type) where
  addr : Nat
  val : α
  deriving Repr, DecidableEq

/-- `Rdkb_Table_Config`: the table id decides what `config` points to, so the
two are one tagged value (as in `Union_Table_Config`). -/
inductive RdkbTableConfig where
  | gwConfig (config : Option (Ptr GatewayConfig))
  | feedback (config : Option (Ptr Feedback))
  | notify (config : Option (Ptr Unit))
  | logbook (config : Option (Ptr Unit))
  deriving Repr, DecidableEq

namespace RdkbTableConfig

/-- `table_config.table.id`. -/
def tableId : RdkbTableConfig → OvsTable
  | gwConfig _ => .gwConfig
  | feedback _ => .feedback
  | notify _ => .notify
  | logbook _ => .logbook

/-- `table_config.config` as an address. -/
def configAddr : RdkbTableConfig → Option Nat
  | gwConfig p => p.map Ptr.addr
  | feedback p => p.map Ptr.addr
  | notify p => p.map Ptr.addr
  | logbook p => p.map Ptr.addr

end RdkbTableConfig

/-- `OvsAgent_Table_Config`: a parsed row and the key it came under. -/
structure OvsAgentTableConfig where
  tableConfig : RdkbTableConfig
  uuid : CString
  deriving Repr, DecidableEq

/-! ## §3. Callbacks and receipts. -/

/-- The functions whose address is used as an `ovs_interact_cb` (and, the two
types being one, as an `ovsdb_mon_cb`). -/
inductive OvsInteractCb where
  | ovsAgentApiMonitorFeedbackCallback
  | gwconfMonCb
  /-- Some function of the API's client. -/
  | client (n : Nat)
  deriving Repr, DecidableEq

/-- The functions whose address is used as an `ovsdb_receipt_cb`. -/
inductive OvsdbReceiptCb where
  | dummyReceiptCb
  | ovsAgentApiWriteCallback
  /-- Some function of another consumer of the abstraction layer. -/
  | consumer (n : Nat)
  deriving Repr, DecidableEq

/-- `ovs_interact_request` for the insert operation and the transact method. -/
structure OvsInteractRequest where
  blockMode : OvsBlockMode
  tableConfig : RdkbTableConfig
  deriving Repr, DecidableEq

/-- `OVSDB_RECEIPT_ID`. -/
inductive OvsdbReceiptId where
  | unknown
  | insert
  | monitor
  | monitorCancel
  | delete
  deriving Repr, DecidableEq

/-- The receipt structures that extend `OvsDb_Base_Receipt`. -/
inductive OvsDbReceipt where
  | insert (error uuid : CString)
  | monitor (error : CString) (updateCount : Int)
  | monitorCancel (error : CString) (isSuccessful : Bool)
  | delete (error : CString) (count : Int)
  deriving Repr, DecidableEq

/-- `receipt_id` of a receipt. -/
def OvsDbReceipt.receiptId : OvsDbReceipt → OvsdbReceiptId
  | .insert .. => .insert
  | .monitor .. => .monitor
  | .monitorCancel .. => .monitorCancel
  | .delete .. => .delete

/-- What may end the process instead of returning. -/
inductive Fault where
  /-- A read through a NULL pointer. -/
  | nullRead
  /-- A call through a NULL function pointer. -/
  | nullCall
  /-- A copy past the end of a fixed-size array.  What comes of it is left open:
  the padding behind the array may take the bytes, and the code then goes on. -/
  | overflow
  deriving Repr, DecidableEq

/-! ## §4. Names on the wire. -/

open CString (ofString)

/-- `OVSDB_DEF_DB`. -/
def ovsdbDefDb : CString := ofString "Open_vSwitch"

/-- `GATEWAY_CONFIG_TABLE_NAME`. -/
def gatewayConfigTableName : CString := ofString "Gateway_Config"

/-- `FEEDBACK_TABLE_NAME`. -/
def feedbackTableName : CString := ofString "Feedback"

/-- `OVSDB_TABLE_UUID`. -/
def ovsdbTableUuid : CString := ofString "uuid"

/-- `OVSDB_TABLE_UUID_ALT`. -/
def ovsdbTableUuidAlt : CString := ofString "_uuid"

/-- `FEEDBACK_REQ_UUID`. -/
def feedbackReqUuid : CString := ofString "req_uuid"

/-- The names the encoders and the monitor request use; the other tables have none. -/
def OvsTable.name : OvsTable → Option CString
  | .gwConfig => some gatewayConfigTableName
  | .feedback => some feedbackTableName
  | .notify => none
  | .logbook => none

end OvsAgent
