/-
  OvsAgent.DbApi.RowArrays — a row in the arrays of Gateway_Config.

  JsonParser.lean says which strings `gateway_config_parser` leaves in its
  fields.  Here are the arrays themselves: zeroed with the block, filled by
  `strncpy` up to their last byte, and that byte set to NUL.

  Main results:
    * `terminated_gatewayConfigArrays` — every array holds a string, whatever
      the row;
    * `read_gatewayConfigArrays` — they are the strings of JsonParser.lean.
-/
import OvsAgent.Lib.CMemory
import OvsAgent.DbApi.JsonParser

namespace OvsAgent

open CString (ofString CharArray untilNul)
open Json

/-- `MAX_IF_NAME_SIZE`. -/
abbrev maxIfNameSize : Nat := 16

/-- `MAX_IP_ADDR_SIZE`. -/
abbrev maxIpAddrSize : Nat := 16

/-- `MAX_BRIDGE_NAME_SIZE`. -/
abbrev maxBridgeNameSize : Nat := 16

/-- `Gateway_Config` as it lies in memory. -/
structure GatewayConfigArrays where
  ifName : CharArray maxIfNameSize
  inetAddr : CharArray maxIpAddrSize
  netmask : CharArray maxIpAddrSize
  greRemoteInetAddr : CharArray maxIpAddrSize
  greLocalInetAddr : CharArray maxIpAddrSize
  parentIfname : CharArray maxIfNameSize
  parentBridge : CharArray maxBridgeNameSize
  mtu : Int
  vlanId : Int
  ifType : Int
  ifCmd : Int

/-- What a reader of its strings finds. -/
def GatewayConfigArrays.read (config : GatewayConfigArrays) : GatewayConfig where
  ifName := config.ifName.read
  inetAddr := config.inetAddr.read
  netmask := config.netmask.read
  greRemoteInetAddr := config.greRemoteInetAddr.read
  greLocalInetAddr := config.greLocalInetAddr.read
  parentIfname := config.parentIfname.read
  parentBridge := config.parentBridge.read
  mtu := config.mtu
  vlanId := config.vlanId
  ifType := config.ifType
  ifCmd := config.ifCmd

/-- Every string field ends within its array. -/
structure GatewayConfigArrays.Terminated (config : GatewayConfigArrays) : Prop where
  ifName : config.ifName.Terminated
  inetAddr : config.inetAddr.Terminated
  netmask : config.netmask.Terminated
  greRemoteInetAddr : config.greRemoteInetAddr.Terminated
  greLocalInetAddr : config.greLocalInetAddr.Terminated
  parentIfname : config.parentIfname.Terminated
  parentBridge : config.parentBridge.Terminated

/-- A string column in an array of `n + 1` bytes: left zeroed without one. -/
def fetchArray (n : Nat) (root : Option Json) (key : CString) : CharArray (n + 1) :=
  match jsonFetchString root key with
  | some s => .copied n s
  | none => .zeroed (n + 1)

/-- `gateway_config_parser`. -/
def gatewayConfigArrays (json : Json) : GatewayConfigArrays where
  ifName := fetchArray 15 (some json) (ofString "if_name")
  inetAddr := fetchArray 15 (some json) (ofString "inet_addr")
  netmask := fetchArray 15 (some json) (ofString "netmask")
  greRemoteInetAddr := fetchArray 15 (some json) (ofString "gre_remote_inet_addr")
  greLocalInetAddr := fetchArray 15 (some json) (ofString "gre_local_inet_addr")
  parentIfname := fetchArray 15 (some json) (ofString "parent_ifname")
  parentBridge := fetchArray 15 (some json) (ofString "parent_bridge")
  mtu := fetchInt (some json) (ofString "mtu")
  vlanId := fetchInt (some json) (ofString "vlan_id")
  ifType := fetchInt (some json) (ofString "if_type")
  ifCmd := fetchInt (some json) (ofString "if_cmd")

theorem terminated_fetchArray (n : Nat) (root : Option Json) (key : CString) :
    (fetchArray n root key).Terminated := by
  unfold fetchArray
  cases jsonFetchString root key with
  | none => exact CharArray.terminated_zeroed (Nat.succ_pos n)
  | some s => exact CharArray.terminated_copied n s

/-- **Every string field is terminated.** -/
theorem terminated_gatewayConfigArrays (json : Json) : (gatewayConfigArrays json).Terminated where
  ifName := terminated_fetchArray ..
  inetAddr := terminated_fetchArray ..
  netmask := terminated_fetchArray ..
  greRemoteInetAddr := terminated_fetchArray ..
  greLocalInetAddr := terminated_fetchArray ..
  parentIfname := terminated_fetchArray ..
  parentBridge := terminated_fetchArray ..

/-- jansson reads no NUL into a string. -/
def NoNulIn (json : Json) : Prop := ∀ key s, jsonFetchString (some json) key = some s → 0 ∉ s

theorem read_fetchArray {json : Json} (h : NoNulIn json) (n : Nat) (key : CString) :
    (fetchArray n (some json) key).read = fetchInto (n + 1) (some json) key := by
  unfold fetchArray fetchInto
  cases hs : jsonFetchString (some json) key with
  | none =>
      show untilNul (List.replicate (n + 1) 0) = []
      rw [List.replicate_succ]
      rfl
  | some s =>
      dsimp only
      rw [CharArray.read_copied, CString.untilNul_of_not_mem (h key s hs), Nat.add_sub_cancel]
      rfl

/-- **The strings** are those of `gatewayConfigParser`. -/
theorem read_gatewayConfigArrays {json : Json} (h : NoNulIn json) :
    (gatewayConfigArrays json).read = gatewayConfigParser json := by
  unfold gatewayConfigArrays gatewayConfigParser GatewayConfigArrays.read
  simp only [read_fetchArray h]

end OvsAgent
