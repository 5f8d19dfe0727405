/-
  OvsAgent.OvsAction.Commands — what ovs_action.c hands to the shell.

  One constructor for each `snprintf` template that ends up in `system` or
  `popen`.  `template` is the format with its fields in place, `render` the
  text in the 250-byte buffer `cmd`.
-/
import OvsAgent.DataTypes

namespace OvsAgent

open CString (ofString utoa)

/-! ## §1. Devices, interface types and commands. -/

/-- `OVS_DEVICE_MODEL`. -/
inductive OvsDeviceModel where
  | unknown
  | cgm4140com
  | tg3482g
  | cgm4981com
  | cgm4331com
  | sr213
  | sr300
  | se501
  | wnxl11bwl
  | sr203
  | tg4482a
  deriving Repr, DecidableEq

/-- `ovs_action_config`: what `ovs_action_init` has read from the environment. -/
structure OvsActionConfig where
  modelNum : OvsDeviceModel
  oneWifiEnabled : Bool
  deriving Repr, DecidableEq

/-- `OVS_IF_TYPE`. -/
inductive OvsIfType where
  | other
  | bridge
  | eth
  | gre
  | vlan
  deriving Repr, DecidableEq

/-- The enumerator's value. -/
def OvsIfType.toInt : OvsIfType → Int
  | .other => 0
  | .bridge => 1
  | .eth => 2
  | .gre => 3
  | .vlan => 4

/-- `OVS_CMD`. -/
inductive OvsCmd where
  | ifUp
  | ifDown
  | ifDelete
  | brRemove
  deriving Repr, DecidableEq

/-- The enumerator's value. -/
def OvsCmd.toInt : OvsCmd → Int
  | .ifUp => 0
  | .ifDown => 1
  | .ifDelete => 2
  | .brRemove => 3

/-- `if_cmd` is this enumerator; an `int` from a row may be none of them. -/
def GatewayConfig.Asks (req : GatewayConfig) (cmd : OvsCmd) : Prop := req.ifCmd = cmd.toInt

instance (req : GatewayConfig) (cmd : OvsCmd) : Decidable (req.Asks cmd) :=
  inferInstanceAs (Decidable (req.ifCmd = cmd.toInt))

/-- `if_type` is this enumerator. -/
def GatewayConfig.IsType (req : GatewayConfig) (type : OvsIfType) : Prop := req.ifType = type.toInt

instance (req : GatewayConfig) (type : OvsIfType) : Decidable (req.IsType type) :=
  inferInstanceAs (Decidable (req.ifType = type.toInt))

theorem GatewayConfig.IsType.unique {req : GatewayConfig} {type type' : OvsIfType} (h : req.IsType type)
    (h' : req.IsType type') : type = type' := by
  have heq : type.toInt = type'.toInt := h.symm.trans h'
  cases type <;> cases type' <;> first | rfl | cases heq

theorem GatewayConfig.Asks.unique {req : GatewayConfig} {cmd cmd' : OvsCmd} (h : req.Asks cmd)
    (h' : req.Asks cmd') : cmd = cmd' := by
  have heq : cmd.toInt = cmd'.toInt := h.symm.trans h'
  cases cmd <;> cases cmd' <;> first | rfl | cases heq

/-! ## §2. Names. -/

/-- `PUMA7_ETH1_NAME`. -/
def puma7Eth1Name : CString := ofString "nsgmii1.100"

/-- `PUMA7_ETH2_NAME`. -/
def puma7Eth2Name : CString := ofString "nsgmii1.101"

/-- `PUMA7_PORT1_NAME`. -/
def puma7Port1Name : CString := ofString "eth_0"

/-- `PUMA7_PORT2_NAME`. -/
def puma7Port2Name : CString := ofString "eth_1"

/-- `ETH_BHAUL_IF_NAME`. -/
def ethBhaulIfName : CString := ofString "ethsw123"

/-- `ETH_BHAUL_BR_NAME`. -/
def ethBhaulBrName : CString := ofString "brebhaul"

/-- `ETH_BHAUL_VLAN`. -/
def ethBhaulVlan : CString := ofString "123"

/-- `BRLAN0_ETH_NAME`. -/
def brlan0EthName : CString := ofString "brlan0"

/-- `LLAN0_ETH_NAME`. -/
def llan0EthName : CString := ofString "llan0"

/-- `BR106_ETH_NAME`. -/
def br106EthName : CString := ofString "br106"

/-- `WL0_3_ETH_NAME`. -/
def wl03EthName : CString := ofString "wl0.3"

/-- `SYS_CLASS_NET_PATH "/" name`. -/
def sysClassNetPath (name : CString) : CString := ofString "/sys/class/net/" ++ name

/-- The path of an interface's bridge, with `LINUX_BRPORT_POSTFIX_PATH`. -/
def brportPath (ifName : CString) : CString := sysClassNetPath ifName ++ ofString "/brport/bridge/uevent"

/-- `ETHER_TYPE_BRCM`, `ETHER_TYPE_BRCM_AIRIQ` and `ETHER_TYPE_802_1X`. -/
inductive EtherType where
  | brcm
  | brcmAiriq
  | ieee8021x
  deriving Repr, DecidableEq

/-- `0x%04x` of the type. -/
def EtherType.hex : EtherType → String
  | .brcm => "0x886c"
  | .brcmAiriq => "0x88b7"
  | .ieee8021x => "0x888e"

/-! ## §3. Commands. -/

/-- The match part of a flow. -/
inductive FlowMatch where
  | arp (nwDst : CString)
  | ip (nwDst : CString)
  | ipv6 (ipv6Dst : CString)
  deriving Repr, DecidableEq

/-- A command of `system` or `popen`.  A dummy bridge is named by its VLAN. -/
inductive Command where
  | ovsVsctlAddBr (bridge : CString)
  | ovsVsctlDelBr (bridge : CString)
  | ovsVsctlAddPort (bridge port : CString)
  | ovsVsctlDelPort (bridge port : CString)
  | ovsVsctlListPorts (bridge : CString)
  | ovsVsctlIfaceToBr (port : CString)
  | brctlAddbr (bridge : CString)
  | brctlAddif (bridge port : CString)
  | brctlDelif (bridge port : CString)
  | brctlShow (bridge : CString)
  | vlanUtilAddGroup (vlan : CString)
  | vlanUtilAddInterface (vlan port : CString)
  | brctlDelifDummy (vlan port : CString)
  | brctlDelbrDummy (vlan : CString)
  | ovsOfctlDelFlows (bridge : CString) (flow : FlowMatch)
  /-- With `actions=mod_dl_dst:…,output:…`. -/
  | ovsOfctlAddFlow (bridge : CString) (flow : FlowMatch) (macAddress port : CString)
  /-- With `actions=drop`. -/
  | ovsOfctlAddFlowDrop (bridge : CString) (flow : FlowMatch)
  | ovsOfctlDelEtherFlows (bridge : CString) (type : EtherType)
  | ovsOfctlAddEtherFlow (bridge : CString) (type : EtherType)
  | vconfigAdd (ifname : CString) (vlanId : Int)
  | ipLinkAddVlan (link ifname : CString) (vlanId : Int)
  | ipLinkAddEthBhaul
  | ipLinkAddGretap (ifname localAddr remoteAddr dev : CString)
  | ipLinkDel (ifname : CString)
  | ifconfigUpDown (ifname : CString) (up : Bool)
  | ifconfigAddr (ifname inetAddr netmask : CString)
  | ifconfigMtu (ifname : CString) (mtu : Int)
  | cat (path : CString)
  deriving Repr, DecidableEq

/-- A piece of a format: its own text, or a field substituted for a `%s` or `%d`. -/
inductive Piece where
  | text (s : String)
  | field (s : CString)
  deriving Repr, DecidableEq

/-- The bytes of a piece. -/
def Piece.bytes : Piece → CString
  | .text s => ofString s
  | .field s => s

/-- `%d`. -/
def itoa (i : Int) : CString := if i < 0 then 45 :: utoa i.natAbs else utoa i.natAbs

open Piece (text field) in
/-- The format of a match. -/
def FlowMatch.template : FlowMatch → List Piece
  | .arp nwDst => [text " arp,nw_dst=", field nwDst, text "/32"]
  | .ip nwDst => [text " ip,nw_dst=", field nwDst, text "/32"]
  | .ipv6 ipv6Dst => [text " ipv6,ipv6_dst=", field ipv6Dst, text "/128"]

open Piece (text field) in
/-- The format of a command. -/
def Command.template : Command → List Piece
  | .ovsVsctlAddBr bridge => [text "ovs-vsctl add-br ", field bridge]
  | .ovsVsctlDelBr bridge => [text "ovs-vsctl del-br ", field bridge]
  | .ovsVsctlAddPort bridge port => [text "ovs-vsctl add-port ", field bridge, text " ", field port]
  | .ovsVsctlDelPort bridge port => [text "ovs-vsctl del-port ", field bridge, text " ", field port]
  | .ovsVsctlListPorts bridge => [text "ovs-vsctl list-ports ", field bridge]
  | .ovsVsctlIfaceToBr port => [text "ovs-vsctl iface-to-br ", field port]
  | .brctlAddbr bridge => [text "brctl addbr ", field bridge]
  | .brctlAddif bridge port => [text "brctl addif ", field bridge, text " ", field port]
  | .brctlDelif bridge port => [text "brctl delif ", field bridge, text " ", field port]
  | .brctlShow bridge => [text "brctl show ", field bridge]
  | .vlanUtilAddGroup vlan => [text "/bin/vlan_util add_group dummy", field vlan, text " ", field vlan]
  | .vlanUtilAddInterface vlan port =>
      [text "/bin/vlan_util add_interface dummy", field vlan, text " ", field port]
  | .brctlDelifDummy vlan port => [text "brctl delif dummy", field vlan, text " ", field port]
  | .brctlDelbrDummy vlan => [text "ifconfig dummy", field vlan, text " down; brctl delbr dummy", field vlan]
  | .ovsOfctlDelFlows bridge flow =>
      [text "ovs-ofctl --strict del-flows ", field bridge] ++ flow.template
  | .ovsOfctlAddFlow bridge flow macAddress port =>
      [text "ovs-ofctl add-flow ", field bridge] ++ flow.template ++
        [text ",actions=mod_dl_dst:", field macAddress, text ",output:", field port]
  | .ovsOfctlAddFlowDrop bridge flow =>
      [text "ovs-ofctl add-flow ", field bridge] ++ flow.template ++ [text ",actions=drop"]
  | .ovsOfctlDelEtherFlows bridge type =>
      [text "ovs-ofctl --strict del-flows ", field bridge, text " \"dl_type=", text type.hex,
        text ", actions=", field bridge, text "\""]
  | .ovsOfctlAddEtherFlow bridge type =>
      [text "ovs-ofctl add-flow ", field bridge, text " \"dl_type=", text type.hex,
        text ", actions=", field bridge, text "\""]
  | .vconfigAdd ifname vlanId => [text "vconfig add ", field ifname, text " ", field (itoa vlanId)]
  | .ipLinkAddVlan link ifname vlanId =>
      [text "  ip link add link ", field link, text " ", field ifname,
        text " type vlan proto 802.1Q id ", field (itoa vlanId)]
  | .ipLinkAddEthBhaul =>
      [text "ip link add link ", field puma7Eth1Name, text " ", field ethBhaulIfName,
        text " type vlan proto 802.1Q id ", field ethBhaulVlan]
  | .ipLinkAddGretap ifname localAddr remoteAddr dev =>
      [text "ip link add ", field ifname, text " type gretap local ", field localAddr,
        text " remote ", field remoteAddr, text " dev ", field dev, text " tos 1"]
  | .ipLinkDel ifname => [text "ip link del ", field ifname]
  | .ifconfigUpDown ifname up =>
      [text "ifconfig ", field ifname, text " ", text (if up then "up" else "down")]
  | .ifconfigAddr ifname inetAddr netmask =>
      [text "ifconfig ", field ifname, text " ", field inetAddr, text " netmask ", field netmask]
  | .ifconfigMtu ifname mtu => [text "ifconfig ", field ifname, text " mtu ", field (itoa mtu)]
  | .cat path => [text "cat ", field path]

/-- The text in the buffer `cmd`: `snprintf` leaves room for the NUL. -/
def Command.render (c : Command) : CString := (c.template.flatMap Piece.bytes).take 249

end OvsAgent
