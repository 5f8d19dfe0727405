/-
  OvsAgent.OvsAction.OvsAction — how a Gateway_Config request is carried out.

  Follows ovs_action.c.  A request is a computation whose trace is what the
  process does: the commands it runs, the queries it makes with their answers,
  and, as history, the status each helper returned.  The answers come from the
  environment, one field for each place that asks: no place is passed twice
  in a request.

  `!req` is left out (`gwconf_mon_cb` has made that test), and so is the log.
-/
import OvsAgent.OvsAction.Commands
import OvsAgent.Lib.Traced

namespace OvsAgent

open CString (ofString fgets chomp strstr startsWith)
open Traced (emit when)

/-! ## §1. The trace. -/

/-- The functions with a status. -/
inductive Helper where
  | getExistingOvsParentBridge
  | getExistingLinuxParentBridge
  | setupAndRestoreEthSwitchCmds
  | setupEthSwitchCmds
  | ovsSetupEthSwitch
  | ovsSetupAdminGuiAccess
  | ovsBlockMsoUiAccess
  | ovsSetupBrcmWifiFlows
  | removeExistingInterfacePort
  | configureParentBridge
  | ovsSetupBridgeFlows
  | ovsModifyParentBridge
  | ovsSetupPortFlows
  | ovsCreateBridge
  | ovsCreateVlan
  | ovsCreateGRE
  | ovsAddPort
  deriving Repr, DecidableEq

/-- What a request does. -/
inductive ActionEvent where
  | system (cmd : Command)
  /-- The output read from the pipe; `none` when `popen` fails. -/
  | popen (cmd : Command) (output : Option CString)
  | access (path : CString) (found : Bool)
  | syscfgGet (value : Option CString)
  | getParamValues (value : Option CString)
  /-- History: the function returned this status. -/
  | returned (helper : Helper) (status : OvsStatus)
  deriving Repr, DecidableEq

/-- The answers a request may get. -/
structure ActionEnv where
  /-- `access(ETH_BHAUL_IF_PATH)`. -/
  ethBhaulPath : Bool
  /-- The bridge of the other Puma7 port. -/
  restoreIfaceToBr : Option CString
  restorePath : Bool
  /-- The bridge of the Puma7 port itself. -/
  ethIfaceToBr : Option CString
  /-- Looked at for the log only. -/
  ethIfPath : Bool
  ethRestorePath : Bool
  /-- `removeExistingInterfacePort`, with OVS and without. -/
  ifaceToBr : Option CString
  brportPath : Bool
  brportUevent : Option CString
  /-- `configureParentBridge`. -/
  bridgePath : Bool
  bridgePorts : Option CString
  /-- The syscfg value, `none` when `SyscfgGet` fails. -/
  lan0IpAddress : Option CString
  lan0MacAddress : Option CString
  /-- The CCSP value, `none` when there is none to be had. -/
  cmIpAddress : Option CString
  deriving Repr, DecidableEq

/-- A computation of ovs_action.c. -/
abbrev Action (α : Type) : Type := Traced ActionEvent α

def system (cmd : Command) : Action Unit := emit (.system cmd)

def popen (cmd : Command) (output : Option CString) : Action (Option CString) := do
  emit (.popen cmd output)
  pure output

def access (path : CString) (found : Bool) : Action Bool := do
  emit (.access path found)
  pure found

/-- The body of a function with a status. -/
def returning (helper : Helper) (body : Action OvsStatus) : Action OvsStatus := do
  let status ← body
  emit (.returned helper status)
  pure status

/-- The body of a function with a status and a result through a pointer. -/
def returningWith {α : Type} (helper : Helper) (body : Action (OvsStatus × α)) :
    Action (OvsStatus × α) := do
  let r ← body
  emit (.returned helper r.1)
  pure r

/-! ## §2. Which bridge a port is on. -/

/-- What `ovs-vsctl iface-to-br` says: its last line, unless it is an error message. -/
def ovsParentBridge (output : CString) : Option CString :=
  let existingBridge := chomp ((fgets 31 output).getLastD [])
  if existingBridge ≠ [] ∧ startsWith (ofString "ovs-vsctl:") existingBridge =
    false then some existingBridge
  else none

/-- `getExistingOvsParentBridge`. -/
def getExistingOvsParentBridge (ifName : CString) (answer : Option CString) :
    Action (OvsStatus × Option CString) :=
  returningWith .getExistingOvsParentBridge do
    let output ← popen (.ovsVsctlIfaceToBr ifName) answer
    pure (match output with
      | none => (.failed, none)
      | some output => (.success, ovsParentBridge output))

/-- What the uevent file says: the rest of the first line with INTERFACE= in it. -/
def linuxParentBridge (output : CString) : Option CString :=
  match (fgets 63 output).findSome? (strstr (ofString "INTERFACE=")) with
  | none => none
  | some bridge =>
      let existingBridge := (chomp (bridge.drop 10)).take 32
      if existingBridge ≠ [] then some existingBridge else none

/-- `getExistingLinuxParentBridge`. -/
def getExistingLinuxParentBridge (ifName : CString) (pathFound : Bool) (answer : Option CString) :
    Action (OvsStatus × Option CString) :=
  returningWith .getExistingLinuxParentBridge do
    let found ← access (brportPath ifName) pathFound
    if found then do
      let output ← popen (.cat (brportPath ifName)) answer
      pure (match output with
        | none => (.failed, none)
        | some output => (.success, linuxParentBridge output))
    else pure (.success, none)

/-! ## §3. The Puma7 switch ports. -/

/-- `getVlanFromInterfaceName`. -/
def getVlanFromInterfaceName (ifName : CString) : Option CString :=
  match ifName.dropWhile (· ≠ 46) with
  | _ :: b :: vlan => some (b :: vlan)
  | _ => none

/-- The VLAN as `%s` prints it. -/
def vlanOf (ifName : CString) : CString := (getVlanFromInterfaceName ifName).getD (ofString "(null)")

/-- `setupAndRestoreEthSwitchCmds`. -/
def setupAndRestoreEthSwitchCmds (env : ActionEnv) (ifName restoreIfName restoreBridge : CString) :
    Action OvsStatus :=
  returning .setupAndRestoreEthSwitchCmds do
    system (.ovsVsctlDelPort restoreBridge restoreIfName)
    let (status, found) ← getExistingOvsParentBridge ifName env.ethIfaceToBr
    if status ≠ .success then pure status
    else do
      (match found with
        | some parentBridge => system (.ovsVsctlDelPort parentBridge ifName)
        | none => pure ())
      system (.vlanUtilAddGroup (ofString "100"))
      system (.vlanUtilAddGroup (ofString "101"))
      system (.vlanUtilAddInterface (ofString "100") puma7Port1Name)
      system (.vlanUtilAddInterface (ofString "101") puma7Port2Name)
      system (.brctlDelifDummy (vlanOf ifName) ifName)
      system (.brctlDelifDummy (vlanOf restoreIfName) restoreIfName)
      system (.brctlDelbrDummy (ofString "100"))
      system (.brctlDelbrDummy (ofString "101"))
      system (.ovsVsctlAddPort restoreBridge restoreIfName)
      let _ ← access (sysClassNetPath ifName) env.ethIfPath
      let _ ← access (sysClassNetPath restoreIfName) env.ethRestorePath
      pure status

/-- `setupEthSwitchCmds`. -/
def setupEthSwitchCmds (env : ActionEnv) (ifName : CString) : Action OvsStatus :=
  returning .setupEthSwitchCmds do
    system (.vlanUtilAddGroup (vlanOf ifName))
    when (ifName = puma7Eth1Name) (system (.vlanUtilAddInterface (vlanOf ifName) puma7Port1Name))
    system (.vlanUtilAddInterface (vlanOf ifName) puma7Port2Name)
    system (.brctlDelifDummy (vlanOf ifName) ifName)
    system (.brctlDelbrDummy (vlanOf ifName))
    let _ ← access (sysClassNetPath ifName) env.ethIfPath
    pure .success

/-- The end of `ovs_setupEthSwitch`: the ethernet backhaul is restored. -/
def restoreEthBhaul (ethBhaulFound : Bool) : Action Unit :=
  when (ethBhaulFound = true) do
    system .ipLinkAddEthBhaul
    system (.ifconfigUpDown ethBhaulIfName true)
    system (.ovsVsctlAddPort ethBhaulBrName ethBhaulIfName)

/-- The port is set up, with the other one restored to its bridge if it is on one. -/
def switchCommands (env : ActionEnv) (ifName restoreIfName : CString) : Option CString → Action OvsStatus
  | some restoreBridge => setupAndRestoreEthSwitchCmds env ifName restoreIfName restoreBridge
  | none => setupEthSwitchCmds env ifName

/-- What `ovs_setupEthSwitch` does for one of the two ports, `restoreIfName`
being the other.  A failed query returns at once. -/
def setupEthSwitchPort (env : ActionEnv) (ethBhaulFound : Bool) (ifName restoreIfName : CString) :
    Action OvsStatus := do
  let (status, found) ← getExistingOvsParentBridge restoreIfName env.restoreIfaceToBr
  if status ≠ .success then pure status
  else do
    let pathFound ← access (sysClassNetPath restoreIfName) env.restorePath
    let status ← switchCommands env ifName restoreIfName (if pathFound then found else none)
    restoreEthBhaul ethBhaulFound
    pure status

/-- `ovs_setupEthSwitch`. -/
def ovsSetupEthSwitch (env : ActionEnv) (ifName : CString) : Action OvsStatus :=
  returning .ovsSetupEthSwitch do
    let ethBhaulFound ← access (sysClassNetPath ethBhaulIfName) env.ethBhaulPath
    if ifName = puma7Eth1Name then setupEthSwitchPort env ethBhaulFound ifName puma7Eth2Name
    else if ifName = puma7Eth2Name then setupEthSwitchPort env ethBhaulFound ifName puma7Eth1Name
    else do
      restoreEthBhaul ethBhaulFound
      pure .success

/-! ## §4. Flows. -/

/-- `GetLan0IPAddess`. -/
def getLan0IPAddess (env : ActionEnv) : Action (Option CString) := do
  emit (.syscfgGet env.lan0IpAddress)
  pure (env.lan0IpAddress.filter fun ip => 7 ≤ ip.length && ip.length ≤ 15)

/-- The flows of `ovs_setup_admin_gui_access`, for a MAC address of the right length. -/
def addGuiFlows (req : GatewayConfig) (ipAddress macAddress : CString) : Action OvsStatus :=
  if macAddress.length ≠ 17 then pure .failed
  else do
    system (.ovsOfctlAddFlow req.parentBridge (.arp ipAddress) macAddress req.ifName)
    system (.ovsOfctlAddFlow req.parentBridge (.ip ipAddress) macAddress req.ifName)
    pure .success

/-- `ovs_setup_admin_gui_access` once it has the address of lan0. -/
def setupGuiFlows (env : ActionEnv) (req : GatewayConfig) (ipAddress : CString) : Action OvsStatus := do
  system (.ovsOfctlDelFlows req.parentBridge (.arp ipAddress))
  system (.ovsOfctlDelFlows req.parentBridge (.ip ipAddress))
  if ¬ req.Asks .brRemove then do
    let output ← popen (.cat (sysClassNetPath (ofString "lan0/address"))) env.lan0MacAddress
    match output with
    | none => pure .failed
    | some output => addGuiFlows req ipAddress ((fgets 17 output).headD [])
  else pure .success

/-- `ovs_setup_admin_gui_access`. -/
def ovsSetupAdminGuiAccess (env : ActionEnv) (req : GatewayConfig) : Action OvsStatus :=
  returning .ovsSetupAdminGuiAccess do
    let ip ← getLan0IPAddess env
    match ip with
    | none => pure .failed
    | some ipAddress => setupGuiFlows env req ipAddress

/-- `ovs_block_mso_ui_access`. -/
def ovsBlockMsoUiAccess (env : ActionEnv) (req : GatewayConfig) : Action OvsStatus :=
  returning .ovsBlockMsoUiAccess do
    emit (.getParamValues env.cmIpAddress)
    match env.cmIpAddress with
    | none => pure .failed
    | some parameterValue =>
        if parameterValue = [] then pure .failed
        else do
          system (.ovsOfctlDelFlows req.parentBridge (.ipv6 parameterValue))
          when (¬ req.Asks .brRemove) (system (.ovsOfctlAddFlowDrop req.parentBridge (.ipv6 parameterValue)))
          pure .success

/-- 802.1X flows are not set up with OneWifi, nor on the HUB4. -/
def OvsActionConfig.skips (conf : OvsActionConfig) (type : EtherType) : Prop :=
  (conf.oneWifiEnabled = true ∨ conf.modelNum = .sr203) ∧ type = .ieee8021x

instance (conf : OvsActionConfig) (type : EtherType) : Decidable (conf.skips type) :=
  inferInstanceAs (Decidable ((_ ∨ _) ∧ _))

/-- The loop of `ovs_setup_brcm_wifi_flows`. -/
def setupEtherFlows (conf : OvsActionConfig) (req : GatewayConfig) : List EtherType → Action Unit
  | [] => pure ()
  | type :: types => do
      when (¬ conf.skips type) do
        system (.ovsOfctlDelEtherFlows req.parentBridge type)
        when (¬ req.Asks .brRemove) (system (.ovsOfctlAddEtherFlow req.parentBridge type))
      setupEtherFlows conf req types

/-- `ovs_setup_brcm_wifi_flows`. -/
def ovsSetupBrcmWifiFlows (conf : OvsActionConfig) (req : GatewayConfig) : Action OvsStatus :=
  returning .ovsSetupBrcmWifiFlows
    (if req.parentBridge = [] then pure .failed
    else do
      setupEtherFlows conf req [.brcm, .brcmAiriq, .ieee8021x]
      pure .success)

/-- The models with bridge flows. -/
def OvsDeviceModel.hasBridgeFlows (model : OvsDeviceModel) : Prop :=
  model = .cgm4331com ∨ model = .cgm4981com ∨ model = .sr203

instance (model : OvsDeviceModel) : Decidable model.hasBridgeFlows :=
  inferInstanceAs (Decidable (_ ∨ _))

/-- `ovs_setup_bridge_flows`. -/
def ovsSetupBridgeFlows (conf : OvsActionConfig) (req : GatewayConfig) : Action OvsStatus :=
  returning .ovsSetupBridgeFlows
    (if conf.modelNum.hasBridgeFlows then ovsSetupBrcmWifiFlows conf req else pure .success)

/-! ## §5. The parent bridge. -/

/-- The bridges set up with the Linux bridge utilities. -/
def linuxBridgeNames : List CString :=
  [ofString "brlan2", ofString "brlan3", ofString "brlan4", ofString "brlan5"]

/-- `ovsEnabled` of `ovs_modifyParentBridge`. -/
def GatewayConfig.ovsEnabled (req : GatewayConfig) : Bool := decide (req.parentBridge ∉ linuxBridgeNames)

/-- The port is taken off the bridge it is on: to remove that bridge's port, or
to bring it up on another. -/
def GatewayConfig.removesPort (req : GatewayConfig) (existingBridge : CString) : Prop :=
  (req.parentBridge = existingBridge ∧ req.Asks .brRemove) ∨
    (req.parentBridge ≠ existingBridge ∧ req.Asks .ifUp)

instance (req : GatewayConfig) (existingBridge : CString) : Decidable (req.removesPort existingBridge) :=
  inferInstanceAs (Decidable (_ ∨ _))

/-- The query of `removeExistingInterfacePort`, of either kind. -/
def portQuery (env : ActionEnv) (req : GatewayConfig) (ovsEnabled : Bool) :
    Action (OvsStatus × Option CString) :=
  if ovsEnabled then getExistingOvsParentBridge req.ifName env.ifaceToBr
  else getExistingLinuxParentBridge req.ifName env.brportPath env.brportUevent

/-- The command that takes the port off `bridge`. -/
def detachCommand (req : GatewayConfig) (ovsEnabled : Bool) (bridge : CString) : Command :=
  if ovsEnabled then .ovsVsctlDelPort bridge req.ifName else .brctlDelif bridge req.ifName

/-- `removeExistingInterfacePort`. -/
def removeExistingInterfacePort (env : ActionEnv) (req : GatewayConfig) (ovsEnabled : Bool) :
    Action OvsStatus :=
  returning .removeExistingInterfacePort do
    let (status, found) ← portQuery env req ovsEnabled
    if status ≠ .success then pure status
    else
      match found with
      | none => pure status
      | some existingBridge => do
          when (req.removesPort existingBridge) (system (detachCommand req ovsEnabled existingBridge))
          pure status

/-- The `ifconfig` of an interface for the up and the down command. -/
def ifconfigUpDown (req : GatewayConfig) (name : CString) : Action Unit :=
  when (req.Asks .ifUp ∨ req.Asks .ifDown) (system (.ifconfigUpDown name (req.Asks .ifUp)))

/-- The three commands of `configureParentBridge` for the parent bridge. -/
def createCommand (req : GatewayConfig) (ovsEnabled : Bool) : Command :=
  if ovsEnabled then .ovsVsctlAddBr req.parentBridge else .brctlAddbr req.parentBridge

def attachCommand (req : GatewayConfig) (ovsEnabled : Bool) : Command :=
  if ovsEnabled then .ovsVsctlAddPort req.parentBridge req.ifName
  else .brctlAddif req.parentBridge req.ifName

def listCommand (req : GatewayConfig) (ovsEnabled : Bool) : Command :=
  if ovsEnabled then .ovsVsctlListPorts req.parentBridge else .brctlShow req.parentBridge

/-- `configureParentBridge`, with `*exists`. -/
def configureParentBridge (env : ActionEnv) (req : GatewayConfig) (ovsEnabled : Bool) :
    Action (OvsStatus × Bool) :=
  returningWith .configureParentBridge do
    let found ← access (sysClassNetPath req.parentBridge) env.bridgePath
    when (found = false) (system (createCommand req ovsEnabled))
    ifconfigUpDown req req.parentBridge
    system (attachCommand req ovsEnabled)
    let ports ← popen (listCommand req ovsEnabled) env.bridgePorts
    pure (if ports.isSome then .success else .failed, found)

/-- `ovs_modifyParentBridge`. -/
def ovsModifyParentBridge (conf : OvsActionConfig) (env : ActionEnv) (req : GatewayConfig) :
    Action OvsStatus :=
  returning .ovsModifyParentBridge do
    let status ← removeExistingInterfacePort env req req.ovsEnabled
    if status ≠ .success then pure status
    else if ¬ req.Asks .brRemove then do
      let (status, bridgeExists) ← configureParentBridge env req req.ovsEnabled
      -- the status of a new bridge's configuration is overwritten
      if bridgeExists = false then ovsSetupBridgeFlows conf req else pure status
    else pure status

/-- The models with flows for brlan0's port llan0. -/
def OvsDeviceModel.hasGuiFlows (model : OvsDeviceModel) : Prop :=
  model = .cgm4140com ∨ model = .tg3482g ∨ model = .cgm4331com ∨ model = .cgm4981com ∨
  model = .tg4482a

instance (model : OvsDeviceModel) : Decidable model.hasGuiFlows :=
  inferInstanceAs (Decidable (_ ∨ _))

/-- `ovs_setup_port_flows`. -/
def ovsSetupPortFlows (conf : OvsActionConfig) (env : ActionEnv) (req : GatewayConfig) :
    Action OvsStatus :=
  returning .ovsSetupPortFlows
    (if req.parentBridge = brlan0EthName ∧ req.ifName = llan0EthName then
      if conf.modelNum.hasGuiFlows then do
        -- the first status is overwritten by the second
        let _ ← ovsSetupAdminGuiAccess env req
        ovsBlockMsoUiAccess env req
      else pure .success
    else if req.parentBridge = br106EthName ∧ req.ifName = wl03EthName then ovsSetupBridgeFlows conf req
    else pure .success)

/-! ## §6. The four handlers. -/

/-- `ovs_createBridge`. -/
def ovsCreateBridge (conf : OvsActionConfig) (req : GatewayConfig) : Action OvsStatus :=
  returning .ovsCreateBridge
    (if req.Asks .ifDelete then do
      system (.ovsVsctlDelBr req.ifName)
      pure .success
    else do
      system (.ovsVsctlAddBr req.ifName)
      when (req.inetAddr ≠ []) (system (.ifconfigAddr req.ifName req.inetAddr req.netmask))
      ifconfigUpDown req req.ifName
      when (req.mtu ≠ 0) (system (.ifconfigMtu req.ifName req.mtu))
      ovsSetupBridgeFlows conf req)

/-- The end of `ovs_createVlan` and `ovs_createGRE`. -/
def modifyParentBridgeIfAny (conf : OvsActionConfig) (env : ActionEnv) (req : GatewayConfig) :
    Action OvsStatus :=
  if req.parentBridge ≠ [] then ovsModifyParentBridge conf env req else pure .success

/-- `ovs_createVlan`. -/
def ovsCreateVlan (conf : OvsActionConfig) (env : ActionEnv) (req : GatewayConfig) : Action OvsStatus :=
  returning .ovsCreateVlan
    (if req.Asks .ifDelete then do
      system (.ipLinkDel req.ifName)
      pure .success
    else do
      when (req.parentIfname ≠ []) (system
        (if conf.modelNum = .tg3482g then .ipLinkAddVlan req.parentIfname req.ifName req.vlanId
        else .vconfigAdd req.parentIfname req.vlanId))
      ifconfigUpDown req req.ifName
      modifyParentBridgeIfAny conf env req)

/-- The fields a GRE interface is made from. -/
def GatewayConfig.hasGre (req : GatewayConfig) : Prop :=
  req.parentIfname ≠ [] ∧ req.greLocalInetAddr ≠ [] ∧ req.greRemoteInetAddr ≠ []

instance (req : GatewayConfig) : Decidable req.hasGre := inferInstanceAs (Decidable (_ ∧ _))

/-- `ovs_createGRE`. -/
def ovsCreateGRE (conf : OvsActionConfig) (env : ActionEnv) (req : GatewayConfig) : Action OvsStatus :=
  returning .ovsCreateGRE
    (if req.Asks .ifDelete then do
      system (.ipLinkDel req.ifName)
      pure .success
    else do
      when req.hasGre (system
        (.ipLinkAddGretap req.ifName req.greLocalInetAddr req.greRemoteInetAddr req.parentIfname))
      ifconfigUpDown req req.ifName
      modifyParentBridgeIfAny conf env req)

/-- The port needs the work-around for the Puma7 switch. -/
def isEthSwitchPort (conf : OvsActionConfig) (req : GatewayConfig) : Prop :=
  conf.modelNum = .tg3482g ∧ (req.ifName = puma7Eth1Name ∨ req.ifName = puma7Eth2Name) ∧ req.Asks .ifUp

instance (conf : OvsActionConfig) (req : GatewayConfig) : Decidable (isEthSwitchPort conf req) :=
  inferInstanceAs (Decidable (_ ∧ _))

/-- The work-around, when the port needs it. -/
def ethSwitch (conf : OvsActionConfig) (env : ActionEnv) (req : GatewayConfig) : Action OvsStatus :=
  if isEthSwitchPort conf req then ovsSetupEthSwitch env req.ifName else pure .success

/-- The end of `ovs_addPort`. -/
def addPortToParentBridge (conf : OvsActionConfig) (env : ActionEnv) (req : GatewayConfig) :
    Action OvsStatus :=
  if req.parentBridge ≠ [] then do
    let status ← ovsModifyParentBridge conf env req
    if status ≠ .success then pure status else ovsSetupPortFlows conf env req
  else pure .success

/-- `ovs_addPort`. -/
def ovsAddPort (conf : OvsActionConfig) (env : ActionEnv) (req : GatewayConfig) : Action OvsStatus :=
  returning .ovsAddPort
    (if req.Asks .ifDelete then do
      system (.ipLinkDel req.ifName)
      pure .success
    else do
      let status ← ethSwitch conf env req
      if status ≠ .success then pure status
      else do
        ifconfigUpDown req req.ifName
        addPortToParentBridge conf env req)

/-- `ovs_action_gateway_config`. -/
def ovsActionGatewayConfig (conf : OvsActionConfig) (env : ActionEnv) (req : GatewayConfig) :
    Action OvsStatus :=
  if req.IsType .bridge then ovsCreateBridge conf req
  else if req.IsType .vlan then ovsCreateVlan conf env req
  else if req.IsType .gre then ovsCreateGRE conf env req
  else ovsAddPort conf env req

/-! ## §7. A request in a quiet environment. -/

/-- An environment in which every query succeeds with nothing found. -/
def quietEnv : ActionEnv where
  ethBhaulPath := false
  restoreIfaceToBr := some []
  restorePath := false
  ethIfaceToBr := some []
  ethIfPath := false
  ethRestorePath := false
  ifaceToBr := some []
  brportPath := false
  brportUevent := some []
  bridgePath := true
  bridgePorts := some []
  lan0IpAddress := none
  lan0MacAddress := none
  cmIpAddress := none

/-- A request with the fields that matter most. -/
def simpleRequest (type : OvsIfType) (cmd : OvsCmd) (ifName parentBridge : CString) : GatewayConfig :=
  ⟨ifName, [], [], [], [], [], parentBridge, 0, 0, type.toInt, cmd.toInt⟩

end OvsAgent
