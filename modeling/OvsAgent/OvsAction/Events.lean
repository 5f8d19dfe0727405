/-
  OvsAgent.OvsAction.Events — what each function returns and what it does.

  For each function of ovs_action.c two lemmas: its status, read off the
  answers (`…_value`), and exactly which events it goes through (`all_…`, for
  an arbitrary law `P` of events).  The proofs about requests use these and do
  not open the functions again.
-/
import OvsAgent.OvsAction.OvsAction

namespace OvsAgent

open CString (ofString)
open Traced

variable {conf : OvsActionConfig} {env : ActionEnv} {req : GatewayConfig} {P : ActionEvent → Prop}

/-! ## §1. The building blocks. -/

@[simp] theorem system_value (cmd : Command) : (system cmd).value = () := rfl
@[simp] theorem popen_value (cmd : Command) (output : Option CString) : (popen cmd output).value = output :=
  rfl
@[simp] theorem access_value (path : CString) (found : Bool) : (access path found).value = found := rfl

@[simp] theorem all_system (cmd : Command) : (system cmd).All P ↔ P (.system cmd) := all_emit _

@[simp] theorem all_popen (cmd : Command) (output : Option CString) :
    (popen cmd output).All P ↔ P (.popen cmd output) := by
  simp [popen]

@[simp] theorem all_access (path : CString) (found : Bool) :
    (access path found).All P ↔ P (.access path found) := by
  simp [access]

/-- A helper's status is its body's: the event of its return only marks it. -/
@[simp] theorem returning_value (h : Helper) (body : Action OvsStatus) :
    (returning h body).value = body.value := rfl

/-- The events of a helper are those of its body and its return. -/
@[simp] theorem all_returning (h : Helper) (body : Action OvsStatus) :
    (returning h body).All P ↔ body.All P ∧ P (.returned h body.value) := by
  simp [returning]

@[simp] theorem returningWith_value {α : Type} (h : Helper) (body : Action (OvsStatus × α)) :
    (returningWith h body).value = body.value := rfl

/-- As `all_returning`, for a helper that also hands a value back. -/
@[simp] theorem all_returningWith {α : Type} (h : Helper) (body : Action (OvsStatus × α)) :
    (returningWith h body).All P ↔ body.All P ∧ P (.returned h body.value.1) := by
  simp [returningWith]

/-! ## §2. The bridge a port is on. -/

/-- The query of `removeExistingInterfacePort` fails. -/
def ActionEnv.queryFails (env : ActionEnv) (ovsEnabled : Bool) : Prop :=
  if ovsEnabled then env.ifaceToBr = none else env.brportPath = true ∧ env.brportUevent = none

instance (env : ActionEnv) (ovsEnabled : Bool) : Decidable (env.queryFails ovsEnabled) :=
  inferInstanceAs (Decidable
    (if ovsEnabled = true then env.ifaceToBr = none else env.brportPath = true ∧ env.brportUevent = none))

/-- The bridge the query reports, if any. -/
def ActionEnv.existingBridge (env : ActionEnv) (ovsEnabled : Bool) : Option CString :=
  if ovsEnabled then env.ifaceToBr.bind ovsParentBridge
  else if env.brportPath then env.brportUevent.bind linuxParentBridge else none

/-- The status is that of the `popen`; the bridge is read off what it printed. -/
theorem getExistingOvsParentBridge_value (ifName : CString) (answer : Option CString) :
    (getExistingOvsParentBridge ifName answer).value
      = (if answer.isSome then .success else .failed, answer.bind ovsParentBridge) := by
  cases answer <;> rfl

/-- One query of ovs-vsctl, whatever it prints. -/
theorem all_getExistingOvsParentBridge (ifName : CString) (answer : Option CString) :
    (getExistingOvsParentBridge ifName answer).All P
      ↔ P (.popen (.ovsVsctlIfaceToBr ifName) answer) ∧
        P (.returned .getExistingOvsParentBridge (if answer.isSome then .success else .failed)) := by
  unfold getExistingOvsParentBridge
  cases answer <;> simp

/-- Only a failed `popen` on a path that is there fails: a port without a path is on no bridge. -/
theorem getExistingLinuxParentBridge_value (ifName : CString) (pathFound : Bool) (answer : Option CString) :
    (getExistingLinuxParentBridge ifName pathFound answer).value
      = (if pathFound = true ∧ answer = none then .failed else .success,
        if pathFound then answer.bind linuxParentBridge else none) := by
  cases pathFound <;> cases answer <;> rfl

/-- The file behind the path is read only where the path is there. -/
theorem all_getExistingLinuxParentBridge (ifName : CString) (pathFound : Bool) (answer : Option CString) :
    (getExistingLinuxParentBridge ifName pathFound answer).All P
      ↔ P (.access (brportPath ifName) pathFound) ∧
        (pathFound = true → P (.popen (.cat (brportPath ifName)) answer)) ∧
        P (.returned .getExistingLinuxParentBridge
          (if pathFound = true ∧ answer = none then .failed else .success)) := by
  unfold getExistingLinuxParentBridge
  cases pathFound <;> cases answer <;> simp [and_assoc]

/-- The query of either technology, as one statement about the environment's answers. -/
theorem portQuery_value (ovsEnabled : Bool) :
    (portQuery env req ovsEnabled).value
      = (if env.queryFails ovsEnabled then .failed else .success, env.existingBridge ovsEnabled) := by
  unfold portQuery ActionEnv.queryFails ActionEnv.existingBridge
  cases ovsEnabled with
  | true =>
      simp only [if_true, getExistingOvsParentBridge_value]
      cases env.ifaceToBr <;> rfl
  | false =>
      simp only [Bool.false_eq_true, if_false, getExistingLinuxParentBridge_value]

/-- The removal fails exactly when its query does: the status of the detaching command is not looked
at. -/
theorem removeExistingInterfacePort_value (ovsEnabled : Bool) :
    (removeExistingInterfacePort env req ovsEnabled).value
      = if env.queryFails ovsEnabled then .failed else .success := by
  have hq := @portQuery_value env req ovsEnabled
  unfold removeExistingInterfacePort
  rw [returning_value, bind_value, hq]
  by_cases hf : env.queryFails ovsEnabled
  · simp [hf]
  · cases env.existingBridge ovsEnabled <;> simp [hf]

/-- A port is taken only off the bridge that the query found, and only if the request removes it
there. -/
theorem all_removeExistingInterfacePort (ovsEnabled : Bool) :
    (removeExistingInterfacePort env req ovsEnabled).All P
      ↔ (portQuery env req ovsEnabled).All P ∧
        (¬ env.queryFails ovsEnabled → ∀ bridge, env.existingBridge ovsEnabled = some bridge →
          req.removesPort bridge → P (.system (detachCommand req ovsEnabled bridge))) ∧
        P (.returned .removeExistingInterfacePort
          (if env.queryFails ovsEnabled then .failed else .success)) := by
  have hv := @removeExistingInterfacePort_value env req ovsEnabled
  have hq := @portQuery_value env req ovsEnabled
  unfold removeExistingInterfacePort at hv ⊢
  rw [all_returning, ← hv, returning_value, all_bind, and_assoc]
  refine and_congr_right fun _ => and_congr_left fun _ => ?_
  rw [hq]
  by_cases hf : env.queryFails ovsEnabled
  · simp [hf]
  · cases hb : env.existingBridge ovsEnabled with
    | none => simp [hf]
    | some bridge => simp [hf, detachCommand]

/-! ## §3. Flows. -/

/-- Every type that the model does not skip loses its flows and, unless the port goes, is given new
ones. -/
theorem all_setupEtherFlows (types : List EtherType) :
    (setupEtherFlows conf req types).All P
      ↔ ∀ type ∈ types, ¬ conf.skips type →
        P (.system (.ovsOfctlDelEtherFlows req.parentBridge type)) ∧
        (¬ req.Asks .brRemove → P (.system (.ovsOfctlAddEtherFlow req.parentBridge type))) := by
  induction types with
  | nil => simp [setupEtherFlows]
  | cons type types ih => simp [setupEtherFlows, ih]

/-- Without a parent bridge there is nothing to put the flows on. -/
theorem ovsSetupBrcmWifiFlows_value :
    (ovsSetupBrcmWifiFlows conf req).value = if req.parentBridge = [] then .failed else .success := by
  unfold ovsSetupBrcmWifiFlows
  by_cases h : req.parentBridge = [] <;> simp [h]

/-- Models without bridge flows succeed without a command. -/
theorem ovsSetupBridgeFlows_value :
    (ovsSetupBridgeFlows conf req).value
      = if conf.modelNum.hasBridgeFlows ∧ req.parentBridge = [] then .failed else .success := by
  unfold ovsSetupBridgeFlows
  by_cases h : conf.modelNum.hasBridgeFlows <;> simp [h, ovsSetupBrcmWifiFlows_value]

/-- The flow commands of a bridge. -/
def BridgeFlowEvents (conf : OvsActionConfig) (req : GatewayConfig) (P : ActionEvent → Prop) : Prop :=
  ∀ type, ¬ conf.skips type → P (.system (.ovsOfctlDelEtherFlows req.parentBridge type)) ∧
    (¬ req.Asks .brRemove → P (.system (.ovsOfctlAddEtherFlow req.parentBridge type)))

/-- The flows of `BridgeFlowEvents`, if the request names a parent bridge. -/
theorem all_ovsSetupBrcmWifiFlows :
    (ovsSetupBrcmWifiFlows conf req).All P
      ↔ (req.parentBridge ≠ [] → BridgeFlowEvents conf req P) ∧
        P (.returned .ovsSetupBrcmWifiFlows (if req.parentBridge = [] then .failed else .success)) := by
  have hv := @ovsSetupBrcmWifiFlows_value conf req
  have hall : ∀ type, type ∈ [EtherType.brcm, .brcmAiriq, .ieee8021x] := by
    intro type
    cases type <;> simp
  have hbody : BridgeFlowEvents conf req P
      ↔ (setupEtherFlows conf req [.brcm, .brcmAiriq, .ieee8021x]).All P := by
    rw [all_setupEtherFlows]
    unfold BridgeFlowEvents
    simp only [hall, forall_true_left]
  rw [hbody]
  unfold ovsSetupBrcmWifiFlows at hv ⊢
  rw [all_returning]
  by_cases h : req.parentBridge = [] <;> simp [h]

/-- The flows of the Wifi bridges, on the models that have them. -/
theorem all_ovsSetupBridgeFlows :
    (ovsSetupBridgeFlows conf req).All P
      ↔ (conf.modelNum.hasBridgeFlows → (ovsSetupBrcmWifiFlows conf req).All P) ∧
        P (.returned .ovsSetupBridgeFlows
          (if conf.modelNum.hasBridgeFlows ∧ req.parentBridge = [] then .failed else .success)) := by
  have hv := @ovsSetupBridgeFlows_value conf req
  unfold ovsSetupBridgeFlows at hv ⊢
  rw [all_returning, ← hv, returning_value]
  by_cases h : conf.modelNum.hasBridgeFlows <;> simp [h]

/-- The address of lan0, when it has the length of an IPv4 address. -/
def ActionEnv.lan0Ip (env : ActionEnv) : Option CString :=
  env.lan0IpAddress.filter fun ip => 7 ≤ ip.length && ip.length ≤ 15

/-- The first line of the address file, when there is one. -/
def ActionEnv.macLine (env : ActionEnv) : Option CString :=
  env.lan0MacAddress.map fun output => (CString.fgets 17 output).headD []

/-- The same, when it has the length of a MAC address. -/
def ActionEnv.lan0Mac (env : ActionEnv) : Option CString := env.macLine.filter fun mac => mac.length = 17

/-- `ovs_setup_admin_gui_access` gets what it asks for. -/
def ActionEnv.guiAccessOk (env : ActionEnv) (req : GatewayConfig) : Prop :=
  env.lan0Ip.isSome ∧ (¬ req.Asks .brRemove → env.lan0Mac.isSome)

instance (env : ActionEnv) (req : GatewayConfig) : Decidable (env.guiAccessOk req) :=
  inferInstanceAs (Decidable (_ ∧ _))

theorem getLan0IPAddess_value : (getLan0IPAddess env).value = env.lan0Ip := rfl

/-- Only a MAC address of 17 characters is taken. -/
theorem addGuiFlows_value (ip mac : CString) :
    (addGuiFlows req ip mac).value = if mac.length = 17 then .success else .failed := by
  unfold addGuiFlows
  by_cases h : mac.length = 17 <;> simp [h]

/-- An arp and an ip flow to the address, both through the port. -/
theorem all_addGuiFlows (ip mac : CString) :
    (addGuiFlows req ip mac).All P
      ↔ (mac.length = 17 →
          P (.system (.ovsOfctlAddFlow req.parentBridge (.arp ip) mac req.ifName)) ∧
          P (.system (.ovsOfctlAddFlow req.parentBridge (.ip ip) mac req.ifName))) := by
  unfold addGuiFlows
  by_cases h : mac.length = 17 <;> simp [h]

/-- A removal needs no MAC address; every other request fails without one. -/
theorem setupGuiFlows_value (ip : CString) :
    (setupGuiFlows env req ip).value
      = if req.Asks .brRemove ∨ env.lan0Mac.isSome then .success else .failed := by
  unfold setupGuiFlows
  by_cases hr : req.Asks .brRemove
  · simp [hr]
  · unfold ActionEnv.lan0Mac ActionEnv.macLine
    cases env.lan0MacAddress with
    | none => simp [hr]
    | some output => simp [hr, addGuiFlows_value, Option.filter]

/-- The old flows are deleted; the new ones need the MAC address of lan0. -/
theorem all_setupGuiFlows (ip : CString) :
    (setupGuiFlows env req ip).All P
      ↔ P (.system (.ovsOfctlDelFlows req.parentBridge (.arp ip))) ∧
        P (.system (.ovsOfctlDelFlows req.parentBridge (.ip ip))) ∧
        (¬ req.Asks .brRemove →
          P (.popen (.cat (sysClassNetPath (ofString "lan0/address"))) env.lan0MacAddress) ∧
          ∀ mac, env.lan0Mac = some mac →
            P (.system (.ovsOfctlAddFlow req.parentBridge (.arp ip) mac req.ifName)) ∧
            P (.system (.ovsOfctlAddFlow req.parentBridge (.ip ip) mac req.ifName))) := by
  unfold setupGuiFlows
  by_cases hr : req.Asks .brRemove
  · simp [hr]
  · unfold ActionEnv.lan0Mac ActionEnv.macLine
    cases env.lan0MacAddress with
    | none => simp [hr]
    | some output => simp [hr, all_addGuiFlows, Option.filter]

/-- The access is set up exactly when the addresses that the request needs are known. -/
theorem ovsSetupAdminGuiAccess_value :
    (ovsSetupAdminGuiAccess env req).value = if env.guiAccessOk req then .success else .failed := by
  unfold ovsSetupAdminGuiAccess
  rw [returning_value, bind_value, getLan0IPAddess_value]
  obtain hip | ⟨ip, hip⟩ := Option.eq_none_or_eq_some env.lan0Ip
  · simp [hip, ActionEnv.guiAccessOk]
  · by_cases hr : req.Asks .brRemove <;> simp [hip, hr, ActionEnv.guiAccessOk, setupGuiFlows_value]

/-- Flows are touched only for an address that syscfg knows. -/
theorem all_ovsSetupAdminGuiAccess :
    (ovsSetupAdminGuiAccess env req).All P
      ↔ P (.syscfgGet env.lan0IpAddress) ∧
        (∀ ip, env.lan0Ip = some ip → (setupGuiFlows env req ip).All P) ∧
        P (.returned .ovsSetupAdminGuiAccess (if env.guiAccessOk req then .success else .failed)) := by
  rw [← ovsSetupAdminGuiAccess_value]
  unfold ovsSetupAdminGuiAccess
  rw [all_returning, ← and_assoc, all_bind, getLan0IPAddess_value]
  refine and_congr_left fun _ => and_congr (by simp [getLan0IPAddess]) ?_
  cases env.lan0Ip with
  | none => simp
  | some ip => simp

/-- The CCSP value, when it is not empty. -/
def ActionEnv.cmIp (env : ActionEnv) : Option CString := env.cmIpAddress.filter fun value => value ≠ []

/-- The access is blocked exactly when the cable modem's address is known. -/
theorem ovsBlockMsoUiAccess_value :
    (ovsBlockMsoUiAccess env req).value = if env.cmIp.isSome then .success else .failed := by
  unfold ovsBlockMsoUiAccess ActionEnv.cmIp
  cases env.cmIpAddress with
  | none => rfl
  | some value => by_cases h : value = [] <;> simp [h]

/-- The cable modem's address loses its flows and, unless the port goes, gets one that drops. -/
theorem all_ovsBlockMsoUiAccess :
    (ovsBlockMsoUiAccess env req).All P
      ↔ P (.getParamValues env.cmIpAddress) ∧
        (∀ value, env.cmIp = some value →
          P (.system (.ovsOfctlDelFlows req.parentBridge (.ipv6 value))) ∧
          (¬ req.Asks .brRemove → P (.system (.ovsOfctlAddFlowDrop req.parentBridge (.ipv6 value))))) ∧
        P (.returned .ovsBlockMsoUiAccess (if env.cmIp.isSome then .success else .failed)) := by
  rw [← @ovsBlockMsoUiAccess_value env req]
  unfold ovsBlockMsoUiAccess ActionEnv.cmIp
  cases env.cmIpAddress with
  | none => simp
  | some value => by_cases h : value = [] <;> simp [h, and_assoc]

/-! ## §4. The parent bridge. -/

/-- A request that asks for neither up nor down runs nothing. -/
@[simp] theorem all_ifconfigUpDown (name : CString) :
    (ifconfigUpDown req name).All P
      ↔ (req.Asks .ifUp ∨ req.Asks .ifDown → P (.system (.ifconfigUpDown name (req.Asks .ifUp)))) := by
  simp [ifconfigUpDown]

/-- The status is that of the listing; whether the bridge was there goes back to the caller. -/
theorem configureParentBridge_value (ovsEnabled : Bool) :
    (configureParentBridge env req ovsEnabled).value
      = (if env.bridgePorts.isSome then .success else .failed, env.bridgePath) := rfl

/-- A missing bridge is created; the port is attached and the ports are listed in any case. -/
theorem all_configureParentBridge (ovsEnabled : Bool) :
    (configureParentBridge env req ovsEnabled).All P
      ↔ P (.access (sysClassNetPath req.parentBridge) env.bridgePath) ∧
        (env.bridgePath = false → P (.system (createCommand req ovsEnabled))) ∧
        (req.Asks .ifUp ∨ req.Asks .ifDown →
          P (.system (.ifconfigUpDown req.parentBridge (req.Asks .ifUp)))) ∧
        P (.system (attachCommand req ovsEnabled)) ∧
        P (.popen (listCommand req ovsEnabled) env.bridgePorts) ∧
        P (.returned .configureParentBridge (if env.bridgePorts.isSome then .success else .failed)) := by
  unfold configureParentBridge
  rw [all_returningWith]
  simp only [all_bind, all_access, all_when, all_ifconfigUpDown, all_system, all_popen, all_pure, and_true,
    and_assoc]
  rfl

/-- The status of `ovs_modifyParentBridge`. -/
def modifyStatus (conf : OvsActionConfig) (env : ActionEnv) (req : GatewayConfig) : OvsStatus :=
  if env.queryFails req.ovsEnabled then .failed
  else if req.Asks .brRemove then .success
  else if env.bridgePath = false then (ovsSetupBridgeFlows conf req).value
  else if env.bridgePorts.isSome then .success else .failed

/-- The status in closed form: `modifyStatus` reads the environment's answers only. -/
theorem ovsModifyParentBridge_value :
    (ovsModifyParentBridge conf env req).value = modifyStatus conf env req := by
  unfold ovsModifyParentBridge modifyStatus
  rw [returning_value, bind_value, removeExistingInterfacePort_value]
  by_cases hf : env.queryFails req.ovsEnabled
  · simp [hf]
  · by_cases hr : req.Asks .brRemove
    · simp [hf, hr]
    · by_cases hp : env.bridgePath = false <;> simp [hf, hr, configureParentBridge_value, hp]

/-- `ovs_modifyParentBridge` gets what it asks for. -/
def ActionEnv.modifyOk (env : ActionEnv) (req : GatewayConfig) : Prop :=
  ¬ env.queryFails req.ovsEnabled ∧
  (req.Asks .brRemove ∨ env.bridgePath = false ∨ env.bridgePorts.isSome)

/-- With a parent bridge, the modification succeeds exactly when its queries do. -/
theorem modifyStatus_success_iff (hne : req.parentBridge ≠ []) :
    modifyStatus conf env req = .success ↔ env.modifyOk req := by
  unfold modifyStatus ActionEnv.modifyOk
  rw [ovsSetupBridgeFlows_value]
  by_cases hf : env.queryFails req.ovsEnabled
  · simp [hf]
  · by_cases hr : req.Asks .brRemove
    · simp [hf, hr]
    · cases env.bridgePath <;> simp [hf, hr, hne, Option.isSome_iff_ne_none]

/-- A failed query or a removal leaves the parent bridge as it is; flows go with a bridge that was
missing. -/
theorem all_ovsModifyParentBridge :
    (ovsModifyParentBridge conf env req).All P
      ↔ (removeExistingInterfacePort env req req.ovsEnabled).All P ∧
        (¬ env.queryFails req.ovsEnabled → ¬ req.Asks .brRemove →
          (configureParentBridge env req req.ovsEnabled).All P ∧
          (env.bridgePath = false → (ovsSetupBridgeFlows conf req).All P)) ∧
        P (.returned .ovsModifyParentBridge (modifyStatus conf env req)) := by
  rw [← ovsModifyParentBridge_value]
  unfold ovsModifyParentBridge
  rw [all_returning, all_bind, and_assoc, removeExistingInterfacePort_value]
  refine and_congr_right fun _ => and_congr_left fun _ => ?_
  by_cases hf : env.queryFails req.ovsEnabled
  · simp [hf]
  · by_cases hr : req.Asks .brRemove
    · simp [hf, hr]
    · by_cases hp : env.bridgePath = false <;> simp [hf, hr, configureParentBridge_value, hp]

/-- The port whose flows give access to the pages of the gateway. -/
def GatewayConfig.isGuiPort (req : GatewayConfig) : Prop :=
  req.parentBridge = brlan0EthName ∧ req.ifName = llan0EthName

instance (req : GatewayConfig) : Decidable req.isGuiPort := inferInstanceAs (Decidable (_ ∧ _))

/-- The port that stands for the bridge br106. -/
def GatewayConfig.isBr106Port (req : GatewayConfig) : Prop :=
  req.parentBridge = br106EthName ∧ req.ifName = wl03EthName

instance (req : GatewayConfig) : Decidable req.isBr106Port := inferInstanceAs (Decidable (_ ∧ _))

/-- The two kinds of ports with flows exclude each other. -/
theorem not_guiPort_of_br106Port (h : req.isBr106Port) : ¬ req.isGuiPort := by
  intro hg
  have : br106EthName = brlan0EthName := h.1.symm.trans hg.1
  exact absurd this (by decide)

/-- For the GUI port the status of the block overwrites that of the access. -/
theorem ovsSetupPortFlows_value :
    (ovsSetupPortFlows conf env req).value
      = if req.isGuiPort ∧ conf.modelNum.hasGuiFlows then (ovsBlockMsoUiAccess env req).value
        else .success := by
  unfold ovsSetupPortFlows
  rw [returning_value]
  by_cases hg : req.isGuiPort
  · have hg' : req.parentBridge = brlan0EthName ∧ req.ifName = llan0EthName := hg
    rw [if_pos hg']
    by_cases hm : conf.modelNum.hasGuiFlows <;> simp [hg, hm]
  · have hg' : ¬ (req.parentBridge = brlan0EthName ∧ req.ifName = llan0EthName) := hg
    rw [if_neg hg']
    by_cases hb : req.isBr106Port
    · have hb' : req.parentBridge = br106EthName ∧ req.ifName = wl03EthName := hb
      have hne : req.parentBridge ≠ [] := by rw [hb.1]; decide
      rw [if_pos hb', ovsSetupBridgeFlows_value]
      simp [hg, hne]
    · have hb' : ¬ (req.parentBridge = br106EthName ∧ req.ifName = wl03EthName) := hb
      rw [if_neg hb']
      simp [hg]

/-- The flows of the GUI port or of the port of br106; other ports have none. -/
theorem all_ovsSetupPortFlows :
    (ovsSetupPortFlows conf env req).All P
      ↔ (req.isGuiPort → conf.modelNum.hasGuiFlows →
          (ovsSetupAdminGuiAccess env req).All P ∧ (ovsBlockMsoUiAccess env req).All P) ∧
        (req.isBr106Port → (ovsSetupBridgeFlows conf req).All P) ∧
        P (.returned .ovsSetupPortFlows (ovsSetupPortFlows conf env req).value) := by
  rw [← and_assoc]
  unfold ovsSetupPortFlows
  rw [all_returning, returning_value]
  refine and_congr_left fun _ => ?_
  by_cases hg : req.isGuiPort
  · have hg' : req.parentBridge = brlan0EthName ∧ req.ifName = llan0EthName := hg
    have hb : ¬ req.isBr106Port := fun hb => not_guiPort_of_br106Port hb hg
    rw [if_pos hg']
    by_cases hm : conf.modelNum.hasGuiFlows <;> simp [hg, hm, hb]
  · have hg' : ¬ (req.parentBridge = brlan0EthName ∧ req.ifName = llan0EthName) := hg
    rw [if_neg hg']
    by_cases hb : req.isBr106Port
    · have hb' : req.parentBridge = br106EthName ∧ req.ifName = wl03EthName := hb
      rw [if_pos hb']
      simp [hg, hb]
    · have hb' : ¬ (req.parentBridge = br106EthName ∧ req.ifName = wl03EthName) := hb
      rw [if_neg hb']
      simp [hg, hb]

/-! ## §5. The Puma7 switch ports. -/

/-- The other port's bridge, when the port is there and on one: it is restored. -/
def ActionEnv.restoreBridge (env : ActionEnv) : Option CString :=
  if env.restorePath then env.restoreIfaceToBr.bind ovsParentBridge else none

/-- `ovs_setupEthSwitch` gets what it asks for. -/
def ActionEnv.ethSwitchOk (env : ActionEnv) : Prop :=
  env.restoreIfaceToBr.isSome ∧ (env.restoreBridge.isSome → env.ethIfaceToBr.isSome)

instance (env : ActionEnv) : Decidable env.ethSwitchOk := inferInstanceAs (Decidable (_ ∧ _))

/-- The status is that of the query for the port's own bridge. -/
theorem setupAndRestoreEthSwitchCmds_value (ifName restoreIfName restoreBridge : CString) :
    (setupAndRestoreEthSwitchCmds env ifName restoreIfName restoreBridge).value
      = if env.ethIfaceToBr.isSome then .success else .failed := by
  unfold setupAndRestoreEthSwitchCmds
  simp only [returning_value, bind_value, getExistingOvsParentBridge_value]
  cases env.ethIfaceToBr <;> rfl

/-- The commands of `setupAndRestoreEthSwitchCmds` behind its query. -/
def RestoreEvents (env : ActionEnv) (ifName restoreIfName restoreBridge : CString)
    (P : ActionEvent → Prop) : Prop :=
  (∀ bridge, env.ethIfaceToBr.bind ovsParentBridge = some bridge →
    P (.system (.ovsVsctlDelPort bridge ifName))) ∧
  P (.system (.vlanUtilAddGroup (ofString "100"))) ∧
  P (.system (.vlanUtilAddGroup (ofString "101"))) ∧
  P (.system (.vlanUtilAddInterface (ofString "100") puma7Port1Name)) ∧
  P (.system (.vlanUtilAddInterface (ofString "101") puma7Port2Name)) ∧
  P (.system (.brctlDelifDummy (vlanOf ifName) ifName)) ∧
  P (.system (.brctlDelifDummy (vlanOf restoreIfName) restoreIfName)) ∧
  P (.system (.brctlDelbrDummy (ofString "100"))) ∧
  P (.system (.brctlDelbrDummy (ofString "101"))) ∧
  P (.system (.ovsVsctlAddPort restoreBridge restoreIfName)) ∧
  P (.access (sysClassNetPath ifName) env.ethIfPath) ∧
  P (.access (sysClassNetPath restoreIfName) env.ethRestorePath)

/-- The sibling is taken off its bridge whatever the query answers; without an answer nothing is
restored. -/
theorem all_setupAndRestoreEthSwitchCmds (ifName restoreIfName restoreBridge : CString) :
    (setupAndRestoreEthSwitchCmds env ifName restoreIfName restoreBridge).All P
      ↔ P (.system (.ovsVsctlDelPort restoreBridge restoreIfName)) ∧
        (getExistingOvsParentBridge ifName env.ethIfaceToBr).All P ∧
        (env.ethIfaceToBr.isSome → RestoreEvents env ifName restoreIfName restoreBridge P) ∧
        P (.returned .setupAndRestoreEthSwitchCmds
          (if env.ethIfaceToBr.isSome then .success else .failed)) := by
  rw [← setupAndRestoreEthSwitchCmds_value ifName restoreIfName restoreBridge]
  unfold setupAndRestoreEthSwitchCmds RestoreEvents
  rw [all_returning, all_bind, all_system, all_bind, getExistingOvsParentBridge_value, and_assoc, and_assoc]
  refine and_congr_right fun _ => and_congr_right fun _ => and_congr_left fun _ => ?_
  cases env.ethIfaceToBr with
  | none => simp
  | some output => cases hb : ovsParentBridge output <;> simp [hb]

/-- The commands of a switch port whose sibling has no bridge to go back to. -/
theorem all_setupEthSwitchCmds (ifName : CString) :
    (setupEthSwitchCmds env ifName).All P
      ↔ P (.system (.vlanUtilAddGroup (vlanOf ifName))) ∧
        (ifName = puma7Eth1Name → P (.system (.vlanUtilAddInterface (vlanOf ifName) puma7Port1Name))) ∧
        P (.system (.vlanUtilAddInterface (vlanOf ifName) puma7Port2Name)) ∧
        P (.system (.brctlDelifDummy (vlanOf ifName) ifName)) ∧
        P (.system (.brctlDelbrDummy (vlanOf ifName))) ∧
        P (.access (sysClassNetPath ifName) env.ethIfPath) ∧
        P (.returned .setupEthSwitchCmds .success) := by
  simp [setupEthSwitchCmds, and_assoc]

/-- The backhaul interface is put back only where it was there. -/
@[simp] theorem all_restoreEthBhaul (found : Bool) :
    (restoreEthBhaul found).All P
      ↔ (found = true →
          P (.system .ipLinkAddEthBhaul) ∧
          P (.system (.ifconfigUpDown ethBhaulIfName true)) ∧
          P (.system (.ovsVsctlAddPort ethBhaulBrName ethBhaulIfName))) := by
  simp [restoreEthBhaul]

/-- Only the commands of a sibling that is on a bridge can fail. -/
theorem switchCommands_value (ifName restoreIfName : CString) (restoreBridge : Option CString) :
    (switchCommands env ifName restoreIfName restoreBridge).value
      = if restoreBridge.isSome → env.ethIfaceToBr.isSome then .success else .failed := by
  cases restoreBridge with
  | none => simp [switchCommands, setupEthSwitchCmds]
  | some bridge => simp [switchCommands, setupAndRestoreEthSwitchCmds_value]

/-- The status in closed form: `ethSwitchOk` reads the environment's answers only. -/
theorem setupEthSwitchPort_value (found : Bool) (ifName restoreIfName : CString) :
    (setupEthSwitchPort env found ifName restoreIfName).value
      = if env.ethSwitchOk then .success else .failed := by
  unfold setupEthSwitchPort
  rw [bind_value, getExistingOvsParentBridge_value]
  obtain h | ⟨output, h⟩ := Option.eq_none_or_eq_some env.restoreIfaceToBr
  · simp [h, ActionEnv.ethSwitchOk]
  · simp only [h, ActionEnv.ethSwitchOk, ActionEnv.restoreBridge, Option.isSome_some, if_true, ne_eq,
      not_true_eq_false, if_false, bind_value, pure_value, switchCommands_value, Option.bind_some, true_and]
    rfl

/-- Without an answer for the sibling's bridge the switch is left alone. -/
theorem all_setupEthSwitchPort (found : Bool) (ifName restoreIfName : CString) :
    (setupEthSwitchPort env found ifName restoreIfName).All P
      ↔ (getExistingOvsParentBridge restoreIfName env.restoreIfaceToBr).All P ∧
        (env.restoreIfaceToBr.isSome → P (.access (sysClassNetPath restoreIfName) env.restorePath) ∧
          (switchCommands env ifName restoreIfName env.restoreBridge).All P ∧
          (restoreEthBhaul found).All P) := by
  unfold setupEthSwitchPort ActionEnv.restoreBridge
  rw [all_bind, getExistingOvsParentBridge_value]
  refine and_congr_right fun _ => ?_
  cases env.restoreIfaceToBr with
  | none => simp
  | some output =>
      simp only [Option.isSome_some, if_true, ne_eq, not_true_eq_false, if_false, all_bind, all_access,
        all_pure, and_true, forall_true_left]
      rfl

/-- The other of the two ports. -/
def otherEthPort (ifName : CString) : CString :=
  if ifName = puma7Eth1Name then puma7Eth2Name else puma7Eth1Name

/-- The two switch ports run one body, each with the other as its sibling. -/
theorem ovsSetupEthSwitch_eq {ifName : CString} (h : ifName = puma7Eth1Name ∨ ifName = puma7Eth2Name) :
    ovsSetupEthSwitch env ifName = returning .ovsSetupEthSwitch
      (access (sysClassNetPath ethBhaulIfName) env.ethBhaulPath >>= fun ethBhaulFound =>
        setupEthSwitchPort env ethBhaulFound ifName (otherEthPort ifName)) := by
  rcases h with rfl | rfl <;> rfl

/-- A switch port's status is that of its body. -/
theorem ovsSetupEthSwitch_value {ifName : CString} (h : ifName = puma7Eth1Name ∨ ifName = puma7Eth2Name) :
    (ovsSetupEthSwitch env ifName).value = if env.ethSwitchOk then .success else .failed := by
  rw [ovsSetupEthSwitch_eq h, returning_value, bind_value, setupEthSwitchPort_value]

/-- A switch port looks for the backhaul's path and goes through its body. -/
theorem all_ovsSetupEthSwitch {ifName : CString} (h : ifName = puma7Eth1Name ∨ ifName = puma7Eth2Name) :
    (ovsSetupEthSwitch env ifName).All P
      ↔ P (.access (sysClassNetPath ethBhaulIfName) env.ethBhaulPath) ∧
        (setupEthSwitchPort env env.ethBhaulPath ifName (otherEthPort ifName)).All P ∧
        P (.returned .ovsSetupEthSwitch (if env.ethSwitchOk then .success else .failed)) := by
  rw [← ovsSetupEthSwitch_value h, ovsSetupEthSwitch_eq h, all_returning, all_bind, all_access, and_assoc]
  rfl

/-! ## §6. The handlers. -/

/-- A deletion always succeeds; a creation has the status of its flows. -/
theorem ovsCreateBridge_value :
    (ovsCreateBridge conf req).value
      = if req.Asks .ifDelete then .success else (ovsSetupBridgeFlows conf req).value := by
  unfold ovsCreateBridge
  by_cases h : req.Asks .ifDelete <;> simp [h]

/-- A deletion is one command; a creation adds the bridge, its address, its state, its mtu and its
flows. -/
theorem all_ovsCreateBridge :
    (ovsCreateBridge conf req).All P
      ↔ (req.Asks .ifDelete → P (.system (.ovsVsctlDelBr req.ifName))) ∧
        (¬ req.Asks .ifDelete → P (.system (.ovsVsctlAddBr req.ifName)) ∧
          (req.inetAddr ≠ [] → P (.system (.ifconfigAddr req.ifName req.inetAddr req.netmask))) ∧
          (req.Asks .ifUp ∨ req.Asks .ifDown →
            P (.system (.ifconfigUpDown req.ifName (req.Asks .ifUp)))) ∧
          (req.mtu ≠ 0 → P (.system (.ifconfigMtu req.ifName req.mtu))) ∧
          (ovsSetupBridgeFlows conf req).All P) ∧
        P (.returned .ovsCreateBridge (ovsCreateBridge conf req).value) := by
  rw [← and_assoc]
  unfold ovsCreateBridge
  rw [all_returning, returning_value]
  refine and_congr_left fun _ => ?_
  by_cases h : req.Asks .ifDelete <;> simp [h]

/-- A request without a parent bridge modifies nothing and succeeds. -/
theorem modifyParentBridgeIfAny_value :
    (modifyParentBridgeIfAny conf env req).value
      = if req.parentBridge = [] then .success else modifyStatus conf env req := by
  unfold modifyParentBridgeIfAny
  by_cases h : req.parentBridge = [] <;> simp [h, ovsModifyParentBridge_value]

/-- The parent bridge is modified only if the request names one. -/
theorem all_modifyParentBridgeIfAny :
    (modifyParentBridgeIfAny conf env req).All P
      ↔ (req.parentBridge ≠ [] → (ovsModifyParentBridge conf env req).All P) := by
  unfold modifyParentBridgeIfAny
  by_cases h : req.parentBridge = [] <;> simp [h]

/-- The command that makes a VLAN interface. -/
def vlanCommand (conf : OvsActionConfig) (req : GatewayConfig) : Command :=
  if conf.modelNum = .tg3482g then .ipLinkAddVlan req.parentIfname req.ifName req.vlanId
  else .vconfigAdd req.parentIfname req.vlanId

/-- A deletion always succeeds; a creation has the status of its parent bridge. -/
theorem ovsCreateVlan_value :
    (ovsCreateVlan conf env req).value
      = if req.Asks .ifDelete then .success else (modifyParentBridgeIfAny conf env req).value := by
  unfold ovsCreateVlan
  by_cases h : req.Asks .ifDelete <;> simp [h]

/-- A vlan is added only over a parent interface. -/
theorem all_ovsCreateVlan :
    (ovsCreateVlan conf env req).All P
      ↔ (req.Asks .ifDelete → P (.system (.ipLinkDel req.ifName))) ∧
        (¬ req.Asks .ifDelete →
          (req.parentIfname ≠ [] → P (.system (vlanCommand conf req))) ∧
          (req.Asks .ifUp ∨ req.Asks .ifDown →
            P (.system (.ifconfigUpDown req.ifName (req.Asks .ifUp)))) ∧
          (modifyParentBridgeIfAny conf env req).All P) ∧
        P (.returned .ovsCreateVlan (ovsCreateVlan conf env req).value) := by
  rw [← and_assoc]
  unfold ovsCreateVlan vlanCommand
  rw [all_returning, returning_value]
  refine and_congr_left fun _ => ?_
  by_cases h : req.Asks .ifDelete <;> simp [h]

/-- As for a vlan. -/
theorem ovsCreateGRE_value :
    (ovsCreateGRE conf env req).value
      = if req.Asks .ifDelete then .success else (modifyParentBridgeIfAny conf env req).value := by
  unfold ovsCreateGRE
  by_cases h : req.Asks .ifDelete <;> simp [h]

/-- A tunnel is added only with its interface and both its ends known. -/
theorem all_ovsCreateGRE :
    (ovsCreateGRE conf env req).All P
      ↔ (req.Asks .ifDelete → P (.system (.ipLinkDel req.ifName))) ∧
        (¬ req.Asks .ifDelete →
          (req.hasGre → P (.system
            (.ipLinkAddGretap req.ifName req.greLocalInetAddr req.greRemoteInetAddr req.parentIfname))) ∧
          (req.Asks .ifUp ∨ req.Asks .ifDown →
            P (.system (.ifconfigUpDown req.ifName (req.Asks .ifUp)))) ∧
          (modifyParentBridgeIfAny conf env req).All P) ∧
        P (.returned .ovsCreateGRE (ovsCreateGRE conf env req).value) := by
  rw [← and_assoc]
  unfold ovsCreateGRE
  rw [all_returning, returning_value]
  refine and_congr_left fun _ => ?_
  by_cases h : req.Asks .ifDelete <;> simp [h]

/-- The port's flows speak for the status only on a bridge whose modification succeeded. -/
theorem addPortToParentBridge_value :
    (addPortToParentBridge conf env req).value
      = if req.parentBridge = [] then .success
        else if modifyStatus conf env req ≠ .success then modifyStatus conf env req
        else (ovsSetupPortFlows conf env req).value := by
  unfold addPortToParentBridge
  by_cases h : req.parentBridge = []
  · simp [h]
  · by_cases hs : modifyStatus conf env req = .success <;> simp [h, ovsModifyParentBridge_value, hs]

/-- The port's flows are set up only on a bridge whose modification succeeded. -/
theorem all_addPortToParentBridge :
    (addPortToParentBridge conf env req).All P
      ↔ (req.parentBridge ≠ [] → (ovsModifyParentBridge conf env req).All P ∧
        (modifyStatus conf env req = .success → (ovsSetupPortFlows conf env req).All P)) := by
  unfold addPortToParentBridge
  by_cases h : req.parentBridge = []
  · simp [h]
  · by_cases hs : modifyStatus conf env req = .success <;> simp [h, ovsModifyParentBridge_value, hs]

/-- The work-around is made and fails. -/
def ethSwitchFails (conf : OvsActionConfig) (env : ActionEnv) (req : GatewayConfig) : Prop :=
  isEthSwitchPort conf req ∧ ¬ env.ethSwitchOk

instance : Decidable (ethSwitchFails conf env req) := inferInstanceAs (Decidable (_ ∧ _))

/-- The switch fails only for a switch port. -/
theorem ethSwitch_value :
    (ethSwitch conf env req).value = if ethSwitchFails conf env req then .failed else .success := by
  unfold ethSwitch ethSwitchFails
  by_cases h : isEthSwitchPort conf req
  · by_cases ho : env.ethSwitchOk <;> simp [h, ho, ovsSetupEthSwitch_value h.2.1]
  · simp [h]

/-- Other ports leave the switch alone. -/
theorem all_ethSwitch :
    (ethSwitch conf env req).All P
      ↔ (isEthSwitchPort conf req → (ovsSetupEthSwitch env req.ifName).All P) := by
  unfold ethSwitch
  by_cases h : isEthSwitchPort conf req <;> simp [h]

/-- A failed switch fails the request, whatever its parent bridge. -/
theorem ovsAddPort_value :
    (ovsAddPort conf env req).value
      = if req.Asks .ifDelete then .success
        else if ethSwitchFails conf env req then .failed
        else (addPortToParentBridge conf env req).value := by
  unfold ovsAddPort
  by_cases h : req.Asks .ifDelete
  · simp [h]
  · rw [returning_value, if_neg h, if_neg h, bind_value, ethSwitch_value]
    by_cases hf : ethSwitchFails conf env req <;> simp [hf]

/-- A failed switch leaves the port's state and its parent bridge alone. -/
theorem all_ovsAddPort :
    (ovsAddPort conf env req).All P
      ↔ (req.Asks .ifDelete → P (.system (.ipLinkDel req.ifName))) ∧
        (¬ req.Asks .ifDelete →
          (ethSwitch conf env req).All P ∧
          (¬ ethSwitchFails conf env req →
            (req.Asks .ifUp ∨ req.Asks .ifDown →
              P (.system (.ifconfigUpDown req.ifName (req.Asks .ifUp)))) ∧
            (addPortToParentBridge conf env req).All P)) ∧
        P (.returned .ovsAddPort (ovsAddPort conf env req).value) := by
  rw [← and_assoc]
  unfold ovsAddPort
  rw [all_returning, returning_value]
  refine and_congr_left fun _ => ?_
  by_cases h : req.Asks .ifDelete
  · simp [h]
  · rw [if_neg h, all_bind, ethSwitch_value]
    by_cases hf : ethSwitchFails conf env req <;> simp [h, hf]

/-- The request is about none of the three special types. -/
def GatewayConfig.isPort (req : GatewayConfig) : Prop :=
  ¬ req.IsType .bridge ∧ ¬ req.IsType .vlan ∧ ¬ req.IsType .gre

instance : Decidable req.isPort := inferInstanceAs (Decidable (_ ∧ _))

/-- **The request, by its type.** -/
theorem ovsActionGatewayConfig_cases (conf : OvsActionConfig) (env : ActionEnv) (req : GatewayConfig) :
    (req.IsType .bridge ∧ ovsActionGatewayConfig conf env req = ovsCreateBridge conf req) ∨
    (req.IsType .vlan ∧ ovsActionGatewayConfig conf env req = ovsCreateVlan conf env req) ∨
    (req.IsType .gre ∧ ovsActionGatewayConfig conf env req = ovsCreateGRE conf env req) ∨
    (req.isPort ∧ ovsActionGatewayConfig conf env req = ovsAddPort conf env req) := by
  unfold ovsActionGatewayConfig
  by_cases hb : req.IsType .bridge
  · exact Or.inl ⟨hb, if_pos hb⟩
  · rw [if_neg hb]
    by_cases hv : req.IsType .vlan
    · exact Or.inr (Or.inl ⟨hv, if_pos hv⟩)
    · rw [if_neg hv]
      by_cases hg : req.IsType .gre
      · exact Or.inr (Or.inr (Or.inl ⟨hg, if_pos hg⟩))
      · exact Or.inr (Or.inr (Or.inr ⟨⟨hb, hv, hg⟩, if_neg hg⟩))

end OvsAgent
