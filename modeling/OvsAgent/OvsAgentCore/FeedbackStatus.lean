/-
  OvsAgent.OvsAgentCore.FeedbackStatus — whether a failure reaches the Feedback row.

  The helpers of ovs_action.c hand their statuses upwards one by one.  Two of
  them do not get through: the status of a new parent bridge's configuration is
  overwritten by that of its flows, and the status of the access to the
  gateway's pages by that of the block behind it.

  Main result: `failures_reported_iff`.
-/
import OvsAgent.OvsAction.Events
import OvsAgent.OvsAgentCore.OvsAgent

namespace OvsAgent

open CString (ofString)
open Traced

variable {conf : OvsActionConfig} {env : ActionEnv} {req : GatewayConfig}

/-! ## §1. Failures. -/

/-- The event is not the return of a failure. -/
def ActionEvent.NoFailure : ActionEvent → Prop
  | .returned _ status => status = .success
  | _ => True

/-- No function of the computation fails. -/
def Unfailing {α : Type} (p : Action α) : Prop := p.All ActionEvent.NoFailure

@[simp] theorem noFailure_system (cmd : Command) : ActionEvent.NoFailure (.system cmd) ↔ True := Iff.rfl
@[simp] theorem noFailure_popen (cmd : Command) (output : Option CString) :
    ActionEvent.NoFailure (.popen cmd output) ↔ True := Iff.rfl
@[simp] theorem noFailure_access (path : CString) (found : Bool) :
    ActionEvent.NoFailure (.access path found) ↔ True := Iff.rfl
@[simp] theorem noFailure_syscfgGet (value : Option CString) :
    ActionEvent.NoFailure (.syscfgGet value) ↔ True := Iff.rfl
@[simp] theorem noFailure_getParamValues (value : Option CString) :
    ActionEvent.NoFailure (.getParamValues value) ↔ True := Iff.rfl
@[simp] theorem noFailure_returned (helper : Helper) (status : OvsStatus) :
    ActionEvent.NoFailure (.returned helper status) ↔ status = .success := Iff.rfl

/-- If a function fails on the way, the request fails, and so says the Feedback
row the agent writes for it. -/
def FailuresReported (conf : OvsActionConfig) (env : ActionEnv) (req : GatewayConfig) : Prop :=
  (∃ helper status,
      .returned helper status ∈ (ovsActionGatewayConfig conf env req).trace ∧ status ≠ .success) →
    (ovsActionGatewayConfig conf env req).value ≠ .success ∧
    ∀ malloc o addr uuid s fb,
      .ovsdbWrite (.feedback (some fb))
        ∈ (Agent.gwconfMonCb conf ⟨env, malloc, o⟩
          ⟨.gwConfig (some ⟨addr, req⟩), uuid⟩ s).trace →
      fb.val.status ≠ OvsStatus.success.toInt

/-- The number of success is no other status's. -/
theorem toInt_eq_success {status : OvsStatus} :
    status.toInt = OvsStatus.success.toInt ↔ status = .success := by
  cases status <;> decide

/-- A request that succeeds must have gone through without a failure. -/
theorem failuresReported_iff_unfailing :
    FailuresReported conf env req
      ↔ ((ovsActionGatewayConfig conf env req).value = .success →
        Unfailing (ovsActionGatewayConfig conf env req)) := by
  constructor
  · intro h hok e he
    cases e with
    | returned helper status =>
        by_contra hne
        exact (h ⟨helper, status, he, hne⟩).1 hok
    | _ => trivial
  · intro h ⟨helper, status, hmem, hne⟩
    have hfail : (ovsActionGatewayConfig conf env req).value ≠ .success := fun hok => hne (h hok _ hmem)
    refine ⟨hfail, fun malloc o addr uuid s fb hfb => ?_⟩
    rw [Agent.gwconfMonCb_trace] at hfb
    simp only [List.mem_cons, reduceCtorEq, AgentEvent.ovsdbWrite.injEq, RdkbTableConfig.feedback.injEq,
      Option.some.injEq, List.not_mem_nil, or_false, false_or] at hfb
    rw [hfb]
    exact fun heq => hfail (toInt_eq_success.1 heq)

/-! ## §2. Conditions on a request. -/

/-- The request comes to its parent bridge. -/
def ModifiesParent (conf : OvsActionConfig) (env : ActionEnv) (req : GatewayConfig) : Prop :=
  ¬ req.IsType .bridge ∧ ¬ req.Asks .ifDelete ∧ req.parentBridge ≠ [] ∧
  ¬ (req.isPort ∧ ethSwitchFails conf env req)

/-- A query about the parent bridge fails and its status is kept. -/
def ActionEnv.ModifyFails (env : ActionEnv) (req : GatewayConfig) : Prop :=
  env.queryFails req.ovsEnabled ∨
  (¬ req.Asks .brRemove ∧ env.bridgePath = true ∧ env.bridgePorts = none)

/-- The request sets up the flows of the gateway's pages. -/
def SetsUpGuiFlows (conf : OvsActionConfig) (req : GatewayConfig) : Prop :=
  req.isPort ∧ req.isGuiPort ∧ conf.modelNum.hasGuiFlows

/-- No failure is overwritten: unless the request fails anyhow, the ports of a
new parent bridge can be listed, and the access to the pages is set up. -/
def KeepsFailures (conf : OvsActionConfig) (env : ActionEnv) (req : GatewayConfig) : Prop :=
  ModifiesParent conf env req → ¬ env.ModifyFails req → (SetsUpGuiFlows conf req → env.cmIp.isSome) →
    (req.Asks .brRemove ∨ env.bridgePorts.isSome) ∧ (SetsUpGuiFlows conf req → env.guiAccessOk req)

/-! ## §3. The helpers. -/

/-- A query that does not fail has no failed helper in it. -/
theorem unfailing_portQuery {ovsEnabled : Bool} (h : ¬ env.queryFails ovsEnabled) :
    Unfailing (portQuery env req ovsEnabled) := by
  unfold Unfailing portQuery
  unfold ActionEnv.queryFails at h
  cases ovsEnabled with
  | true =>
      rw [if_pos rfl] at h
      have hsome : env.ifaceToBr.isSome := Option.isSome_iff_ne_none.2 h
      simp [all_getExistingOvsParentBridge, hsome]
  | false =>
      rw [if_neg Bool.false_ne_true] at h
      simp [all_getExistingLinuxParentBridge, h]

theorem unfailing_removeExistingInterfacePort {ovsEnabled : Bool} (h : ¬ env.queryFails ovsEnabled) :
    Unfailing (removeExistingInterfacePort env req ovsEnabled) :=
  (all_removeExistingInterfacePort ovsEnabled).2
    ⟨unfailing_portQuery h, fun _ _ _ _ => trivial, by rw [if_neg h]; rfl⟩

/-- The listing is the only step of the configuration that can fail. -/
theorem unfailing_configureParentBridge_iff (ovsEnabled : Bool) :
    Unfailing (configureParentBridge env req ovsEnabled) ↔ env.bridgePorts.isSome := by
  unfold Unfailing
  rw [all_configureParentBridge]
  cases env.bridgePorts <;> simp

/-- Flows fail only for want of a bridge to put them on. -/
theorem unfailing_ovsSetupBridgeFlows_iff :
    Unfailing (ovsSetupBridgeFlows conf req)
      ↔ ¬ (conf.modelNum.hasBridgeFlows ∧ req.parentBridge = []) := by
  unfold Unfailing
  rw [all_ovsSetupBridgeFlows, all_ovsSetupBrcmWifiFlows]
  by_cases hm : conf.modelNum.hasBridgeFlows
  · by_cases hp : req.parentBridge = [] <;> simp [hm, hp, BridgeFlowEvents]
  · simp [hm]

/-- The modification does what it was asked exactly when none of its kept statuses is a failure. -/
theorem modifyOk_iff : env.modifyOk req ↔ ¬ env.ModifyFails req := by
  unfold ActionEnv.modifyOk ActionEnv.ModifyFails
  cases env.bridgePath <;> cases env.bridgePorts <;> simp

/-- The same of the status. -/
theorem modifyStatus_success_iff_not (hne : req.parentBridge ≠ []) :
    modifyStatus conf env req = .success ↔ ¬ env.ModifyFails req :=
  (modifyStatus_success_iff hne).trans modifyOk_iff

/-- Behind a success only the listing of a new bridge can have failed. -/
theorem unfailing_ovsModifyParentBridge_iff (hne : req.parentBridge ≠ []) (h : ¬ env.ModifyFails req) :
    Unfailing (ovsModifyParentBridge conf env req) ↔ req.Asks .brRemove ∨ env.bridgePorts.isSome := by
  have hok := (@modifyStatus_success_iff_not conf env req hne).2 h
  have hf : ¬ env.queryFails req.ovsEnabled := fun hf => h (Or.inl hf)
  have hrem := @unfailing_removeExistingInterfacePort env req _ hf
  have hconf := @unfailing_configureParentBridge_iff env req req.ovsEnabled
  have hflows := (@unfailing_ovsSetupBridgeFlows_iff conf req).2 fun hand => hne hand.2
  unfold Unfailing at hrem hconf hflows ⊢
  rw [all_ovsModifyParentBridge, hok, hconf]
  by_cases hr : req.Asks .brRemove
  · simp [hrem, hr]
  · simp [hrem, hf, hr, hflows]

/-- The access has no status but its own. -/
theorem unfailing_ovsSetupAdminGuiAccess_iff :
    Unfailing (ovsSetupAdminGuiAccess env req) ↔ env.guiAccessOk req := by
  unfold Unfailing
  rw [all_ovsSetupAdminGuiAccess]
  by_cases h : env.guiAccessOk req <;> simp [h, all_setupGuiFlows]

/-- Nor has the block. -/
theorem unfailing_ovsBlockMsoUiAccess_iff : Unfailing (ovsBlockMsoUiAccess env req) ↔ env.cmIp.isSome := by
  unfold Unfailing
  rw [all_ovsBlockMsoUiAccess]
  cases env.cmIp <;> simp

/-- The port's flows report the block alone. -/
theorem ovsSetupPortFlows_success_iff :
    (ovsSetupPortFlows conf env req).value = .success
      ↔ (req.isGuiPort ∧ conf.modelNum.hasGuiFlows → env.cmIp.isSome) := by
  rw [ovsSetupPortFlows_value, ovsBlockMsoUiAccess_value]
  by_cases hg : req.isGuiPort ∧ conf.modelNum.hasGuiFlows
  · cases env.cmIp <;> simp [hg]
  · rw [if_neg hg]
    exact iff_of_true rfl fun h => absurd h hg

/-- Behind a success only the access can have failed. -/
theorem unfailing_ovsSetupPortFlows_iff (h : (ovsSetupPortFlows conf env req).value = .success) :
    Unfailing (ovsSetupPortFlows conf env req)
      ↔ (req.isGuiPort ∧ conf.modelNum.hasGuiFlows → env.guiAccessOk req) := by
  have hmso := ovsSetupPortFlows_success_iff.1 h
  have hgui := @unfailing_ovsSetupAdminGuiAccess_iff env req
  have hblock := @unfailing_ovsBlockMsoUiAccess_iff env req
  have hflows : req.isBr106Port → Unfailing (ovsSetupBridgeFlows conf req) := by
    intro hb
    refine unfailing_ovsSetupBridgeFlows_iff.2 fun hand => ?_
    rw [hb.1] at hand
    exact absurd hand.2 (by decide)
  unfold Unfailing at hgui hblock hflows ⊢
  rw [all_ovsSetupPortFlows, hgui, hblock, h]
  constructor
  · intro ⟨hall, _⟩ hand
    exact (hall hand.1 hand.2).1
  · intro hok
    exact ⟨fun hg hm => ⟨hok ⟨hg, hm⟩, hmso ⟨hg, hm⟩⟩, hflows, rfl⟩

theorem unfailing_getExistingOvsParentBridge {ifName : CString} {answer : Option CString}
    (h : answer.isSome) :
    Unfailing (getExistingOvsParentBridge ifName answer) :=
  (all_getExistingOvsParentBridge ifName answer).2 ⟨trivial, if_pos h⟩

/-- The commands of the switch have one query, and it decides. -/
theorem unfailing_switchCommands {ifName restoreIfName : CString}
    (h : env.restoreBridge.isSome → env.ethIfaceToBr.isSome) :
    Unfailing (switchCommands env ifName restoreIfName env.restoreBridge) := by
  cases hb : env.restoreBridge with
  | none =>
      exact (all_setupEthSwitchCmds ifName).2 ⟨trivial, fun _ => trivial, trivial, trivial, trivial,
        trivial, rfl⟩
  | some restoreBridge =>
      have hsome : env.ethIfaceToBr.isSome := h (by rw [hb]; rfl)
      refine (all_setupAndRestoreEthSwitchCmds ifName restoreIfName restoreBridge).2
        ⟨trivial, unfailing_getExistingOvsParentBridge hsome, fun _ => ?_, if_pos hsome⟩
      exact ⟨fun _ _ => trivial, trivial, trivial, trivial, trivial, trivial, trivial, trivial,
        trivial, trivial, trivial, trivial⟩

/-- A switch that reports success has no failure to lose. -/
theorem unfailing_ethSwitch (h : ¬ ethSwitchFails conf env req) : Unfailing (ethSwitch conf env req) := by
  refine all_ethSwitch.2 fun hs => ?_
  have hok : env.ethSwitchOk := by
    by_contra hnot
    exact h ⟨hs, hnot⟩
  refine (all_ovsSetupEthSwitch hs.2.1).2 ⟨trivial, ?_, if_pos hok⟩
  refine (all_setupEthSwitchPort _ _ _).2 ⟨unfailing_getExistingOvsParentBridge hok.1,
    fun _ => ⟨trivial, ?_, ?_⟩⟩
  · exact unfailing_switchCommands hok.2
  · exact (all_restoreEthBhaul _).2 fun _ => ⟨trivial, trivial, trivial⟩

/-! ## §4. Requests. -/

/-- The end of a VLAN or GRE request. -/
theorem unfailing_modifyParentBridgeIfAny_iff
    (hok : (modifyParentBridgeIfAny conf env req).value = .success) :
    Unfailing (modifyParentBridgeIfAny conf env req)
      ↔ (req.parentBridge ≠ [] → req.Asks .brRemove ∨ env.bridgePorts.isSome) := by
  unfold Unfailing
  rw [all_modifyParentBridgeIfAny]
  refine forall_congr' fun hne => ?_
  rw [modifyParentBridgeIfAny_value, if_neg hne] at hok
  exact unfailing_ovsModifyParentBridge_iff hne ((modifyStatus_success_iff_not hne).1 hok)

/-- The end of a request for a port. -/
theorem unfailing_addPortToParentBridge_iff (hok : (addPortToParentBridge conf env req).value = .success) :
    Unfailing (addPortToParentBridge conf env req)
      ↔ (req.parentBridge ≠ [] → (req.Asks .brRemove ∨ env.bridgePorts.isSome) ∧
        (req.isGuiPort ∧ conf.modelNum.hasGuiFlows → env.guiAccessOk req)) := by
  unfold Unfailing
  rw [all_addPortToParentBridge]
  refine forall_congr' fun hne => ?_
  rw [addPortToParentBridge_value, if_neg hne] at hok
  by_cases hs : modifyStatus conf env req = .success
  · rw [if_neg (not_not.2 hs)] at hok
    rw [forall_prop_of_true hs]
    exact and_congr (unfailing_ovsModifyParentBridge_iff hne ((modifyStatus_success_iff_not hne).1 hs))
      (unfailing_ovsSetupPortFlows_iff hok)
  · rw [if_pos hs] at hok
    exact absurd hok hs

/-- When a VLAN or GRE request reports success. -/
theorem modifyParentBridgeIfAny_success_iff :
    (modifyParentBridgeIfAny conf env req).value = .success
      ↔ (req.parentBridge ≠ [] → ¬ env.ModifyFails req) := by
  rw [modifyParentBridgeIfAny_value]
  by_cases hp : req.parentBridge = []
  · simp [hp]
  · rw [if_neg hp, modifyStatus_success_iff_not hp]
    exact ⟨fun h _ => h, fun h => h hp⟩

/-- When a request for a port reports success. -/
theorem addPortToParentBridge_success_iff :
    (addPortToParentBridge conf env req).value = .success
      ↔ (req.parentBridge ≠ [] → ¬ env.ModifyFails req ∧
        (req.isGuiPort ∧ conf.modelNum.hasGuiFlows → env.cmIp.isSome)) := by
  rw [addPortToParentBridge_value]
  by_cases hp : req.parentBridge = []
  · simp [hp]
  · rw [if_neg hp, ← @ovsSetupPortFlows_success_iff conf env req,
      ← @modifyStatus_success_iff_not conf env req hp]
    by_cases hs : modifyStatus conf env req = .success <;> simp [hs, hp]

/-- A bridge request has no failure to lose. -/
theorem unfailing_ovsCreateBridge (hok : (ovsCreateBridge conf req).value = .success) :
    Unfailing (ovsCreateBridge conf req) := by
  refine all_ovsCreateBridge.2 ⟨fun _ => trivial, fun hd => ?_, hok⟩
  rw [ovsCreateBridge_value, if_neg hd, ovsSetupBridgeFlows_value] at hok
  refine ⟨trivial, fun _ => trivial, fun _ => trivial, fun _ => trivial,
    unfailing_ovsSetupBridgeFlows_iff.2 ?_⟩
  intro hand
  rw [if_pos hand] at hok
  cases hok

/-- Only the parent bridge of a VLAN request can lose a failure. -/
theorem unfailing_ovsCreateVlan_iff (hd : ¬ req.Asks .ifDelete)
    (hok : (ovsCreateVlan conf env req).value = .success) :
    Unfailing (ovsCreateVlan conf env req) ↔ Unfailing (modifyParentBridgeIfAny conf env req) := by
  unfold Unfailing
  rw [all_ovsCreateVlan]
  simp [hd, hok]

/-- The same of a GRE request. -/
theorem unfailing_ovsCreateGRE_iff (hd : ¬ req.Asks .ifDelete)
    (hok : (ovsCreateGRE conf env req).value = .success) :
    Unfailing (ovsCreateGRE conf env req) ↔ Unfailing (modifyParentBridgeIfAny conf env req) := by
  unfold Unfailing
  rw [all_ovsCreateGRE]
  simp [hd, hok]

/-- The same of a port, behind a switch that did not fail. -/
theorem unfailing_ovsAddPort_iff (hd : ¬ req.Asks .ifDelete) (hf : ¬ ethSwitchFails conf env req)
    (hok : (ovsAddPort conf env req).value = .success) :
    Unfailing (ovsAddPort conf env req) ↔ Unfailing (addPortToParentBridge conf env req) := by
  have hswitch := unfailing_ethSwitch hf
  unfold Unfailing at hswitch ⊢
  rw [all_ovsAddPort]
  simp [hd, hok, hf, hswitch]

/-- The condition of an interface request that is not a deletion. -/
theorem keepsFailures_iff_of_not_port (hb : ¬ req.IsType .bridge) (hd : ¬ req.Asks .ifDelete)
    (hp : ¬ req.isPort) :
    KeepsFailures conf env req
      ↔ ((req.parentBridge ≠ [] → ¬ env.ModifyFails req) → req.parentBridge ≠ [] →
        req.Asks .brRemove ∨ env.bridgePorts.isSome) := by
  unfold KeepsFailures ModifiesParent SetsUpGuiFlows
  by_cases hne : req.parentBridge = [] <;> simp [hb, hd, hp, hne]

/-- The condition of a request for a port that is not a deletion. -/
theorem keepsFailures_iff_of_port (hp : req.isPort) (hd : ¬ req.Asks .ifDelete)
    (hf : ¬ ethSwitchFails conf env req) :
    KeepsFailures conf env req
      ↔ ((req.parentBridge ≠ [] → ¬ env.ModifyFails req ∧
          (req.isGuiPort ∧ conf.modelNum.hasGuiFlows → env.cmIp.isSome)) →
        req.parentBridge ≠ [] → (req.Asks .brRemove ∨ env.bridgePorts.isSome) ∧
          (req.isGuiPort ∧ conf.modelNum.hasGuiFlows → env.guiAccessOk req)) := by
  unfold KeepsFailures ModifiesParent SetsUpGuiFlows
  by_cases hne : req.parentBridge = [] <;> simp [hp, hp.1, hd, hf, hne]

/-- What a VLAN and a GRE request have in common: but for a deletion, their
status is that of the parent bridge. -/
theorem reported_iff_of_not_port {p : Action OvsStatus} (hb : ¬ req.IsType .bridge) (hp : ¬ req.isPort)
    (hdeleted : req.Asks .ifDelete → p.value = .success → Unfailing p)
    (hvalue : ¬ req.Asks .ifDelete → p.value = (modifyParentBridgeIfAny conf env req).value)
    (hparent : ¬ req.Asks .ifDelete → p.value = .success →
      (Unfailing p ↔ Unfailing (modifyParentBridgeIfAny conf env req))) :
    (p.value = .success → Unfailing p) ↔ KeepsFailures conf env req := by
  by_cases hd : req.Asks .ifDelete
  · exact iff_of_true (hdeleted hd) fun hm => absurd hd hm.2.1
  · have hv := hvalue hd
    rw [keepsFailures_iff_of_not_port hb hd hp, ← @modifyParentBridgeIfAny_success_iff conf env req, ← hv]
    refine forall_congr' fun hok => ?_
    rw [hparent hd hok, unfailing_modifyParentBridgeIfAny_iff (hv ▸ hok)]

/-- **Success means every step succeeded** exactly when no failure is overwritten. -/
theorem failures_reported_iff (conf : OvsActionConfig) (env : ActionEnv) (req : GatewayConfig) :
    FailuresReported conf env req ↔ KeepsFailures conf env req := by
  rw [failuresReported_iff_unfailing]
  rcases ovsActionGatewayConfig_cases conf env req with
      ⟨ht, heq⟩ | ⟨ht, heq⟩ | ⟨ht, heq⟩ | ⟨ht, heq⟩
  · rw [heq]
    exact iff_of_true unfailing_ovsCreateBridge fun hm => absurd ht hm.1
  · rw [heq]
    refine reported_iff_of_not_port (fun hb => (by cases ht.unique hb)) (fun hp => hp.2.1 ht)
      (fun hd hok => ?_)
      (fun hd => ?_) unfailing_ovsCreateVlan_iff
    · exact all_ovsCreateVlan.2 ⟨fun _ => trivial, fun h => absurd hd h, hok⟩
    · rw [ovsCreateVlan_value, if_neg hd]
  · rw [heq]
    refine reported_iff_of_not_port (fun hb => (by cases ht.unique hb)) (fun hp => hp.2.2 ht)
      (fun hd hok => ?_)
      (fun hd => ?_) unfailing_ovsCreateGRE_iff
    · exact all_ovsCreateGRE.2 ⟨fun _ => trivial, fun h => absurd hd h, hok⟩
    · rw [ovsCreateGRE_value, if_neg hd]
  · rw [heq]
    by_cases hd : req.Asks .ifDelete
    · refine iff_of_true (fun hok => ?_) fun hm => absurd hd hm.2.1
      exact all_ovsAddPort.2 ⟨fun _ => trivial, fun h => absurd hd h, hok⟩
    · by_cases hf : ethSwitchFails conf env req
      · -- the failure of the work-around is returned at once
        refine iff_of_true (fun hok => ?_) (fun hm => absurd ⟨ht, hf⟩ hm.2.2.2)
        rw [ovsAddPort_value, if_neg hd, if_pos hf] at hok
        cases hok
      · rw [keepsFailures_iff_of_port ht hd hf, ← addPortToParentBridge_success_iff]
        have hv : (ovsAddPort conf env req).value = (addPortToParentBridge conf env req).value := by
          rw [ovsAddPort_value, if_neg hd, if_neg hf]
        rw [← hv]
        refine forall_congr' fun hok => ?_
        rw [unfailing_ovsAddPort_iff hd hf hok, unfailing_addPortToParentBridge_iff (hv ▸ hok)]

/-- A port for a bridge that is not there yet and whose ports then cannot be
listed: the status of its flows is returned. -/
theorem new_bridge_failure_overwritten :
    ¬ FailuresReported ⟨.tg3482g, false⟩ { quietEnv with bridgePath := false, bridgePorts := none }
      (simpleRequest .other .ifUp (ofString "ath0") (ofString "br403")) := by
  intro h
  have hmem : ActionEvent.returned .configureParentBridge .failed
      ∈ (ovsActionGatewayConfig ⟨.tg3482g, false⟩
        { quietEnv with bridgePath := false, bridgePorts := none }
        (simpleRequest .other .ifUp (ofString "ath0") (ofString "br403"))).trace := by
    decide +kernel
  exact (h ⟨_, _, hmem, by decide⟩).1 (by decide +kernel)

end OvsAgent
