/-
  OvsAgent.OvsAction.BridgeTools — which tool is used on which bridge.

  The bridges brlan2 to brlan5 are Linux bridges (brctl), all others are
  bridges of OVS (ovs-vsctl, ovs-ofctl).  `ovs_modifyParentBridge` chooses the
  tool by the name of the parent bridge; bridges also come up in bridge
  requests, in flows, and in the answers to queries.

  Main result: `one_tool_iff` — along any list of requests with words for their
  fields, every program started keeps to the tool of its bridge exactly when
  every request meets `KeepsOneTool`.
-/
import OvsAgent.OvsAction.Programs

namespace OvsAgent

open CString (ofString)
open Traced
open Shell (IsWord)

variable {conf : OvsActionConfig} {env : ActionEnv} {req : GatewayConfig}

/-! ## §1. Tools. -/

/-- The two bridge technologies. -/
inductive Tool where
  | ovs
  | linux
  deriving Repr, DecidableEq

/-- The bridges of the Puma7 work-around. -/
def dummyBridge (vlan : CString) : CString := ofString "dummy" ++ vlan

def dummyBridgeNames : List CString := [dummyBridge (ofString "100"), dummyBridge (ofString "101")]

/-- The commands of ovs-vsctl that are about a bridge. -/
def vsctlBridgeVerbs : List CString :=
  [ofString "add-br", ofString "del-br", ofString "add-port", ofString "del-port", ofString "list-ports"]

/-- The bridge the program, with these arguments, is about and the technology
it takes it for. -/
def programUse : List CString → Option (Tool × CString)
  | program :: verb :: rest =>
      if program = ofString "ovs-vsctl" then
        if verb ∈ vsctlBridgeVerbs then rest.head?.map (Prod.mk .ovs) else none
      else if program = ofString "ovs-ofctl" then
        if verb = ofString "--strict" then rest.tail.head?.map (Prod.mk .ovs)
        else rest.head?.map (Prod.mk .ovs)
      else if program = ofString "brctl" then rest.head?.map (Prod.mk .linux)
      else none
  | _ => none

example : programUse [ofString "ovs-ofctl", ofString "--strict", ofString "del-flows", ofString "br0"]
    = some (.ovs, ofString "br0") := by decide

/-- The tool may be used on the bridge. -/
def Tool.Manages : Tool → CString → Prop
  | .ovs, bridge => bridge ∉ linuxBridgeNames
  | .linux, bridge => bridge ∈ linuxBridgeNames ∨ bridge ∈ dummyBridgeNames

instance : (tool : Tool) → (bridge : CString) → Decidable (tool.Manages bridge)
  | .ovs, bridge => inferInstanceAs (Decidable (bridge ∉ linuxBridgeNames))
  | .linux, bridge =>
      inferInstanceAs (Decidable (bridge ∈ linuxBridgeNames ∨ bridge ∈ dummyBridgeNames))

/-- The program keeps to the tool of its bridge. -/
def KeepsTool (words : List CString) : Prop :=
  ∀ tool bridge, programUse words = some (tool, bridge) → tool.Manages bridge

/-- Every program that the shell starts for the computation does. -/
def WithOneTool {α : Type} (p : Action α) : Prop := StartsOnly KeepsTool p

/-- The command's format keeps to the tool of its bridge. -/
def Command.OneTool (cmd : Command) : Prop := cmd.Means KeepsTool

/-- The bridges that the programs of the format are about. -/
def Command.bridgeUses (cmd : Command) : List (Tool × CString) := cmd.programs.filterMap programUse

theorem oneTool_iff_uses (cmd : Command) :
    cmd.OneTool ↔ ∀ use ∈ cmd.bridgeUses, use.1.Manages use.2 := by
  constructor
  · intro h use huse
    obtain ⟨words, hmem, hwords⟩ := List.mem_filterMap.1 huse
    exact h words hmem use.1 use.2 hwords
  · intro h words hmem tool bridge hwords
    exact h (tool, bridge) (List.mem_filterMap.2 ⟨words, hmem, hwords⟩)

theorem oneTool_of_use {cmd : Command} {tool : Tool} {bridge : CString}
    (h : cmd.bridgeUses = [(tool, bridge)]) :
    cmd.OneTool ↔ tool.Manages bridge := by
  rw [oneTool_iff_uses, h, List.forall_mem_singleton]

theorem oneTool_of_none {cmd : Command} (h : cmd.bridgeUses = []) : cmd.OneTool := by
  rw [oneTool_iff_uses, h]
  exact List.forall_mem_nil _

theorem oneTool_ifconfigUpDown (ifname : CString) (up : Bool) :
    (Command.ifconfigUpDown ifname up).OneTool := by
  cases up <;> exact oneTool_of_none rfl

/-! ## §2. Conditions on a request. -/

/-- The technology `ovs_modifyParentBridge` chooses. -/
def GatewayConfig.tool (req : GatewayConfig) : Tool := if req.ovsEnabled then .ovs else .linux

/-- The parent bridge is in the hands of the tool chosen for it. -/
theorem tool_manages_parentBridge (req : GatewayConfig) : req.tool.Manages req.parentBridge := by
  unfold GatewayConfig.tool GatewayConfig.ovsEnabled Tool.Manages
  by_cases h : req.parentBridge ∈ linuxBridgeNames <;> simp [h]

/-- No flows are set up on a Linux bridge. -/
def FlowsOnOvs (conf : OvsActionConfig) (req : GatewayConfig) : Prop :=
  ¬ conf.modelNum.hasBridgeFlows ∨ req.ovsEnabled = true

/-- The parent bridge is modified with one tool: a port is taken off a bridge of
the same technology only, and a Linux bridge that is created gets no flows. -/
def ModifiesWithOneTool (conf : OvsActionConfig) (env : ActionEnv) (req : GatewayConfig) : Prop :=
  env.queryFails req.ovsEnabled ∨
    ((∀ bridge, env.existingBridge req.ovsEnabled = some bridge → req.Asks .ifUp →
        bridge ≠ req.parentBridge → req.tool.Manages bridge) ∧
      (req.Asks .brRemove ∨ env.bridgePath = true ∨ FlowsOnOvs conf req))

/-- The bridges that OVS reports for the two Puma7 ports are bridges of OVS. -/
def SwitchesWithOneTool (env : ActionEnv) : Prop :=
  ∀ restoreBridge, env.restoreBridge = some restoreBridge → Tool.ovs.Manages restoreBridge ∧
    ∀ bridge, env.ethIfaceToBr.bind ovsParentBridge = some bridge → Tool.ovs.Manages bridge

/-- The request keeps every bridge to one tool. -/
def KeepsOneTool (conf : OvsActionConfig) (env : ActionEnv) (req : GatewayConfig) : Prop :=
  if req.IsType .bridge then
    req.ifName ∉ linuxBridgeNames ∧ (req.Asks .ifDelete ∨ FlowsOnOvs conf req)
  else req.Asks .ifDelete ∨
    ((req.isPort → isEthSwitchPort conf req → SwitchesWithOneTool env) ∧
      ((req.isPort ∧ ethSwitchFails conf env req) ∨ req.parentBridge = [] ∨
        ModifiesWithOneTool conf env req))

/-! ## §3. The helpers. -/

/-- The formats of the computation keep to one tool. -/
def MeansOneTool {α : Type} (p : Action α) : Prop := RunsOnly Command.OneTool p

theorem oneTool_detachCommand (req : GatewayConfig) (bridge : CString) :
    (detachCommand req req.ovsEnabled bridge).OneTool ↔ req.tool.Manages bridge := by
  refine oneTool_of_use ?_
  unfold detachCommand GatewayConfig.tool
  cases req.ovsEnabled <;> rfl

theorem oneTool_parentCommands (req : GatewayConfig) :
    (createCommand req req.ovsEnabled).OneTool ∧ (attachCommand req req.ovsEnabled).OneTool ∧
      (listCommand req req.ovsEnabled).OneTool := by
  have hm := tool_manages_parentBridge req
  unfold createCommand attachCommand listCommand
  unfold GatewayConfig.tool at hm
  cases h : req.ovsEnabled with
  | true =>
      rw [h] at hm
      exact ⟨(oneTool_of_use rfl).2 hm, (oneTool_of_use rfl).2 hm, (oneTool_of_use rfl).2 hm⟩
  | false =>
      rw [h] at hm
      exact ⟨(oneTool_of_use rfl).2 hm, (oneTool_of_use rfl).2 hm, (oneTool_of_use rfl).2 hm⟩

theorem meansOneTool_removeExistingInterfacePort_iff :
    MeansOneTool (removeExistingInterfacePort env req req.ovsEnabled)
      ↔ env.queryFails req.ovsEnabled ∨
        ∀ bridge, env.existingBridge req.ovsEnabled = some bridge → req.Asks .ifUp →
          bridge ≠ req.parentBridge → req.tool.Manages bridge := by
  unfold MeansOneTool RunsOnly
  rw [all_removeExistingInterfacePort]
  constructor
  · intro ⟨_, hdetach, _⟩
    by_cases hf : env.queryFails req.ovsEnabled
    · exact Or.inl hf
    · refine Or.inr fun bridge hb hup hne => ?_
      exact (oneTool_detachCommand req bridge).1 (hdetach hf bridge hb (Or.inr ⟨Ne.symm hne, hup⟩))
  · intro hor
    refine ⟨runsOnly_portQuery _ (oneTool_of_none rfl) (oneTool_of_none rfl),
      fun hf bridge hb hremoves => ?_, trivial⟩
    refine (oneTool_detachCommand req bridge).2 ?_
    rcases hremoves with ⟨heq, _⟩ | ⟨hne, hup⟩
    · rw [← heq]
      exact tool_manages_parentBridge req
    · exact (hor.resolve_left hf) bridge hb hup (Ne.symm hne)

theorem meansOneTool_configureParentBridge : MeansOneTool (configureParentBridge env req req.ovsEnabled) := by
  obtain ⟨hcreate, hattach, hlist⟩ := oneTool_parentCommands req
  exact (all_configureParentBridge _).2
    ⟨trivial, fun _ => hcreate, fun _ => oneTool_ifconfigUpDown _ _, hattach, hlist, trivial⟩

/-- At least the flows of the first type are set up. -/
theorem meansOneTool_ovsSetupBridgeFlows_iff (hne : req.parentBridge ≠ []) :
    MeansOneTool (ovsSetupBridgeFlows conf req) ↔ FlowsOnOvs conf req := by
  have hdel : ∀ type, (Command.ovsOfctlDelEtherFlows req.parentBridge type).OneTool ↔
      req.ovsEnabled = true := by
    intro type
    have huse : (Command.ovsOfctlDelEtherFlows req.parentBridge type).bridgeUses =
        [(.ovs, req.parentBridge)] := by
      cases type <;> rfl
    rw [oneTool_of_use huse]
    show req.parentBridge ∉ linuxBridgeNames ↔ _
    exact decide_eq_true_iff.symm
  have hadd : ∀ type, (Command.ovsOfctlAddEtherFlow req.parentBridge type).OneTool ↔
      req.ovsEnabled = true := by
    intro type
    have huse : (Command.ovsOfctlAddEtherFlow req.parentBridge type).bridgeUses =
        [(.ovs, req.parentBridge)] := by
      cases type <;> rfl
    rw [oneTool_of_use huse]
    show req.parentBridge ∉ linuxBridgeNames ↔ _
    exact decide_eq_true_iff.symm
  have hbrcm : ¬ conf.skips .brcm := fun h => (by cases h.2)
  unfold MeansOneTool RunsOnly FlowsOnOvs
  rw [all_ovsSetupBridgeFlows, all_ovsSetupBrcmWifiFlows]
  unfold BridgeFlowEvents
  constructor
  · intro ⟨hflows, _⟩
    rw [or_iff_not_imp_left, not_not]
    intro hm
    exact (hdel .brcm).1 (((hflows hm).1 hne .brcm hbrcm).1)
  · intro hor
    refine ⟨fun hm => ⟨fun _ type _ => ?_, trivial⟩, trivial⟩
    have hovs := hor.resolve_left (not_not.2 hm)
    exact ⟨(hdel type).2 hovs, fun _ => (hadd type).2 hovs⟩

theorem meansOneTool_ovsModifyParentBridge_iff (hne : req.parentBridge ≠ []) :
    MeansOneTool (ovsModifyParentBridge conf env req) ↔ ModifiesWithOneTool conf env req := by
  have hrem := @meansOneTool_removeExistingInterfacePort_iff env req
  have hflows := @meansOneTool_ovsSetupBridgeFlows_iff conf req hne
  have hconf := @meansOneTool_configureParentBridge env req
  unfold MeansOneTool RunsOnly at hrem hflows hconf ⊢
  unfold ModifiesWithOneTool
  rw [all_ovsModifyParentBridge, hrem, hflows]
  by_cases hf : env.queryFails req.ovsEnabled
  · simp [hf]
  · by_cases hr : req.Asks .brRemove
    · simp [hf, hr]
    · cases env.bridgePath <;> simp [hf, hr, hconf]

/-- The special ports are on bridges of OVS. -/
theorem meansOneTool_ovsSetupPortFlows : MeansOneTool (ovsSetupPortFlows conf env req) := by
  have hflow : req.isGuiPort → ∀ cmd : Command, cmd.bridgeUses = [(.ovs, req.parentBridge)] →
      cmd.OneTool := by
    intro hg cmd huse
    refine (oneTool_of_use huse).2 ?_
    rw [hg.1]
    decide
  refine all_ovsSetupPortFlows.2 ⟨fun hg _ => ⟨?_, ?_⟩, fun hb => ?_, trivial⟩
  · refine all_ovsSetupAdminGuiAccess.2 ⟨trivial, fun ip _ => ?_, trivial⟩
    exact (all_setupGuiFlows ip).2 ⟨hflow hg _ rfl, hflow hg _ rfl, fun _ => ⟨oneTool_of_none rfl,
      fun _ _ => ⟨hflow hg _ rfl, hflow hg _ rfl⟩⟩⟩
  · exact all_ovsBlockMsoUiAccess.2
      ⟨trivial, fun _ _ => ⟨hflow hg _ rfl, fun _ => hflow hg _ rfl⟩, trivial⟩
  · have hne : req.parentBridge ≠ [] := by rw [hb.1]; decide
    have hovs : req.ovsEnabled = true := by
      unfold GatewayConfig.ovsEnabled
      rw [hb.1]
      decide
    exact (meansOneTool_ovsSetupBridgeFlows_iff hne).2 (Or.inr hovs)

theorem oneTool_fixed : ∀ cmd ∈ switchFixedCommands, cmd.OneTool := by
  have hall : ∀ cmd ∈ switchFixedCommands, ∀ use ∈ cmd.bridgeUses,
      use.1.Manages use.2 := by decide +kernel
  exact fun cmd hmem => (oneTool_iff_uses cmd).2 (hall cmd hmem)

theorem meansOneTool_ethSwitch_iff :
    MeansOneTool (ethSwitch conf env req) ↔ (isEthSwitchPort conf req → SwitchesWithOneTool env) :=
  runsOnly_ethSwitch_iff oneTool_fixed fun _ _ _ _ => ⟨oneTool_of_use rfl, oneTool_of_use rfl⟩

/-! ## §4. Requests. -/

theorem meansOneTool_modifyParentBridgeIfAny_iff :
    MeansOneTool (modifyParentBridgeIfAny conf env req)
      ↔ req.parentBridge = [] ∨ ModifiesWithOneTool conf env req := by
  unfold MeansOneTool RunsOnly
  rw [all_modifyParentBridgeIfAny]
  by_cases h : req.parentBridge = []
  · simp [h]
  · rw [or_iff_right h]
    exact (forall_prop_of_true h).trans (meansOneTool_ovsModifyParentBridge_iff h)

theorem meansOneTool_addPortToParentBridge_iff :
    MeansOneTool (addPortToParentBridge conf env req)
      ↔ req.parentBridge = [] ∨ ModifiesWithOneTool conf env req := by
  unfold MeansOneTool RunsOnly
  rw [all_addPortToParentBridge]
  by_cases h : req.parentBridge = []
  · simp [h]
  · rw [or_iff_right h, forall_prop_of_true h]
    refine Iff.trans (and_iff_left fun _ => meansOneTool_ovsSetupPortFlows) ?_
    exact meansOneTool_ovsModifyParentBridge_iff h

theorem meansOneTool_ovsCreateBridge_iff :
    MeansOneTool (ovsCreateBridge conf req)
      ↔ req.ifName ∉ linuxBridgeNames ∧ (req.Asks .ifDelete ∨ FlowsOnOvs conf req) := by
  unfold MeansOneTool RunsOnly
  rw [all_ovsCreateBridge]
  by_cases hd : req.Asks .ifDelete
  · have hdel : (Command.ovsVsctlDelBr req.ifName).OneTool ↔ Tool.ovs.Manages req.ifName :=
      oneTool_of_use rfl
    simp only [hd, not_true_eq_false, false_imp_iff, true_imp_iff, true_or, and_true, runs_system,
      runs_returned, hdel]
    rfl
  · have hflows : (ovsSetupBridgeFlows conf req).All (ActionEvent.Runs Command.OneTool) ↔
        FlowsOnOvs conf req := by
      by_cases hp : req.parentBridge = []
      · -- no parent bridge, no flows
        refine iff_of_true ?_ (Or.inr ?_)
        · exact all_ovsSetupBridgeFlows.2 ⟨fun _ =>
            all_ovsSetupBrcmWifiFlows.2 ⟨fun hne => absurd hp hne, trivial⟩, trivial⟩
        · unfold GatewayConfig.ovsEnabled
          rw [hp]
          decide
      · exact meansOneTool_ovsSetupBridgeFlows_iff hp
    have hadd : (Command.ovsVsctlAddBr req.ifName).OneTool ↔ Tool.ovs.Manages req.ifName :=
      oneTool_of_use rfl
    rw [hflows]
    simp only [hd, false_imp_iff, not_false_eq_true, true_imp_iff, false_or, true_and, runs_system,
      runs_returned,
      and_true, hadd]
    constructor
    · intro h
      exact ⟨h.1, h.2.2.2.2⟩
    · intro h
      exact ⟨h.1, fun _ => oneTool_of_none rfl, fun _ => oneTool_ifconfigUpDown _ _,
        fun _ => oneTool_of_none rfl, h.2⟩

/-- What the formats of one request mean. -/
theorem meansOneTool_iff (conf : OvsActionConfig) (env : ActionEnv) (req : GatewayConfig) :
    MeansOneTool (ovsActionGatewayConfig conf env req) ↔ KeepsOneTool conf env req := by
  have hport := @meansOneTool_addPortToParentBridge_iff conf env req
  have hany := @meansOneTool_modifyParentBridgeIfAny_iff conf env req
  have hswitch := @meansOneTool_ethSwitch_iff conf env req
  unfold KeepsOneTool
  rcases ovsActionGatewayConfig_cases conf env req with
      ⟨ht, heq⟩ | ⟨ht, heq⟩ | ⟨ht, heq⟩ | ⟨ht, heq⟩
  · rw [heq, if_pos ht]
    exact meansOneTool_ovsCreateBridge_iff
  · have hb : ¬ req.IsType .bridge := fun hb => (by cases ht.unique hb)
    have hp : ¬ req.isPort := fun hp => hp.2.1 ht
    rw [heq, if_neg hb]
    unfold MeansOneTool RunsOnly at hany ⊢
    rw [all_ovsCreateVlan, hany]
    have hmake : (vlanCommand conf req).OneTool := by
      unfold vlanCommand
      split <;> exact oneTool_of_none rfl
    by_cases hd : req.Asks .ifDelete
    · simp [hd, @oneTool_of_none (.ipLinkDel req.ifName) rfl]
    · simp [hd, hp, hmake, oneTool_ifconfigUpDown req.ifName]
  · have hb : ¬ req.IsType .bridge := fun hb => (by cases ht.unique hb)
    have hp : ¬ req.isPort := fun hp => hp.2.2 ht
    rw [heq, if_neg hb]
    unfold MeansOneTool RunsOnly at hany ⊢
    rw [all_ovsCreateGRE, hany]
    by_cases hd : req.Asks .ifDelete
    · simp [hd, @oneTool_of_none (.ipLinkDel req.ifName) rfl]
    · simp [hd, hp, oneTool_ifconfigUpDown req.ifName,
        @oneTool_of_none (.ipLinkAddGretap req.ifName _ _ _) rfl]
  · rw [heq, if_neg ht.1]
    unfold MeansOneTool RunsOnly at hport hswitch ⊢
    rw [all_ovsAddPort, hport, hswitch]
    by_cases hd : req.Asks .ifDelete
    · simp [hd, @oneTool_of_none (.ipLinkDel req.ifName) rfl]
    · by_cases hf : ethSwitchFails conf env req
      · simp [hd, hf, ht]
      · simp [hd, hf, ht, oneTool_ifconfigUpDown req.ifName]

/-- One request after the other, each with the answers it gets. -/
def handleRequests (conf : OvsActionConfig) : List (ActionEnv × GatewayConfig) → Action (List OvsStatus)
  | [] => pure []
  | r :: requests => do
      let status ← ovsActionGatewayConfig conf r.1 r.2
      let statuses ← handleRequests conf requests
      pure (status :: statuses)

/-- The step lemma: one request whose fields are words. -/
theorem withOneTool_iff (hb : req.Bounded) (hw : WholeWords conf env req) :
    WithOneTool (ovsActionGatewayConfig conf env req) ↔ KeepsOneTool conf env req :=
  (startsOnly_iff_formats hb hw).trans (meansOneTool_iff conf env req)

/-- **One tool for a bridge.**  Along a list of requests whose fields are words,
every program that is started keeps to the tool of its bridge exactly when every
request is one that does. -/
theorem one_tool_iff (conf : OvsActionConfig) {requests : List (ActionEnv × GatewayConfig)}
    (hb : ∀ r ∈ requests, r.2.Bounded) (hw : ∀ r ∈ requests, WholeWords conf r.1 r.2) :
    WithOneTool (handleRequests conf requests) ↔ ∀ r ∈ requests, KeepsOneTool conf r.1 r.2 := by
  unfold WithOneTool StartsOnly RunsOnly
  induction requests with
  | nil => simp [handleRequests]
  | cons r requests ih =>
      obtain ⟨hbr, hbs⟩ := List.forall_mem_cons.1 hb
      obtain ⟨hwr, hws⟩ := List.forall_mem_cons.1 hw
      have hr := withOneTool_iff hbr hwr
      unfold WithOneTool StartsOnly RunsOnly at hr
      rw [handleRequests, all_bind, all_bind, hr, ih hbs hws, List.forall_mem_cons]
      simp

/-- A wireless port to be brought up on brlan2. -/
def wifiRequest : GatewayConfig := simpleRequest .other .ifUp (ofString "ath4") (ofString "brlan2")

theorem bounded_wifiRequest : wifiRequest.Bounded := by
  constructor <;> decide

theorem wholeWords_wifiRequest (conf : OvsActionConfig) : WholeWords conf quietEnv wifiRequest := by
  have hname : IsWord wifiRequest.ifName := by decide
  have hparent : IsWord wifiRequest.parentBridge := by decide
  have hport : ¬ isEthSwitchPort conf wifiRequest := fun hs => absurd hs.2.1 (by decide)
  have hgui : ¬ wifiRequest.isGuiPort := by decide
  have hquery : QueryWords quietEnv wifiRequest := fun _ => hname.inWord
  have hnone : quietEnv.existingBridge wifiRequest.ovsEnabled = none := by decide
  refine ⟨fun hs => absurd hs hport,
    fun _ => ⟨fun _ => hname, fun _ => ⟨⟨hquery, fun _ => ⟨?_, ?_⟩⟩, ?_⟩⟩⟩
  · intro bridge hbridge
    rw [hnone] at hbridge
    cases hbridge
  · exact fun _ => ⟨hparent, hname⟩
  · exact fun _ hg => absurd hg hgui

/-- A port that comes up on brlan2 and then again: brctl alone. -/
theorem one_tool_iff_wifi :
    WithOneTool
      (handleRequests ⟨.cgm4331com, false⟩ [(quietEnv, wifiRequest), (quietEnv, wifiRequest)]) := by
  have hkeeps : KeepsOneTool ⟨.cgm4331com, false⟩ quietEnv wifiRequest := by
    refine Or.inr ⟨fun _ hs => absurd hs.2.1 (by decide),
      Or.inr (Or.inr (Or.inr ⟨?_, Or.inr (Or.inl rfl)⟩))⟩
    intro bridge hbridge
    cases hbridge
  refine (one_tool_iff _ ?_ ?_).2 ?_
  · exact List.forall_mem_cons.2 ⟨bounded_wifiRequest, List.forall_mem_singleton.2 bounded_wifiRequest⟩
  · exact List.forall_mem_cons.2 ⟨wholeWords_wifiRequest _,
      List.forall_mem_singleton.2 (wholeWords_wifiRequest _)⟩
  · exact List.forall_mem_cons.2 ⟨hkeeps, List.forall_mem_singleton.2 hkeeps⟩

/-- brlan2 is not there yet, on a model with bridge flows: it is created with
brctl and then gets flows with ovs-ofctl. -/
theorem new_brlan2_gets_flows :
    ¬ WithOneTool
      (handleRequests ⟨.cgm4331com, false⟩ [({ quietEnv with bridgePath := false }, wifiRequest)]) := by
  intro h
  have hflow : ActionEvent.system (.ovsOfctlAddEtherFlow (ofString "brlan2") .brcm)
      ∈ (handleRequests ⟨.cgm4331com, false⟩
        [({ quietEnv with bridgePath := false }, wifiRequest)]).trace := by
    decide +kernel
  have hsplits : (Command.ovsOfctlAddEtherFlow (ofString "brlan2") .brcm).Splits := by decide +kernel
  have hmeans : (Command.ovsOfctlAddEtherFlow (ofString "brlan2") .brcm).OneTool :=
    hsplits.startsOnly_iff.1 (h _ hflow)
  exact (oneTool_of_use rfl).1 hmeans (by decide)

end OvsAgent
