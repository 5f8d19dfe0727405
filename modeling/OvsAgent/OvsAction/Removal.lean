/-
  OvsAgent.OvsAction.Removal — what a removal request runs.

  Deletions and bridge removals should take things away only.  The helpers
  see to that (each tests for the removal of the bridge before it adds), the
  handlers of bridges, VLANs and GRE interfaces test for the deletion alone.
  What is run is what the shell makes of the commands' texts, so the fields
  have a say in it as well.

  Main result: `removal_creates_nothing_iff`.
-/
import OvsAgent.OvsAction.Programs

namespace OvsAgent

open CString (ofString)
open Traced
open Shell (IsWord)

variable {conf : OvsActionConfig} {env : ActionEnv} {req : GatewayConfig}

/-! ## §1. Programs that create or attach. -/

/-- The program, with these arguments, makes a bridge, an interface or a flow,
or attaches a port. -/
def programCreates : List CString → Bool
  | program :: verb :: rest =>
      if program = ofString "ovs-vsctl" then verb = ofString "add-br" || verb = ofString "add-port"
      else if program = ofString "brctl" then verb = ofString "addbr" || verb = ofString "addif"
      else if program = ofString "/bin/vlan_util" then
        verb = ofString "add_group" || verb = ofString "add_interface"
      else if program = ofString "vconfig" then verb = ofString "add"
      else if program = ofString "ip" then verb = ofString "link" && rest.head? = some (ofString "add")
      else if program = ofString "ovs-ofctl" then verb = ofString "add-flow"
      else false
  | _ => false

example : programCreates [ofString "ip", ofString "link", ofString "add", ofString "gre0"] = true := by decide
example :
    programCreates [ofString "ip", ofString "link", ofString "del", ofString "gre0"] = false := by decide

/-- The program takes things away, or only looks. -/
def AddsNothing (words : List CString) : Prop := programCreates words = false

/-- Nothing that the shell starts for the computation creates or attaches. -/
def CreatesNothing {α : Type} (p : Action α) : Prop := StartsOnly AddsNothing p

/-- The command's format creates and attaches nothing. -/
def Command.Removes (c : Command) : Prop := c.Means AddsNothing

/-- Nor does any of the formats the computation uses. -/
def RemovesOnly {α : Type} (p : Action α) : Prop := RunsOnly Command.Removes p

/-- A command of one program is as harmless as its words. -/
theorem removes_one {c : Command} {words : List CString} (h : c.programs = [words])
    (hwords : AddsNothing words) : c.Removes := (means_one h).2 hwords

theorem removes_ovsVsctlIfaceToBr (port : CString) : (Command.ovsVsctlIfaceToBr port).Removes :=
  removes_one rfl rfl

theorem removes_cat (path : CString) : (Command.cat path).Removes := removes_one rfl rfl

theorem removes_ipLinkDel (ifname : CString) : (Command.ipLinkDel ifname).Removes := removes_one rfl rfl

theorem removes_ovsVsctlDelBr (bridge : CString) : (Command.ovsVsctlDelBr bridge).Removes :=
  removes_one rfl rfl

/-- Of either technology. -/
theorem removes_detachCommand (ovsEnabled : Bool) (bridge : CString) :
    (detachCommand req ovsEnabled bridge).Removes := by
  cases ovsEnabled with
  | true => exact removes_one rfl rfl
  | false => exact removes_one rfl rfl

/-- Whatever the match, the program is `ovs-ofctl del-flows`. -/
theorem removes_ovsOfctlDelFlows (bridge : CString) (flow : FlowMatch) :
    (Command.ovsOfctlDelFlows bridge flow).Removes := by
  cases flow <;> exact removes_one rfl rfl

/-- The same for the ethernet types. -/
theorem removes_ovsOfctlDelEtherFlows (bridge : CString) (type : EtherType) :
    (Command.ovsOfctlDelEtherFlows bridge type).Removes := by
  cases type <;> exact removes_one rfl rfl

/-! ## §2. The helpers. -/

/-- The query reads, and the port is taken off. -/
theorem removesOnly_removeExistingInterfacePort (ovsEnabled : Bool) :
    RemovesOnly (removeExistingInterfacePort env req ovsEnabled) := by
  have hquery : RunsOnly Command.Removes (portQuery env req ovsEnabled) :=
    runsOnly_portQuery ovsEnabled (removes_ovsVsctlIfaceToBr _) (removes_cat _)
  exact (all_removeExistingInterfacePort ovsEnabled).2
    ⟨hquery, fun _ bridge _ _ => removes_detachCommand ovsEnabled bridge, trivial⟩

/-- Bridge flows of a removal are deleted. -/
theorem removesOnly_ovsSetupBridgeFlows (h : req.Asks .brRemove) :
    RemovesOnly (ovsSetupBridgeFlows conf req) := by
  refine all_ovsSetupBridgeFlows.2 ⟨fun _ => all_ovsSetupBrcmWifiFlows.2 ⟨fun _ type _ => ⟨?_, ?_⟩,
    trivial⟩, trivial⟩
  · exact removes_ovsOfctlDelEtherFlows _ type
  · exact fun hnot => absurd h hnot

/-- A removal does not come to the configuration of the parent bridge. -/
theorem removesOnly_ovsModifyParentBridge (h : req.Asks .brRemove) :
    RemovesOnly (ovsModifyParentBridge conf env req) :=
  all_ovsModifyParentBridge.2
    ⟨removesOnly_removeExistingInterfacePort _, fun _ hnot => absurd h hnot, trivial⟩

/-- A removal adds no flow. -/
theorem removesOnly_ovsSetupPortFlows (h : req.Asks .brRemove) :
    RemovesOnly (ovsSetupPortFlows conf env req) := by
  refine all_ovsSetupPortFlows.2 ⟨fun _ _ => ⟨?_, ?_⟩, fun _ => removesOnly_ovsSetupBridgeFlows h,
    trivial⟩
  · refine all_ovsSetupAdminGuiAccess.2 ⟨trivial, fun ip _ => (all_setupGuiFlows ip).2 ⟨?_, ?_, ?_⟩,
      trivial⟩
    · exact removes_ovsOfctlDelFlows _ _
    · exact removes_ovsOfctlDelFlows _ _
    · exact fun hnot => absurd h hnot
  · exact all_ovsBlockMsoUiAccess.2
      ⟨trivial, fun _ _ => ⟨removes_ovsOfctlDelFlows _ _, fun hnot => absurd h hnot⟩, trivial⟩

/-- With a parent bridge or without. -/
theorem removesOnly_modifyParentBridgeIfAny (h : req.Asks .brRemove) :
    RemovesOnly (modifyParentBridgeIfAny conf env req) :=
  all_modifyParentBridgeIfAny.2 fun _ => removesOnly_ovsModifyParentBridge h

/-! ## §3. Requests. -/

/-- A bridge removal does neither of the other commands. -/
theorem asks_of_brRemove (h : req.Asks .brRemove) :
    ¬ req.Asks .ifDelete ∧ ¬ req.Asks .ifUp ∧ ¬ req.Asks .ifDown :=
  ⟨fun h' => (by cases h.unique h'), fun h' => (by cases h.unique h'), fun h' => (by cases h.unique h')⟩

/-- The branches of a removal that add nothing: a deletion, a plain port, and a
VLAN or GRE interface whose fields are not filled in. -/
def GatewayConfig.OnlyRemoves (req : GatewayConfig) : Prop :=
  req.Asks .ifDelete ∨ req.isPort ∨ (req.IsType .vlan ∧ req.parentIfname = []) ∨
  (req.IsType .gre ∧ ¬ req.hasGre)

/-- Without a parent interface no vlan is added. -/
theorem removesOnly_ovsCreateVlan (h : req.Asks .brRemove) (hnil : req.parentIfname = []) :
    RemovesOnly (ovsCreateVlan conf env req) := by
  obtain ⟨hd, hu, hw⟩ := asks_of_brRemove h
  refine all_ovsCreateVlan.2 ⟨fun h' => absurd h' hd, fun _ => ⟨fun hne => absurd hnil hne, ?_, ?_⟩,
    trivial⟩
  · intro hor
    exact hor.elim (fun h' => absurd h' hu) fun h' => absurd h' hw
  · exact removesOnly_modifyParentBridgeIfAny h

/-- Without its addresses no tunnel is added. -/
theorem removesOnly_ovsCreateGRE (h : req.Asks .brRemove) (hgre : ¬ req.hasGre) :
    RemovesOnly (ovsCreateGRE conf env req) := by
  obtain ⟨hd, hu, hw⟩ := asks_of_brRemove h
  refine all_ovsCreateGRE.2 ⟨fun h' => absurd h' hd, fun _ => ⟨fun hg => absurd hg hgre, ?_, ?_⟩,
    trivial⟩
  · intro hor
    exact hor.elim (fun h' => absurd h' hu) fun h' => absurd h' hw
  · exact removesOnly_modifyParentBridgeIfAny h

/-- A removal does not come to the work-around of the switch. -/
theorem removesOnly_ovsAddPort (h : req.Asks .brRemove) : RemovesOnly (ovsAddPort conf env req) := by
  obtain ⟨hd, hu, hw⟩ := asks_of_brRemove h
  refine all_ovsAddPort.2 ⟨fun h' => absurd h' hd, fun _ => ⟨?_, fun _ => ⟨?_, ?_⟩⟩, trivial⟩
  · exact all_ethSwitch.2 fun hs => absurd hs.2.2 hu
  · intro hor
    exact hor.elim (fun h' => absurd h' hu) fun h' => absurd h' hw
  · exact all_addPortToParentBridge.2 fun _ =>
      ⟨removesOnly_ovsModifyParentBridge h, fun _ => removesOnly_ovsSetupPortFlows h⟩

/-- A deletion runs one command, whatever the type. -/
theorem removesOnly_of_ifDelete (h : req.Asks .ifDelete) :
    RemovesOnly (ovsActionGatewayConfig conf env req) := by
  have hdel := removes_ipLinkDel req.ifName
  rcases ovsActionGatewayConfig_cases conf env req with
      ⟨_, heq⟩ | ⟨_, heq⟩ | ⟨_, heq⟩ | ⟨_, heq⟩
  · rw [heq]
    exact all_ovsCreateBridge.2 ⟨fun _ => removes_ovsVsctlDelBr _, fun h' => absurd h h', trivial⟩
  · rw [heq]
    exact all_ovsCreateVlan.2 ⟨fun _ => hdel, fun h' => absurd h h', trivial⟩
  · rw [heq]
    exact all_ovsCreateGRE.2 ⟨fun _ => hdel, fun h' => absurd h h', trivial⟩
  · rw [heq]
    exact all_ovsAddPort.2 ⟨fun _ => hdel, fun h' => absurd h h', trivial⟩

/-- The formats of these branches take away only. -/
theorem removesOnly_of_onlyRemoves (h : req.Asks .brRemove ∨ req.Asks .ifDelete) (honly : req.OnlyRemoves) :
    RemovesOnly (ovsActionGatewayConfig conf env req) := by
  rcases h with h | h
  · have hd := (asks_of_brRemove h).1
    rcases ovsActionGatewayConfig_cases conf env req with
        ⟨ht, heq⟩ | ⟨ht, heq⟩ | ⟨ht, heq⟩ | ⟨_, heq⟩
    · rcases honly with h' | hp | ⟨hv, _⟩ | ⟨hg, _⟩
      · exact absurd h' hd
      · exact absurd ht hp.1
      · cases ht.unique hv
      · cases ht.unique hg
    · rw [heq]
      rcases honly with h' | hp | ⟨_, hnil⟩ | ⟨hg, _⟩
      · exact absurd h' hd
      · exact absurd ht hp.2.1
      · exact removesOnly_ovsCreateVlan h hnil
      · cases ht.unique hg
    · rw [heq]
      rcases honly with h' | hp | ⟨hv, _⟩ | ⟨_, hgre⟩
      · exact absurd h' hd
      · exact absurd ht hp.2.2
      · cases ht.unique hv
      · exact removesOnly_ovsCreateGRE h hgre
    · rw [heq]
      exact removesOnly_ovsAddPort h
  · exact removesOnly_of_ifDelete h

/-! ## §4. Commands that create, whatever their fields. -/

/-- A creating program at the front of the text is started. -/
theorem creates_of_front {c : Command} {s : String} {pieces : List Piece} {words : List CString}
    (htemplate : c.template = .text s :: pieces)
    (hfront : Shell.run Shell.start (ofString s) = some ⟨.unquoted, none, words, []⟩) (hne : words ≠ [])
    (hlen : (ofString s).length ≤ 249) (hcreates : ∀ more, programCreates (words ++ more) = true) :
    ¬ c.Starts AddsNothing := by
  intro h
  obtain ⟨more, hmore⟩ := Command.starts_front htemplate hfront hne hlen h
  exact absurd ((hcreates more).symm.trans hmore) (by decide)

/-- The first words of the text are the program's, whatever the name does behind them. -/
theorem ovsVsctlAddBr_creates (bridge : CString) : ¬ (Command.ovsVsctlAddBr bridge).Starts AddsNothing :=
  creates_of_front rfl rfl (by decide) (by decide) fun _ => rfl

/-- The same for a tunnel. -/
theorem ipLinkAddGretap_creates (ifname localAddr remoteAddr dev : CString) :
    ¬ (Command.ipLinkAddGretap ifname localAddr remoteAddr dev).Starts AddsNothing :=
  creates_of_front rfl rfl (by decide) (by decide) fun _ => rfl

/-- The same for a vlan, by either command. -/
theorem vlanCommand_creates (conf : OvsActionConfig) (req : GatewayConfig) :
    ¬ (vlanCommand conf req).Starts AddsNothing := by
  unfold vlanCommand
  split
  · exact creates_of_front rfl rfl (by decide) (by decide) fun _ => rfl
  · exact creates_of_front rfl rfl (by decide) (by decide) fun _ => rfl

/-- Every other branch of a removal creates, be the fields words or not. -/
theorem onlyRemoves_of_createsNothing (h : req.Asks .brRemove ∨ req.Asks .ifDelete)
    (hnothing : CreatesNothing (ovsActionGatewayConfig conf env req)) : req.OnlyRemoves := by
  rcases h with h | h
  · have hd := (asks_of_brRemove h).1
    rcases ovsActionGatewayConfig_cases conf env req with
        ⟨_, heq⟩ | ⟨ht, heq⟩ | ⟨ht, heq⟩ | ⟨ht, _⟩
    · rw [heq] at hnothing
      exact absurd ((all_ovsCreateBridge.1 hnothing).2.1 hd).1 (ovsVsctlAddBr_creates _)
    · rw [heq] at hnothing
      refine Or.inr (Or.inr (Or.inl ⟨ht, ?_⟩))
      by_contra hne
      exact vlanCommand_creates conf req (((all_ovsCreateVlan.1 hnothing).2.1 hd).1 hne)
    · rw [heq] at hnothing
      refine Or.inr (Or.inr (Or.inr ⟨ht, fun hgre => ?_⟩))
      exact ipLinkAddGretap_creates _ _ _ _ (((all_ovsCreateGRE.1 hnothing).2.1 hd).1 hgre)
    · exact Or.inr (Or.inl ht)
  · exact Or.inl h

/-- **Removals.**  A deletion or bridge removal that creates and attaches
nothing is a deletion, or is about a plain port, or about a VLAN or GRE
interface whose fields are not filled in.  With fields that are words, each of
these creates and attaches nothing. -/
theorem removal_creates_nothing_iff (conf : OvsActionConfig) (env : ActionEnv) {req : GatewayConfig}
    (hb : req.Bounded) (h : req.Asks .brRemove ∨ req.Asks .ifDelete) :
    (CreatesNothing (ovsActionGatewayConfig conf env req) → req.OnlyRemoves) ∧
      (WholeWords conf env req →
        (CreatesNothing (ovsActionGatewayConfig conf env req) ↔ req.OnlyRemoves)) := by
  refine ⟨onlyRemoves_of_createsNothing h,
    fun hw => ⟨onlyRemoves_of_createsNothing h, fun honly => ?_⟩⟩
  exact (startsOnly_iff_formats hb hw).2 (removesOnly_of_onlyRemoves h honly)

/-- A port to be taken off brlan0. -/
def portRemoval : GatewayConfig := simpleRequest .other .brRemove (ofString "ath0") brlan0EthName

/-- Its fields are short, -/
theorem bounded_portRemoval : portRemoval.Bounded := by
  constructor <;> decide

/-- and words. -/
theorem wholeWords_portRemoval : WholeWords ⟨.tg3482g, false⟩ quietEnv portRemoval := by
  have hword : IsWord portRemoval.ifName := by decide
  have hports : ¬ isEthSwitchPort ⟨.tg3482g, false⟩ portRemoval := by decide
  have hup : ¬ (portRemoval.Asks .ifUp ∨ portRemoval.Asks .ifDown) := by decide
  have hgui : ¬ portRemoval.isGuiPort := by decide
  have hquery : QueryWords quietEnv portRemoval := hword
  have hnone : quietEnv.existingBridge portRemoval.ovsEnabled = none := by decide
  refine ⟨fun hs => absurd hs hports,
    fun _ => ⟨fun hor => absurd hor hup, fun _ => ⟨⟨hquery, fun _ => ⟨?_, ?_⟩⟩, ?_⟩⟩⟩
  · intro bridge hbridge
    rw [hnone] at hbridge
    cases hbridge
  · exact fun hr => absurd rfl hr
  · exact fun _ hg => absurd hg hgui

/-- Removing a port. -/
theorem removal_creates_nothing_iff_port :
    CreatesNothing (ovsActionGatewayConfig ⟨.tg3482g, false⟩ quietEnv portRemoval) := by
  have h : portRemoval.Asks .brRemove := rfl
  exact ((removal_creates_nothing_iff _ _ bounded_portRemoval (Or.inl h)).2 wholeWords_portRemoval).2
    (Or.inr (Or.inl (by decide)))

/-- Removing a bridge creates it. -/
theorem bridge_removal_creates :
    ¬ CreatesNothing (ovsActionGatewayConfig ⟨.tg3482g, false⟩ quietEnv
      (simpleRequest .bridge .brRemove (ofString "br403") [])) := by
  intro h
  have hadd : ActionEvent.system (.ovsVsctlAddBr (ofString "br403"))
      ∈ (ovsActionGatewayConfig ⟨.tg3482g, false⟩ quietEnv
        (simpleRequest .bridge .brRemove (ofString "br403") [])).trace := by
    decide +kernel
  exact ovsVsctlAddBr_creates _ (h _ hadd)

/-- A name that is no word has a say: `ip link del a;brctl addbr b`. -/
example : ¬ (Command.ipLinkDel (ofString "a;brctl addbr b")).Starts AddsNothing := by
  have hread : Shell.read (Command.ipLinkDel (ofString "a;brctl addbr b")).render
      = some [[ofString "ip", ofString "link", ofString "del", ofString "a"],
        [ofString "brctl", ofString "addbr", ofString "b"]] := by
    decide +kernel
  intro h
  obtain ⟨commands, hcommands, hall⟩ := h
  cases hcommands.symm.trans hread
  cases hall [ofString "brctl", ofString "addbr", ofString "b"] (by simp)

end OvsAgent
