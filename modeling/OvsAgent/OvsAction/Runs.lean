/-
  OvsAgent.OvsAction.Runs — laws of the commands a request runs.

  `RunsOnly P` says that every command handed to `system` or `popen` satisfies
  `P`.  Two parts of a request run the same commands whatever `P` is asked of
  them: the query for a port's bridge, and the Puma7 work-around, in which only
  the bridges that OVS reports vary.

  Main result: `runsOnly_ethSwitch_iff`.
-/
import OvsAgent.OvsAction.Events

namespace OvsAgent

open CString (ofString)
open Traced

variable {conf : OvsActionConfig} {env : ActionEnv} {req : GatewayConfig}

/-! ## §1. Commands among the events. -/

/-- The event runs no command that fails `P`. -/
def ActionEvent.Runs (P : Command → Prop) : ActionEvent → Prop
  | .system cmd => P cmd
  | .popen cmd _ => P cmd
  | _ => True

/-- Every command of the computation satisfies `P`. -/
def RunsOnly {α : Type} (P : Command → Prop) (p : Action α) : Prop := p.All (ActionEvent.Runs P)

section Runs

variable {P : Command → Prop}

@[simp] theorem runs_system (cmd : Command) : ActionEvent.Runs P (.system cmd) ↔ P cmd := Iff.rfl
@[simp] theorem runs_popen (cmd : Command) (output : Option CString) :
    ActionEvent.Runs P (.popen cmd output) ↔ P cmd := Iff.rfl
@[simp] theorem runs_access (path : CString) (found : Bool) :
    ActionEvent.Runs P (.access path found) ↔ True := Iff.rfl
@[simp] theorem runs_syscfgGet (value : Option CString) :
    ActionEvent.Runs P (.syscfgGet value) ↔ True := Iff.rfl
@[simp] theorem runs_getParamValues (value : Option CString) :
    ActionEvent.Runs P (.getParamValues value) ↔ True := Iff.rfl
@[simp] theorem runs_returned (helper : Helper) (status : OvsStatus) :
    ActionEvent.Runs P (.returned helper status) ↔ True := Iff.rfl

end Runs

/-- Two laws that agree on every command of the computation. -/
theorem RunsOnly.congr {α : Type} {P Q R : Command → Prop} {p : Action α} (h : RunsOnly R p)
    (hR : ∀ cmd, R cmd → (P cmd ↔ Q cmd)) : RunsOnly P p ↔ RunsOnly Q p := by
  refine forall_congr' fun event => forall_congr' fun hmem => ?_
  have hevent := h event hmem
  cases event with
  | system cmd => exact hR cmd hevent
  | popen cmd output => exact hR cmd hevent
  | _ => exact Iff.rfl

/-- The query runs one of two commands, if any. -/
theorem runsOnly_portQuery {P : Command → Prop} (ovsEnabled : Bool)
    (hovs : P (.ovsVsctlIfaceToBr req.ifName)) (hlinux : P (.cat (brportPath req.ifName))) :
    RunsOnly P (portQuery env req ovsEnabled) := by
  unfold portQuery
  cases ovsEnabled with
  | true => exact (all_getExistingOvsParentBridge _ _).2 ⟨hovs, trivial⟩
  | false => exact (all_getExistingLinuxParentBridge _ _ _).2 ⟨trivial, fun _ => hlinux, trivial⟩

/-! ## §2. The work-around for the Puma7 switch. -/

/-- The other port is one of the two as well. -/
theorem otherEthPort_mem (ifName : CString) :
    otherEthPort ifName = puma7Eth1Name ∨ otherEthPort ifName = puma7Eth2Name := by
  unfold otherEthPort
  split
  · exact Or.inr rfl
  · exact Or.inl rfl

/-- One of the two Puma7 ports. -/
def IsEthPort (ifName : CString) : Prop := ifName = puma7Eth1Name ∨ ifName = puma7Eth2Name

/-- The commands of the work-around that are the same whatever the answers. -/
def switchFixedCommands : List Command :=
  [.ovsVsctlIfaceToBr puma7Eth1Name, .ovsVsctlIfaceToBr puma7Eth2Name, .vlanUtilAddGroup (ofString "100"),
    .vlanUtilAddGroup (ofString "101"), .vlanUtilAddInterface (ofString "100") puma7Port1Name,
    .vlanUtilAddInterface (ofString "100") puma7Port2Name,
    .vlanUtilAddInterface (ofString "101") puma7Port2Name,
    .brctlDelifDummy (ofString "100") puma7Eth1Name, .brctlDelifDummy (ofString "101") puma7Eth2Name,
    .brctlDelbrDummy (ofString "100"), .brctlDelbrDummy (ofString "101"), .ipLinkAddEthBhaul,
    .ifconfigUpDown ethBhaulIfName true, .ovsVsctlAddPort ethBhaulBrName ethBhaulIfName]

/-- The bridges that OVS reports for the two ports. -/
def ActionEnv.ReportsBridge (env : ActionEnv) (bridge : CString) : Prop :=
  env.restoreBridge = some bridge ∨ env.ethIfaceToBr.bind ovsParentBridge = some bridge

section Switch

variable {P : Command → Prop} {Q : CString → Prop} (hfixed : ∀ cmd ∈ switchFixedCommands, P cmd)
  (hbridge : ∀ bridge, env.ReportsBridge bridge → ∀ port, IsEthPort port →
    (P (.ovsVsctlDelPort bridge port) ↔ Q bridge) ∧ (P (.ovsVsctlAddPort bridge port) ↔ Q bridge))
include hfixed

/-- The query is a command about one of the two ports. -/
theorem runsOnly_getExistingOvsParentBridge {ifName : CString} (h : IsEthPort ifName)
    (answer : Option CString) :
    RunsOnly P (getExistingOvsParentBridge ifName answer) := by
  refine (all_getExistingOvsParentBridge ifName answer).2 ⟨hfixed _ ?_, trivial⟩
  rcases h with rfl | rfl
  · decide
  · decide

/-- The backhaul's commands are fixed. -/
theorem runsOnly_restoreEthBhaul (found : Bool) : RunsOnly P (restoreEthBhaul found) :=
  (all_restoreEthBhaul found).2 fun _ => ⟨hfixed _ (by decide), hfixed _ (by decide),
    hfixed _ (by decide)⟩

include hbridge

/-- What is left to the answers are the bridges of the two ports. -/
theorem runsOnly_switchCommands_iff {ifName : CString} (h : IsEthPort ifName) :
    RunsOnly P (switchCommands env ifName (otherEthPort ifName) env.restoreBridge)
      ↔ ∀ restoreBridge, env.restoreBridge = some restoreBridge → Q restoreBridge ∧
        ∀ bridge, env.ethIfaceToBr.bind ovsParentBridge = some bridge → Q bridge := by
  have hother : IsEthPort (otherEthPort ifName) := otherEthPort_mem ifName
  have hown : P (.vlanUtilAddGroup (vlanOf ifName)) ∧
      P (.vlanUtilAddInterface (vlanOf ifName) puma7Port2Name) ∧
      P (.brctlDelifDummy (vlanOf ifName) ifName) ∧ P (.brctlDelbrDummy (vlanOf ifName)) ∧
      P (.brctlDelifDummy (vlanOf (otherEthPort ifName)) (otherEthPort ifName)) := by
    rcases h with rfl | rfl
    · exact ⟨hfixed _ (by decide), hfixed _ (by decide), hfixed _ (by decide), hfixed _ (by decide),
        hfixed _ (by decide)⟩
    · exact ⟨hfixed _ (by decide), hfixed _ (by decide), hfixed _ (by decide), hfixed _ (by decide),
        hfixed _ (by decide)⟩
  obtain ⟨hgroup, hinterface, hdelif, hdelbr, hdelifOther⟩ := hown
  unfold RunsOnly
  cases hrb : env.restoreBridge with
  | none =>
      refine iff_of_true ?_ fun _ h => (by cases h)
      refine (all_setupEthSwitchCmds ifName).2 ⟨hgroup, fun heq => ?_, hinterface, hdelif, hdelbr,
        trivial, trivial⟩
      rw [heq]
      exact hfixed _ (by decide)
  | some restoreBridge =>
      have hreported := hbridge restoreBridge (Or.inl hrb) _ hother
      show (setupAndRestoreEthSwitchCmds env ifName (otherEthPort ifName) restoreBridge).All _ ↔ _
      rw [all_setupAndRestoreEthSwitchCmds]
      constructor
      · intro ⟨hdel, _, hrest, _⟩ _ heq
        cases heq
        refine ⟨hreported.1.1 hdel, fun bridge hb => ?_⟩
        obtain ⟨output, hout, _⟩ := Option.bind_eq_some_iff.1 hb
        -- a bridge was read, so the query did not fail and the rest runs
        have hsome : env.ethIfaceToBr.isSome := by rw [hout]; rfl
        exact (hbridge bridge (Or.inr hb) ifName h).1.1 ((hrest hsome).1 bridge hb)
      · intro hall
        obtain ⟨hq, hb⟩ := hall restoreBridge rfl
        refine ⟨hreported.1.2 hq, runsOnly_getExistingOvsParentBridge hfixed h _, fun _ => ?_, trivial⟩
        exact ⟨fun bridge hbr => (hbridge bridge (Or.inr hbr) ifName h).1.2 (hb bridge hbr),
          hfixed _ (by decide), hfixed _ (by decide), hfixed _ (by decide), hfixed _ (by decide),
          hdelif, hdelifOther, hfixed _ (by decide), hfixed _ (by decide), hreported.2.2 hq,
          trivial, trivial⟩

/-- **The commands of the work-around**: fixed ones, and those of the bridges that OVS reported. -/
theorem runsOnly_ethSwitch_iff :
    RunsOnly P (ethSwitch conf env req)
      ↔ (isEthSwitchPort conf req →
        ∀ restoreBridge, env.restoreBridge = some restoreBridge → Q restoreBridge ∧
          ∀ bridge, env.ethIfaceToBr.bind ovsParentBridge = some bridge → Q bridge) := by
  unfold RunsOnly
  rw [all_ethSwitch]
  refine forall_congr' fun hs => ?_
  have hport : IsEthPort req.ifName := hs.2.1
  have hcommands := runsOnly_switchCommands_iff hfixed hbridge hport
  unfold RunsOnly at hcommands
  rw [all_ovsSetupEthSwitch hs.2.1, all_setupEthSwitchPort, hcommands]
  constructor
  · intro ⟨_, ⟨_, hrest⟩, _⟩ restoreBridge hrb
    refine (hrest ?_).2.1 restoreBridge hrb
    unfold ActionEnv.restoreBridge at hrb
    split at hrb
    · obtain ⟨output, hout, _⟩ := Option.bind_eq_some_iff.1 hrb
      rw [hout]; rfl
    · cases hrb
  · intro hsw
    exact ⟨trivial, ⟨runsOnly_getExistingOvsParentBridge hfixed (otherEthPort_mem _) _,
      fun _ => ⟨trivial, hsw, runsOnly_restoreEthBhaul hfixed _⟩⟩, trivial⟩

end Switch

end OvsAgent
