/-
  OvsAgent.OvsAction.SwitchPorts — the other port of the Puma7 switch.

  Bringing up one of the two ports takes the other one off its bridge, sends
  both through dummy Linux bridges, and attaches the other one again at the
  end.  Between the first step and the last there is a query that may fail,
  and then the function returns.

  Main result: `sibling_kept_iff` — the other port is on the OVS bridge it was
  on exactly when that query does not fail after the port was taken off.
-/
import OvsAgent.OvsAction.Placement

namespace OvsAgent

open CString (ofString)
open Traced

variable {conf : OvsActionConfig} {env : ActionEnv} {req : GatewayConfig} {v : VlanUtil} {w : Membership}
  {port ifName : CString}

/-! ## §1. Commands that leave a port on its bridge. -/

/-- What the bridges of a machine are like: they have names, ports are on
bridges that are there, and on one technology at most. -/
structure Membership.Coherent (w : Membership) : Prop where
  named : w.Named
  onBridges : ∀ tool port bridge, w.bridgeOf tool port = some bridge → bridge ∈ w.bridges tool
  single : ∀ port, w.bridgeOf .ovs port = none ∨ w.bridgeOf .linux port = none

/-- The port is on the OVS bridge it was on, whatever the state. -/
def Command.KeepsOvs (v : VlanUtil) (port : CString) (cmd : Command) : Prop :=
  ∀ w, (cmd.act v w).bridgeOf .ovs port = w.bridgeOf .ovs port

/-- A run of such commands leaves the port on its OVS bridge. -/
theorem behind_keepsOvs {α : Type} {p : Action α} (h : RunsOnly (Command.KeepsOvs v port) p)
    (w : Membership) :
    (w.behind v p).bridgeOf .ovs port = w.bridgeOf .ovs port := by
  have hall : ∀ es : List ActionEvent, (∀ e ∈ es, e.Runs (Command.KeepsOvs v port)) → ∀ w,
      (after (ActionEvent.act v) w es).bridgeOf .ovs port = w.bridgeOf .ovs port := by
    intro es
    induction es with
    | nil => intro _ w; rfl
    | cons e es ih =>
        intro hes w
        have hrun := hes e (List.mem_cons_self ..)
        rw [after_cons, ih fun e' he' => hes e' (List.mem_cons_of_mem _ he')]
        cases e with
        | system cmd => exact hrun w
        | _ => rfl
  exact hall p.trace h w

/-- Commands without effect on the membership do. -/
theorem keepsOvs_of_inert {α : Type} {p : Action α} (h : RunsOnly (Command.Inert v) p) :
    RunsOnly (Command.KeepsOvs v port) p := by
  intro e he
  have hinert := h e he
  cases e with
  | system cmd => exact fun w => by rw [hinert w]
  | popen cmd output => exact fun w => by rw [hinert w]
  | _ => trivial

/-- A new group joins Linux interfaces only. -/
theorem keepsOvs_addGroup (vlan : CString) : (Command.vlanUtilAddGroup vlan).KeepsOvs v port :=
  fun w => (v.addGroup_joins vlan w).ovs port

/-- So does a new interface. -/
theorem keepsOvs_addInterface (vlan p : CString) : (Command.vlanUtilAddInterface vlan p).KeepsOvs v port :=
  fun w => (v.addInterface_joins vlan p w).ovs port

theorem keepsOvs_delifDummy (vlan p : CString) : (Command.brctlDelifDummy vlan p).KeepsOvs v port :=
  fun _ => Membership.detach_otherTool (by decide)

theorem keepsOvs_delbrDummy (vlan : CString) : (Command.brctlDelbrDummy vlan).KeepsOvs v port :=
  fun _ => remove_ovs _ port

/-- Attaching another port. -/
theorem keepsOvs_addPort {p : CString} (h : port ≠ p) (bridge : CString) :
    (Command.ovsVsctlAddPort bridge p).KeepsOvs v port :=
  fun _ => Membership.attach_other h

/-- The commands without a sibling to restore. -/
theorem keepsOvs_setupEthSwitchCmds (ifName : CString) :
    RunsOnly (Command.KeepsOvs v port) (setupEthSwitchCmds env ifName) :=
  (all_setupEthSwitchCmds ifName).2 ⟨keepsOvs_addGroup _, fun _ => keepsOvs_addInterface _ _,
    keepsOvs_addInterface _ _, keepsOvs_delifDummy _ _, keepsOvs_delbrDummy _, trivial, trivial⟩

/-- The backhaul interface is another port. -/
theorem keepsOvs_restoreEthBhaul (h : port ≠ ethBhaulIfName) (found : Bool) :
    RunsOnly (Command.KeepsOvs v port) (restoreEthBhaul found) :=
  (all_restoreEthBhaul found).2 fun _ => ⟨fun _ => rfl, fun _ => rfl, keepsOvs_addPort h _⟩

/-- The parent bridge is modified for the port of the request. -/
theorem keepsOvs_ovsModifyParentBridge (h : port ≠ req.ifName) :
    RunsOnly (Command.KeepsOvs v port) (ovsModifyParentBridge conf env req) := by
  have hdetach : ∀ bridge, (detachCommand req req.ovsEnabled bridge).KeepsOvs v port := by
    intro bridge w
    rw [act_detachCommand]
    exact Membership.detach_other h
  have hattach : (attachCommand req req.ovsEnabled).KeepsOvs v port := by
    intro w
    rw [act_attachCommand]
    exact Membership.attach_other h
  have hcreate : (createCommand req req.ovsEnabled).KeepsOvs v port := by
    intro w
    rw [act_createCommand]
    rfl
  have hlist : (listCommand req req.ovsEnabled).KeepsOvs v port := by
    intro w
    unfold listCommand
    split <;> rfl
  have hquery : RunsOnly (Command.KeepsOvs v port) (portQuery env req req.ovsEnabled) :=
    runsOnly_portQuery _ (fun _ => rfl) (fun _ => rfl)
  refine all_ovsModifyParentBridge.2 ⟨?_, fun _ _ => ⟨?_, fun _ => ?_⟩, trivial⟩
  · exact (all_removeExistingInterfacePort _).2 ⟨hquery, fun _ bridge _ _ => hdetach bridge, trivial⟩
  · exact (all_configureParentBridge _).2 ⟨trivial, fun _ => hcreate, fun _ _ => rfl, hattach,
      hlist, trivial⟩
  · exact keepsOvs_of_inert inert_ovsSetupBridgeFlows

/-- What `ovs_addPort` does behind the work-around is about the port of the request. -/
theorem behind_ovsAddPort_keepsOvs (hup : req.Asks .ifUp) (h : port ≠ req.ifName) (w : Membership) :
    (w.behind v (ovsAddPort conf env req)).bridgeOf .ovs port
      = (w.behind v (ethSwitch conf env req)).bridgeOf .ovs port := by
  have hd : ¬ req.Asks .ifDelete := fun hd => by cases hup.unique hd
  have hrest : RunsOnly (Command.KeepsOvs v port)
      (ifconfigUpDown req req.ifName >>= fun _ => addPortToParentBridge conf env req) := by
    refine (all_bind _ _).2 ⟨keepsOvs_of_inert (inert_ifconfigUpDown _), ?_⟩
    refine all_addPortToParentBridge.2 fun _ => ⟨keepsOvs_ovsModifyParentBridge h, fun _ => ?_⟩
    exact keepsOvs_of_inert inert_ovsSetupPortFlows
  unfold ovsAddPort
  rw [behind_returning, if_neg hd, behind_bind]
  split
  · rfl
  · exact behind_keepsOvs hrest _

/-! ## §2. The work-around. -/

/-- Taking a port off its bridge leaves the others on theirs. -/
theorem offOvs_other {tool : Tool} (h : port ≠ ifName) :
    (w.offOvs ifName).bridgeOf tool port = w.bridgeOf tool port := by
  unfold Membership.offOvs
  split
  · exact Membership.detach_other h
  · rfl

/-- The work-around restores the other port. -/
theorem behind_restore_keepsOvs (hw : w.Coherent) (hport : IsEthPort ifName) {restoreBridge : CString}
    (hb : w.bridgeOf .ovs (otherEthPort ifName) = some restoreBridge) (hsome : env.ethIfaceToBr.isSome)
    (h : Answered v (setupAndRestoreEthSwitchCmds env ifName (otherEthPort ifName) restoreBridge) w) :
    (w.behind v (setupAndRestoreEthSwitchCmds env ifName (otherEthPort ifName) restoreBridge)).bridgeOf .ovs
      (otherEthPort ifName) = some restoreBridge := by
  have hne := otherEthPort_ne hport
  rw [behind_setupAndRestoreEthSwitchCmds hne (hw.named .ovs ifName) hsome h]
  obtain ⟨hsettles, hoff⟩ := settles_throughDummies (v := v) hport (otherEthPort ifName)
    ((w.detach .ovs restoreBridge (otherEthPort ifName)).offOvs ifName)
  -- taken off its bridge, the port is on none
  have hovs : ((w.detach .ovs restoreBridge (otherEthPort ifName)).offOvs ifName).bridgeOf .ovs
      (otherEthPort ifName)
      = none := by
    rw [offOvs_other (Ne.symm hne), Membership.detach_self, if_pos hb]
  have hlinux : ((w.detach .ovs restoreBridge (otherEthPort ifName)).offOvs ifName).bridgeOf .linux
      (otherEthPort ifName) = none := by
    rw [offOvs_other (Ne.symm hne), Membership.detach_otherTool (by decide)]
    exact (hw.single _).resolve_left (by rw [hb]; nofun)
  have hmem : restoreBridge ∈
      (((w.detach .ovs restoreBridge (otherEthPort ifName)).offOvs ifName).throughDummies v
      ifName (otherEthPort ifName)).bridges .ovs := by
    rw [hsettles.ovsBridges, offOvs_bridges, Membership.detach_bridges]
    exact hw.onBridges _ _ _ hb
  have hfree : (((w.detach .ovs restoreBridge (otherEthPort ifName)).offOvs ifName).throughDummies v ifName
      (otherEthPort ifName)).Free (otherEthPort ifName) := by
    refine ⟨hsettles.ovs.trans hovs, ?_⟩
    rw [hsettles.linux_eq hoff, hlinux]
    rfl
  rw [Membership.attach_of_free hmem hfree .ovs, if_pos rfl]

/-- A failed query ends the work-around with the other port taken off. -/
theorem behind_restore_failed (hnone : env.ethIfaceToBr = none) (restoreIfName restoreBridge : CString) :
    w.behind v (setupAndRestoreEthSwitchCmds env ifName restoreIfName restoreBridge)
      = w.detach .ovs restoreBridge restoreIfName := by
  unfold setupAndRestoreEthSwitchCmds
  rw [behind_returning, behind_bind, behind_bind, behind_getExistingOvsParentBridge,
    getExistingOvsParentBridge_value,
    hnone]
  rfl

/-- A failed query for the other port ends the work-around at once. -/
theorem behind_ethSwitch_unanswered (hs : isEthSwitchPort conf req) (hnone : env.restoreIfaceToBr = none) :
    w.behind v (ethSwitch conf env req) = w := by
  unfold ethSwitch
  rw [if_pos hs, ovsSetupEthSwitch_eq hs.2.1, behind_returning, behind_bind, behind_access]
  unfold setupEthSwitchPort
  rw [behind_bind, behind_getExistingOvsParentBridge, getExistingOvsParentBridge_value, hnone]
  rfl

/-- The query that comes when the other port is off its bridge. -/
def LosesSibling (env : ActionEnv) (ifName : CString) (w : Membership) : Prop :=
  env.restoreIfaceToBr.isSome ∧ w.Restores env ifName ∧ env.ethIfaceToBr = none

instance : Decidable (LosesSibling env ifName w) := inferInstanceAs (Decidable (_ ∧ _))

/-- The work-around keeps its sibling unless the second query fails behind the sibling's removal. -/
theorem ethSwitch_sibling_iff (hw : w.Coherent) (hs : isEthSwitchPort conf req)
    (h : Answered v (ethSwitch conf env req) w) :
    (w.behind v (ethSwitch conf env req)).bridgeOf .ovs (otherEthPort req.ifName)
        = w.bridgeOf .ovs (otherEthPort req.ifName)
      ↔ ¬ LosesSibling env req.ifName w := by
  have hport : IsEthPort req.ifName := hs.2.1
  have hbhaul : otherEthPort req.ifName ≠ ethBhaulIfName := by
    rcases otherEthPort_mem req.ifName with heq | heq
    · rw [heq]; decide
    · rw [heq]; decide
  by_cases hquery : env.restoreIfaceToBr.isSome
  · obtain ⟨hrestore, hcommands, hbehind⟩ := ethSwitch_commands hw.named hs hquery h
    rw [hbehind, behind_keepsOvs (keepsOvs_restoreEthBhaul hbhaul _)]
    cases hb : env.restoreBridge with
    | none =>
        -- the other port is not there, or on no bridge
        refine iff_of_true (behind_keepsOvs (keepsOvs_setupEthSwitchCmds _) w)
          fun ⟨_, ⟨hpath, hne⟩, _⟩ => ?_
        rw [hb, if_pos hpath] at hrestore
        exact hne hrestore.symm
    | some restoreBridge =>
        rw [hb] at hrestore hcommands
        have hpath : env.restorePath = true := by
          by_contra hnot
          rw [if_neg hnot] at hrestore
          cases hrestore
        rw [if_pos hpath] at hrestore
        have hrestores : w.Restores env req.ifName := ⟨hpath, by rw [← hrestore]; nofun⟩
        rw [← hrestore]
        cases hown : env.ethIfaceToBr with
        | none =>
            refine iff_of_false ?_ (not_not.2 ⟨hquery, hrestores, hown⟩)
            show ¬ (w.behind v (setupAndRestoreEthSwitchCmds _ _ _ _)).bridgeOf .ovs _ = _
            rw [behind_restore_failed hown, Membership.detach_self, if_pos hrestore.symm]
            nofun
        | some output =>
            have hsome : env.ethIfaceToBr.isSome := by rw [hown]; rfl
            refine iff_of_true (behind_restore_keepsOvs hw hport hrestore.symm hsome hcommands) ?_
            intro ⟨_, _, hnone⟩
            rw [hown] at hnone
            cases hnone
  · have hnone : env.restoreIfaceToBr = none := Option.not_isSome_iff_eq_none.1 hquery
    rw [behind_ethSwitch_unanswered hs hnone]
    exact iff_of_true rfl fun hloses => hquery hloses.1

/-! ## §3. Requests. -/

/-- The port nsgmii1.100 on brlan0, and the request for the other one. -/
def siblingOnBrlan0 : Membership := oneMember .ovs brlan0EthName puma7Eth1Name

/-- The second port, brought up on brlan1. -/
def eth2Request : GatewayConfig := simpleRequest .other .ifUp puma7Eth2Name (ofString "brlan1")

/-- The first query is answered, the second as given. -/
def siblingEnv (ethIfaceToBr : Option CString) : ActionEnv :=
  { quietEnv with
    restoreIfaceToBr := some (ifaceToBr (some brlan0EthName)), restorePath := true,
    ethIfaceToBr := ethIfaceToBr }

/-- The sibling is on a bridge that exists. -/
theorem siblingOnBrlan0_coherent : siblingOnBrlan0.Coherent where
  named := oneMember_named (by unfold IsDeviceName; decide +kernel) _
  onBridges := by
    intro tool port bridge hb
    unfold siblingOnBrlan0 oneMember at hb ⊢
    dsimp only at hb ⊢
    split at hb
    · next h =>
        cases hb
        rw [if_pos h.1]
        exact List.mem_singleton_self _
    · cases hb
  single := by
    intro port
    have hlinux : siblingOnBrlan0.bridgeOf .linux port = none := by
      show (if Tool.linux = Tool.ovs ∧ port = puma7Eth1Name then some brlan0EthName else none) = none
      exact if_neg fun h => by cases h.1
    exact Or.inr hlinux

end OvsAgent
