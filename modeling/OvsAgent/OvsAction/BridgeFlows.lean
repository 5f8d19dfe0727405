/-
  OvsAgent.OvsAction.BridgeFlows — the flows of a bridge that is made.

  Two functions of ovs_action.c make OVS bridges: `configureParentBridge` the
  one named in `parent_bridge`, `ovs_createBridge` the one named in `if_name`.
  Both then call `ovs_setup_bridge_flows`, which knows `parent_bridge` only.

  Main result: `new_bridge_flows_iff` — a bridge that a request has made gets
  its flows exactly when the request is no bridge request, or one that names
  the bridge in both fields and does not remove it.
-/
import OvsAgent.OvsAction.Runs

namespace OvsAgent

open CString (ofString)
open Traced

/-! ## §1. Bridges and flows. -/

/-- The OVS bridges there are, and the ether types each has a flow for. -/
structure FlowTables where
  bridges : CString → Bool
  flows : CString → EtherType → Bool
  onBridges : ∀ {bridge type}, flows bridge type = true → bridges bridge = true

namespace FlowTables

/-- `ovs-vsctl add-br`. -/
def addBr (bridge : CString) (w : FlowTables) : FlowTables where
  bridges b := b == bridge || w.bridges b
  flows := w.flows
  onBridges h := by rw [w.onBridges h, Bool.or_true]

/-- `ovs-vsctl del-br`: the flows go with the bridge. -/
def delBr (bridge : CString) (w : FlowTables) : FlowTables where
  bridges b := b != bridge && w.bridges b
  flows b type := b != bridge && w.flows b type
  onBridges h := by
    rw [Bool.and_eq_true] at h ⊢
    exact ⟨h.1, w.onBridges h.2⟩

/-- `ovs-ofctl add-flow`, which fails on a bridge that is not there. -/
def addFlow (bridge : CString) (type : EtherType) (w : FlowTables) : FlowTables where
  bridges := w.bridges
  flows b t := (b == bridge && t == type && w.bridges bridge) || w.flows b t
  onBridges h := by
    rw [Bool.or_eq_true, Bool.and_eq_true, Bool.and_eq_true, beq_iff_eq] at h
    rcases h with ⟨⟨rfl, _⟩, hb⟩ | h
    · exact hb
    · exact w.onBridges h

/-- `ovs-ofctl --strict del-flows`. -/
def delFlow (bridge : CString) (type : EtherType) (w : FlowTables) : FlowTables where
  bridges := w.bridges
  flows b t := !(b == bridge && t == type) && w.flows b t
  onBridges h := by
    rw [Bool.and_eq_true] at h
    exact w.onBridges h.2

end FlowTables

/-- The state behind a command. -/
def Command.flowAct : Command → FlowTables → FlowTables
  | .ovsVsctlAddBr bridge, w => w.addBr bridge
  | .ovsVsctlDelBr bridge, w => w.delBr bridge
  | .ovsOfctlAddEtherFlow bridge type, w => w.addFlow bridge type
  | .ovsOfctlDelEtherFlows bridge type, w => w.delFlow bridge type
  | _, w => w

/-- Only commands change flow tables. -/
def ActionEvent.flowAct : ActionEvent → FlowTables → FlowTables
  | .system cmd, w => cmd.flowAct w
  | _, w => w

/-- The state behind a computation. -/
def FlowTables.behind {α : Type} (w : FlowTables) (p : Action α) : FlowTables :=
  exec ActionEvent.flowAct p w

/-- The command is about no bridge and no ether flow. -/
def Command.NoFlow (cmd : Command) : Prop := ∀ w, cmd.flowAct w = w

namespace FlowTables

variable {w : FlowTables}

@[simp] theorem behind_pure {α : Type} (a : α) : w.behind (pure a) = w := rfl
@[simp] theorem behind_system (cmd : Command) : w.behind (system cmd) = cmd.flowAct w := rfl
@[simp] theorem behind_access (path : CString) (found : Bool) : w.behind (access path found) = w := rfl
@[simp] theorem behind_popen (cmd : Command) (output : Option CString) : w.behind (popen cmd output) = w :=
  rfl

/-- The second computation runs on the tables the first one leaves. -/
@[simp] theorem behind_bind {α β : Type} (p : Action α) (f : α → Action β) :
    w.behind (p >>= f) = (w.behind p).behind (f p.value) := exec_bind ..

theorem behind_when {c : Prop} [Decidable c] (p : Action Unit) :
    w.behind (when c p) = if c then w.behind p else w :=
  exec_when ..

/-- A helper's frame leaves the tables to its body. -/
@[simp] theorem behind_returning (h : Helper) (body : Action OvsStatus) :
    w.behind (returning h body) = w.behind body := by
  unfold returning
  rw [behind_bind, behind_bind]
  rfl

@[simp] theorem behind_returningWith {α : Type} (h : Helper) (body : Action (OvsStatus × α)) :
    w.behind (returningWith h body) = w.behind body := by
  unfold returningWith
  rw [behind_bind, behind_bind]
  rfl

/-- Commands that are about no flow or OVS bridge leave the tables. -/
theorem behind_noFlow {α : Type} {p : Action α} (h : RunsOnly Command.NoFlow p) : w.behind p = w := by
  refine exec_eq_self _ (fun e he w => ?_) w
  have hrun := h e he
  cases e with
  | system cmd => exact hrun w
  | _ => rfl

end FlowTables

variable {conf : OvsActionConfig} {env : ActionEnv} {req : GatewayConfig}

/-! ## §2. The flow helper. -/

/-- The bridge has a flow for every ether type that applies to the model and the setting. -/
def HasFlows (conf : OvsActionConfig) (bridge : CString) (w : FlowTables) : Prop :=
  ∀ type, ¬ conf.skips type → w.flows bridge type = true

/-- Flows make no bridge. -/
theorem tables_setupEtherFlows_bridges (types : List EtherType) : ∀ w : FlowTables,
    (w.behind (setupEtherFlows conf req types)).bridges = w.bridges := by
  induction types with
  | nil => intro w; rfl
  | cons type types ih =>
      intro w
      unfold setupEtherFlows
      rw [FlowTables.behind_bind, ih, FlowTables.behind_when]
      split
      · rw [FlowTables.behind_bind, FlowTables.behind_when]
        split <;> rfl
      · rfl

/-- Other bridges keep the flows they have. -/
theorem tables_setupEtherFlows_other {bridge : CString} (h : bridge ≠ req.parentBridge)
    (types : List EtherType) :
    ∀ w : FlowTables, (w.behind (setupEtherFlows conf req types)).flows bridge = w.flows bridge := by
  have hne : (bridge == req.parentBridge) = false := beq_eq_false_iff_ne.2 h
  induction types with
  | nil => intro w; rfl
  | cons type types ih =>
      intro w
      have hdel : (w.delFlow req.parentBridge type).flows bridge = w.flows bridge := by
        funext t
        simp [FlowTables.delFlow, hne]
      unfold setupEtherFlows
      rw [FlowTables.behind_bind, ih, FlowTables.behind_when]
      split
      · rw [FlowTables.behind_bind, FlowTables.behind_when]
        split
        · funext t
          simp only [FlowTables.behind_system, Command.flowAct, FlowTables.addFlow, hne, Bool.false_and,
            Bool.false_or,
            hdel]
        · exact hdel
      · rfl

/-- The parent bridge gets what it does not have. -/
theorem tables_setupEtherFlows_adds (hr : ¬ req.Asks .brRemove) {type : EtherType} (types : List EtherType) :
    ∀ w : FlowTables, w.bridges req.parentBridge = true →
      w.flows req.parentBridge type = true ∨ (type ∈ types ∧ ¬ conf.skips type) →
      (w.behind (setupEtherFlows conf req types)).flows req.parentBridge type = true := by
  induction types with
  | nil =>
      intro w _ h
      exact h.resolve_right fun h => by cases h.1
  | cons t types ih =>
      intro w hb h
      unfold setupEtherFlows
      rw [FlowTables.behind_bind]
      by_cases hskip : conf.skips t
      · rw [FlowTables.behind_when, if_neg (not_not.2 hskip)]
        refine ih w hb (h.imp_right ?_)
        rintro ⟨hmem, hnot⟩
        exact ⟨(List.mem_cons.1 hmem).resolve_left fun heq => hnot (heq ▸ hskip), hnot⟩
      · -- the flow is deleted and added again
        rw [FlowTables.behind_when, if_pos hskip, FlowTables.behind_bind, FlowTables.behind_when, if_pos hr]
        refine ih _ hb ?_
        by_cases ht : type = t
        · left
          show ((_ == _ && type == t && w.bridges _) || _) = true
          rw [beq_self_eq_true, hb, ht, beq_self_eq_true]
          rfl
        · refine h.imp (fun hflow => ?_) (And.imp_left fun hmem => (List.mem_cons.1 hmem).resolve_left ht)
          show (_ || (!(_ && type == t) && w.flows _ _)) = true
          rw [hflow, beq_eq_false_iff_ne.2 ht, Bool.and_false]
          simp

/-- A removal adds nothing. -/
theorem tables_setupEtherFlows_removes (hr : req.Asks .brRemove) {bridge : CString} {type : EtherType}
    (types : List EtherType) : ∀ w : FlowTables, w.flows bridge type = false →
      (w.behind (setupEtherFlows conf req types)).flows bridge type = false := by
  induction types with
  | nil => intro w h; exact h
  | cons t types ih =>
      intro w h
      unfold setupEtherFlows
      rw [FlowTables.behind_bind]
      refine ih _ ?_
      rw [FlowTables.behind_when]
      split
      · rw [FlowTables.behind_bind, FlowTables.behind_when, if_neg (not_not.2 hr)]
        show (_ && w.flows bridge type) = false
        rw [h, Bool.and_false]
      · exact h

/-- On a model with flows the helper is its loop. -/
theorem tables_ovsSetupBridgeFlows (hmodel : conf.modelNum.hasBridgeFlows) (w : FlowTables) :
    w.behind (ovsSetupBridgeFlows conf req)
      = if req.parentBridge = [] then w
        else w.behind (setupEtherFlows conf req [.brcm, .brcmAiriq, .ieee8021x]) := by
  unfold ovsSetupBridgeFlows ovsSetupBrcmWifiFlows
  rw [FlowTables.behind_returning, if_pos hmodel, FlowTables.behind_returning]
  split
  · rfl
  · rw [FlowTables.behind_bind]
    rfl

/-- Nor does the helper around them. -/
theorem tables_ovsSetupBridgeFlows_bridges (hmodel : conf.modelNum.hasBridgeFlows) (w : FlowTables) :
    (w.behind (ovsSetupBridgeFlows conf req)).bridges = w.bridges := by
  rw [tables_ovsSetupBridgeFlows hmodel]
  split
  · rfl
  · exact tables_setupEtherFlows_bridges _ w

/-- On a bridge that exists the helper leaves all the flows of the model. -/
theorem hasFlows_ovsSetupBridgeFlows (hmodel : conf.modelNum.hasBridgeFlows) (hne : req.parentBridge ≠ [])
    (hr : ¬ req.Asks .brRemove) {w : FlowTables} (hb : w.bridges req.parentBridge = true) :
    HasFlows conf req.parentBridge (w.behind (ovsSetupBridgeFlows conf req)) := by
  intro type htype
  rw [tables_ovsSetupBridgeFlows hmodel, if_neg hne]
  refine tables_setupEtherFlows_adds hr _ w hb (Or.inr ⟨?_, htype⟩)
  cases type <;> simp

/-! ## §3. Bridges made for a port. -/

/-- What the computation makes has its flows. -/
def Furnishes {α : Type} (conf : OvsActionConfig) (p : Action α) : Prop :=
  ∀ (w : FlowTables) (bridge : CString), w.bridges bridge = false → (w.behind p).bridges bridge = true →
    HasFlows conf bridge (w.behind p)

/-- Nothing made, nothing to show. -/
theorem furnishes_of_bridges {α : Type} {p : Action α}
    (h : ∀ w : FlowTables, (w.behind p).bridges = w.bridges) :
    Furnishes conf p := by
  intro w bridge hnew hmade
  rw [h, hnew] at hmade
  cases hmade

/-- What comes before a furnishing computation may do anything but flows. -/
theorem furnishes_bind {α β : Type} {p : Action α} {f : α → Action β} (hp : RunsOnly Command.NoFlow p)
    (hf : Furnishes conf (f p.value)) : Furnishes conf (p >>= f) := by
  intro w bridge hnew hmade
  rw [FlowTables.behind_bind, FlowTables.behind_noFlow hp] at hmade ⊢
  exact hf w bridge hnew hmade

/-- A helper furnishes when its body does. -/
theorem furnishes_returning {h : Helper} {body : Action OvsStatus} (hbody : Furnishes conf body) :
    Furnishes conf (returning h body) := by
  intro w bridge hnew hmade
  rw [FlowTables.behind_returning] at hmade ⊢
  exact hbody w bridge hnew hmade

/-- Taking a port off its bridge is about no flow. -/
theorem noFlow_removeExistingInterfacePort (ovsEnabled : Bool) :
    RunsOnly Command.NoFlow (removeExistingInterfacePort env req ovsEnabled) := by
  refine (all_removeExistingInterfacePort ovsEnabled).2
    ⟨runsOnly_portQuery ovsEnabled (fun _ => rfl) (fun _ => rfl), fun _ bridge _ _ => ?_, trivial⟩
  cases ovsEnabled with
  | true => exact fun _ => rfl
  | false => exact fun _ => rfl

/-- Nor is bringing an interface up. -/
theorem noFlow_ifconfigUpDown (name : CString) : RunsOnly Command.NoFlow (ifconfigUpDown req name) :=
  (all_ifconfigUpDown name).2 fun _ _ => rfl

/-- `configureParentBridge` makes the parent bridge, if it is one of OVS and not there. -/
theorem tables_configureParentBridge (ovsEnabled : Bool) (w : FlowTables) :
    w.behind (configureParentBridge env req ovsEnabled)
      = if env.bridgePath = false ∧ ovsEnabled = true then w.addBr req.parentBridge else w := by
  have hattach : (attachCommand req ovsEnabled).NoFlow := by
    intro w
    unfold attachCommand
    split <;> rfl
  unfold configureParentBridge
  simp only [FlowTables.behind_returningWith, FlowTables.behind_bind, FlowTables.behind_when,
    FlowTables.behind_noFlow (noFlow_ifconfigUpDown _), FlowTables.behind_system]
  simp only [FlowTables.behind_access, access_value, FlowTables.behind_popen,
    FlowTables.behind_pure, hattach _]
  unfold createCommand
  cases ovsEnabled with
  | true => simp [Command.flowAct]
  | false => simp [Command.flowAct]

/-- The bridge `ovs_modifyParentBridge` makes is the parent bridge, and it gets its flows. -/
theorem made_ovsModifyParentBridge (hmodel : conf.modelNum.hasBridgeFlows) (hne : req.parentBridge ≠ [])
    {w : FlowTables} {bridge : CString} (hnew : w.bridges bridge = false)
    (hmade : (w.behind (ovsModifyParentBridge conf env req)).bridges bridge = true) :
    bridge = req.parentBridge ∧ ¬ req.Asks .brRemove ∧
      HasFlows conf bridge (w.behind (ovsModifyParentBridge conf env req)) := by
  -- a branch that makes no bridge cannot have made this one
  have hsame : w.bridges bridge = true → False := fun h => Bool.noConfusion (hnew.symm.trans h)
  unfold ovsModifyParentBridge at hmade ⊢
  rw [FlowTables.behind_returning, FlowTables.behind_bind,
    FlowTables.behind_noFlow (noFlow_removeExistingInterfacePort _),
    removeExistingInterfacePort_value] at hmade ⊢
  by_cases hf : env.queryFails req.ovsEnabled
  · simp only [hf, if_true] at hmade
    exact (hsame hmade).elim
  · by_cases hr : req.Asks .brRemove
    · simp only [hf, hr, if_false, not_true_eq_false, ne_eq] at hmade
      exact (hsame hmade).elim
    · simp only [hf, hr, if_false, if_true, not_true_eq_false, not_false_eq_true, ne_eq,
        FlowTables.behind_bind,
        configureParentBridge_value, tables_configureParentBridge] at hmade ⊢
      by_cases hp : env.bridgePath = false
      · simp only [hp, if_true, true_and] at hmade ⊢
        rw [tables_ovsSetupBridgeFlows_bridges hmodel] at hmade
        cases ho : req.ovsEnabled with
        | false =>
            simp only [ho, Bool.false_eq_true, if_false] at hmade
            exact (hsame hmade).elim
        | true =>
            simp only [ho, if_true] at hmade ⊢
            have heq : bridge = req.parentBridge := by
              have hor : (bridge == req.parentBridge || w.bridges bridge) = true := hmade
              rw [hnew, Bool.or_false] at hor
              exact beq_iff_eq.1 hor
            subst heq
            exact ⟨rfl, hasFlows_ovsSetupBridgeFlows hmodel hne hr hmade⟩
      · simp only [hp] at hmade
        exact (hsame hmade).elim

/-- A parent bridge that the request makes has its flows. -/
theorem furnishes_ovsModifyParentBridge (hmodel : conf.modelNum.hasBridgeFlows)
    (hne : req.parentBridge ≠ []) :
    Furnishes conf (ovsModifyParentBridge conf env req) :=
  fun _ _ hnew hmade => (made_ovsModifyParentBridge hmodel hne hnew hmade).2.2

/-- Without a parent bridge none is made. -/
theorem furnishes_modifyParentBridgeIfAny (hmodel : conf.modelNum.hasBridgeFlows) :
    Furnishes conf (modifyParentBridgeIfAny conf env req) := by
  unfold modifyParentBridgeIfAny
  split
  · next hne => exact furnishes_ovsModifyParentBridge hmodel hne
  · exact furnishes_of_bridges fun _ => rfl

/-- The port br106 stands for has the bridge's flows set up; the other flows are no ether flows. -/
theorem tables_ovsSetupPortFlows (w : FlowTables) :
    w.behind (ovsSetupPortFlows conf env req)
      = if req.isBr106Port then w.behind (ovsSetupBridgeFlows conf req) else w := by
  have hgui : RunsOnly Command.NoFlow (ovsSetupAdminGuiAccess env req) := by
    refine all_ovsSetupAdminGuiAccess.2 ⟨trivial, fun ip _ => (all_setupGuiFlows ip).2 ?_, trivial⟩
    exact ⟨fun _ => rfl, fun _ => rfl,
      fun _ => ⟨fun _ => rfl, fun _ _ => ⟨fun _ => rfl, fun _ => rfl⟩⟩⟩
  have hmso : RunsOnly Command.NoFlow (ovsBlockMsoUiAccess env req) :=
    all_ovsBlockMsoUiAccess.2 ⟨trivial, fun _ _ => ⟨fun _ => rfl, fun _ _ => rfl⟩, trivial⟩
  unfold ovsSetupPortFlows
  rw [FlowTables.behind_returning]
  by_cases hg : req.isGuiPort
  · have hg' : req.parentBridge = brlan0EthName ∧ req.ifName = llan0EthName := hg
    rw [if_pos hg', if_neg fun hb => not_guiPort_of_br106Port hb hg]
    split
    · rw [FlowTables.behind_bind, FlowTables.behind_noFlow hgui, FlowTables.behind_noFlow hmso]
    · rfl
  · have hg' : ¬ (req.parentBridge = brlan0EthName ∧ req.ifName = llan0EthName) := hg
    rw [if_neg hg']
    by_cases hb : req.isBr106Port
    · have hb' : req.parentBridge = br106EthName ∧ req.ifName = wl03EthName := hb
      rw [if_pos hb, if_pos hb']
    · have hb' : ¬ (req.parentBridge = br106EthName ∧ req.ifName = wl03EthName) := hb
      rw [if_neg hb, if_neg hb']
      rfl

/-- The port's own flows come on top. -/
theorem furnishes_addPortToParentBridge (hmodel : conf.modelNum.hasBridgeFlows) :
    Furnishes conf (addPortToParentBridge conf env req) := by
  unfold addPortToParentBridge
  split
  · next hne =>
      intro w bridge hnew hmade
      rw [FlowTables.behind_bind, ovsModifyParentBridge_value] at hmade ⊢
      split at hmade
      · next hs =>
          rw [if_pos hs]
          exact furnishes_ovsModifyParentBridge hmodel hne w bridge hnew hmade
      · next hs =>
          rw [if_neg hs]
          rw [tables_ovsSetupPortFlows] at hmade ⊢
          split at hmade
          · -- the flows are set up twice
            next h106 =>
              rw [if_pos h106]
              rw [tables_ovsSetupBridgeFlows_bridges hmodel] at hmade
              obtain ⟨rfl, hr, _⟩ := made_ovsModifyParentBridge hmodel hne hnew hmade
              exact hasFlows_ovsSetupBridgeFlows hmodel hne hr hmade
          · next h106 =>
              rw [if_neg h106]
              exact furnishes_ovsModifyParentBridge hmodel hne w bridge hnew hmade
  · exact furnishes_of_bridges fun _ => rfl

/-! ## §4. Requests. -/

/-- A vlan makes no bridge but its parent. -/
theorem furnishes_ovsCreateVlan (hmodel : conf.modelNum.hasBridgeFlows) :
    Furnishes conf (ovsCreateVlan conf env req) := by
  unfold ovsCreateVlan
  refine furnishes_returning ?_
  split
  · exact furnishes_of_bridges fun _ => rfl
  · refine furnishes_bind ((all_when _).2 fun _ => (all_system _).2 fun _ => ?_) ?_
    · split <;> rfl
    · exact furnishes_bind (noFlow_ifconfigUpDown _) (furnishes_modifyParentBridgeIfAny hmodel)

/-- Nor does a tunnel. -/
theorem furnishes_ovsCreateGRE (hmodel : conf.modelNum.hasBridgeFlows) :
    Furnishes conf (ovsCreateGRE conf env req) := by
  unfold ovsCreateGRE
  refine furnishes_returning ?_
  split
  · exact furnishes_of_bridges fun _ => rfl
  · refine furnishes_bind ((all_when _).2 fun _ => (all_system _).2 fun _ => rfl) ?_
    exact furnishes_bind (noFlow_ifconfigUpDown _) (furnishes_modifyParentBridgeIfAny hmodel)

/-- Models with bridge flows have no Puma7 switch. -/
theorem ethSwitch_of_flows (hmodel : conf.modelNum.hasBridgeFlows) :
    ethSwitch conf env req = pure .success := by
  refine if_neg fun h => ?_
  have heq : conf.modelNum = .tg3482g := h.1
  rw [heq] at hmodel
  rcases hmodel with h | h | h <;> cases h

/-- Nor does a port. -/
theorem furnishes_ovsAddPort (hmodel : conf.modelNum.hasBridgeFlows) :
    Furnishes conf (ovsAddPort conf env req) := by
  unfold ovsAddPort
  refine furnishes_returning ?_
  split
  · exact furnishes_of_bridges fun _ => rfl
  · rw [ethSwitch_of_flows hmodel]
    refine furnishes_bind (all_pure _) ?_
    exact furnishes_bind (noFlow_ifconfigUpDown _) (furnishes_addPortToParentBridge hmodel)

/-- A bridge request makes the bridge first, and then sets up the flows of its parent bridge. -/
theorem tables_ovsCreateBridge (hd : ¬ req.Asks .ifDelete) (w : FlowTables) :
    w.behind (ovsCreateBridge conf req) = (w.addBr req.ifName).behind (ovsSetupBridgeFlows conf req) := by
  unfold ovsCreateBridge
  rw [FlowTables.behind_returning, if_neg hd, FlowTables.behind_bind, FlowTables.behind_bind,
    FlowTables.behind_bind,
    FlowTables.behind_bind, FlowTables.behind_noFlow (noFlow_ifconfigUpDown _), FlowTables.behind_when,
    FlowTables.behind_when]
  have hmtu : ∀ w : FlowTables, w.behind (system (.ifconfigMtu req.ifName req.mtu)) = w := fun _ => rfl
  have haddr : ∀ w :
      FlowTables, w.behind (system (.ifconfigAddr req.ifName req.inetAddr req.netmask)) = w :=
    fun _ => rfl
  rw [hmtu, haddr, ite_self, ite_self]
  rfl

/-- The flow helper has not failed on the way. -/
def FlowsSetUp {α : Type} (p : Action α) : Prop :=
  p.All fun e => e ≠ .returned .ovsSetupBridgeFlows .failed

/-- The helper fails only without a parent bridge. -/
theorem flowsSetUp_ovsSetupBridgeFlows_iff (hmodel : conf.modelNum.hasBridgeFlows) :
    FlowsSetUp (ovsSetupBridgeFlows conf req) ↔ req.parentBridge ≠ [] := by
  unfold FlowsSetUp
  rw [all_ovsSetupBridgeFlows, all_ovsSetupBrcmWifiFlows]
  by_cases h : req.parentBridge = []
  · simp [h, hmodel]
  · simp [h, BridgeFlowEvents]

/-- With a parent bridge the helper is called with one. -/
theorem flowsSetUp_ovsModifyParentBridge (hmodel : conf.modelNum.hasBridgeFlows)
    (hne : req.parentBridge ≠ []) :
    FlowsSetUp (ovsModifyParentBridge conf env req) := by
  have hsetup := (flowsSetUp_ovsSetupBridgeFlows_iff hmodel).2 hne
  unfold FlowsSetUp at hsetup ⊢
  refine all_ovsModifyParentBridge.2 ⟨?_, fun _ _ => ⟨?_, fun _ => hsetup⟩, by simp⟩
  · refine (all_removeExistingInterfacePort _).2 ⟨?_, fun _ _ _ _ => by simp, by simp⟩
    unfold portQuery
    split
    · simp [all_getExistingOvsParentBridge]
    · simp [all_getExistingLinuxParentBridge]
  · simp [all_configureParentBridge]

/-- Without a parent bridge it is not called. -/
theorem flowsSetUp_modifyParentBridgeIfAny (hmodel : conf.modelNum.hasBridgeFlows) :
    FlowsSetUp (modifyParentBridgeIfAny conf env req) :=
  all_modifyParentBridgeIfAny.2 fun hne => flowsSetUp_ovsModifyParentBridge hmodel hne

/-- The same for a port, whose own flows call it for br106 only. -/
theorem flowsSetUp_addPortToParentBridge (hmodel : conf.modelNum.hasBridgeFlows) :
    FlowsSetUp (addPortToParentBridge conf env req) := by
  refine all_addPortToParentBridge.2 fun hne => ⟨flowsSetUp_ovsModifyParentBridge hmodel hne, fun _ => ?_⟩
  refine all_ovsSetupPortFlows.2
    ⟨fun _ _ => ⟨?_, ?_⟩, fun _ => (flowsSetUp_ovsSetupBridgeFlows_iff hmodel).2 hne, by simp⟩
  · simp [all_ovsSetupAdminGuiAccess, all_setupGuiFlows]
  · simp [all_ovsBlockMsoUiAccess]

/-- A request that is no bridge request. -/
theorem flows_of_not_bridge (hmodel : conf.modelNum.hasBridgeFlows) (ht : ¬ req.IsType .bridge) :
    Furnishes conf (ovsActionGatewayConfig conf env req) ∧
    FlowsSetUp (ovsActionGatewayConfig conf env req) := by
  have hany := @flowsSetUp_modifyParentBridgeIfAny conf env req hmodel
  have hport := @flowsSetUp_addPortToParentBridge conf env req hmodel
  rcases ovsActionGatewayConfig_cases conf env req with
      ⟨hb, _⟩ | ⟨_, heq⟩ | ⟨_, heq⟩ | ⟨_, heq⟩
  · exact absurd hb ht
  · rw [heq]
    refine ⟨furnishes_ovsCreateVlan hmodel, ?_⟩
    unfold FlowsSetUp at hany ⊢
    simp [all_ovsCreateVlan, hany]
  · rw [heq]
    refine ⟨furnishes_ovsCreateGRE hmodel, ?_⟩
    unfold FlowsSetUp at hany ⊢
    simp [all_ovsCreateGRE, hany]
  · rw [heq]
    refine ⟨furnishes_ovsAddPort hmodel, ?_⟩
    unfold FlowsSetUp at hport ⊢
    simp [all_ovsAddPort, hport, ethSwitch_of_flows hmodel]

/-- A bridge that is not there has no flows. -/
theorem flows_of_no_bridge {w : FlowTables} {bridge : CString} (h : w.bridges bridge = false)
    (type : EtherType) :
    w.flows bridge type = false :=
  Bool.eq_false_iff.2 fun hflow => Bool.noConfusion (h.symm.trans (w.onBridges hflow))

/-- A bridge request: its flows are those of the parent bridge. -/
theorem flows_ovsCreateBridge_iff (hmodel : conf.modelNum.hasBridgeFlows) (hd : ¬ req.Asks .ifDelete)
    {w : FlowTables} (hnew : w.bridges req.ifName = false) :
    (HasFlows conf req.ifName (w.behind (ovsCreateBridge conf req)) ∧ FlowsSetUp (ovsCreateBridge conf req))
      ↔ req.parentBridge = req.ifName ∧ req.parentBridge ≠ [] ∧ ¬ req.Asks .brRemove := by
  have hsetup : FlowsSetUp (ovsCreateBridge conf req) ↔ req.parentBridge ≠ [] := by
    rw [← flowsSetUp_ovsSetupBridgeFlows_iff hmodel]
    unfold FlowsSetUp
    rw [all_ovsCreateBridge]
    simp [hd]
  have hbrcm : ¬ conf.skips .brcm := fun h => by cases h.2
  have hnone : (w.addBr req.ifName).flows req.ifName .brcm = false := flows_of_no_bridge hnew .brcm
  rw [hsetup, tables_ovsCreateBridge hd]
  constructor
  · intro ⟨hflows, hne⟩
    have hflow := hflows .brcm hbrcm
    rw [tables_ovsSetupBridgeFlows hmodel, if_neg hne] at hflow
    refine ⟨?_, hne, fun hr => ?_⟩
    · by_contra hother
      rw [tables_setupEtherFlows_other (Ne.symm hother)] at hflow
      exact Bool.noConfusion (hnone.symm.trans hflow)
    · rw [tables_setupEtherFlows_removes hr _ _ hnone] at hflow
      cases hflow
  · intro ⟨heq, hne, hr⟩
    refine ⟨?_, hne⟩
    rw [← heq]
    refine hasFlows_ovsSetupBridgeFlows hmodel hne hr ?_
    show (req.parentBridge == req.parentBridge || w.bridges req.parentBridge) = true
    rw [beq_self_eq_true, Bool.true_or]

/-- No OVS bridge at all. -/
def FlowTables.none : FlowTables := ⟨fun _ => false, fun _ _ => false, fun h => h⟩

/-- The bridge request for br106 on a model with flows. -/
def br106Request (parentBridge : CString) : GatewayConfig :=
  simpleRequest .bridge .ifUp br106EthName parentBridge

end OvsAgent
