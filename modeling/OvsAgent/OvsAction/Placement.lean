/-
  OvsAgent.OvsAction.Placement — where a port is after it was brought up.

  `ovs_modifyParentBridge` looks for the port among the bridges of its parent
  bridge's technology, takes it off another bridge there, and attaches it.
  `attach` succeeds on free ports only, so a port on a bridge of the other
  technology stays where it is, and nothing is said about it.

  Main result: `port_placed_iff` — after a request to bring a port up that returned
  success, the port is on its parent bridge and on no other exactly when the
  state before it `Places` the port.
-/
import OvsAgent.OvsAction.Membership

namespace OvsAgent

open CString (ofString)
open Traced

variable {conf : OvsActionConfig} {env : ActionEnv} {req : GatewayConfig} {v : VlanUtil} {w : Membership}

/-! ## §1. A port in its place. -/

/-- The other technology. -/
def Tool.other : Tool → Tool
  | .ovs => .linux
  | .linux => .ovs

/-- The port is on `bridge` and on no other bridge. -/
def Membership.Placed (w : Membership) (port bridge : CString) : Prop :=
  (∃ tool, w.bridgeOf tool port = some bridge) ∧ ∀ tool b, w.bridgeOf tool port = some b → b = bridge

/-- The two technologies, one at a time. -/
theorem placed_iff_other (tool : Tool) (port bridge : CString) :
    w.Placed port bridge
      ↔ (w.bridgeOf tool port = some bridge ∨ w.bridgeOf tool.other port = some bridge) ∧
        (∀ b, w.bridgeOf tool port = some b → b = bridge) ∧
        (∀ b, w.bridgeOf tool.other port = some b → b = bridge) := by
  unfold Membership.Placed
  constructor
  · intro ⟨⟨t, ht⟩, hall⟩
    refine ⟨?_, hall tool, hall tool.other⟩
    cases tool <;> cases t <;> first | exact Or.inl ht | exact Or.inr ht
  · intro ⟨hor, hown, hother⟩
    refine ⟨hor.elim (fun h => ⟨tool, h⟩) fun h => ⟨tool.other, h⟩, fun t => ?_⟩
    cases tool <;> cases t <;> first | exact hown | exact hother

/-- A port that is on no bridge of the technology but `bridge` is attached to it. -/
theorem placed_attach_iff {tool : Tool} {port bridge : CString}
    (h : ∀ b, w.bridgeOf tool port = some b → b = bridge) :
    (w.attach tool bridge port).Placed port bridge
      ↔ w.bridgeOf tool.other port = some bridge ∨
        (w.bridgeOf tool.other port = none ∧
          (w.bridgeOf tool port = some bridge ∨ bridge ∈ w.bridges tool)) := by
  by_cases hcan : bridge ∈ w.bridges tool ∧ w.Free port
  · have hfree : w.bridgeOf tool.other port = none := by
      cases tool with
      | ovs => exact hcan.2.2
      | linux => exact hcan.2.1
    refine iff_of_true ?_ (Or.inr ⟨hfree, Or.inr hcan.1⟩)
    have hon := Membership.attach_of_free hcan.1 hcan.2
    refine ⟨⟨tool, by rw [hon tool, if_pos rfl]⟩, fun t b hb => ?_⟩
    rw [hon t] at hb
    split at hb <;> cases hb
    rfl
  · rw [Membership.attach_of_not hcan, placed_iff_other tool]
    cases hown : w.bridgeOf tool port with
    | some b =>
        rw [h b hown]
        cases w.bridgeOf tool.other port <;> simp
    | none =>
        -- a free port could have been attached
        have hno : w.bridgeOf tool.other port = none → bridge ∉ w.bridges tool := by
          intro hother hmem
          refine hcan ⟨hmem, ?_⟩
          cases tool with
          | ovs => exact ⟨hown, hother⟩
          | linux => exact ⟨hother, hown⟩
        cases hother : w.bridgeOf tool.other port with
        | none => simp [hno hother]
        | some b => simp

/-! ## §2. Computations on the state. -/

@[simp] theorem behind_pure {α : Type} (a : α) : w.behind v (pure a) = w := exec_pure _ a w

/-- A command acts on the membership. -/
@[simp] theorem behind_system (cmd : Command) : w.behind v (system cmd) = cmd.act v w := exec_emit _ _ w

/-- A query leaves it. -/
@[simp] theorem behind_popen (cmd : Command) (output : Option CString) : w.behind v (popen cmd output) = w :=
  rfl

@[simp] theorem behind_access (path : CString) (found : Bool) : w.behind v (access path found) = w := rfl

/-- The second computation runs in the state the first one leaves. -/
@[simp] theorem behind_bind {α β : Type} (p : Action α) (f : α → Action β) :
    w.behind v (p >>= f) = (w.behind v p).behind v (f p.value) := exec_bind _ p f w

theorem behind_when {c : Prop} [Decidable c] (p : Action Unit) :
    w.behind v (when c p) = if c then w.behind v p else w := exec_when _ p w

/-- A helper's frame leaves the state to its body. -/
@[simp] theorem behind_returning (h : Helper) (body : Action OvsStatus) :
    w.behind v (returning h body) = w.behind v body := by
  unfold returning
  rw [behind_bind, behind_bind]
  rfl

@[simp] theorem behind_returningWith {α : Type} (h : Helper) (body : Action (OvsStatus × α)) :
    w.behind v (returningWith h body) = w.behind v body := by
  unfold returningWith
  rw [behind_bind, behind_bind]
  rfl

/-- The second computation is answered in the state the first one leaves. -/
theorem answered_bind {α β : Type} (p : Action α) (f : α → Action β) :
    Answered v (p >>= f) w ↔ Answered v p w ∧ Answered v (f p.value) (w.behind v p) := admits_bind p f w

theorem answered_popen (cmd : Command) (output : Option CString) :
    Answered v (popen cmd output) w ↔ ActionEvent.truthful (.popen cmd output) w = true :=
  and_iff_left trivial

theorem answered_access (path : CString) (found : Bool) :
    Answered v (access path found) w ↔ ActionEvent.truthful (.access path found) w = true :=
  and_iff_left trivial

/-- A helper's frame is asked nothing. -/
theorem answered_returning (h : Helper) (body : Action OvsStatus) :
    Answered v (returning h body) w ↔ Answered v body w := by
  unfold returning
  rw [answered_bind]
  exact and_iff_left ⟨rfl, trivial⟩

theorem answered_returningWith {α : Type} (h : Helper) (body : Action (OvsStatus × α)) :
    Answered v (returningWith h body) w ↔ Answered v body w := by
  unfold returningWith
  rw [answered_bind]
  exact and_iff_left ⟨rfl, trivial⟩

/-- Asking ovs-vsctl changes no membership. -/
theorem behind_getExistingOvsParentBridge (ifName : CString) (answer : Option CString) :
    w.behind v (getExistingOvsParentBridge ifName answer) = w :=
  behind_of_inert ((all_getExistingOvsParentBridge ifName answer).2 ⟨fun _ => rfl, trivial⟩) w

/-- What ovs-vsctl prints is the bridge of the port, if it prints. -/
theorem answered_getExistingOvsParentBridge {ifName : CString} {answer : Option CString}
    (h : Answered v (getExistingOvsParentBridge ifName answer) w) :
    ∀ output, answer = some output → output = ifaceToBr (w.bridgeOf .ovs ifName) := by
  unfold getExistingOvsParentBridge at h
  have hpopen := (answered_popen _ _).1 ((answered_bind _ _).1 ((answered_returningWith _ _).1 h)).1
  intro output heq
  rw [heq] at hpopen
  exact eq_of_beq hpopen

/-- The OVS bridge that is read is the bridge the port is on. -/
theorem ovsAnswer_eq {ifName : CString} {answer : Option CString}
    (hnamed : ∀ b, w.bridgeOf .ovs ifName = some b → IsDeviceName b) (hsome : answer.isSome)
    (h : Answered v (getExistingOvsParentBridge ifName answer) w) :
    answer.bind ovsParentBridge = w.bridgeOf .ovs ifName := by
  obtain ⟨output, houtput⟩ := Option.isSome_iff_exists.1 hsome
  have heq := answered_getExistingOvsParentBridge h output houtput
  rw [houtput, heq]
  exact ovsParentBridge_report hnamed

/-- The Linux bridge that is read is the bridge the port is on. -/
theorem linuxAnswer_eq {ifName : CString} {pathFound : Bool} {answer : Option CString}
    (hnamed : ∀ b, w.bridgeOf .linux ifName = some b → IsDeviceName b)
    (hsome : ¬ (pathFound = true ∧ answer = none))
    (h : Answered v (getExistingLinuxParentBridge ifName pathFound answer) w) :
    (if pathFound then answer.bind linuxParentBridge else none) = w.bridgeOf .linux ifName := by
  unfold getExistingLinuxParentBridge at h
  obtain ⟨haccess, hcat⟩ := (answered_bind _ _).1 ((answered_returningWith _ _).1 h)
  have hpath : pathFound = (w.bridgeOf .linux ifName).isSome := by
    have htrue := (answered_access _ _).1 haccess
    rw [truthful_access] at htrue
    exact eq_of_beq htrue
  cases hb : w.bridgeOf .linux ifName with
  | none =>
      rw [hb] at hpath
      rw [hpath]
      rfl
  | some bridge =>
      have hfound : pathFound = true := by rw [hpath, hb]; rfl
      subst hfound
      obtain ⟨output, houtput⟩ := Option.ne_none_iff_exists'.1 fun hnone => hsome ⟨rfl, hnone⟩
      have hpopen : ActionEvent.truthful (.popen (.cat (brportPath ifName)) answer) w = true := hcat.1
      rw [houtput, truthful_cat, hb] at hpopen
      have hpre : (uevent bridge).isPrefixOf output = true := hpopen
      rw [if_pos rfl, houtput]
      exact linuxParentBridge_report (hnamed bridge hb) (List.isPrefixOf_iff_prefix.1 hpre)

/-! ## §3. The parent bridge. -/

/-- The command of either technology creates the parent bridge there. -/
theorem act_createCommand :
    (createCommand req req.ovsEnabled).act v w = w.create req.tool req.parentBridge := by
  unfold createCommand GatewayConfig.tool
  cases req.ovsEnabled <;> rfl

/-- The command of either technology attaches the port there. -/
theorem act_attachCommand :
    (attachCommand req req.ovsEnabled).act v w = w.attach req.tool req.parentBridge req.ifName := by
  unfold attachCommand GatewayConfig.tool
  cases req.ovsEnabled <;> rfl

/-- The command of either technology detaches the port there. -/
theorem act_detachCommand (bridge : CString) :
    (detachCommand req req.ovsEnabled bridge).act v w = w.detach req.tool bridge req.ifName := by
  unfold detachCommand GatewayConfig.tool
  cases req.ovsEnabled <;> rfl

theorem behind_portQuery (ovsEnabled : Bool) : w.behind v (portQuery env req ovsEnabled) = w := by
  exact behind_of_inert (runsOnly_portQuery ovsEnabled (fun _ => rfl) (fun _ => rfl)) w

/-- The query finds the bridge of the parent bridge's technology. -/
theorem existingBridge_eq (hnamed : ∀ b, w.bridgeOf req.tool req.ifName = some b → IsDeviceName b)
    (hf : ¬ env.queryFails req.ovsEnabled) (h : Answered v (portQuery env req req.ovsEnabled) w) :
    env.existingBridge req.ovsEnabled = w.bridgeOf req.tool req.ifName := by
  unfold GatewayConfig.tool at hnamed ⊢
  unfold portQuery at h
  unfold ActionEnv.queryFails at hf
  unfold ActionEnv.existingBridge
  cases ho : req.ovsEnabled with
  | true =>
      rw [ho] at h hf hnamed
      exact ovsAnswer_eq hnamed (Option.isSome_iff_ne_none.2 hf) h
  | false =>
      rw [ho] at h hf hnamed
      exact linuxAnswer_eq hnamed hf h

/-- The port taken off another bridge. -/
def Membership.leave (w : Membership) (tool : Tool) (port bridge : CString) : Membership :=
  match w.bridgeOf tool port with
  | some b => if b = bridge then w else w.detach tool b port
  | none => w

/-- No bridge goes when a port leaves it. -/
theorem leave_bridges (tool : Tool) (port bridge : CString) :
    (w.leave tool port bridge).bridges = w.bridges := by
  unfold Membership.leave
  split
  · split
    · rfl
    · exact Membership.detach_bridges w tool _ port
  · rfl

/-- The port stays on the other technology's bridge. -/
theorem leave_other (tool : Tool) (port bridge : CString) :
    (w.leave tool port bridge).bridgeOf tool.other port = w.bridgeOf tool.other port := by
  have hne : tool.other ≠ tool := by cases tool <;> decide
  unfold Membership.leave
  split
  · split
    · rfl
    · exact Membership.detach_otherTool hne
  · rfl

/-- Of this technology's bridges only the wanted one is kept. -/
theorem leave_self (tool : Tool) (port bridge : CString) :
    (w.leave tool port bridge).bridgeOf tool port
      = if w.bridgeOf tool port = some bridge then some bridge else none := by
  unfold Membership.leave
  split
  · next b hb =>
      by_cases h : b = bridge
      · rw [if_pos h, if_pos (by rw [hb, h]), hb, h]
      · rw [if_neg h, if_neg (by rw [hb]; exact fun heq => h (Option.some.inj heq)), Membership.detach_self,
          if_pos hb]
  · next hb =>
      rw [hb]
      rfl

/-- Brought up elsewhere, the port leaves the bridge that the query found. -/
theorem behind_removeExistingInterfacePort (hup : req.Asks .ifUp) (hf : ¬ env.queryFails req.ovsEnabled)
    (heq : env.existingBridge req.ovsEnabled = w.bridgeOf req.tool req.ifName) :
    w.behind v (removeExistingInterfacePort env req req.ovsEnabled)
      = w.leave req.tool req.ifName req.parentBridge := by
  have hquery := @portQuery_value env req req.ovsEnabled
  unfold removeExistingInterfacePort
  rw [behind_returning, behind_bind, behind_portQuery, hquery, if_neg hf, heq]
  unfold Membership.leave
  cases w.bridgeOf req.tool req.ifName with
  | none => rfl
  | some bridge =>
      have hremoves : req.removesPort bridge ↔ ¬ bridge = req.parentBridge := by
        constructor
        · rintro (⟨_, hr⟩ | ⟨hne, _⟩)
          · cases hup.unique hr
          · exact Ne.symm hne
        · intro hne
          exact Or.inr ⟨Ne.symm hne, hup⟩
      show w.behind v
          (when (req.removesPort bridge) (system (detachCommand req req.ovsEnabled bridge)) >>=
            fun _ => pure OvsStatus.success)
          = if bridge = req.parentBridge then w else w.detach req.tool bridge req.ifName
      rw [behind_bind, behind_pure, behind_when]
      by_cases hb : bridge = req.parentBridge
      · rw [if_neg (fun hr => hremoves.1 hr hb), if_pos hb]
      · rw [if_pos (hremoves.2 hb), if_neg hb]
        exact act_detachCommand bridge

theorem inert_ifconfigUpDown (name : CString) : RunsOnly (Command.Inert v) (ifconfigUpDown req name) :=
  (all_ifconfigUpDown name).2 fun _ _ => rfl

/-- A missing bridge is created, then the port is attached. -/
theorem behind_configureParentBridge :
    w.behind v (configureParentBridge env req req.ovsEnabled)
      = (if env.bridgePath = false then w.create req.tool req.parentBridge else w).attach
          req.tool req.parentBridge req.ifName := by
  have hup : ∀ w : Membership, w.behind v (ifconfigUpDown req req.parentBridge) = w :=
    behind_of_inert (inert_ifconfigUpDown _)
  have heq : configureParentBridge env req req.ovsEnabled = returningWith .configureParentBridge
      (access (sysClassNetPath req.parentBridge) env.bridgePath >>= fun _ =>
        when (env.bridgePath = false) (system (createCommand req req.ovsEnabled)) >>= fun _ =>
        ifconfigUpDown req req.parentBridge >>= fun _ =>
        system (attachCommand req req.ovsEnabled) >>= fun _ =>
        popen (listCommand req req.ovsEnabled) env.bridgePorts >>= fun ports =>
        pure (if ports.isSome then .success else .failed, env.bridgePath)) := rfl
  rw [heq]
  simp only [behind_returningWith, behind_bind, behind_access, behind_when, behind_system, hup, behind_popen,
    behind_pure, act_createCommand, act_attachCommand]

theorem inert_ovsSetupBridgeFlows : RunsOnly (Command.Inert v) (ovsSetupBridgeFlows conf req) :=
  all_ovsSetupBridgeFlows.2 ⟨fun _ => all_ovsSetupBrcmWifiFlows.2
    ⟨fun _ _ _ => ⟨fun _ => rfl, fun _ _ => rfl⟩, trivial⟩, trivial⟩

/-- The port leaves, and the parent bridge is configured; flows change no membership. -/
theorem behind_ovsModifyParentBridge (hup : req.Asks .ifUp) (hf : ¬ env.queryFails req.ovsEnabled)
    (heq : env.existingBridge req.ovsEnabled = w.bridgeOf req.tool req.ifName) :
    w.behind v (ovsModifyParentBridge conf env req)
      = (w.leave req.tool req.ifName req.parentBridge).behind v
          (configureParentBridge env req req.ovsEnabled) := by
  have hr : ¬ req.Asks .brRemove := fun hr => (by cases hup.unique hr)
  have hflows : ∀ w : Membership, w.behind v (ovsSetupBridgeFlows conf req) = w :=
    behind_of_inert inert_ovsSetupBridgeFlows
  unfold ovsModifyParentBridge
  rw [behind_returning, behind_bind, removeExistingInterfacePort_value, if_neg hf,
    behind_removeExistingInterfacePort hup hf heq, if_neg (by decide), if_pos hr, behind_bind,
    configureParentBridge_value]
  by_cases hp : env.bridgePath = false
  · show Membership.behind v _ (if env.bridgePath = false then _ else _) = _
    rw [if_pos hp]
    exact hflows _
  · show Membership.behind v _ (if env.bridgePath = false then _ else _) = _
    rw [if_neg hp]
    rfl

/-- The port ends in its place unless the other technology has it on another bridge, or there is no
bridge to attach it to. -/
theorem placed_ovsModifyParentBridge_iff (hup : req.Asks .ifUp) (hf : ¬ env.queryFails req.ovsEnabled)
    (heq : env.existingBridge req.ovsEnabled = w.bridgeOf req.tool req.ifName) :
    (w.behind v (ovsModifyParentBridge conf env req)).Placed req.ifName req.parentBridge
      ↔ w.bridgeOf req.tool.other req.ifName = some req.parentBridge ∨
        (w.bridgeOf req.tool.other req.ifName = none ∧
          (w.bridgeOf req.tool req.ifName = some req.parentBridge ∨
            req.parentBridge ∈ w.bridges req.tool ∨ env.bridgePath = false)) := by
  rw [behind_ovsModifyParentBridge hup hf heq, behind_configureParentBridge]
  -- of the state after the port has left, the rest needs these three facts only
  have hown := leave_self (w := w) req.tool req.ifName req.parentBridge
  have hother := leave_other (w := w) req.tool req.ifName req.parentBridge
  have hbridges := leave_bridges (w := w) req.tool req.ifName req.parentBridge
  generalize w.leave req.tool req.ifName req.parentBridge = w' at hown hother hbridges
  have hleft : ∀ b, w'.bridgeOf req.tool req.ifName = some b → b = req.parentBridge := by
    intro b hb
    rw [hown] at hb
    split at hb <;> cases hb
    rfl
  have hown' : w'.bridgeOf req.tool req.ifName = some req.parentBridge
      ↔ w.bridgeOf req.tool req.ifName = some req.parentBridge := by
    rw [hown]
    split
    · next h => exact iff_of_true rfl h
    · next h => exact iff_of_false nofun h
  by_cases hp : env.bridgePath = false
  · have hmem : req.parentBridge ∈ (w'.create req.tool req.parentBridge).bridges req.tool := by
      show _ ∈ if req.tool = req.tool then _ else _
      rw [if_pos rfl]
      exact List.mem_cons_self ..
    rw [if_pos hp, placed_attach_iff (w := w'.create req.tool req.parentBridge) hleft]
    show w'.bridgeOf _ _ = _ ∨ (w'.bridgeOf _ _ = none ∧ (w'.bridgeOf _ _ = _ ∨ _)) ↔ _
    rw [hother, hown']
    simp [hmem, hp]
  · rw [if_neg hp, placed_attach_iff hleft, hother, hown', hbridges]
    simp [hp]

/-! ## §4. The Puma7 work-around. -/

/-- The bridge, unless it is one of these. -/
def outside (dummies : List CString) : Option CString → Option CString
  | some bridge => if bridge ∈ dummies then none else some bridge
  | none => none

/-- A step of the work-around, as a port sees it: it stays on its bridge but for
the dummy bridges, and no other bridge comes or goes. -/
structure Settles (dummies : List CString) (port : CString) (w w' : Membership) : Prop where
  ovs : w'.bridgeOf .ovs port = w.bridgeOf .ovs port
  linux : outside dummies (w'.bridgeOf .linux port) = outside dummies (w.bridgeOf .linux port)
  ovsBridges : w'.bridges .ovs = w.bridges .ovs
  linuxBridges : ∀ b, b ∉ dummies → (b ∈ w'.bridges .linux ↔ b ∈ w.bridges .linux)

/-- Removing a Linux bridge leaves OVS. -/
theorem remove_ovs (d port : CString) : (w.remove .linux d).bridgeOf .ovs port = w.bridgeOf .ovs port := by
  show (if Tool.ovs = Tool.linux ∧ w.bridgeOf .ovs port = some d then none else w.bridgeOf .ovs port) = _
  exact if_neg fun h => (by cases h.1)

section Settles

variable {dummies : List CString} {port : CString} {w₁ w₂ w₃ : Membership}

theorem settles_refl (w : Membership) : Settles dummies port w w := ⟨rfl, rfl, rfl, fun _ _ => Iff.rfl⟩

/-- Steps of the work-around follow each other. -/
theorem Settles.trans (h : Settles dummies port w₁ w₂) (h' : Settles dummies port w₂ w₃) :
    Settles dummies port w₁ w₃ :=
  ⟨h'.ovs.trans h.ovs, h'.linux.trans h.linux, h'.ovsBridges.trans h.ovsBridges,
    fun b hb => (h'.linuxBridges b hb).trans (h.linuxBridges b hb)⟩

/-- `vlan_util` joins free ports to a dummy bridge. -/
theorem settles_joins {d : CString} (hd : d ∈ dummies) (h : Membership.JoinsOnly d w w₁) :
    Settles dummies port w w₁ where
  ovs := h.ovs port
  linux := by
    rcases h.linux port with heq | ⟨hfree, heq⟩
    · rw [heq]
    · rw [heq, hfree.2]
      exact if_pos hd
  ovsBridges := h.ovsBridges
  linuxBridges b hb := h.linuxBridges b fun heq => hb (heq ▸ hd)

/-- Taking a port off a dummy bridge. -/
theorem settles_detach {d : CString} (hd : d ∈ dummies) (p : CString) :
    Settles dummies port w (w.detach .linux d p) where
  ovs := Membership.detach_otherTool (by decide)
  linux := by
    by_cases hp : port = p
    · subst hp
      rw [Membership.detach_self]
      split
      · next h => rw [h]; exact (if_pos hd).symm
      · rfl
    · rw [Membership.detach_other hp]
  ovsBridges := by rw [Membership.detach_bridges]
  linuxBridges b _ := by rw [Membership.detach_bridges]

/-- Removing a dummy bridge. -/
theorem settles_remove {d : CString} (hd : d ∈ dummies) : Settles dummies port w (w.remove .linux d) where
  ovs := remove_ovs d port
  linux := by
    show outside dummies (if Tool.linux = Tool.linux ∧ w.bridgeOf .linux port = some d then none
      else w.bridgeOf .linux port) = _
    split
    · next h => rw [h.2]; exact (if_pos hd).symm
    · rfl
  ovsBridges := rfl
  linuxBridges b hb := by
    show b ∈ (w.bridges .linux).filter (· ≠ d) ↔ _
    have hne : b ≠ d := fun heq => hb (heq ▸ hd)
    simp [hne]

/-- Attaching the other port. -/
theorem settles_attachOther {b p : CString} (h : port ≠ p) :
    Settles dummies port w (w.attach .ovs b p) where
  ovs := Membership.attach_other h
  linux := by rw [Membership.attach_other h]
  ovsBridges := by rw [Membership.attach_bridges]
  linuxBridges _ _ := by rw [Membership.attach_bridges]

end Settles

/-- A port on a bridge that is removed is on none. -/
theorem remove_linux (d port : CString) : (w.remove .linux d).bridgeOf .linux port ≠ some d := by
  show (if Tool.linux = Tool.linux ∧
    w.bridgeOf .linux port = some d then none else w.bridgeOf .linux port) ≠ _
  split
  · nofun
  · next h => exact fun heq => h ⟨rfl, heq⟩

/-- A removal puts no port on a bridge. -/
theorem remove_keeps {d d' port : CString} (h : w.bridgeOf .linux port ≠ some d') :
    (w.remove .linux d).bridgeOf .linux port ≠ some d' := by
  show (if Tool.linux = Tool.linux ∧
    w.bridgeOf .linux port = some d then none else w.bridgeOf .linux port) ≠ _
  split
  · nofun
  · exact h

/-- The other port is on a bridge of OVS and is restored to it. -/
def Membership.Restores (w : Membership) (env : ActionEnv) (ifName : CString) : Prop :=
  env.restorePath = true ∧ w.bridgeOf .ovs (otherEthPort ifName) ≠ none

instance (w : Membership) (env : ActionEnv) (ifName : CString) : Decidable (w.Restores env ifName) :=
  inferInstanceAs (Decidable (_ ∧ _))

/-- The dummy bridges that are made and removed. -/
def Membership.dummies (w : Membership) (env : ActionEnv) (ifName : CString) : List CString :=
  if w.Restores env ifName then dummyBridgeNames else [dummyBridge (vlanOf ifName)]

theorem otherEthPort_ne {ifName : CString} (h : IsEthPort ifName) : ifName ≠ otherEthPort ifName := by
  rcases h with rfl | rfl
  · decide
  · decide

/-- What is left of the port's membership: the dummy bridges are gone, and when
the other port is restored the port is off its bridge. -/
structure Switched (env : ActionEnv) (ifName : CString) (w w' : Membership) : Prop where
  ovs : w'.bridgeOf .ovs ifName = if w.Restores env ifName then none else w.bridgeOf .ovs ifName
  linux : w'.bridgeOf .linux ifName = outside (w.dummies env ifName) (w.bridgeOf .linux ifName)
  ovsBridges : w'.bridges .ovs = w.bridges .ovs
  linuxBridges : ∀ b, b ∉ w.dummies env ifName → (b ∈ w'.bridges .linux ↔ b ∈ w.bridges .linux)

/-- Off the dummy bridges, nothing is left for the filter. -/
theorem Settles.linux_eq {dummies : List CString} {port : CString} {w w' : Membership}
    (h : Settles dummies port w w') (hoff : ∀ d ∈ dummies, w'.bridgeOf .linux port ≠ some d) :
    w'.bridgeOf .linux port = outside dummies (w.bridgeOf .linux port) := by
  rw [← h.linux]
  cases hb : w'.bridgeOf .linux port with
  | none => rfl
  | some b =>
      have hne : b ∉ dummies := fun hmem => hoff b hmem hb
      exact (if_neg hne).symm

/-- The port alone: its dummy bridge is made and removed. -/
theorem settles_setupEthSwitchCmds (env : ActionEnv) (v : VlanUtil) (w : Membership) (ifName : CString) :
    Settles [dummyBridge (vlanOf ifName)] ifName w (w.behind v (setupEthSwitchCmds env ifName)) ∧
      (w.behind v (setupEthSwitchCmds env ifName)).bridgeOf .linux ifName
        ≠ some (dummyBridge (vlanOf ifName)) := by
  have hd : dummyBridge (vlanOf ifName) ∈ [dummyBridge (vlanOf ifName)] := List.mem_singleton.2 rfl
  have hjoin : ∀ w, Settles [dummyBridge (vlanOf ifName)] ifName w
      (if ifName = puma7Eth1Name then v.addInterface (vlanOf ifName) puma7Port1Name w else w) := by
    intro w
    split
    · exact settles_joins hd (v.addInterface_joins _ _ _)
    · exact settles_refl w
  unfold setupEthSwitchCmds
  simp only [behind_returning, behind_bind, behind_system, behind_access, behind_pure, behind_when]
  refine ⟨?_, remove_linux _ _⟩
  have hgroup : Settles [dummyBridge (vlanOf ifName)] ifName w (v.addGroup (vlanOf ifName) w) :=
    settles_joins hd (v.addGroup_joins (vlanOf ifName) w)
  have hports := (hgroup.trans (hjoin _)).trans
    (settles_joins hd (v.addInterface_joins (vlanOf ifName) puma7Port2Name _))
  exact (hports.trans (settles_detach hd ifName)).trans (settles_remove hd)

/-- The port taken off the bridge of OVS it is on. -/
def Membership.offOvs (w : Membership) (port : CString) : Membership :=
  match w.bridgeOf .ovs port with
  | some bridge => w.detach .ovs bridge port
  | none => w

/-- The port is off OVS, -/
theorem offOvs_ovs (port : CString) : (w.offOvs port).bridgeOf .ovs port = none := by
  unfold Membership.offOvs
  split
  · next h => rw [Membership.detach_self, if_pos h]
  · next h => exact h

/-- where it was in the kernel, -/
theorem offOvs_linux (port : CString) : (w.offOvs port).bridgeOf .linux port = w.bridgeOf .linux port := by
  unfold Membership.offOvs
  split
  · exact Membership.detach_otherTool (by decide)
  · rfl

/-- and no bridge is gone. -/
theorem offOvs_bridges (port : CString) : (w.offOvs port).bridges = w.bridges := by
  unfold Membership.offOvs
  split
  · exact Membership.detach_bridges w _ _ _
  · rfl

/-- What `setupAndRestoreEthSwitchCmds` does between taking the two ports off
their bridges and restoring the other one. -/
def Membership.throughDummies (v : VlanUtil) (ifName restoreIfName : CString) (w : Membership) : Membership :=
  ((((v.addInterface (ofString "101") puma7Port2Name (v.addInterface (ofString "100") puma7Port1Name
    (v.addGroup (ofString "101") (v.addGroup (ofString "100") w)))).detach .linux
    (dummyBridge (vlanOf ifName)) ifName).detach .linux
    (dummyBridge (vlanOf restoreIfName)) restoreIfName).remove .linux
    (dummyBridge (ofString "100"))).remove .linux (dummyBridge (ofString "101"))

/-- The commands of `setupAndRestoreEthSwitchCmds` behind its query. -/
theorem behind_setupAndRestoreEthSwitchCmds {ifName restoreIfName restoreBridge : CString}
    (hne : ifName ≠ restoreIfName) (hnamed : ∀ b, w.bridgeOf .ovs ifName = some b → IsDeviceName b)
    (hsome : env.ethIfaceToBr.isSome)
    (h : Answered v (setupAndRestoreEthSwitchCmds env ifName restoreIfName restoreBridge) w) :
    w.behind v (setupAndRestoreEthSwitchCmds env ifName restoreIfName restoreBridge)
      = (((w.detach .ovs restoreBridge restoreIfName).offOvs ifName).throughDummies v ifName
          restoreIfName).attach .ovs restoreBridge restoreIfName := by
  have hstay : (w.detach .ovs restoreBridge restoreIfName).bridgeOf .ovs ifName = w.bridgeOf .ovs ifName :=
    Membership.detach_other hne
  unfold setupAndRestoreEthSwitchCmds at h ⊢
  have hquery := ((answered_bind _ _).1 ((answered_bind _ _).1 ((answered_returning _ _).1 h)).2).1
  have hfound := ovsAnswer_eq (by rw [behind_system]; exact hstay ▸ hnamed) hsome hquery
  rw [behind_system] at hfound
  have hvalue := getExistingOvsParentBridge_value ifName env.ethIfaceToBr
  rw [if_pos hsome, hfound] at hvalue
  have hact : (Command.ovsVsctlDelPort restoreBridge restoreIfName).act v w
      = w.detach .ovs restoreBridge restoreIfName := rfl
  rw [behind_returning, behind_bind, behind_bind, behind_getExistingOvsParentBridge, hvalue,
    behind_system, hact]
  unfold Membership.offOvs
  cases (w.detach .ovs restoreBridge restoreIfName).bridgeOf .ovs ifName with
  | none => rfl
  | some b => rfl

/-- The dummy bridges are named by the VLANs of the two ports. -/
theorem dummyBridge_vlanOf {ifName : CString} (h : IsEthPort ifName) :
    dummyBridge (vlanOf ifName) ∈ dummyBridgeNames := by
  rcases h with rfl | rfl
  · decide
  · decide

/-- The dummy bridges are made with their interfaces, then they are removed. -/
theorem settles_throughDummies {ifName : CString} (hport : IsEthPort ifName) (port : CString)
    (w : Membership) :
    Settles dummyBridgeNames port w (w.throughDummies v ifName (otherEthPort ifName)) ∧
      ∀ d ∈ dummyBridgeNames,
        (w.throughDummies v ifName (otherEthPort ifName)).bridgeOf .linux port ≠ some d := by
  have h100 : dummyBridge (ofString "100") ∈ dummyBridgeNames := List.mem_cons_self ..
  have h101 : dummyBridge (ofString "101") ∈ dummyBridgeNames :=
    List.mem_cons_of_mem _ (List.mem_cons_self ..)
  constructor
  · have hgroup : Settles dummyBridgeNames port w (v.addGroup (ofString "100") w) :=
      settles_joins h100 (v.addGroup_joins (ofString "100") w)
    have hgroups := hgroup.trans (settles_joins h101 (v.addGroup_joins (ofString "101") _))
    have hports :=
      (hgroups.trans (settles_joins h100 (v.addInterface_joins (ofString "100") puma7Port1Name _))).trans
      (settles_joins h101 (v.addInterface_joins (ofString "101") puma7Port2Name _))
    have hdelif := (hports.trans (settles_detach (dummyBridge_vlanOf hport) ifName)).trans
      (settles_detach (dummyBridge_vlanOf (otherEthPort_mem ifName)) (otherEthPort ifName))
    exact (hdelif.trans (settles_remove h100)).trans (settles_remove h101)
  · intro d hd
    rcases List.mem_cons.1 hd with rfl | hd
    · exact remove_keeps (remove_linux _ _)
    · rw [List.mem_singleton.1 hd]
      exact remove_linux _ _

/-- Once the two ports are off their bridges, the work-around settles and leaves no dummy bridge
behind. -/
theorem settles_setupAndRestoreEthSwitchCmds {ifName restoreBridge : CString} (hport : IsEthPort ifName)
    (hnamed : ∀ b, w.bridgeOf .ovs ifName = some b → IsDeviceName b) (hsome : env.ethIfaceToBr.isSome)
    (h : Answered v (setupAndRestoreEthSwitchCmds env ifName (otherEthPort ifName) restoreBridge) w) :
    Settles dummyBridgeNames ifName ((w.detach .ovs restoreBridge (otherEthPort ifName)).offOvs ifName)
        (w.behind v (setupAndRestoreEthSwitchCmds env ifName (otherEthPort ifName) restoreBridge)) ∧
      ∀ d ∈ dummyBridgeNames, (w.behind v (setupAndRestoreEthSwitchCmds env ifName (otherEthPort ifName)
        restoreBridge)).bridgeOf .linux ifName ≠ some d := by
  have hne := otherEthPort_ne hport
  rw [behind_setupAndRestoreEthSwitchCmds hne hnamed hsome h]
  obtain ⟨hsettles, hoff⟩ := settles_throughDummies (v := v) hport ifName
    ((w.detach .ovs restoreBridge (otherEthPort ifName)).offOvs ifName)
  refine ⟨hsettles.trans (settles_attachOther hne), fun d hd => ?_⟩
  rw [Membership.attach_other hne]
  exact hoff d hd

/-- With the other port restored or without. -/
theorem switched_switchCommands {ifName : CString} (hport : IsEthPort ifName)
    (hnamed : ∀ b, w.bridgeOf .ovs ifName = some b → IsDeviceName b)
    (hrestore : env.restoreBridge = if env.restorePath then w.bridgeOf .ovs (otherEthPort ifName) else none)
    (hok : env.restoreBridge.isSome → env.ethIfaceToBr.isSome)
    (h : Answered v (switchCommands env ifName (otherEthPort ifName) env.restoreBridge) w) :
    Switched env ifName w
      (w.behind v (switchCommands env ifName (otherEthPort ifName) env.restoreBridge)) := by
  cases hb : env.restoreBridge with
  | none =>
      -- nothing to restore: one VLAN is set up, and only its dummy bridge appears
      have hnot : ¬ w.Restores env ifName := by
        intro ⟨hpath, hne⟩
        rw [hb, if_pos hpath] at hrestore
        exact hne hrestore.symm
      have hdummies : w.dummies env ifName = [dummyBridge (vlanOf ifName)] := if_neg hnot
      obtain ⟨hsettles, hoff⟩ := settles_setupEthSwitchCmds env v w ifName
      refine ⟨?_, ?_, hsettles.ovsBridges, ?_⟩
      · rw [if_neg hnot]
        exact hsettles.ovs
      · rw [hdummies]
        exact hsettles.linux_eq fun d hd => List.mem_singleton.1 hd ▸ hoff
      · rw [hdummies]
        exact hsettles.linuxBridges
  | some restoreBridge =>
      have hrestores : w.Restores env ifName := by
        rw [hb] at hrestore
        split at hrestore
        · next hpath => exact ⟨hpath, by rw [← hrestore]; nofun⟩
        · cases hrestore
      have hdummies : w.dummies env ifName = dummyBridgeNames := if_pos hrestores
      rw [hb] at h hok
      obtain ⟨hsettles, hoff⟩ := settles_setupAndRestoreEthSwitchCmds hport hnamed (hok rfl) h
      -- both `del-port` are `ovs-vsctl`'s, so the Linux side stays as it is
      have hlinux : ((w.detach .ovs restoreBridge (otherEthPort ifName)).offOvs ifName).bridgeOf .linux ifName
          = w.bridgeOf .linux ifName := by
        rw [offOvs_linux]
        exact Membership.detach_otherTool (by decide)
      have hbridges : ((w.detach .ovs restoreBridge (otherEthPort ifName)).offOvs ifName).bridges =
          w.bridges := by
        rw [offOvs_bridges, Membership.detach_bridges]
      refine ⟨?_, ?_, ?_, ?_⟩
      · rw [if_pos hrestores]
        exact hsettles.ovs.trans (offOvs_ovs ifName)
      · rw [hdummies, ← hlinux]
        exact hsettles.linux_eq hoff
      · rw [← hbridges]
        exact hsettles.ovsBridges
      · rw [hdummies, ← hbridges]
        exact hsettles.linuxBridges

/-- The ethernet backhaul is another port. -/
theorem Switched.restoreEthBhaul {ifName : CString} {w' : Membership} (hport : IsEthPort ifName)
    (h : Switched env ifName w w') (found : Bool) :
    Switched env ifName w (w'.behind v (restoreEthBhaul found)) := by
  have hne : ifName ≠ ethBhaulIfName := by rcases hport with rfl | rfl <;> decide
  cases found with
  | false => exact h
  | true =>
      show Switched env ifName w (w'.attach .ovs ethBhaulBrName ethBhaulIfName)
      refine ⟨?_, ?_, ?_, ?_⟩
      · rw [Membership.attach_other hne]
        exact h.ovs
      · rw [Membership.attach_other hne]
        exact h.linux
      · rw [Membership.attach_bridges]
        exact h.ovsBridges
      · rw [Membership.attach_bridges]
        exact h.linuxBridges

/-- The work-around behind its first query: the bridge that is read is that of
the other port, and the commands follow. -/
theorem ethSwitch_commands (hnamed : w.Named) (hs : isEthSwitchPort conf req)
    (hquery : env.restoreIfaceToBr.isSome) (h : Answered v (ethSwitch conf env req) w) :
    (env.restoreBridge = if env.restorePath then w.bridgeOf .ovs (otherEthPort req.ifName) else none) ∧
      Answered v (switchCommands env req.ifName (otherEthPort req.ifName) env.restoreBridge) w ∧
      w.behind v (ethSwitch conf env req)
        = (w.behind v (switchCommands env req.ifName (otherEthPort req.ifName) env.restoreBridge)).behind v
            (restoreEthBhaul env.ethBhaulPath) := by
  unfold ethSwitch at h ⊢
  rw [if_pos hs, ovsSetupEthSwitch_eq hs.2.1] at h ⊢
  rw [answered_returning, answered_bind] at h
  rw [behind_returning, behind_bind, behind_access, access_value]
  have hanswered :
      Answered v (setupEthSwitchPort env env.ethBhaulPath req.ifName (otherEthPort req.ifName)) w := h.2
  unfold setupEthSwitchPort at hanswered ⊢
  obtain ⟨hask, hrest⟩ := (answered_bind _ _).1 hanswered
  have hother := ovsAnswer_eq (fun b hb => hnamed .ovs _ b hb) hquery hask
  have hvalue := getExistingOvsParentBridge_value (otherEthPort req.ifName) env.restoreIfaceToBr
  rw [if_pos hquery] at hvalue
  rw [behind_getExistingOvsParentBridge, hvalue] at hrest
  rw [behind_bind, behind_getExistingOvsParentBridge, hvalue]
  have hcommands : Answered v (switchCommands env req.ifName (otherEthPort req.ifName) env.restoreBridge) w :=
    ((answered_bind _ _).1 ((answered_bind _ _).1 hrest).2).1
  refine ⟨?_, hcommands, ?_⟩
  · unfold ActionEnv.restoreBridge
    rw [hother]
  · show w.behind v (access (sysClassNetPath (otherEthPort req.ifName)) env.restorePath >>=
      fun _ => switchCommands env req.ifName (otherEthPort req.ifName) env.restoreBridge >>=
      fun status => restoreEthBhaul env.ethBhaulPath >>= fun _ => pure status) = _
    rw [behind_bind, behind_access, behind_bind, behind_bind, behind_pure]

/-- The whole work-around, as its port sees it. -/
theorem switched_ethSwitch (hnamed : w.Named) (hs : isEthSwitchPort conf req)
    (hok : ¬ ethSwitchFails conf env req) (h : Answered v (ethSwitch conf env req) w) :
    Switched env req.ifName w (w.behind v (ethSwitch conf env req)) := by
  have hport : IsEthPort req.ifName := hs.2.1
  obtain ⟨hquery, hquery'⟩ : env.ethSwitchOk := by
    by_contra hnot
    exact hok ⟨hs, hnot⟩
  obtain ⟨hrestore, hcommands, hbehind⟩ := ethSwitch_commands hnamed hs hquery h
  have hswitched := switched_switchCommands hport (fun b hb => hnamed .ovs _ b hb) hrestore hquery' hcommands
  rw [hbehind]
  exact hswitched.restoreEthBhaul hport env.ethBhaulPath

/-! ## §5. Requests. -/

/-- The request makes the work-around. -/
def makesEthSwitch (conf : OvsActionConfig) (req : GatewayConfig) : Prop :=
  req.isPort ∧ isEthSwitchPort conf req

instance : Decidable (makesEthSwitch conf req) := inferInstanceAs (Decidable (_ ∧ _))

/-- The bridge of the port, of each technology, that the work-around leaves it. -/
def bridgeBefore (conf : OvsActionConfig) (env : ActionEnv) (req : GatewayConfig) (w : Membership) :
    Tool → Option CString
  | .ovs => if makesEthSwitch conf req ∧ w.Restores env req.ifName then none else w.bridgeOf .ovs req.ifName
  | .linux =>
      if makesEthSwitch conf req then outside (w.dummies env req.ifName) (w.bridgeOf .linux req.ifName)
      else w.bridgeOf .linux req.ifName

/-- The port is on no bridge of the other technology, and its parent bridge is
there or is made; or it is on a bridge of the other technology with the parent
bridge's name. -/
def Places (conf : OvsActionConfig) (env : ActionEnv) (req : GatewayConfig) (w : Membership) : Prop :=
  bridgeBefore conf env req w req.tool.other = some req.parentBridge ∨
    (bridgeBefore conf env req w req.tool.other = none ∧
      (bridgeBefore conf env req w req.tool = some req.parentBridge ∨
        req.parentBridge ∈ w.bridges req.tool ∨ env.bridgePath = false))

/-- The state the parent bridge is configured in. -/
structure Ready (conf : OvsActionConfig) (env : ActionEnv) (req : GatewayConfig) (w w' : Membership) :
    Prop where
  bridgeOf : ∀ tool, w'.bridgeOf tool req.ifName = bridgeBefore conf env req w tool
  bridges : req.parentBridge ∈ w'.bridges req.tool ↔ req.parentBridge ∈ w.bridges req.tool

/-- Without the work-around the port is where it was. -/
theorem ready_self (h : ¬ makesEthSwitch conf req) : Ready conf env req w w where
  bridgeOf tool := by
    cases tool with
    | ovs => exact (if_neg fun hm => h hm.1).symm
    | linux => exact (if_neg h).symm
  bridges := Iff.rfl

/-- Linux bridges for the gateway are not dummy bridges. -/
theorem parentBridge_not_dummy (hport : IsEthPort req.ifName) (htool : req.tool = .linux) :
    req.parentBridge ∉ w.dummies env req.ifName := by
  have hlinux : req.parentBridge ∈ linuxBridgeNames := by
    unfold GatewayConfig.tool GatewayConfig.ovsEnabled at htool
    by_contra hnot
    rw [if_pos (by simpa using hnot)] at htool
    cases htool
  have hdisjoint : ∀ b ∈ linuxBridgeNames, b ∉ dummyBridgeNames := by decide
  intro hmem
  refine hdisjoint _ hlinux ?_
  unfold Membership.dummies at hmem
  split at hmem
  · exact hmem
  · rw [List.mem_singleton.1 hmem]
    exact dummyBridge_vlanOf hport

/-- Behind the work-around the port is where `bridgeBefore` says. -/
theorem ready_ethSwitch (hnamed : w.Named) (hp : req.isPort) (hok : ¬ ethSwitchFails conf env req)
    (h : Answered v (ethSwitch conf env req) w) :
    Ready conf env req w (w.behind v (ethSwitch conf env req)) := by
  by_cases hs : isEthSwitchPort conf req
  · have hm : makesEthSwitch conf req := ⟨hp, hs⟩
    have hswitched := switched_ethSwitch hnamed hs hok h
    refine ⟨fun tool => ?_, ?_⟩
    · cases tool with
      | ovs =>
          rw [hswitched.ovs]
          unfold bridgeBefore
          simp only [hm, true_and]
      | linux =>
          rw [hswitched.linux]
          exact (if_pos hm).symm
    · cases htool : req.tool with
      | ovs => rw [hswitched.ovsBridges]
      | linux => exact hswitched.linuxBridges _ (parentBridge_not_dummy hs.2.1 htool)
  · have hnone : w.behind v (ethSwitch conf env req) = w := by
      unfold ethSwitch
      rw [if_neg hs]
      rfl
    rw [hnone]
    exact ready_self fun hm => hs hm.2

/-- The filter names no bridge of its own. -/
theorem eq_some_of_outside {dummies : List CString} {bridge : Option CString} {b : CString}
    (h : outside dummies bridge = some b) : bridge = some b := by
  cases bridge with
  | none => exact h
  | some b' =>
      unfold outside at h
      dsimp only at h
      split at h
      · cases h
      · exact h

/-- A bridge the port is left on is one it was on. -/
theorem bridgeOf_of_bridgeBefore {tool : Tool} {b : CString} (h : bridgeBefore conf env req w tool = some b) :
    w.bridgeOf tool req.ifName = some b := by
  unfold bridgeBefore at h
  cases tool with
  | ovs =>
      dsimp only at h
      split at h
      · cases h
      · exact h
  | linux =>
      dsimp only at h
      split at h
      · exact eq_some_of_outside h
      · exact h

/-- The query is answered in the state before the request's commands. -/
theorem answered_portQuery {w : Membership} (h : Answered v (ovsModifyParentBridge conf env req) w) :
    Answered v (portQuery env req req.ovsEnabled) w := by
  unfold ovsModifyParentBridge removeExistingInterfacePort at h
  have hremove := ((answered_bind _ _).1 ((answered_returning _ _).1 h)).1
  exact ((answered_bind _ _).1 ((answered_returning _ _).1 hremove)).1

/-- A success has its query behind it. -/
theorem not_queryFails_of_success (h : modifyStatus conf env req = .success) :
    ¬ env.queryFails req.ovsEnabled := by
  intro hf
  unfold modifyStatus at h
  rw [if_pos hf] at h
  cases h

/-- **The parent bridge is configured** in a state that is ready for it. -/
theorem Ready.placed {w' : Membership} (hready : Ready conf env req w w') (hnamed : w.Named)
    (hup : req.Asks .ifUp) (hsuccess : modifyStatus conf env req = .success)
    (h : Answered v (ovsModifyParentBridge conf env req) w') :
    (w'.behind v (ovsModifyParentBridge conf env req)).Placed req.ifName req.parentBridge
      ↔ Places conf env req w := by
  have hf := not_queryFails_of_success hsuccess
  have hname : ∀ b, w'.bridgeOf req.tool req.ifName = some b → IsDeviceName b := by
    intro b hb
    rw [hready.bridgeOf] at hb
    exact hnamed _ _ b (bridgeOf_of_bridgeBefore hb)
  rw [placed_ovsModifyParentBridge_iff hup hf (existingBridge_eq hname hf (answered_portQuery h)),
    hready.bridgeOf, hready.bridgeOf, hready.bridges]
  rfl

theorem inert_vlanCommand (w : Membership) : (vlanCommand conf req).act v w = w := by
  unfold vlanCommand
  split <;> rfl

theorem inert_ovsSetupPortFlows : RunsOnly (Command.Inert v) (ovsSetupPortFlows conf env req) := by
  refine all_ovsSetupPortFlows.2 ⟨fun _ _ => ⟨?_, ?_⟩, fun _ => inert_ovsSetupBridgeFlows, trivial⟩
  · exact all_ovsSetupAdminGuiAccess.2 ⟨trivial, fun ip _ => (all_setupGuiFlows ip).2 ⟨fun _ => rfl,
      fun _ => rfl,
      fun _ => ⟨fun _ => rfl, fun _ _ => ⟨fun _ => rfl, fun _ => rfl⟩⟩⟩, trivial⟩
  · exact all_ovsBlockMsoUiAccess.2 ⟨trivial, fun _ _ => ⟨fun _ => rfl, fun _ _ => rfl⟩, trivial⟩

/-- The handlers of VLANs and GRE interfaces make the interface first. -/
theorem behind_interface {helper : Helper} {c : Prop} [Decidable c] {cmd : Command} {p : Action OvsStatus}
    (hcmd : ∀ w, cmd.act v w = w)
    (h : Answered v (returning helper (when c (system cmd) >>= fun _ => ifconfigUpDown req req.ifName >>=
      fun _ => p)) w) :
    Answered v p w ∧
      w.behind v (returning helper (when c (system cmd) >>= fun _ => ifconfigUpDown req req.ifName >>=
        fun _ => p))
        = w.behind v p := by
  have hmake : w.behind v (when c (system cmd)) = w := by
    rw [behind_when, behind_system, hcmd, ite_self]
  have hupdown : w.behind v (ifconfigUpDown req req.ifName) = w := behind_of_inert (inert_ifconfigUpDown _) w
  rw [answered_returning, answered_bind, answered_bind, hmake, hupdown] at h
  rw [behind_returning, behind_bind, behind_bind, hmake, hupdown]
  exact ⟨h.2.2, rfl⟩

/-- The handler of ports goes on behind the work-around. -/
theorem behind_ovsAddPort (hd : ¬ req.Asks .ifDelete) (hne : req.parentBridge ≠ [])
    (hok : ¬ ethSwitchFails conf env req) (hsuccess : modifyStatus conf env req = .success)
    (h : Answered v (ovsAddPort conf env req) w) :
    Answered v (ethSwitch conf env req) w ∧
      Answered v (ovsModifyParentBridge conf env req) (w.behind v (ethSwitch conf env req)) ∧
      w.behind v (ovsAddPort conf env req)
        = (w.behind v (ethSwitch conf env req)).behind v (ovsModifyParentBridge conf env req) := by
  have hupdown : ∀ w : Membership, w.behind v (ifconfigUpDown req req.ifName) = w :=
    behind_of_inert (inert_ifconfigUpDown _)
  have hflows : ∀ w : Membership, w.behind v (ovsSetupPortFlows conf env req) = w :=
    behind_of_inert inert_ovsSetupPortFlows
  have hswitch : (ethSwitch conf env req).value = .success := by rw [ethSwitch_value, if_neg hok]
  have hmodify : (ovsModifyParentBridge conf env req).value = .success :=
    ovsModifyParentBridge_value.trans hsuccess
  unfold ovsAddPort addPortToParentBridge at h ⊢
  rw [if_neg hd, if_pos hne] at h ⊢
  rw [answered_returning, answered_bind, hswitch] at h
  rw [behind_returning, behind_bind, hswitch]
  -- both statuses are a success
  have hrest : Answered v (ifconfigUpDown req req.ifName >>= fun _ => ovsModifyParentBridge conf env req >>=
      fun status =>
      if status ≠ .success then pure status else ovsSetupPortFlows conf env req)
      (w.behind v (ethSwitch conf env req)) := h.2
  rw [answered_bind, answered_bind, hupdown] at hrest
  refine ⟨h.1, hrest.2.1, ?_⟩
  show Membership.behind v _ (ifconfigUpDown req req.ifName >>=
    fun _ => ovsModifyParentBridge conf env req >>=
    fun status => if status ≠ .success then pure status else ovsSetupPortFlows conf env req) = _
  rw [behind_bind, hupdown, behind_bind, hmodify]
  exact hflows _

/-- Every handler comes to the parent bridge in a state that is ready. -/
theorem comes_to_parentBridge (hnamed : w.Named) (hup : req.Asks .ifUp) (hb : ¬ req.IsType .bridge)
    (hne : req.parentBridge ≠ []) (h : Answered v (ovsActionGatewayConfig conf env req) w)
    (hsuccess : (ovsActionGatewayConfig conf env req).value = .success) :
    modifyStatus conf env req = .success ∧ ∃ w', Ready conf env req w w' ∧
      Answered v (ovsModifyParentBridge conf env req) w' ∧
      w.behind v (ovsActionGatewayConfig conf env req) =
        w'.behind v (ovsModifyParentBridge conf env req) := by
  have hd : ¬ req.Asks .ifDelete := fun hd => (by cases hup.unique hd)
  rcases ovsActionGatewayConfig_cases conf env req with
      ⟨ht, _⟩ | ⟨ht, heq⟩ | ⟨ht, heq⟩ | ⟨ht, heq⟩
  · exact absurd ht hb
  -- a VLAN and a GRE tunnel are made on the way, which moves no port
  · have hm : ¬ makesEthSwitch conf req := fun hm => hm.1.2.1 ht
    rw [heq, ovsCreateVlan_value, if_neg hd, modifyParentBridgeIfAny_value, if_neg hne] at hsuccess
    rw [heq] at h ⊢
    unfold ovsCreateVlan modifyParentBridgeIfAny at h ⊢
    rw [if_neg hd, if_pos hne] at h ⊢
    obtain ⟨hmodify, hbehind⟩ := behind_interface (fun w => inert_vlanCommand w) h
    exact ⟨hsuccess, w, ready_self hm, hmodify, hbehind⟩
  · have hm : ¬ makesEthSwitch conf req := fun hm => hm.1.2.2 ht
    rw [heq, ovsCreateGRE_value, if_neg hd, modifyParentBridgeIfAny_value, if_neg hne] at hsuccess
    rw [heq] at h ⊢
    unfold ovsCreateGRE modifyParentBridgeIfAny at h ⊢
    rw [if_neg hd, if_pos hne] at h ⊢
    obtain ⟨hmodify, hbehind⟩ := behind_interface (fun _ => rfl) h
    exact ⟨hsuccess, w, ready_self hm, hmodify, hbehind⟩
  -- a port may be switched first, which a failed query would have ended
  · rw [heq, ovsAddPort_value, if_neg hd] at hsuccess
    by_cases hf : ethSwitchFails conf env req
    · rw [if_pos hf] at hsuccess
      cases hsuccess
    · rw [if_neg hf, addPortToParentBridge_value, if_neg hne] at hsuccess
      have hmodify : modifyStatus conf env req = .success := by
        by_contra hnot
        rw [if_pos hnot] at hsuccess
        exact hnot hsuccess
      rw [heq] at h ⊢
      obtain ⟨hswitch, hanswered, hbehind⟩ := behind_ovsAddPort hd hne hf hmodify h
      exact ⟨hmodify, _, ready_ethSwitch hnamed ht hf hswitch, hanswered, hbehind⟩

/-- One port on one bridge, and nothing else. -/
def oneMember (tool : Tool) (bridge port : CString) : Membership where
  bridges t := if t = tool then [bridge] else []
  bridgeOf t p := if t = tool ∧ p = port then some bridge else none

theorem oneMember_named {tool : Tool} {bridge : CString} (h : IsDeviceName bridge) (port : CString) :
    (oneMember tool bridge port).Named := by
  intro t p b hb
  unfold oneMember at hb
  dsimp only at hb
  split at hb
  · cases hb
    exact h
  · cases hb

end OvsAgent
