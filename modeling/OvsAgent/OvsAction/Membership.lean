/-
  OvsAgent.OvsAction.Membership — which port is on which bridge.

  The state the commands of ovs_action.c act on, seen from outside: the
  bridges of the two technologies and the ports on them.  `add-port` and
  `addif` attach a port that is on no bridge, `del-port` and `delif` detach
  it, and the queries of a request are answered from the state
  (`ActionEvent.truthful`).

  Main results: `ovsParentBridge_report` and `linuxParentBridge_report` — the
  code reads off a truthful answer just the bridge the port is on.
-/
import OvsAgent.OvsAction.BridgeTools

namespace OvsAgent

open CString (ofString fgets chomp strstr)
open Traced

/-! ## §1. The state. -/

/-- The bridges there are, and the bridge each port is on, for each technology. -/
structure Membership where
  bridges : Tool → List CString
  bridgeOf : Tool → CString → Option CString

namespace Membership

/-- The port is on no bridge. -/
def Free (w : Membership) (port : CString) : Prop :=
  w.bridgeOf .ovs port = none ∧ w.bridgeOf .linux port = none

instance (w : Membership) (port : CString) : Decidable (w.Free port) := inferInstanceAs (Decidable (_ ∧ _))

def setBridge (w : Membership) (tool : Tool) (port : CString) (bridge : Option CString) : Membership :=
  { w with bridgeOf := fun t p => if t = tool ∧ p = port then bridge else w.bridgeOf t p }

/-- `ovs-vsctl add-port`, `brctl addif`. -/
def attach (w : Membership) (tool : Tool) (bridge port : CString) : Membership :=
  if bridge ∈ w.bridges tool ∧ w.Free port then w.setBridge tool port (some bridge) else w

/-- `ovs-vsctl del-port`, `brctl delif`. -/
def detach (w : Membership) (tool : Tool) (bridge port : CString) : Membership :=
  if w.bridgeOf tool port = some bridge then w.setBridge tool port none else w

/-- `ovs-vsctl add-br`, `brctl addbr`. -/
def create (w : Membership) (tool : Tool) (bridge : CString) : Membership :=
  { w with bridges := fun t => if t = tool then bridge :: w.bridges t else w.bridges t }

/-- `ovs-vsctl del-br`, `brctl delbr`: the bridge's ports are on no bridge then. -/
def remove (w : Membership) (tool : Tool) (bridge : CString) : Membership where
  bridges t := if t = tool then (w.bridges t).filter (· ≠ bridge) else w.bridges t
  bridgeOf t p := if t = tool ∧ w.bridgeOf t p = some bridge then none else w.bridgeOf t p

/-- At most a Linux bridge `bridge` is made and free ports are attached to it. -/
structure JoinsOnly (bridge : CString) (w w' : Membership) : Prop where
  ovs : ∀ port, w'.bridgeOf .ovs port = w.bridgeOf .ovs port
  linux : ∀ port, w'.bridgeOf .linux port = w.bridgeOf .linux port ∨
    (w.Free port ∧ w'.bridgeOf .linux port = some bridge)
  ovsBridges : w'.bridges .ovs = w.bridges .ovs
  linuxBridges : ∀ b, b ≠ bridge → (b ∈ w'.bridges .linux ↔ b ∈ w.bridges .linux)

theorem joinsOnly_create (w : Membership) (bridge : CString) :
    JoinsOnly bridge w (w.create .linux bridge) where
  ovs _ := rfl
  linux _ := Or.inl rfl
  ovsBridges := rfl
  linuxBridges b hb := by
    show b ∈ bridge :: w.bridges .linux ↔ _
    rw [List.mem_cons, or_iff_right hb]

theorem joinsOnly_refl (bridge : CString) (w : Membership) : JoinsOnly bridge w w :=
  ⟨fun _ => rfl, fun _ => Or.inl rfl, rfl, fun _ _ => Iff.rfl⟩

variable {w : Membership} {tool t : Tool} {bridge port p : CString}

theorem attach_bridges (w : Membership) (tool : Tool) (bridge port : CString) :
    (w.attach tool bridge port).bridges = w.bridges := by
  unfold attach
  split <;> rfl

theorem detach_bridges (w : Membership) (tool : Tool) (bridge port : CString) :
    (w.detach tool bridge port).bridges = w.bridges := by
  unfold detach
  split <;> rfl

/-- Other ports stay where they are. -/
theorem attach_other (h : p ≠ port) : (w.attach tool bridge port).bridgeOf t p = w.bridgeOf t p := by
  unfold attach
  split
  · exact if_neg fun hp => h hp.2
  · rfl

theorem detach_other (h : p ≠ port) : (w.detach tool bridge port).bridgeOf t p = w.bridgeOf t p := by
  unfold detach
  split
  · exact if_neg fun hp => h hp.2
  · rfl

theorem detach_otherTool (h : t ≠ tool) : (w.detach tool bridge port).bridgeOf t p = w.bridgeOf t p := by
  unfold detach
  split
  · exact if_neg fun hp => h hp.1
  · rfl

theorem detach_self :
    (w.detach tool bridge port).bridgeOf tool port
      = if w.bridgeOf tool port = some bridge then none else w.bridgeOf tool port := by
  unfold detach
  split
  · exact if_pos ⟨rfl, rfl⟩
  · rfl

theorem attach_of_free (hb : bridge ∈ w.bridges tool) (hf : w.Free port) (t : Tool) :
    (w.attach tool bridge port).bridgeOf t port = if t = tool then some bridge else none := by
  unfold attach
  rw [if_pos ⟨hb, hf⟩]
  show (if t = tool ∧ port = port then some bridge else w.bridgeOf t port) = _
  have hnone : w.bridgeOf t port = none := by
    cases t with
    | ovs => exact hf.1
    | linux => exact hf.2
  rw [hnone]
  simp

theorem attach_of_not (h : ¬ (bridge ∈ w.bridges tool ∧ w.Free port)) : w.attach tool bridge port = w :=
  if_neg h

end Membership

/-! ## §2. What the commands do. -/

/-- `/bin/vlan_util`, which is not part of the repository: it makes the dummy
bridge of a VLAN and attaches interfaces to it. -/
structure VlanUtil where
  addGroup : CString → Membership → Membership
  addInterface : CString → CString → Membership → Membership
  addGroup_joins : ∀ vlan w, Membership.JoinsOnly (dummyBridge vlan) w (addGroup vlan w)
  addInterface_joins : ∀ vlan port w, Membership.JoinsOnly (dummyBridge vlan) w (addInterface vlan port w)

/-- A `vlan_util` that makes the bridge and nothing else. -/
def VlanUtil.bare : VlanUtil where
  addGroup vlan w := w.create .linux (dummyBridge vlan)
  addInterface _ _ w := w
  addGroup_joins vlan w := Membership.joinsOnly_create w (dummyBridge vlan)
  addInterface_joins vlan _ w := Membership.joinsOnly_refl (dummyBridge vlan) w

/-- The state behind a command.  An interface that is deleted leaves its Linux bridge. -/
def Command.act (v : VlanUtil) : Command → Membership → Membership
  | .ovsVsctlAddBr bridge, w => w.create .ovs bridge
  | .ovsVsctlDelBr bridge, w => w.remove .ovs bridge
  | .ovsVsctlAddPort bridge port, w => w.attach .ovs bridge port
  | .ovsVsctlDelPort bridge port, w => w.detach .ovs bridge port
  | .brctlAddbr bridge, w => w.create .linux bridge
  | .brctlAddif bridge port, w => w.attach .linux bridge port
  | .brctlDelif bridge port, w => w.detach .linux bridge port
  | .vlanUtilAddGroup vlan, w => v.addGroup vlan w
  | .vlanUtilAddInterface vlan port, w => v.addInterface vlan port w
  | .brctlDelifDummy vlan port, w => w.detach .linux (dummyBridge vlan) port
  | .brctlDelbrDummy vlan, w => w.remove .linux (dummyBridge vlan)
  | .ipLinkDel ifname, w => w.setBridge .linux ifname none
  | _, w => w

/-- Only commands that `system` runs change the state. -/
def ActionEvent.act (v : VlanUtil) : ActionEvent → Membership → Membership
  | .system cmd, w => cmd.act v w
  | _, w => w

/-- The state behind a computation. -/
def Membership.behind {α : Type} (v : VlanUtil) (w : Membership) (p : Action α) : Membership :=
  exec (ActionEvent.act v) p w

/-- The command leaves every state alone. -/
def Command.Inert (v : VlanUtil) (cmd : Command) : Prop := ∀ w, cmd.act v w = w

theorem behind_of_inert {α : Type} {v : VlanUtil} {p : Action α} (h : RunsOnly (Command.Inert v) p)
    (w : Membership) : w.behind v p = w := by
  have hself : p.All fun e => ∀ w, e.act v w = w := by
    intro e he w
    have hrun := h e he
    cases e with
    | system cmd => exact hrun w
    | _ => rfl
  exact exec_eq_self _ hself w

/-! ## §3. What the queries say. -/

/-- A name the kernel gives to a network device. -/
def IsDeviceName (name : CString) : Prop :=
  name ≠ [] ∧ name.length ≤ 15 ∧ ∀ b ∈ name, CString.isSpace b = false ∧ b ≠ 47 ∧ b ≠ 58

/-- The bridges that ports are on have names. -/
def Membership.Named (w : Membership) : Prop :=
  ∀ tool port bridge, w.bridgeOf tool port = some bridge → IsDeviceName bridge

/-- What `ovs-vsctl iface-to-br` prints; its error message does not go to the pipe. -/
def ifaceToBr : Option CString → CString
  | some bridge => bridge ++ [10]
  | none => []

/-- The beginning of the uevent file of the Linux bridge `bridge`. -/
def uevent (bridge : CString) : CString :=
  ofString "DEVTYPE=bridge" ++ 10 :: (ofString "INTERFACE=" ++ bridge ++ [10])

/-- The port whose bridge the path names. -/
def brportOf (path : CString) : Option CString :=
  let port := (path.drop 15).take (path.length - 36)
  if path = brportPath port then some port else none

theorem brportOf_brportPath (port : CString) : brportOf (brportPath port) = some port := by
  have hnet : (ofString "/sys/class/net/").length = 15 := rfl
  have huevent : (ofString "/brport/bridge/uevent").length = 21 := rfl
  have hport : ((brportPath port).drop 15).take ((brportPath port).length - 36) = port := by
    have hlen : (brportPath port).length - 36 = port.length := by
      unfold brportPath sysClassNetPath
      rw [List.length_append, List.length_append]
      omega
    rw [hlen]
    unfold brportPath sysClassNetPath
    rw [List.append_assoc, ← hnet, List.drop_left, List.take_left]
  unfold brportOf
  dsimp only
  rw [hport, if_pos rfl]

/-- The answer is the state's.  A query may fail. -/
def ActionEvent.truthful : ActionEvent → Membership → Bool
  | .popen (.ovsVsctlIfaceToBr port) (some output), w => output == ifaceToBr (w.bridgeOf .ovs port)
  | .popen (.cat path) (some output), w =>
      (brportOf path).all fun port => (w.bridgeOf .linux port).all
      fun bridge => (uevent bridge).isPrefixOf output
  | .access path found, w => (brportOf path).all fun port => found == (w.bridgeOf .linux port).isSome
  | _, _ => true

theorem truthful_access (port : CString) (found : Bool) (w : Membership) :
    ActionEvent.truthful (.access (brportPath port) found) w =
      (found == (w.bridgeOf .linux port).isSome) := by
  show (brportOf (brportPath port)).all _ = _
  rw [brportOf_brportPath]
  rfl

theorem truthful_cat (port output : CString) (w : Membership) :
    ActionEvent.truthful (.popen (.cat (brportPath port)) (some output)) w
      = (w.bridgeOf .linux port).all fun bridge => (uevent bridge).isPrefixOf output := by
  show (brportOf (brportPath port)).all _ = _
  rw [brportOf_brportPath]
  rfl

/-- Every query of the computation is answered from the state it finds. -/
def Answered {α : Type} (v : VlanUtil) (p : Action α) (w : Membership) : Prop :=
  Admits (ActionEvent.act v) (fun e w => e.truthful w = true) p w

instance {α : Type} (v : VlanUtil) (p : Action α) (w : Membership) : Decidable (Answered v p w) :=
  inferInstanceAs (Decidable (Allowed (ActionEvent.act v) (fun e w => e.truthful w = true) w p.trace))

theorem not_newline {name : CString} (h : IsDeviceName name) : 10 ∉ name := fun hmem =>
  absurd (h.2.2 10 hmem).1 (by decide)

/-- **The OVS bridge of a port is read off the answer.** -/
theorem ovsParentBridge_report {bridge : Option CString} (h : ∀ b, bridge = some b → IsDeviceName b) :
    ovsParentBridge (ifaceToBr bridge) = bridge := by
  cases bridge with
  | none => rfl
  | some b =>
      have hb := h b rfl
      have hlen := hb.2.1
      have hlines : fgets 31 (b ++ [10]) = [b ++ [10]] := CString.fgets_line (not_newline hb) (by omega)
      -- no device name has the colon of an error message
      have herror : CString.startsWith (ofString "ovs-vsctl:") b = false := by
        rw [Bool.eq_false_iff]
        intro hprefix
        have hcolon : (58 : UInt8) ∈ b := (List.isPrefixOf_iff_prefix.1 hprefix).subset (by decide)
        exact (hb.2.2 58 hcolon).2.2 rfl
      have hline : chomp ((fgets 31 (b ++ [10])).getLastD []) = b := by
        rw [hlines]
        exact CString.chomp_line b
      unfold ovsParentBridge ifaceToBr
      simp only [hline]
      exact if_pos ⟨hb.1, herror⟩

/-- **The Linux bridge of a port is read off the uevent file.** -/
theorem linuxParentBridge_report {bridge output : CString} (h : IsDeviceName bridge)
    (hpre : uevent bridge <+: output) :
    linuxParentBridge output = some bridge := by
  obtain ⟨more, rfl⟩ := hpre
  have hlen := h.2.1
  have hdevtype : (ofString "DEVTYPE=bridge").length < 63 := by decide
  have hinterface : 10 ∉ ofString "INTERFACE=" ++ bridge := by
    rw [List.mem_append, not_or]
    exact ⟨by decide, not_newline h⟩
  have hroom : (ofString "INTERFACE=" ++ bridge).length < 63 := by
    have hten : (ofString "INTERFACE=").length = 10 := rfl
    rw [List.length_append]
    omega
  have htext : uevent bridge ++ more
      = ofString "DEVTYPE=bridge" ++ 10 :: (ofString "INTERFACE=" ++ bridge ++ 10 :: more) := by
    unfold uevent
    simp only [List.append_assoc, List.cons_append, List.nil_append]
  have hlines : fgets 63 (uevent bridge ++ more)
      = (ofString "DEVTYPE=bridge" ++ [10]) :: (ofString "INTERFACE=" ++ bridge ++ [10]) ::
        fgets 63 more := by
    rw [htext, CString.fgets_line (by decide) hdevtype, CString.fgets_line hinterface hroom]
  have hfirst : strstr (ofString "INTERFACE=") (ofString "DEVTYPE=bridge" ++ [10]) = none := by decide
  have hsecond : strstr (ofString "INTERFACE=") (ofString "INTERFACE=" ++ bridge ++ [10])
      = some (ofString "INTERFACE=" ++ (bridge ++ [10])) := rfl
  unfold linuxParentBridge
  rw [hlines, List.findSome?_cons, hfirst, List.findSome?_cons, hsecond]
  show (if (chomp (bridge ++ [10])).take 32 ≠ [] then some ((chomp (bridge ++ [10])).take 32) else none) = _
  rw [CString.chomp_line, List.take_of_length_le (by omega), if_pos h.1]

end OvsAgent
