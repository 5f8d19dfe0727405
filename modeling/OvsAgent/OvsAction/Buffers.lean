/-
  OvsAgent.OvsAction.Buffers — that no command of a request is cut short.

  ovs_action.c formats every command with `snprintf` into 250 bytes, and paths
  into 128 or 64, without a look at the result.  What keeps the texts whole are
  the lengths of their fields, and these come from elsewhere: from the arrays
  of Gateway_Config, the buffers of `fgets` and the checks on addresses.

      text of a format  ≤  its own text + 45 for every field  ≤  249

  Main results:
    * `runsOnly_of_room` — a law that holds of every command with room for its
      fields holds of every command of a request;
    * `no_command_cut_short` — every command and path of a request is whole.
-/
import OvsAgent.OvsAction.Runs
import OvsAgent.DbApi.RowArrays

namespace OvsAgent

open CString (ofString utoa CharArray)
open Traced

variable {conf : OvsActionConfig} {env : ActionEnv} {req : GatewayConfig}

/-! ## §1. Formats. -/

/-- The text fits the buffer `cmd`. -/
def Command.Short (c : Command) : Prop := (c.template.flatMap Piece.bytes).length ≤ 249

/-- The lengths of the texts of a format, and the number of its fields. -/
def textLength : List Piece → Nat
  | [] => 0
  | .text s :: pieces => (ofString s).length + textLength pieces
  | .field _ :: pieces => textLength pieces

/-- The fields of a format. -/
def fieldCount : List Piece → Nat
  | [] => 0
  | .text _ :: pieces => fieldCount pieces
  | .field _ :: pieces => fieldCount pieces + 1

/-- No field is longer than `n`. -/
def FieldsWithin (n : Nat) : List Piece → Prop
  | [] => True
  | .text _ :: pieces => FieldsWithin n pieces
  | .field w :: pieces => w.length ≤ n ∧ FieldsWithin n pieces

/-- The texts and `n` bytes for each field. -/
theorem length_le_of_fieldsWithin {n : Nat} {pieces : List Piece} (h : FieldsWithin n pieces) :
    (pieces.flatMap Piece.bytes).length ≤ textLength pieces + n * fieldCount pieces := by
  induction pieces with
  | nil => exact Nat.zero_le _
  | cons piece pieces ih =>
      cases piece with
      | text s =>
          have hrest := ih h
          show (ofString s ++ pieces.flatMap Piece.bytes).length ≤
            (ofString s).length + textLength pieces + _
          rw [List.length_append]
          show _ ≤ _ + n * fieldCount pieces
          omega
      | field w =>
          have hrest := ih h.2
          have hw := h.1
          show (w ++ pieces.flatMap Piece.bytes).length ≤ textLength pieces + n * (fieldCount pieces + 1)
          rw [List.length_append, Nat.mul_add]
          omega

/-- There is room for 45 bytes in every field of every format. -/
theorem room_for_fields (c : Command) : textLength c.template + 45 * fieldCount c.template ≤ 249 := by
  cases c with
  | ovsOfctlDelFlows bridge flow => cases flow <;> exact Nat.le_of_ble_eq_true rfl
  | ovsOfctlAddFlow bridge flow macAddress port => cases flow <;> exact Nat.le_of_ble_eq_true rfl
  | ovsOfctlAddFlowDrop bridge flow => cases flow <;> exact Nat.le_of_ble_eq_true rfl
  | ovsOfctlDelEtherFlows bridge type => cases type <;> exact Nat.le_of_ble_eq_true rfl
  | ovsOfctlAddEtherFlow bridge type => cases type <;> exact Nat.le_of_ble_eq_true rfl
  | ifconfigUpDown ifname up => cases up <;> exact Nat.le_of_ble_eq_true rfl
  | _ => exact Nat.le_of_ble_eq_true rfl

/-- Fields of 45 bytes at most fit, whatever the command. -/
theorem short_of_fieldsWithin {c : Command} (h : FieldsWithin 45 c.template) : c.Short :=
  Nat.le_trans (length_le_of_fieldsWithin h) (room_for_fields c)

/-- The longest path of the port query leaves room in its command. -/
theorem short_cat {path : CString} (h : path.length ≤ 60) : (Command.cat path).Short := by
  have htext : (ofString "cat ").length = 4 := rfl
  show (ofString "cat " ++ (path ++ [])).length ≤ 249
  rw [List.append_nil, List.length_append]
  omega

/-! ## §2. How long the fields are. -/

/-- The fields of a request are held by their arrays and `int`s. -/
structure GatewayConfig.Bounded (req : GatewayConfig) : Prop where
  ifName : req.ifName.length ≤ 15
  inetAddr : req.inetAddr.length ≤ 15
  netmask : req.netmask.length ≤ 15
  greRemoteInetAddr : req.greRemoteInetAddr.length ≤ 15
  greLocalInetAddr : req.greLocalInetAddr.length ≤ 15
  parentIfname : req.parentIfname.length ≤ 15
  parentBridge : req.parentBridge.length ≤ 15
  mtu : req.mtu.natAbs < 2 ^ 32
  vlanId : req.vlanId.natAbs < 2 ^ 32

/-- `(int)` keeps 32 bits. -/
theorem fetchInt_natAbs_lt (root : Option Json) (key : CString) : (fetchInt root key).natAbs < 2 ^ 32 := by
  unfold fetchInt toInt
  generalize Json.integerValue (Json.objectGet root key) = i
  have hlo := Int.le_bmod (x := i) (m := 2 ^ 32) (by omega)
  have hhi := Int.bmod_lt (x := i) (m := 2 ^ 32) (by omega)
  omega

/-- Rows give bounded requests. -/
theorem bounded_gatewayConfigParser (row : Json) : (gatewayConfigParser row).Bounded where
  ifName := fetchInto_length_le _ _ _
  inetAddr := fetchInto_length_le _ _ _
  netmask := fetchInto_length_le _ _ _
  greRemoteInetAddr := fetchInto_length_le _ _ _
  greLocalInetAddr := fetchInto_length_le _ _ _
  parentIfname := fetchInto_length_le _ _ _
  parentBridge := fetchInto_length_le _ _ _
  mtu := fetchInt_natAbs_lt _ _
  vlanId := fetchInt_natAbs_lt _ _

/-- So do the arrays they are parsed into. -/
theorem bounded_gatewayConfigArrays (row : Json) : (gatewayConfigArrays row).read.Bounded where
  ifName := Nat.le_of_lt_succ (CharArray.read_length_lt (terminated_fetchArray ..))
  inetAddr := Nat.le_of_lt_succ (CharArray.read_length_lt (terminated_fetchArray ..))
  netmask := Nat.le_of_lt_succ (CharArray.read_length_lt (terminated_fetchArray ..))
  greRemoteInetAddr := Nat.le_of_lt_succ (CharArray.read_length_lt (terminated_fetchArray ..))
  greLocalInetAddr := Nat.le_of_lt_succ (CharArray.read_length_lt (terminated_fetchArray ..))
  parentIfname := Nat.le_of_lt_succ (CharArray.read_length_lt (terminated_fetchArray ..))
  parentBridge := Nat.le_of_lt_succ (CharArray.read_length_lt (terminated_fetchArray ..))
  mtu := fetchInt_natAbs_lt _ _
  vlanId := fetchInt_natAbs_lt _ _

/-- Ten digits and a sign. -/
theorem itoa_length_le {i : Int} (h : i.natAbs < 2 ^ 32) : (itoa i).length ≤ 11 := by
  have hlen := CString.utoa_length_le h
  unfold itoa
  split
  · rw [List.length_cons]
    omega
  · omega

/-- The bridge is read with `fgets` into an array of 32 bytes. -/
theorem ovsParentBridge_length_le {output bridge : CString} (h : ovsParentBridge output = some bridge) :
    bridge.length ≤ 31 := by
  unfold ovsParentBridge at h
  dsimp only at h
  split at h
  · cases h
    -- the last line that `fgets` read into 32 bytes
    refine Nat.le_trans (CString.chomp_length_le _) ?_
    cases hlast : (CString.fgets 31 output).getLast? with
    | none => rw [List.getLastD_eq_getLast?, hlast]; exact Nat.zero_le _
    | some line =>
        rw [List.getLastD_eq_getLast?, hlast]
        exact CString.length_of_mem_fgets (by decide) (List.mem_of_getLast? hlast)
  · cases h

/-- The bridge of the uevent file is cut to the size of its array. -/
theorem linuxParentBridge_length_le {output bridge : CString} (h : linuxParentBridge output = some bridge) :
    bridge.length ≤ 32 := by
  unfold linuxParentBridge at h
  split at h
  · cases h
  · dsimp only at h
    split at h
    · cases h
      exact List.length_take_le _ _
    · cases h

theorem ovsBridge_length_le {answer : Option CString} {bridge : CString}
    (h : answer.bind ovsParentBridge = some bridge) : bridge.length ≤ 31 := by
  obtain ⟨output, _, hb⟩ := Option.bind_eq_some_iff.1 h
  exact ovsParentBridge_length_le hb

/-- Either technology's answer. -/
theorem existingBridge_length_le {ovsEnabled : Bool} {bridge : CString}
    (h : env.existingBridge ovsEnabled = some bridge) : bridge.length ≤ 32 := by
  unfold ActionEnv.existingBridge at h
  split at h
  · exact Nat.le_trans (ovsBridge_length_le h) (by decide)
  · split at h
    · obtain ⟨output, _, hb⟩ := Option.bind_eq_some_iff.1 h
      exact linuxParentBridge_length_le hb
    · cases h

theorem restoreBridge_length_le {bridge : CString} (h : env.restoreBridge = some bridge) :
    bridge.length ≤ 31 := by
  unfold ActionEnv.restoreBridge at h
  split at h
  · exact ovsBridge_length_le h
  · cases h

/-- Only the length of an IPv4 address is taken. -/
theorem lan0Ip_length_le {ip : CString} (h : env.lan0Ip = some ip) : ip.length ≤ 15 := by
  have hlen := (Option.filter_eq_some_iff.1 h).2
  simp at hlen
  exact hlen.2

/-- Only the length of a MAC address is taken. -/
theorem lan0Mac_length_eq {mac : CString} (h : env.lan0Mac = some mac) : mac.length = 17 := by
  have hlen := (Option.filter_eq_some_iff.1 h).2
  simpa using hlen

/-- The path around a name of 15 bytes. -/
theorem brportPath_length_le {ifName : CString} (h : ifName.length ≤ 15) :
    (brportPath ifName).length ≤ 60 := by
  have hnet : (ofString "/sys/class/net/").length = 15 := rfl
  have huevent : (ofString "/brport/bridge/uevent").length = 21 := rfl
  unfold brportPath sysClassNetPath
  rw [List.length_append, List.length_append]
  omega

/-! ## §3. The commands of a request. -/

/-- A law of all commands that have room for their fields: 45 bytes in each,
more in the one of `cat`.  The CM's address is a value of CCSP and has no array;
the commands of the work-around for the switch have no fields of the row. -/
structure HoldsWithRoom (P : Command → Prop) (env : ActionEnv) (req : GatewayConfig) : Prop where
  fields : ∀ c : Command, FieldsWithin 45 c.template → (∀ vlan, c ≠ .brctlDelbrDummy vlan) → P c
  cat : ∀ path : CString, path.length ≤ 60 → P (.cat path)
  cmIp : ∀ ip, env.cmIp = some ip →
    P (.ovsOfctlDelFlows req.parentBridge (.ipv6 ip)) ∧ P (.ovsOfctlAddFlowDrop req.parentBridge (.ipv6 ip))
  fixed : ∀ cmd ∈ switchFixedCommands, P cmd

section Room

variable {P : Command → Prop} (hl : HoldsWithRoom P env req) (hb : req.Bounded)

/-- Room for the name of a bridge that was read back. -/
theorem le_room {n : Nat} (h : n ≤ 32) : n ≤ 45 := Nat.le_trans h (by decide)

section
include hb

theorem ifName_room : req.ifName.length ≤ 45 := Nat.le_trans hb.ifName (by decide)
theorem parentBridge_room : req.parentBridge.length ≤ 45 := Nat.le_trans hb.parentBridge (by decide)
theorem parentIfname_room : req.parentIfname.length ≤ 45 := Nat.le_trans hb.parentIfname (by decide)

end

include hl

/-- The switch's commands name only the two ports and bridges that OVS reported. -/
theorem room_ethSwitch : RunsOnly P (ethSwitch conf env req) := by
  have hbridge : ∀ bridge, env.ReportsBridge bridge → ∀ port, IsEthPort port →
      (P (.ovsVsctlDelPort bridge port) ↔ True) ∧ (P (.ovsVsctlAddPort bridge port) ↔ True) := by
    intro bridge hreports port hport
    have hlen : bridge.length ≤ 31 := hreports.elim restoreBridge_length_le ovsBridge_length_le
    have hfields : bridge.length ≤ 45 ∧ port.length ≤ 45 ∧ True := by
      refine ⟨Nat.le_trans hlen (by decide), ?_, trivial⟩
      rcases hport with rfl | rfl <;> decide
    exact ⟨iff_of_true (hl.fields _ hfields nofun) trivial,
      iff_of_true (hl.fields _ hfields nofun) trivial⟩
  exact (runsOnly_ethSwitch_iff hl.fixed hbridge).2 fun _ _ _ => ⟨trivial, fun _ _ => trivial⟩

include hb

/-- The query of either technology. -/
theorem room_portQuery (ovsEnabled : Bool) : RunsOnly P (portQuery env req ovsEnabled) := by
  refine runsOnly_portQuery ovsEnabled ?_ (hl.cat _ (brportPath_length_le hb.ifName))
  exact hl.fields _ ⟨ifName_room hb, trivial⟩ nofun

/-- The bridge of a detaching command was read back. -/
theorem room_detachCommand {bridge : CString} (h : bridge.length ≤ 32) (ovsEnabled : Bool) :
    P (detachCommand req ovsEnabled bridge) := by
  unfold detachCommand
  cases ovsEnabled with
  | true => exact hl.fields _ ⟨le_room h, ifName_room hb, trivial⟩ nofun
  | false => exact hl.fields _ ⟨le_room h, ifName_room hb, trivial⟩ nofun

/-- The three commands of the configuration. -/
theorem room_parentCommands (ovsEnabled : Bool) :
    P (createCommand req ovsEnabled) ∧ P (attachCommand req ovsEnabled) ∧
      P (listCommand req ovsEnabled) := by
  have hp := parentBridge_room hb
  have hi := ifName_room hb
  unfold createCommand attachCommand listCommand
  cases ovsEnabled with
  | true =>
      exact ⟨hl.fields _ ⟨hp, trivial⟩ nofun, hl.fields _ ⟨hp, hi, trivial⟩ nofun,
        hl.fields _ ⟨hp, trivial⟩ nofun⟩
  | false =>
      exact ⟨hl.fields _ ⟨hp, trivial⟩ nofun, hl.fields _ ⟨hp, hi, trivial⟩ nofun,
        hl.fields _ ⟨hp, trivial⟩ nofun⟩

omit hb in
theorem room_ifconfigUpDown {name : CString} (h : name.length ≤ 45) (up : Bool) :
    P (.ifconfigUpDown name up) := by
  cases up <;> exact hl.fields _ ⟨h, trivial⟩ nofun

/-- The flows of a bridge name it twice at most. -/
theorem room_ovsSetupBridgeFlows : RunsOnly P (ovsSetupBridgeFlows conf req) := by
  have hp := parentBridge_room hb
  refine all_ovsSetupBridgeFlows.2
    ⟨fun _ => all_ovsSetupBrcmWifiFlows.2 ⟨fun _ type _ => ⟨?_, fun _ => ?_⟩, trivial⟩,
    trivial⟩
  · cases type <;> exact hl.fields _ ⟨hp, hp, trivial⟩ nofun
  · cases type <;> exact hl.fields _ ⟨hp, hp, trivial⟩ nofun

/-- Detaching, configuring and the flows. -/
theorem room_ovsModifyParentBridge : RunsOnly P (ovsModifyParentBridge conf env req) := by
  obtain ⟨hcreate, hattach, hlist⟩ := room_parentCommands hl hb req.ovsEnabled
  refine all_ovsModifyParentBridge.2 ⟨?_, fun _ _ => ⟨?_, fun _ => room_ovsSetupBridgeFlows hl hb⟩,
    trivial⟩
  · exact (all_removeExistingInterfacePort _).2 ⟨room_portQuery hl hb _,
      fun _ bridge hbridge _ => room_detachCommand hl hb (existingBridge_length_le hbridge) _, trivial⟩
  · exact (all_configureParentBridge _).2 ⟨trivial, fun _ => hcreate,
      fun _ => room_ifconfigUpDown hl (parentBridge_room hb) _, hattach, hlist, trivial⟩

/-- The addresses of the flows were measured when they were read. -/
theorem room_ovsSetupPortFlows : RunsOnly P (ovsSetupPortFlows conf env req) := by
  have hp := parentBridge_room hb
  have hi := ifName_room hb
  refine all_ovsSetupPortFlows.2 ⟨fun _ _ => ⟨?_, ?_⟩, fun _ => room_ovsSetupBridgeFlows hl hb,
    trivial⟩
  · refine all_ovsSetupAdminGuiAccess.2 ⟨trivial, fun ip hip => ?_, trivial⟩
    have hlen : ip.length ≤ 45 := Nat.le_trans (lan0Ip_length_le hip) (by decide)
    refine (all_setupGuiFlows ip).2 ⟨hl.fields _ ⟨hp, hlen, trivial⟩ nofun,
      hl.fields _ ⟨hp, hlen, trivial⟩ nofun,
      fun _ => ⟨hl.cat _ (by decide), fun mac hmac => ?_⟩⟩
    have hmaclen : mac.length ≤ 45 := by
      rw [lan0Mac_length_eq hmac]
      decide
    exact ⟨hl.fields _ ⟨hp, hlen, hmaclen, hi, trivial⟩ nofun,
      hl.fields _ ⟨hp, hlen, hmaclen, hi, trivial⟩ nofun⟩
  · exact all_ovsBlockMsoUiAccess.2
      ⟨trivial, fun ip hip => ⟨(hl.cmIp ip hip).1, fun _ => (hl.cmIp ip hip).2⟩, trivial⟩

theorem room_modifyParentBridgeIfAny : RunsOnly P (modifyParentBridgeIfAny conf env req) :=
  all_modifyParentBridgeIfAny.2 fun _ => room_ovsModifyParentBridge hl hb

/-- A vlan's command has its number as the last field. -/
theorem room_vlanCommand : P (vlanCommand conf req) := by
  have hvlan : (itoa req.vlanId).length ≤ 45 := Nat.le_trans (itoa_length_le hb.vlanId) (by decide)
  unfold vlanCommand
  split
  · exact hl.fields _ ⟨parentIfname_room hb, ifName_room hb, hvlan, trivial⟩ nofun
  · exact hl.fields _ ⟨parentIfname_room hb, hvlan, trivial⟩ nofun

/-- **There is room in every branch**: whatever the request, all of its
commands have the law. -/
theorem runsOnly_of_room : RunsOnly P (ovsActionGatewayConfig conf env req) := by
  have hi := ifName_room hb
  have hdel : P (.ipLinkDel req.ifName) := hl.fields _ ⟨hi, trivial⟩ nofun
  rcases ovsActionGatewayConfig_cases conf env req with
      ⟨_, heq⟩ | ⟨_, heq⟩ | ⟨_, heq⟩ | ⟨_, heq⟩
  · rw [heq]
    -- a number takes eleven bytes at most, with its sign
    have hmtu : (itoa req.mtu).length ≤ 45 := Nat.le_trans (itoa_length_le hb.mtu) (by decide)
    exact all_ovsCreateBridge.2 ⟨fun _ => hl.fields _ ⟨hi, trivial⟩ nofun,
      fun _ => ⟨hl.fields _ ⟨hi, trivial⟩ nofun,
        fun _ => hl.fields _ ⟨hi, Nat.le_trans hb.inetAddr (by decide), Nat.le_trans hb.netmask (by decide),
          trivial⟩
          nofun,
        fun _ => room_ifconfigUpDown hl hi _, fun _ => hl.fields _ ⟨hi, hmtu, trivial⟩ nofun,
        room_ovsSetupBridgeFlows hl hb⟩, trivial⟩
  · rw [heq]
    exact all_ovsCreateVlan.2 ⟨fun _ => hdel, fun _ => ⟨fun _ => room_vlanCommand hl hb,
      fun _ => room_ifconfigUpDown hl hi _, room_modifyParentBridgeIfAny hl hb⟩, trivial⟩
  · rw [heq]
    exact all_ovsCreateGRE.2 ⟨fun _ => hdel, fun _ => ⟨fun _ => hl.fields _
      ⟨hi, Nat.le_trans hb.greLocalInetAddr (by decide), Nat.le_trans hb.greRemoteInetAddr (by decide),
        parentIfname_room hb, trivial⟩ nofun,
      fun _ => room_ifconfigUpDown hl hi _, room_modifyParentBridgeIfAny hl hb⟩, trivial⟩
  · rw [heq]
    exact all_ovsAddPort.2 ⟨fun _ => hdel, fun _ => ⟨room_ethSwitch hl, fun _ =>
      ⟨fun _ => room_ifconfigUpDown hl hi _, all_addPortToParentBridge.2 fun _ =>
        ⟨room_ovsModifyParentBridge hl hb, fun _ => room_ovsSetupPortFlows hl hb⟩⟩⟩, trivial⟩

end Room

/-! ## §4. The paths of a request. -/

/-- The path fits `brpath`, the smaller of the two buffers for paths. -/
def ActionEvent.PathFits : ActionEvent → Prop
  | .access path _ => path.length < 64
  | _ => True

/-- All the paths of the computation fit. -/
def PathsFit {α : Type} (p : Action α) : Prop := p.All ActionEvent.PathFits

/-- Flows look at no path. -/
theorem pathsFit_ovsSetupBridgeFlows : PathsFit (ovsSetupBridgeFlows conf req) :=
  all_ovsSetupBridgeFlows.2
    ⟨fun _ => all_ovsSetupBrcmWifiFlows.2 ⟨fun _ _ _ => ⟨trivial, fun _ => trivial⟩, trivial⟩,
      trivial⟩

theorem pathsFit_ovsSetupPortFlows : PathsFit (ovsSetupPortFlows conf env req) := by
  refine all_ovsSetupPortFlows.2 ⟨fun _ _ => ⟨?_, ?_⟩, fun _ => pathsFit_ovsSetupBridgeFlows, trivial⟩
  · refine all_ovsSetupAdminGuiAccess.2 ⟨trivial, fun ip _ => ?_, trivial⟩
    exact (all_setupGuiFlows ip).2 ⟨trivial, trivial,
      fun _ => ⟨trivial, fun _ _ => ⟨trivial, trivial⟩⟩⟩
  · exact all_ovsBlockMsoUiAccess.2 ⟨trivial, fun _ _ => ⟨trivial, fun _ => trivial⟩, trivial⟩

theorem pathsFit_getExistingOvsParentBridge (ifName : CString) (answer : Option CString) :
    PathsFit (getExistingOvsParentBridge ifName answer) :=
  (all_getExistingOvsParentBridge ifName answer).2 ⟨trivial, trivial⟩

/-- The paths of the work-around have no fields. -/
theorem pathFits_ethPort {port : CString} (h : IsEthPort port) (found : Bool) :
    (ActionEvent.access (sysClassNetPath port) found).PathFits := by
  show (sysClassNetPath port).length < 64
  rcases h with rfl | rfl <;> decide

/-- The switch looks at the two ports only. -/
theorem pathsFit_switchCommands {ifName : CString} (h : IsEthPort ifName) (restoreBridge : Option CString) :
    PathsFit (switchCommands env ifName (otherEthPort ifName) restoreBridge) := by
  have hother : IsEthPort (otherEthPort ifName) := otherEthPort_mem ifName
  cases restoreBridge with
  | none =>
      exact (all_setupEthSwitchCmds ifName).2
        ⟨trivial, fun _ => trivial, trivial, trivial, trivial, pathFits_ethPort h _, trivial⟩
  | some restoreBridge =>
      refine (all_setupAndRestoreEthSwitchCmds _ _ _).2
        ⟨trivial, pathsFit_getExistingOvsParentBridge _ _, fun _ => ?_, trivial⟩
      exact ⟨fun _ _ => trivial, trivial, trivial, trivial, trivial, trivial, trivial, trivial,
        trivial, trivial, pathFits_ethPort h _, pathFits_ethPort hother _⟩

theorem pathsFit_ethSwitch : PathsFit (ethSwitch conf env req) := by
  refine all_ethSwitch.2 fun hs => ?_
  have hport : IsEthPort req.ifName := hs.2.1
  refine (all_ovsSetupEthSwitch hport).2 ⟨?_, ?_, trivial⟩
  · show (sysClassNetPath ethBhaulIfName).length < 64
    decide
  · refine (all_setupEthSwitchPort _ _ _).2 ⟨pathsFit_getExistingOvsParentBridge _ _,
      fun _ => ⟨?_, ?_, ?_⟩⟩
    · exact pathFits_ethPort (otherEthPort_mem _) _
    · exact pathsFit_switchCommands hport _
    · exact (all_restoreEthBhaul _).2 fun _ => ⟨trivial, trivial, trivial⟩

section Paths

variable (hb : req.Bounded)
include hb

/-- The path of a bridge has its name at the end. -/
theorem pathFits_parentBridge (found : Bool) :
    (ActionEvent.access (sysClassNetPath req.parentBridge) found).PathFits := by
  have hnet : (ofString "/sys/class/net/").length = 15 := rfl
  have hbridge := hb.parentBridge
  show (ofString "/sys/class/net/" ++ req.parentBridge).length < 64
  rw [List.length_append]
  omega

/-- The path of the Linux query is the longest one. -/
theorem pathsFit_portQuery (ovsEnabled : Bool) : PathsFit (portQuery env req ovsEnabled) := by
  unfold portQuery
  cases ovsEnabled with
  | true => exact pathsFit_getExistingOvsParentBridge _ _
  | false =>
      refine (all_getExistingLinuxParentBridge _ _ _).2 ⟨?_, fun _ => trivial, trivial⟩
      exact Nat.lt_of_le_of_lt (brportPath_length_le hb.ifName) (by decide)

theorem pathsFit_ovsModifyParentBridge : PathsFit (ovsModifyParentBridge conf env req) := by
  refine all_ovsModifyParentBridge.2 ⟨?_, fun _ _ => ⟨?_, fun _ => pathsFit_ovsSetupBridgeFlows⟩,
    trivial⟩
  · exact (all_removeExistingInterfacePort _).2 ⟨pathsFit_portQuery hb _,
      fun _ _ _ _ => trivial, trivial⟩
  · exact (all_configureParentBridge _).2
      ⟨pathFits_parentBridge hb _, fun _ => trivial, fun _ => trivial, trivial, trivial, trivial⟩

theorem pathsFit_modifyParentBridgeIfAny : PathsFit (modifyParentBridgeIfAny conf env req) :=
  all_modifyParentBridgeIfAny.2 fun _ => pathsFit_ovsModifyParentBridge hb

/-- Every path of a bounded request fits. -/
theorem pathsFit_ovsActionGatewayConfig : PathsFit (ovsActionGatewayConfig conf env req) := by
  rcases ovsActionGatewayConfig_cases conf env req with
      ⟨_, heq⟩ | ⟨_, heq⟩ | ⟨_, heq⟩ | ⟨_, heq⟩
  all_goals rw [heq]
  · exact all_ovsCreateBridge.2 ⟨fun _ => trivial, fun _ => ⟨trivial, fun _ => trivial, fun _ => trivial,
      fun _ => trivial, pathsFit_ovsSetupBridgeFlows⟩, trivial⟩
  · exact all_ovsCreateVlan.2 ⟨fun _ => trivial, fun _ => ⟨fun _ => trivial, fun _ => trivial,
      pathsFit_modifyParentBridgeIfAny hb⟩, trivial⟩
  · exact all_ovsCreateGRE.2 ⟨fun _ => trivial, fun _ => ⟨fun _ => trivial, fun _ => trivial,
      pathsFit_modifyParentBridgeIfAny hb⟩, trivial⟩
  · exact all_ovsAddPort.2 ⟨fun _ => trivial, fun _ => ⟨pathsFit_ethSwitch, fun _ => ⟨fun _ => trivial,
      all_addPortToParentBridge.2 fun _ =>
        ⟨pathsFit_ovsModifyParentBridge hb, fun _ => pathsFit_ovsSetupPortFlows⟩⟩⟩, trivial⟩

end Paths

/-! ## §5. Nothing is cut. -/

/-- The text has room in its buffer with its NUL, and is what the buffer holds. -/
def Command.Whole (cmd : Command) : Prop :=
  (cmd.template.flatMap Piece.bytes).length < 250 ∧ cmd.render = cmd.template.flatMap Piece.bytes

/-- The texts of the event are whole. -/
def ActionEvent.Whole : ActionEvent → Prop
  | .system cmd => cmd.Whole
  | .popen cmd _ => cmd.Whole
  | .access path _ => path.length < 64
  | _ => True

/-- A text that fits is what the buffer holds. -/
theorem Command.Short.whole {c : Command} (h : c.Short) : c.Whole :=
  ⟨Nat.lt_succ_of_le h, List.take_of_length_le h⟩

/-- The commands of a bounded request are short if the CM's address is. -/
theorem holdsWithRoom_short (hb : req.Bounded) (hcm : ∀ ip, env.cmIp = some ip → ip.length ≤ 45) :
    HoldsWithRoom Command.Short env req where
  fields c hfields _ := short_of_fieldsWithin hfields
  cat path hpath := short_cat hpath
  cmIp ip hip := by
    have hp := parentBridge_room hb
    have hlen := hcm ip hip
    exact ⟨short_of_fieldsWithin ⟨hp, hlen, trivial⟩, short_of_fieldsWithin ⟨hp, hlen, trivial⟩⟩
  fixed := by
    unfold Command.Short
    decide +kernel

/-- The array `existingBridge`, behind `strncpy(existing_bridge, bridge, size)`. -/
def existingBridgeArray (bridge : CString) : CharArray 32 :=
  (CharArray.zeroed 32).strncpy 32 (Nat.le_refl 32) bridge

/-- What is whole when a row is acted upon. -/
structure NothingCut (conf : OvsActionConfig) (env : ActionEnv) (row : Json) : Prop where
  fields : (gatewayConfigArrays row).Terminated
  existingBridge : ∀ ovsEnabled bridge, env.existingBridge ovsEnabled = some bridge →
    (existingBridgeArray bridge).Terminated
  texts : (ovsActionGatewayConfig conf env (gatewayConfigArrays row).read).All ActionEvent.Whole

/-- **No command is cut short.**  Whatever the row, the model and the answers:
with names of existing bridges of at most 31 bytes and an address of the CM of
at most 45, every field ends within its array, and every command and path of
the request within its buffer. -/
theorem no_command_cut_short (conf : OvsActionConfig) (env : ActionEnv) (row : Json)
    (hbridge : ∀ ovsEnabled bridge, env.existingBridge ovsEnabled = some bridge → bridge.length ≤ 31)
    (hcm : ∀ ip, env.cmIp = some ip → ip.length ≤ 45) : NothingCut conf env row where
  fields := terminated_gatewayConfigArrays row
  existingBridge ovsEnabled bridge h := by
    refine (CharArray.terminated_strncpy_iff _ bridge).2 ?_
    exact Nat.lt_of_le_of_lt (CString.untilNul_length_le bridge)
      (Nat.lt_succ_of_le (hbridge ovsEnabled bridge h))
  texts := by
    have hb := bounded_gatewayConfigArrays row
    have hcommands :
        RunsOnly Command.Short (ovsActionGatewayConfig conf env (gatewayConfigArrays row).read) :=
      runsOnly_of_room (holdsWithRoom_short hb hcm) hb
    have hpaths := @pathsFit_ovsActionGatewayConfig conf env _ hb
    intro event hmem
    have hevent := hcommands event hmem
    have hpath := hpaths event hmem
    cases event with
    | system cmd => exact Command.Short.whole hevent
    | popen cmd output => exact Command.Short.whole hevent
    | access path found => exact hpath
    | _ => trivial

/-- The port whose flows have the longest fields. -/
def longestRow : Json :=
  .object [(ofString "if_name", .string llan0EthName), (ofString "parent_bridge", .string brlan0EthName),
    (ofString "if_type", .integer 2)]

/-- A port of fifteen bytes that comes up on a Linux bridge, from another one. -/
def longestPortRow : Json :=
  .object [(ofString "if_name", .string (ofString "wl1.12345678901")),
    (ofString "parent_bridge", .string (ofString "brlan2")), (ofString "if_type", .integer 2),
    (ofString "if_cmd", .integer 0)]

/-- A bridge name of 31 bytes. -/
def longestBridge : CString := ofString "br01234567890123456789012345678"

/-- Answers as long as they may be. -/
def longestEnv : ActionEnv :=
  { quietEnv with
    brportPath := true
    brportUevent := some (ofString "INTERFACE=" ++ longestBridge ++ ofString "\n")
    lan0IpAddress := some (ofString "192.168.100.100")
    lan0MacAddress := some (ofString "00:11:22:33:44:55\n")
    cmIpAddress := some (ofString "ffff:ffff:ffff:ffff:ffff:ffff:255.255.255.255") }

theorem no_command_cut_short_longest :
    NothingCut ⟨.tg4482a, false⟩ longestEnv longestRow ∧
    NothingCut ⟨.tg4482a, false⟩ longestEnv longestPortRow ∧
    .system (.brctlDelif longestBridge (ofString "wl1.12345678901")) ∈
      (ovsActionGatewayConfig ⟨.tg4482a, false⟩ longestEnv
        (gatewayConfigArrays longestPortRow).read).trace := by
  have hbridge : ∀ ovsEnabled bridge, longestEnv.existingBridge ovsEnabled = some bridge →
      bridge.length ≤ 31 := by
    intro ovsEnabled bridge h
    cases ovsEnabled with
    | true =>
        have hovs : longestEnv.ifaceToBr.bind ovsParentBridge = some bridge := h
        exact ovsBridge_length_le hovs
    | false =>
        have hname : longestEnv.existingBridge false = some longestBridge := by decide +kernel
        rw [hname] at h
        cases h
        decide
  have hcm : ∀ ip, longestEnv.cmIp = some ip → ip.length ≤ 45 := by
    intro ip h
    have hip : longestEnv.cmIp = some (ofString "ffff:ffff:ffff:ffff:ffff:ffff:255.255.255.255") := rfl
    rw [hip] at h
    cases h
    decide
  exact ⟨no_command_cut_short _ _ _ hbridge hcm,
    no_command_cut_short _ _ _ hbridge hcm, by decide +kernel⟩

end OvsAgent
