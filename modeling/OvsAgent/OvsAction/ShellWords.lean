/-
  OvsAgent.OvsAction.ShellWords — what the shell makes of the commands.

  The fields of a row go into the commands as they are, so the shell may find
  other words in a command than its format has, and other commands.  A field
  does no harm when it is a word, or the part of one, at each of its places:
  no blank, quote or operator in it, and at the front of a word not empty.

  Main result: `shell_words_iff` — every command of a request is split into
  the words of its format exactly when `WholeWords` holds of the fields and
  answers that the request puts into commands.
-/
import OvsAgent.Lib.Shell
import OvsAgent.OvsAction.Buffers
import Mathlib.Tactic.IntervalCases

namespace OvsAgent

open CString (ofString utoa)
open Traced
open Shell (IsWord InWord)

variable {conf : OvsActionConfig} {env : ActionEnv} {req : GatewayConfig}

/-! ## §1. Commands as formats of the shell. -/

/-- A piece of a template as a part of a shell text. -/
def Piece.part : Piece → Shell.Part
  | .text s => .text (ofString s)
  | .field s => .field s

/-- The parts of the command's format. -/
def Command.parts (c : Command) : List Shell.Part := c.template.map Piece.part

/-- The parts give the text that `snprintf` is asked for. -/
theorem textOf_parts (c : Command) : Shell.textOf c.parts = c.template.flatMap Piece.bytes := by
  unfold Shell.textOf Command.parts
  rw [List.flatMap_map]
  refine List.flatMap_congr fun piece _ => ?_
  cases piece <;> rfl

/-- The shell finds in the command's text the simple commands of its format,
with each field in one word. -/
def Command.Splits (c : Command) : Prop := Shell.Splits c.render c.parts

instance (c : Command) : Decidable c.Splits := inferInstanceAs (Decidable (Shell.Splits c.render c.parts))

/-- What fits the buffer is given to the shell whole. -/
theorem Command.Short.render_eq {c : Command} (h : c.Short) : c.render = Shell.textOf c.parts := by
  rw [textOf_parts]
  exact List.take_of_length_le h

/-- The address of a match. -/
def FlowMatch.address : FlowMatch → CString
  | .arp nwDst => nwDst
  | .ip nwDst => nwDst
  | .ipv6 ipv6Dst => ipv6Dst

/-- Every field of the command fits its place; flows have to fit the buffer. -/
def Command.WordsFit : Command → Prop
  | .ovsVsctlAddBr bridge => IsWord bridge
  | .ovsVsctlDelBr bridge => IsWord bridge
  | .ovsVsctlAddPort bridge port => IsWord bridge ∧ IsWord port
  | .ovsVsctlDelPort bridge port => IsWord bridge ∧ IsWord port
  | .ovsVsctlListPorts bridge => IsWord bridge
  | .ovsVsctlIfaceToBr port => IsWord port
  | .brctlAddbr bridge => IsWord bridge
  | .brctlAddif bridge port => IsWord bridge ∧ IsWord port
  | .brctlDelif bridge port => IsWord bridge ∧ IsWord port
  | .brctlShow bridge => IsWord bridge
  | .vlanUtilAddGroup vlan => InWord vlan ∧ IsWord vlan
  | .vlanUtilAddInterface vlan port => InWord vlan ∧ IsWord port
  | .brctlDelifDummy vlan port => InWord vlan ∧ IsWord port
  | .brctlDelbrDummy vlan => InWord vlan
  | .ovsOfctlDelFlows bridge flow =>
      IsWord bridge ∧ InWord flow.address ∧ (Command.ovsOfctlDelFlows bridge flow).Short
  | .ovsOfctlAddFlow bridge flow macAddress port =>
      IsWord bridge ∧ InWord flow.address ∧ InWord macAddress ∧ InWord port
  | .ovsOfctlAddFlowDrop bridge flow =>
      IsWord bridge ∧ InWord flow.address ∧ (Command.ovsOfctlAddFlowDrop bridge flow).Short
  | .ovsOfctlDelEtherFlows bridge _ => IsWord bridge
  | .ovsOfctlAddEtherFlow bridge _ => IsWord bridge
  | .vconfigAdd ifname _ => IsWord ifname
  | .ipLinkAddVlan link ifname _ => IsWord link ∧ IsWord ifname
  | .ipLinkAddEthBhaul => True
  | .ipLinkAddGretap ifname localAddr remoteAddr dev =>
      IsWord ifname ∧ IsWord localAddr ∧ IsWord remoteAddr ∧ IsWord dev
  | .ipLinkDel ifname => IsWord ifname
  | .ifconfigUpDown ifname _ => IsWord ifname
  | .ifconfigAddr ifname inetAddr netmask => IsWord ifname ∧ IsWord inetAddr ∧ IsWord netmask
  | .ifconfigMtu ifname _ => IsWord ifname
  | .cat path => IsWord path

/-- The command splits exactly when its fields fit. -/
def Command.Ordinary (c : Command) : Prop := c.Splits ↔ c.WordsFit

/-! ## §2. Numbers are words. -/

/-- A digit is a plain character. -/
theorem classify_digit {b : UInt8} (h : CString.isDigit b = true) : Shell.classify b = .plain := by
  have hb : 48 ≤ b.toNat ∧ b.toNat ≤ 57 := by simpa [CString.isDigit] using h
  have hof : b = UInt8.ofNat b.toNat := by simp
  obtain ⟨hlo, hhi⟩ := hb
  generalize b.toNat = n at hof hlo hhi
  subst hof
  interval_cases n <;> rfl

/-- An unsigned number is one word. -/
theorem isWord_utoa (n : Nat) : IsWord (utoa n) := by
  have hdigits : ∀ b ∈ utoa n, Shell.classify b = .plain := fun b hb =>
    classify_digit (CString.isDigit_of_mem_utoa hb)
  cases h : utoa n with
  | nil => exact CString.utoa_ne_nil n h
  | cons b w =>
      rw [h] at hdigits
      exact ⟨hdigits b (List.mem_cons_self ..),
        fun x hx => Or.inl (hdigits x (List.mem_cons_of_mem _ hx))⟩

/-- So is a signed one: the sign is a plain character. -/
theorem isWord_itoa (i : Int) : IsWord (itoa i) := by
  unfold itoa
  split
  · exact ⟨rfl, (isWord_utoa i.natAbs).inWord⟩
  · exact isWord_utoa i.natAbs

/-! ## §3. A command that fits the buffer. -/

/-- A command that fits the buffer splits exactly when its fields fit their places. -/
theorem fits_iff_of_parts {c : Command} {F : Prop} (hshort : c.Short) (htight : Shell.Tight .start [] c.parts)
    (hfits : Shell.FieldsFit .start c.parts ↔ F) : c.Splits ↔ F := by
  unfold Command.Splits
  rw [hshort.render_eq, Shell.splits_iff htight]
  exact hfits

/-- A number at the end is one word more. -/
theorem fits_itoa (A : Prop) (i : Int) : A ∧ IsWord (itoa i) ∧ True ↔ A := by
  rw [and_true, and_iff_left (isWord_itoa i)]

/-- A flow that fits needs no bound of its own. -/
theorem fits_flow {A B : Prop} {c : Command} (hshort : c.Short) :
    A ∧ B ∧ True ↔ A ∧ B ∧ c.Short := by
  rw [and_true, and_iff_left hshort]

/-- The format with two blanks in front. -/
theorem ordinary_ipLinkAddVlan {link ifname : CString} {vlanId : Int}
    (hshort : (Command.ipLinkAddVlan link ifname vlanId).Short) :
    (Command.ipLinkAddVlan link ifname vlanId).Ordinary := by
  have hparts : (Command.ipLinkAddVlan link ifname vlanId).parts =
      .text (32 :: 32 :: ofString "ip link add link ") ::
      [.field link, .text (ofString " "), .field ifname, .text (ofString " type vlan proto 802.1Q id "),
        .field (itoa vlanId)] := rfl
  have htight : Shell.Tight .start [] (.text (ofString "ip link add link ") ::
      [.field link, .text (ofString " "), .field ifname, .text (ofString " type vlan proto 802.1Q id "),
        .field (itoa vlanId)]) := Or.inl rfl
  unfold Command.Ordinary Command.Splits
  rw [hshort.render_eq, hparts]
  refine (Shell.splits_blank.trans Shell.splits_blank).trans ((Shell.splits_iff htight).trans ?_)
  exact and_congr_right fun _ => fits_itoa _ vlanId

/-- Every command but one keeps its words apart by its format alone; the
format of `brctlDelbrDummy` is two commands. -/
theorem ordinary_of_short {c : Command} (hshort : c.Short) (hone : ∀ vlan, c ≠ .brctlDelbrDummy vlan) :
    c.Ordinary := by
  cases c with
  | ovsVsctlAddBr bridge => exact fits_iff_of_parts hshort (Or.inl rfl) (and_iff_left trivial)
  | ovsVsctlDelBr bridge => exact fits_iff_of_parts hshort (Or.inl rfl) (and_iff_left trivial)
  | ovsVsctlAddPort bridge port =>
      exact fits_iff_of_parts hshort (Or.inl rfl) (and_congr_right' <| and_iff_left trivial)
  | ovsVsctlDelPort bridge port =>
      exact fits_iff_of_parts hshort (Or.inl rfl) (and_congr_right' <| and_iff_left trivial)
  | ovsVsctlListPorts bridge => exact fits_iff_of_parts hshort (Or.inl rfl) (and_iff_left trivial)
  | ovsVsctlIfaceToBr port => exact fits_iff_of_parts hshort (Or.inl rfl) (and_iff_left trivial)
  | brctlAddbr bridge => exact fits_iff_of_parts hshort (Or.inl rfl) (and_iff_left trivial)
  | brctlAddif bridge port =>
      exact fits_iff_of_parts hshort (Or.inl rfl) (and_congr_right' <| and_iff_left trivial)
  | brctlDelif bridge port =>
      exact fits_iff_of_parts hshort (Or.inl rfl) (and_congr_right' <| and_iff_left trivial)
  | brctlShow bridge => exact fits_iff_of_parts hshort (Or.inl rfl) (and_iff_left trivial)
  | vlanUtilAddGroup vlan =>
      exact fits_iff_of_parts hshort (Or.inl rfl) (and_congr_right' <| and_iff_left trivial)
  | vlanUtilAddInterface vlan port =>
      exact fits_iff_of_parts hshort (Or.inl rfl) (and_congr_right' <| and_iff_left trivial)
  | brctlDelifDummy vlan port =>
      exact fits_iff_of_parts hshort (Or.inl rfl) (and_congr_right' <| and_iff_left trivial)
  | brctlDelbrDummy vlan => exact absurd rfl (hone vlan)
  | ovsOfctlDelFlows bridge flow =>
      cases flow <;> exact fits_iff_of_parts hshort (Or.inr rfl) (fits_flow hshort)
  | ovsOfctlAddFlow bridge flow macAddress port =>
      cases flow <;> exact fits_iff_of_parts hshort (Or.inr rfl)
        (and_congr_right' <| and_congr_right' <| and_congr_right' <| and_iff_left trivial)
  | ovsOfctlAddFlowDrop bridge flow =>
      cases flow <;> exact fits_iff_of_parts hshort (Or.inr rfl) (fits_flow hshort)
  | ovsOfctlDelEtherFlows bridge type =>
      cases type <;> exact fits_iff_of_parts hshort ⟨List.mem_cons_self .., Or.inr rfl⟩
        (and_iff_left trivial)
  | ovsOfctlAddEtherFlow bridge type =>
      cases type <;> exact fits_iff_of_parts hshort ⟨List.mem_cons_self .., Or.inr rfl⟩
        (and_iff_left trivial)
  | vconfigAdd ifname vlanId => exact fits_iff_of_parts hshort (Or.inl rfl) (fits_itoa _ vlanId)
  | ipLinkAddVlan link ifname vlanId => exact ordinary_ipLinkAddVlan hshort
  | ipLinkAddEthBhaul =>
      have hwords : IsWord puma7Eth1Name ∧ IsWord ethBhaulIfName ∧ IsWord ethBhaulVlan ∧
          True := by decide +kernel
      exact fits_iff_of_parts hshort (Or.inl rfl) (iff_of_true hwords trivial)
  | ipLinkAddGretap ifname localAddr remoteAddr dev =>
      exact fits_iff_of_parts hshort (Or.inr rfl)
        (and_congr_right' <| and_congr_right' <| and_congr_right' <| and_iff_left trivial)
  | ipLinkDel ifname => exact fits_iff_of_parts hshort (Or.inl rfl) (and_iff_left trivial)
  | ifconfigUpDown ifname up =>
      cases up <;> exact fits_iff_of_parts hshort (Or.inr rfl) (and_iff_left trivial)
  | ifconfigAddr ifname inetAddr netmask =>
      exact fits_iff_of_parts hshort (Or.inl rfl)
        (and_congr_right' <| and_congr_right' <| and_iff_left trivial)
  | ifconfigMtu ifname mtu => exact fits_iff_of_parts hshort (Or.inl rfl) (fits_itoa _ mtu)
  | cat path => exact fits_iff_of_parts hshort (Or.inl rfl) (and_iff_left trivial)

/-- A flow that does not fit the buffer is cut, and then is no command of the format. -/
theorem ordinary_of_cut {c : Command} {b : UInt8} (htight : Shell.Tight .start [] c.parts)
    (hlast : (Shell.textOf c.parts).getLast? = some b) (hb : b ≠ 34) (hfits : c.WordsFit → c.Short)
    (hcut : ¬ c.Short) : c.Ordinary := by
  refine iff_of_false ?_ fun h => hcut (hfits h)
  have hlen : 249 < (Shell.textOf c.parts).length := by
    rw [textOf_parts]
    exact Nat.lt_of_not_le hcut
  unfold Command.Splits Command.render
  rw [← textOf_parts]
  exact Shell.not_splits_take htight hlast hb hlen

/-- The IPv6 address may be too long for the buffer; a deletion that is cut ends inside its last word. -/
theorem ordinary_delIpv6 (bridge ip : CString) : (Command.ovsOfctlDelFlows bridge (.ipv6 ip)).Ordinary := by
  by_cases hshort : (Command.ovsOfctlDelFlows bridge (.ipv6 ip)).Short
  · exact ordinary_of_short hshort nofun
  · refine ordinary_of_cut (b := 56) (Or.inr rfl) ?_ (by decide) (fun h => h.2.2) hshort
    have hlast : (ofString "/128").getLast? = some 56 := rfl
    rw [textOf_parts]
    simp [Command.template, FlowMatch.template, Piece.bytes, List.getLast?_append, hlast]

/-- The same for the flow that drops. -/
theorem ordinary_dropIpv6 (bridge ip : CString) :
    (Command.ovsOfctlAddFlowDrop bridge (.ipv6 ip)).Ordinary := by
  by_cases hshort : (Command.ovsOfctlAddFlowDrop bridge (.ipv6 ip)).Short
  · exact ordinary_of_short hshort nofun
  · refine ordinary_of_cut (b := 112) (Or.inr rfl) ?_ (by decide) (fun h => h.2.2) hshort
    have hlast : (ofString ",actions=drop").getLast? = some 112 := rfl
    rw [textOf_parts]
    simp [Command.template, FlowMatch.template, Piece.bytes, List.getLast?_append, hlast]

/-! ## §4. Every command of a request is ordinary. -/

/-- The fixed commands of the switch have no field of a row. -/
theorem wordsFit_fixed : ∀ cmd ∈ switchFixedCommands, cmd.WordsFit := by
  simp only [switchFixedCommands, List.forall_mem_cons, List.not_mem_nil, false_imp_iff, implies_true,
    Command.WordsFit]
  decide

/-- They split, as reading them shows. -/
theorem ordinary_fixed : ∀ cmd ∈ switchFixedCommands, cmd.Ordinary := by
  have hsplits : ∀ cmd ∈ switchFixedCommands, cmd.Splits := by decide +kernel
  exact fun cmd hmem => iff_of_true (hsplits cmd hmem) (wordsFit_fixed cmd hmem)

/-- Whatever the branch, a command splits exactly when its fields fit. -/
theorem ordinary_ovsActionGatewayConfig (hb : req.Bounded) :
    RunsOnly Command.Ordinary (ovsActionGatewayConfig conf env req) := by
  refine runsOnly_of_room ⟨fun c hfields hone => ?_, fun path hpath => ?_, fun ip _ => ?_,
    ordinary_fixed⟩ hb
  · exact ordinary_of_short (short_of_fieldsWithin hfields) hone
  · exact ordinary_of_short (short_cat hpath) nofun
  · exact ⟨ordinary_delIpv6 _ ip, ordinary_dropIpv6 _ ip⟩

/-- Where every command is ordinary, splitting is a matter of the fields. -/
theorem splits_iff_wordsFit {α : Type} {p : Action α} (h : RunsOnly Command.Ordinary p) :
    RunsOnly Command.Splits p ↔ RunsOnly Command.WordsFit p := h.congr fun _ hcmd => hcmd

/-! ## §5. The fields that have to be words. -/

/-- The query for the port's bridge; the path of the Linux one has the name in it. -/
def QueryWords (env : ActionEnv) (req : GatewayConfig) : Prop :=
  if req.ovsEnabled then IsWord req.ifName else (env.brportPath = true → InWord req.ifName)

/-- The port is taken off a bridge, and put on the parent bridge. -/
def ModifiesWithWords (env : ActionEnv) (req : GatewayConfig) : Prop :=
  QueryWords env req ∧
    (¬ env.queryFails req.ovsEnabled →
      (∀ bridge, env.existingBridge req.ovsEnabled = some bridge → req.removesPort bridge →
        IsWord bridge ∧ IsWord req.ifName) ∧
      (¬ req.Asks .brRemove → IsWord req.parentBridge ∧ IsWord req.ifName))

/-- The bridges that OVS reports for the two Puma7 ports. -/
def SwitchesWithWords (env : ActionEnv) : Prop :=
  ∀ restoreBridge, env.restoreBridge = some restoreBridge → IsWord restoreBridge ∧
    ∀ bridge, env.ethIfaceToBr.bind ovsParentBridge = some bridge → IsWord bridge

/-- The addresses in the flows of brlan0's port llan0; the IPv6 address has no
length of its own. -/
def GuiWords (conf : OvsActionConfig) (env : ActionEnv) (req : GatewayConfig) : Prop :=
  req.isGuiPort → conf.modelNum.hasGuiFlows →
    (∀ ip, env.lan0Ip = some ip → InWord ip ∧
      (¬ req.Asks .brRemove → ∀ mac, env.lan0Mac = some mac → InWord mac)) ∧
    (∀ ip, env.cmIp = some ip → InWord ip ∧ ip.length ≤ if req.Asks .brRemove then 195 else 192)

/-- The interface is brought up or down by its name. -/
def UpDownWords (req : GatewayConfig) : Prop := req.Asks .ifUp ∨ req.Asks .ifDown → IsWord req.ifName

/-- A bridge: its name and addresses, and the parent bridge where it gets flows. -/
def BridgeWords (conf : OvsActionConfig) (req : GatewayConfig) : Prop :=
  IsWord req.ifName ∧ (req.inetAddr ≠ [] → IsWord req.inetAddr ∧ IsWord req.netmask) ∧
    (conf.modelNum.hasBridgeFlows → req.parentBridge ≠ [] → IsWord req.parentBridge)

/-- A vlan: its parent interface, its name where the command has it, and the parent bridge. -/
def VlanWords (conf : OvsActionConfig) (env : ActionEnv) (req : GatewayConfig) : Prop :=
  (req.parentIfname ≠ [] →
      IsWord req.parentIfname ∧ (conf.modelNum = .tg3482g → IsWord req.ifName)) ∧
    UpDownWords req ∧ (req.parentBridge ≠ [] → ModifiesWithWords env req)

/-- A tunnel: the interfaces and addresses of its command, and the parent bridge. -/
def GreWords (env : ActionEnv) (req : GatewayConfig) : Prop :=
  (req.hasGre → IsWord req.ifName ∧ IsWord req.greLocalInetAddr ∧ IsWord req.greRemoteInetAddr ∧
      IsWord req.parentIfname) ∧
    UpDownWords req ∧ (req.parentBridge ≠ [] → ModifiesWithWords env req)

/-- A port: the bridges behind the switch, its own name, the parent bridge and the addresses of its
flows. -/
def PortWords (conf : OvsActionConfig) (env : ActionEnv) (req : GatewayConfig) : Prop :=
  (isEthSwitchPort conf req → SwitchesWithWords env) ∧
    (¬ ethSwitchFails conf env req →
      UpDownWords req ∧
        (req.parentBridge ≠ [] →
          ModifiesWithWords env req ∧ (env.modifyOk req → GuiWords conf env req)))

/-- All that the request puts into commands are words. -/
def WholeWords (conf : OvsActionConfig) (env : ActionEnv) (req : GatewayConfig) : Prop :=
  if req.Asks .ifDelete then IsWord req.ifName
  else if req.IsType .bridge then BridgeWords conf req
  else if req.IsType .vlan then VlanWords conf env req
  else if req.IsType .gre then GreWords env req
  else PortWords conf env req

/-- In the path of a port the name stands inside a word. -/
theorem isWord_brportPath (ifName : CString) : IsWord (brportPath ifName) ↔ InWord ifName := by
  have hnet : IsWord (ofString "/sys/class/net/") := by decide +kernel
  have huevent : InWord (ofString "/brport/bridge/uevent") := by decide +kernel
  unfold brportPath sysClassNetPath
  rw [List.append_assoc, Shell.isWord_append hnet, Shell.inWord_append, and_iff_left huevent]

/-- A query has the port's name in its command or in its path. -/
theorem wordsFit_portQuery_iff :
    RunsOnly Command.WordsFit (portQuery env req req.ovsEnabled) ↔ QueryWords env req := by
  unfold RunsOnly portQuery QueryWords
  cases req.ovsEnabled with
  | true =>
      rw [if_pos rfl, if_pos rfl, all_getExistingOvsParentBridge]
      exact and_iff_left trivial
  | false =>
      rw [if_neg (by decide), if_neg (by decide), all_getExistingLinuxParentBridge]
      constructor
      · intro ⟨_, hcat, _⟩ hfound
        exact (isWord_brportPath _).1 (hcat hfound)
      · intro h
        exact ⟨trivial, fun hfound => (isWord_brportPath _).2 (h hfound), trivial⟩

/-- Either technology names the bridge and the port. -/
theorem wordsFit_detachCommand (ovsEnabled : Bool) (bridge : CString) :
    (detachCommand req ovsEnabled bridge).WordsFit ↔ IsWord bridge ∧ IsWord req.ifName := by
  cases ovsEnabled <;> exact Iff.rfl

theorem wordsFit_attachCommand (ovsEnabled : Bool) :
    (attachCommand req ovsEnabled).WordsFit ↔ IsWord req.parentBridge ∧ IsWord req.ifName := by
  cases ovsEnabled <;> exact Iff.rfl

theorem wordsFit_createCommand (ovsEnabled : Bool) :
    (createCommand req ovsEnabled).WordsFit ↔ IsWord req.parentBridge := by
  cases ovsEnabled <;> exact Iff.rfl

theorem wordsFit_listCommand (ovsEnabled : Bool) :
    (listCommand req ovsEnabled).WordsFit ↔ IsWord req.parentBridge := by
  cases ovsEnabled <;> exact Iff.rfl

/-- Every flow of a bridge names the parent bridge. -/
theorem wordsFit_ovsSetupBridgeFlows_iff :
    RunsOnly Command.WordsFit (ovsSetupBridgeFlows conf req)
      ↔ (conf.modelNum.hasBridgeFlows → req.parentBridge ≠ [] → IsWord req.parentBridge) := by
  have hbrcm : ¬ conf.skips .brcm := fun h => (by cases h.2)
  unfold RunsOnly
  rw [all_ovsSetupBridgeFlows, all_ovsSetupBrcmWifiFlows]
  constructor
  · intro ⟨hflows, _⟩ hm hne
    exact ((hflows hm).1 hne .brcm hbrcm).1
  · intro h
    exact ⟨fun hm => ⟨fun hne _ _ => ⟨h hm hne, fun _ => h hm hne⟩, trivial⟩, trivial⟩

/-- The commands before and behind the query, each where it is run. -/
theorem wordsFit_ovsModifyParentBridge_iff :
    RunsOnly Command.WordsFit (ovsModifyParentBridge conf env req) ↔ ModifiesWithWords env req := by
  have hquery := @wordsFit_portQuery_iff env req
  have hflows := @wordsFit_ovsSetupBridgeFlows_iff conf req
  unfold RunsOnly at hquery hflows ⊢
  unfold ModifiesWithWords
  rw [all_ovsModifyParentBridge, all_removeExistingInterfacePort, all_configureParentBridge, hquery, hflows]
  constructor
  · intro ⟨⟨hq, hdetach, _⟩, hconf, _⟩
    refine ⟨hq, fun hf => ⟨fun bridge hb hr => ?_, fun hr => ?_⟩⟩
    · exact (wordsFit_detachCommand _ bridge).1 (hdetach hf bridge hb hr)
    · exact (wordsFit_attachCommand _).1 (hconf hf hr).1.2.2.2.1
  · intro ⟨hq, hrest⟩
    refine ⟨⟨hq, fun hf bridge hb hr => ?_, trivial⟩, fun hf hr => ?_, trivial⟩
    · exact (wordsFit_detachCommand _ bridge).2 ((hrest hf).1 bridge hb hr)
    · obtain ⟨hp, hi⟩ := (hrest hf).2 hr
      exact ⟨⟨trivial, fun _ => (wordsFit_createCommand _).2 hp, fun _ => hp,
        (wordsFit_attachCommand _).2 ⟨hp, hi⟩,
        (wordsFit_listCommand _).2 hp, trivial⟩, fun _ _ _ => hp⟩

theorem wordsFit_modifyParentBridgeIfAny_iff :
    RunsOnly Command.WordsFit (modifyParentBridgeIfAny conf env req)
      ↔ (req.parentBridge ≠ [] → ModifiesWithWords env req) := by
  unfold RunsOnly
  rw [all_modifyParentBridgeIfAny]
  exact forall_congr' fun _ => wordsFit_ovsModifyParentBridge_iff

/-- The room that the deletion leaves for the address. -/
theorem short_delIpv6 (ip : CString) :
    (Command.ovsOfctlDelFlows brlan0EthName (.ipv6 ip)).Short ↔ ip.length ≤ 195 := by
  have hfront : (ofString "ovs-ofctl --strict del-flows ").length = 29 := rfl
  have hbridge : brlan0EthName.length = 6 := rfl
  have hmatch : (ofString " ipv6,ipv6_dst=").length = 15 := rfl
  have hend : (ofString "/128").length = 4 := rfl
  unfold Command.Short
  simp only [Command.template, FlowMatch.template, Piece.bytes, List.cons_append, List.nil_append,
    List.flatMap_cons, List.flatMap_nil, List.append_nil, List.length_append, hfront, hbridge, hmatch, hend]
  omega

/-- The flow that drops leaves three bytes less. -/
theorem short_dropIpv6 (ip : CString) :
    (Command.ovsOfctlAddFlowDrop brlan0EthName (.ipv6 ip)).Short ↔ ip.length ≤ 192 := by
  have hfront : (ofString "ovs-ofctl add-flow ").length = 19 := rfl
  have hbridge : brlan0EthName.length = 6 := rfl
  have hmatch : (ofString " ipv6,ipv6_dst=").length = 15 := rfl
  have hend : (ofString "/128").length = 4 := rfl
  have hactions : (ofString ",actions=drop").length = 13 := rfl
  unfold Command.Short
  simp only [Command.template, FlowMatch.template, Piece.bytes, List.cons_append, List.nil_append,
    List.flatMap_cons, List.flatMap_nil, List.append_nil, List.length_append, hfront, hbridge, hmatch,
    hend, hactions]
  omega

/-- The addresses of lan0; the bridge and the port of these flows are fixed. -/
theorem wordsFit_ovsSetupAdminGuiAccess_iff (hg : req.isGuiPort) :
    RunsOnly Command.WordsFit (ovsSetupAdminGuiAccess env req)
      ↔ ∀ ip, env.lan0Ip = some ip → InWord ip ∧
        (¬ req.Asks .brRemove → ∀ mac, env.lan0Mac = some mac → InWord mac) := by
  have hp : IsWord req.parentBridge := by rw [hg.1]; decide
  have hi : InWord req.ifName := by rw [hg.2]; decide
  have hplen : req.parentBridge.length ≤ 45 := by rw [hg.1]; decide
  have hcat : IsWord (sysClassNetPath (ofString "lan0/address")) := by decide
  unfold RunsOnly
  rw [all_ovsSetupAdminGuiAccess]
  constructor
  · intro ⟨_, h, _⟩ ip hip
    obtain ⟨hdel, _, hadd⟩ := (all_setupGuiFlows ip).1 (h ip hip)
    exact ⟨hdel.2.1, fun hr mac hmac => ((hadd hr).2 mac hmac).1.2.2.1⟩
  · intro h
    refine ⟨trivial, fun ip hip => ?_, trivial⟩
    obtain ⟨hword, hmacs⟩ := h ip hip
    have hlen : ip.length ≤ 45 := Nat.le_trans (lan0Ip_length_le hip) (by decide)
    exact (all_setupGuiFlows ip).2 ⟨⟨hp, hword, short_of_fieldsWithin ⟨hplen, hlen, trivial⟩⟩,
      ⟨hp, hword, short_of_fieldsWithin ⟨hplen, hlen, trivial⟩⟩, fun hr => ⟨hcat, fun mac hmac =>
        ⟨⟨hp, hword, hmacs hr mac hmac, hi⟩, ⟨hp, hword, hmacs hr mac hmac, hi⟩⟩⟩⟩

/-- The cable modem's address, which has to fit the buffer as well. -/
theorem wordsFit_ovsBlockMsoUiAccess_iff (hg : req.isGuiPort) :
    RunsOnly Command.WordsFit (ovsBlockMsoUiAccess env req)
      ↔ ∀ ip, env.cmIp = some ip →
        InWord ip ∧ ip.length ≤ if req.Asks .brRemove then 195 else 192 := by
  have hp : IsWord brlan0EthName := by decide
  unfold RunsOnly
  rw [all_ovsBlockMsoUiAccess, hg.1]
  constructor
  · intro ⟨_, h, _⟩ ip hip
    obtain ⟨hdel, hdrop⟩ := h ip hip
    refine ⟨hdel.2.1, ?_⟩
    split
    · exact (short_delIpv6 ip).1 hdel.2.2
    · next hr => exact (short_dropIpv6 ip).1 (hdrop hr).2.2
  · intro h
    refine ⟨trivial, fun ip hip => ?_, trivial⟩
    obtain ⟨hword, hlen⟩ := h ip hip
    refine ⟨⟨hp, hword, (short_delIpv6 ip).2 ?_⟩, fun hr => ⟨hp, hword, (short_dropIpv6 ip).2 ?_⟩⟩
    · split at hlen <;> omega
    · rw [if_neg hr] at hlen
      exact hlen

/-- The port of br106 is fixed, so only the GUI port puts fields into flows. -/
theorem wordsFit_ovsSetupPortFlows_iff :
    RunsOnly Command.WordsFit (ovsSetupPortFlows conf env req) ↔ GuiWords conf env req := by
  have hbr106 : req.isBr106Port → RunsOnly Command.WordsFit (ovsSetupBridgeFlows conf req) := by
    intro hb
    refine wordsFit_ovsSetupBridgeFlows_iff.2 fun _ _ => ?_
    rw [hb.1]
    decide
  unfold RunsOnly at hbr106 ⊢
  unfold GuiWords
  rw [all_ovsSetupPortFlows]
  constructor
  · intro ⟨hgui, _⟩ hg hm
    exact ⟨(wordsFit_ovsSetupAdminGuiAccess_iff hg).1 (hgui hg hm).1,
      (wordsFit_ovsBlockMsoUiAccess_iff hg).1 (hgui hg hm).2⟩
  · intro h
    refine ⟨fun hg hm => ?_, hbr106, trivial⟩
    exact ⟨(wordsFit_ovsSetupAdminGuiAccess_iff hg).2 (h hg hm).1,
      (wordsFit_ovsBlockMsoUiAccess_iff hg).2 (h hg hm).2⟩

/-- The flows' fields matter only behind a bridge whose modification succeeded. -/
theorem wordsFit_addPortToParentBridge_iff :
    RunsOnly Command.WordsFit (addPortToParentBridge conf env req)
      ↔ (req.parentBridge ≠ [] →
        ModifiesWithWords env req ∧ (env.modifyOk req → GuiWords conf env req)) := by
  unfold RunsOnly
  rw [all_addPortToParentBridge]
  refine forall_congr' fun hne => ?_
  rw [modifyStatus_success_iff hne]
  exact and_congr wordsFit_ovsModifyParentBridge_iff (forall_congr' fun _ => wordsFit_ovsSetupPortFlows_iff)

/-- The switch puts no field of a row into commands, only bridges that OVS reported. -/
theorem wordsFit_ethSwitch_iff :
    RunsOnly Command.WordsFit (ethSwitch conf env req)
      ↔ (isEthSwitchPort conf req → SwitchesWithWords env) := by
  refine runsOnly_ethSwitch_iff wordsFit_fixed fun bridge _ port hport => ?_
  have hword : IsWord port := by rcases hport with rfl | rfl <;> decide
  exact ⟨and_iff_left hword, and_iff_left hword⟩

/-! ## §6. Requests. -/

theorem wordsFit_ovsCreateBridge_iff (h : ¬ req.Asks .ifDelete) :
    RunsOnly Command.WordsFit (ovsCreateBridge conf req) ↔ BridgeWords conf req := by
  have hflows := @wordsFit_ovsSetupBridgeFlows_iff conf req
  unfold RunsOnly at hflows ⊢
  unfold BridgeWords
  rw [all_ovsCreateBridge, hflows]
  constructor
  · intro ⟨_, hrest, _⟩
    obtain ⟨hadd, haddr, _, _, hf⟩ := hrest h
    exact ⟨hadd, fun hne => (haddr hne).2, hf⟩
  · intro ⟨hadd, haddr, hf⟩
    exact ⟨fun h' => absurd h' h, fun _ => ⟨hadd, fun hne => ⟨hadd, haddr hne⟩, fun _ => hadd,
      fun _ => hadd, hf⟩,
      trivial⟩

/-- Only one model's command has the name of the vlan. -/
theorem wordsFit_vlanCommand :
    (vlanCommand conf req).WordsFit
      ↔ IsWord req.parentIfname ∧ (conf.modelNum = .tg3482g → IsWord req.ifName) := by
  unfold vlanCommand
  split
  · next hm => exact and_congr_right fun _ => ⟨fun hi _ => hi, fun hi => hi hm⟩
  · next hm => exact (and_iff_left fun hm' => absurd hm' hm).symm

theorem wordsFit_ovsCreateVlan_iff (h : ¬ req.Asks .ifDelete) :
    RunsOnly Command.WordsFit (ovsCreateVlan conf env req) ↔ VlanWords conf env req := by
  have hany := @wordsFit_modifyParentBridgeIfAny_iff conf env req
  unfold RunsOnly at hany ⊢
  unfold VlanWords
  rw [all_ovsCreateVlan, hany, ← wordsFit_vlanCommand]
  constructor
  · intro ⟨_, hrest, _⟩
    exact hrest h
  · intro hrest
    exact ⟨fun h' => absurd h' h, fun _ => hrest, trivial⟩

theorem wordsFit_ovsCreateGRE_iff (h : ¬ req.Asks .ifDelete) :
    RunsOnly Command.WordsFit (ovsCreateGRE conf env req) ↔ GreWords env req := by
  have hany := @wordsFit_modifyParentBridgeIfAny_iff conf env req
  unfold RunsOnly at hany ⊢
  unfold GreWords
  rw [all_ovsCreateGRE, hany]
  constructor
  · intro ⟨_, hrest, _⟩
    exact hrest h
  · intro hrest
    exact ⟨fun h' => absurd h' h, fun _ => hrest, trivial⟩

theorem wordsFit_ovsAddPort_iff (h : ¬ req.Asks .ifDelete) :
    RunsOnly Command.WordsFit (ovsAddPort conf env req) ↔ PortWords conf env req := by
  have hswitch := @wordsFit_ethSwitch_iff conf env req
  have hport := @wordsFit_addPortToParentBridge_iff conf env req
  unfold RunsOnly at hswitch hport ⊢
  unfold PortWords
  rw [all_ovsAddPort, hswitch, hport]
  constructor
  · intro ⟨_, hrest, _⟩
    exact hrest h
  · intro hrest
    exact ⟨fun h' => absurd h' h, fun _ => hrest, trivial⟩

/-- A deletion has its name in one command. -/
theorem wordsFit_ifDelete_iff (h : req.Asks .ifDelete) :
    RunsOnly Command.WordsFit (ovsActionGatewayConfig conf env req) ↔ IsWord req.ifName := by
  unfold RunsOnly
  rcases ovsActionGatewayConfig_cases conf env req with
      ⟨_, heq⟩ | ⟨_, heq⟩ | ⟨_, heq⟩ | ⟨_, heq⟩
  · rw [heq, all_ovsCreateBridge]
    exact ⟨fun hall => hall.1 h, fun hw => ⟨fun _ => hw, fun h' => absurd h h', trivial⟩⟩
  · rw [heq, all_ovsCreateVlan]
    exact ⟨fun hall => hall.1 h, fun hw => ⟨fun _ => hw, fun h' => absurd h h', trivial⟩⟩
  · rw [heq, all_ovsCreateGRE]
    exact ⟨fun hall => hall.1 h, fun hw => ⟨fun _ => hw, fun h' => absurd h h', trivial⟩⟩
  · rw [heq, all_ovsAddPort]
    exact ⟨fun hall => hall.1 h, fun hw => ⟨fun _ => hw, fun h' => absurd h h', trivial⟩⟩

/-- **The words of a request**: those of its handler's commands. -/
theorem wordsFit_ovsActionGatewayConfig_iff :
    RunsOnly Command.WordsFit (ovsActionGatewayConfig conf env req) ↔ WholeWords conf env req := by
  unfold WholeWords
  by_cases h : req.Asks .ifDelete
  · rw [if_pos h]
    exact wordsFit_ifDelete_iff h
  · rw [if_neg h]
    rcases ovsActionGatewayConfig_cases conf env req with
        ⟨ht, heq⟩ | ⟨ht, heq⟩ | ⟨ht, heq⟩ | ⟨ht, heq⟩
    · rw [heq, if_pos ht]
      exact wordsFit_ovsCreateBridge_iff h
    · have hb : ¬ req.IsType .bridge := fun hb => (by cases ht.unique hb)
      rw [heq, if_neg hb, if_pos ht]
      exact wordsFit_ovsCreateVlan_iff h
    · have hb : ¬ req.IsType .bridge := fun hb => (by cases ht.unique hb)
      have hv : ¬ req.IsType .vlan := fun hv => (by cases ht.unique hv)
      rw [heq, if_neg hb, if_neg hv, if_pos ht]
      exact wordsFit_ovsCreateGRE_iff h
    · rw [heq, if_neg ht.1, if_neg ht.2.1, if_neg ht.2.2]
      exact wordsFit_ovsAddPort_iff h

/-- **The words of the shell.**  Whatever the row, the model and the answers,
every command of the request is split into the simple commands of its format,
each field in one word, exactly when the fields it uses are words. -/
theorem shell_words_iff (conf : OvsActionConfig) (env : ActionEnv) (row : Json) :
    RunsOnly Command.Splits (ovsActionGatewayConfig conf env (gatewayConfigParser row))
      ↔ WholeWords conf env (gatewayConfigParser row) :=
  (splits_iff_wordsFit (ordinary_ovsActionGatewayConfig (bounded_gatewayConfigParser row))).trans
    wordsFit_ovsActionGatewayConfig_iff

/-- The row of a deletion whose name has a command of its own in it. -/
def deletionRow (ifName : CString) : Json :=
  .object [(ofString "if_name", .string ifName), (ofString "if_cmd", .integer 2)]

/-- `ip link del a;brctl addbr b` is two commands. -/
theorem semicolon_starts_program :
    ¬ RunsOnly Command.Splits (ovsActionGatewayConfig ⟨.unknown, false⟩ quietEnv
      (gatewayConfigParser (deletionRow (ofString "a;brctl addbr b")))) ∧
    Shell.read (Command.ipLinkDel (ofString "a;brctl addbr b")).render
      = some [[ofString "ip", ofString "link", ofString "del", ofString "a"],
        [ofString "brctl", ofString "addbr", ofString "b"]] := by
  constructor
  · intro h
    have hdel : ActionEvent.system (.ipLinkDel (ofString "a;brctl addbr b"))
        ∈ (ovsActionGatewayConfig ⟨.unknown, false⟩ quietEnv
          (gatewayConfigParser (deletionRow (ofString "a;brctl addbr b")))).trace := by
      decide +kernel
    have hsplits : ¬ (Command.ipLinkDel (ofString "a;brctl addbr b")).Splits := by decide +kernel
    exact hsplits (h _ hdel)
  · decide +kernel

end OvsAgent
