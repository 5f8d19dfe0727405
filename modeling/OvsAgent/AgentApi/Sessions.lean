/-
  OvsAgent.AgentApi.Sessions — what lies between `init` and `deinit`.

  Every run of the process falls into sessions: an `ovs_agent_api_init` that
  succeeds, the requests, an `ovs_agent_api_deinit`.  The lists, the counter and
  the table are static variables, and a failed `init` may leave a connection
  whose thread goes on; still each session begins with a fresh component.

  Main results:
    * `ClientPc.Prepares.fresh` — what `init` has prepared is `Component.start`;
    * `session_reachable` — a running API is `componentMachine` in a reachable
      state, so what holds of all those holds in every session;
    * `lost_until_deinit` — after a lost connection all requests fail, and
      `init` does not connect again.
-/
import OvsAgent.AgentApi.Lifecycle

namespace OvsAgent

/-! ## §1. A component that is not in use. -/

/-- Points of the client at which messages come to something. -/
def ClientPc.serving (up : Bool) : ClientPc → Bool
  | .idle => up
  | .cancelMonitor => true
  | .setTerminate => true
  | .join => true
  | _ => false

/-- Points at which the list of monitors has been cleared. -/
def ClientPc.noMonitors (up : Bool) (pc : ClientPc) : Bool := !pc.serving up && pc != .clearMonitors

/-- Points at which the list of receipts has been cleared. -/
def ClientPc.noReceipts (up : Bool) (pc : ClientPc) : Bool := pc.noMonitors up && pc != .clearReceipts

/-- `ovs_agent_api_init` has set the fields of the handle. -/
structure Component.Cleared (c : Component) : Prop where
  blocked : c.blocked = false
  monitorFeedback : c.monitorFeedback = false
  calls : c.calls = []
  monitorCalls : c.monitorCalls = []

/-- The first id of a component. -/
def OvsComponentId.startingId (cid : OvsComponentId) : Nat := cid.toNat * ovsStartingIdMultiplier % 2 ^ 32

/-- What has been prepared when the client stands here. -/
def ClientPc.Prepares (c : Component) : ClientPc → Prop
  | .ovsdbInit _ => c.Cleared
  | .connect cid => c.Cleared ∧ c.db.id = cid.startingId
  | .createThread cid => c.Cleared ∧ c.db.id = cid.startingId ∧ c.db.sent = []
  | .mutexInit cid => c.Cleared ∧ c.db.id = cid.startingId ∧ c.db.sent = []
  | .condInit cid => c.Cleared ∧ c.db.id = cid.startingId ∧ c.db.sent = [] ∧ c.mutex = none
  | .initManager cid => c.Cleared ∧ c.db.id = cid.startingId ∧ c.db.sent = [] ∧ c.mutex = none
  | _ => True

/-- What a component that is not in use holds, and how one comes into use. -/
structure ApiProcess.Kept (s : ApiProcess) : Prop where
  busy : s.component.listener ≠ .idle →
    s.threads.contains .parse = true ∧ s.client.serving s.handle = true
  monitors : s.client.noMonitors s.handle = true → s.component.db.monitors = []
  receipts : s.client.noReceipts s.handle = true → s.component.db.receipts = []
  unsent : s.client.serving s.handle = false → s.ovsdbSockFd.isSome = true → s.component.db.sent = []
  prepares : s.client.Prepares s.component
  reachable : s.client = .idle → s.handle = true →
    ∃ cid : OvsComponentId, (componentMachine cid.toNat).Reachable s.component

section Kept

variable {s s' : ApiProcess}

/-- The process before its first call. -/
theorem kept_start : ApiProcess.start.Kept where
  busy := fun h => absurd rfl h
  monitors := fun _ => rfl
  receipts := fun _ => rfl
  unsent := fun _ _ => rfl
  prepares := trivial
  reachable := fun _ h => (Bool.false_ne_true h).elim

/-- Out of use, the listener is idle. -/
theorem ApiProcess.Kept.idle (hk : s.Kept) (hserving : s.client.serving s.handle = false) :
    s.component.listener = .idle := by
  by_contra hbusy
  rw [(hk.busy hbusy).2] at hserving
  cases hserving

/-- The thread that handles a message is the running one. -/
theorem ApiProcess.OneThread.parsing (hs : s.OneThread) (h : s.threads.contains .parse = true) :
    s.threads[s.listenThread]? = some .parse ∧ s.attended = true := by
  obtain ⟨n, hn⟩ := List.mem_iff_getElem?.1 (List.contains_iff_mem.1 h)
  obtain ⟨rfl, hon⟩ := (hs.each n _ hn).1 rfl
  exact ⟨hn, hon⟩

/-- Requests are made where messages come to something. -/
theorem ApiProcess.serving_of_serves (h : s.serves = true) : s.client.serving s.handle = true := by
  unfold ApiProcess.serves at h
  cases hpc : s.client <;> rw [hpc] at h <;> first | exact h | rfl

/-- Who has sent nothing has asked for nothing. -/
theorem OvsDbApi.asked_of_unsent {db : OvsDbApi} (h : db.sent = []) (rid : CString) :
    db.asked rid = false := by
  unfold OvsDbApi.asked
  rw [h]
  rfl

/-- A step that is taken while the component is not in use: nothing was asked
for and nobody monitors anything. -/
theorem ApiProcess.Kept.unserved {i : ComponentStep} (hk : s.Kept) (ho : s.Ordered)
    (hserving : s.client.serving s.handle = false) (hwhen : s.permits i = true) :
    i.byListener = true ∧ s.component.db.sent = [] ∧ s.component.db.monitors = [] := by
  have hlistener : i.byListener = true := by
    by_contra hno
    unfold ApiProcess.permits at hwhen
    rw [if_neg hno] at hwhen
    rw [ApiProcess.serving_of_serves hwhen] at hserving
    cases hserving
  unfold ApiProcess.permits at hwhen
  rw [if_pos hlistener] at hwhen
  obtain ⟨_, hon⟩ := ho.oneThread.parsing hwhen
  have hfd : s.ovsdbSockFd.isSome = true := (Bool.and_eq_true_iff.1 hon).1
  refine ⟨hlistener, hk.unsent hserving hfd, hk.monitors ?_⟩
  unfold ClientPc.noMonitors
  rw [hserving]
  refine bne_iff_ne.2 fun hclear => ?_
  rw [ho.linked.apart (by rw [hclear]; rfl)] at hfd
  cases hfd

/-- It is a message for no monitor, and comes to nothing. -/
theorem ApiProcess.Kept.unmoved {i : ComponentStep} {c : Component} (hk : s.Kept) (ho : s.Ordered)
    (hserving : s.client.serving s.handle = false) (hwhen : s.permits i = true)
    (hc : componentStep s.component (i.over s.connected) = some c) :
    (∃ monId tableName row, i = .update monId tableName row) ∧ c = s.component := by
  have hidle := hk.idle hserving
  obtain ⟨hlistener, hsent, hmonitors⟩ := hk.unserved ho hserving hwhen
  cases i with
  | receipt rid result =>
      unfold ComponentStep.over componentStep receiptStep at hc
      simp only [hidle, OvsDbApi.asked_of_unsent hsent] at hc
      cases hc
  | update monId tableName row =>
      unfold ComponentStep.over componentStep updateStep at hc
      simp only [hidle, hmonitors, List.find?_nil] at hc
      refine ⟨⟨monId, tableName, row, rfl⟩, ?_⟩
      cases hp : parseTable tableName row <;> rw [hp] at hc <;> exact (Option.some.inj hc).symm
  | listener o waiter =>
      unfold ComponentStep.over componentStep listenerStep at hc
      simp only [hidle] at hc
      cases hc
  | _ => cases hlistener

/-- Requests leave the listener where it stands. -/
theorem componentStep_listener {a a' : Component} {i : ComponentStep} (hno : i.byListener = false)
    (h : componentStep a i = some a') : a'.listener = a.listener := by
  cases i with
  | interact request callback => cases h; rfl
  | call n malloc o =>
      obtain ⟨c, _, hcs⟩ := callStep_cases h
      cases hcs <;> rfl
  | wake n result =>
      obtain ⟨c, _, _, rfl⟩ := wakeStep_cases h
      rfl
  | interactMonitor t cb => cases h; rfl
  | monitorCall n o =>
      obtain ⟨db, pcs, rfl⟩ := monitorCallStep_cases h
      rfl
  | _ => cases hno

/-- A lost connection leaves it open whose step it is. -/
theorem ComponentStep.byListener_over (i : ComponentStep) (b : Bool) :
    (i.over b).byListener = i.byListener := by
  cases i <;> rfl

/-- Nothing is under preparation where messages come to something, -/
theorem ClientPc.prepares_of_serving {pc : ClientPc} {up : Bool} {c : Component} (h : pc.serving up = true) :
    pc.Prepares c := by
  cases pc <;> trivial

/-- nor are the monitors cleared, -/
theorem ClientPc.not_noMonitors {pc : ClientPc} {up : Bool} (h : pc.serving up = true) :
    pc.noMonitors up = false := by
  unfold ClientPc.noMonitors
  rw [h]
  rfl

/-- nor the receipts. -/
theorem ClientPc.not_noReceipts {pc : ClientPc} {up : Bool} (h : pc.serving up = true) :
    pc.noReceipts up = false := by
  unfold ClientPc.noReceipts
  rw [ClientPc.not_noMonitors h]
  rfl

/-- The steps that are neither the client's nor a thread's nor the component's. -/
theorem OtherEffect.kept {i : ApiStep} (h : OtherEffect s i s') (ho : s.Ordered) (hk : s.Kept) : s'.Kept := by
  cases h with
  | openLog malloc opened path name hidle hgives =>
      exact ⟨hk.busy, hk.monitors, hk.receipts, hk.unsent, hk.prepares, hk.reachable⟩
  | closeLog hidle => exact ⟨hk.busy, hk.monitors, hk.receipts, hk.unsent, hk.prepares, hk.reachable⟩
  | returned i rtn hidle =>
      obtain ⟨hbusy, hmon, hrec, hunsent, _, hreach⟩ := hk
      rw [hidle] at hbusy hmon hrec hunsent hreach
      exact ⟨hbusy, hmon, hrec, hunsent, trivial, hreach⟩
  | init cid malloc hidle hdown =>
      obtain ⟨hbusy, hmon, hrec, hunsent, _, hreach⟩ := hk
      rw [hidle, hdown] at hbusy hmon hrec hunsent
      exact ⟨fun hb => (Bool.false_ne_true (hbusy hb).2).elim, fun _ => hmon rfl, fun _ => hrec rfl,
        fun _ => hunsent rfl, trivial, fun hpc _ => ClientPc.noConfusion hpc⟩
  | deinit hidle hup =>
      obtain ⟨hbusy, _⟩ := hk
      exact ⟨fun hb => ⟨(hbusy hb).1, rfl⟩, fun hno => (Bool.false_ne_true hno).elim,
        fun hno => (Bool.false_ne_true hno).elim, fun hno => (Bool.false_ne_true hno.symm).elim, trivial,
        fun hpc _ => ClientPc.noConfusion hpc⟩
  | request i c hwhen hc =>
      cases hserving : s.client.serving s.handle with
      | false =>
          obtain ⟨_, hsame⟩ := hk.unmoved ho hserving hwhen hc
          subst hsame
          exact ⟨hk.busy, hk.monitors, hk.receipts, hk.unsent, hk.prepares, hk.reachable⟩
      | true =>
          refine ⟨fun hb => ⟨?_, hserving⟩, fun hno => ?_, fun hno => ?_, fun hno => ?_,
            ClientPc.prepares_of_serving hserving, fun hidle hup => ?_⟩
          · show s.threads.contains .parse = true
            have hp := hwhen
            unfold ApiProcess.permits at hp
            split at hp
            · exact hp
            · next hno =>
                rw [← ComponentStep.byListener_over i s.connected] at hno
                have hb : c.listener ≠ .idle := hb
                rw [componentStep_listener (Bool.eq_false_iff.2 hno) hc] at hb
                exact (hk.busy hb).1
          · exact absurd hno (Bool.eq_false_iff.1 (ClientPc.not_noMonitors hserving))
          · exact absurd hno (Bool.eq_false_iff.1 (ClientPc.not_noReceipts hserving))
          · exact absurd hserving (Bool.eq_false_iff.1 hno)
          · obtain ⟨cid, hreach⟩ := hk.reachable hidle hup
            exact ⟨cid, hreach.step trivial hc⟩
  | logTest level logging hlogger =>
      exact ⟨hk.busy, hk.monitors, hk.receipts, hk.unsent, hk.prepares, hk.reachable⟩
  | logWrite malloc logging =>
      exact ⟨hk.busy, hk.monitors, hk.receipts, hk.unsent, hk.prepares, hk.reachable⟩

/-- The steps of a listening thread. -/
theorem ThreadEffect.kept {n : Nat} (h : ThreadEffect s n s') (ho : s.Ordered) (hk : s.Kept) : s'.Kept := by
  obtain ⟨hclient, hobj, _, hcomp, _⟩ := h.frame
  have hhandle : s'.handle = s.handle := congrArg Prod.fst hobj
  obtain ⟨pc, pc', hpc, hrun, _, _⟩ := h.goes
  refine ⟨fun hb => ?_, ?_, ?_, fun hno hfd => ?_, ?_, ?_⟩
  · rw [hcomp] at hb
    -- the running thread handles the message
    obtain ⟨hparse, hserving⟩ := hk.busy hb
    obtain ⟨hparsing, _⟩ := ho.oneThread.parsing hparse
    obtain ⟨rfl, _⟩ := (ho.oneThread.each n pc hpc).1 hrun
    cases h with
    | parsed _ hidle => exact absurd hidle hb
    | tested _ h _ => rw [hparsing] at h; cases h
    | listened _ h _ => rw [hparsing] at h; cases h
    | closed h => rw [hparsing] at h; cases h
    | forgot h => rw [hparsing] at h; cases h
  · rw [hclient, hhandle, hcomp]
    exact hk.monitors
  · rw [hclient, hhandle, hcomp]
    exact hk.receipts
  · rw [hclient, hhandle] at hno
    rw [hcomp]
    rcases h.sockFd with hsame | ⟨hnone, _⟩
    · exact hk.unsent hno (hsame ▸ hfd)
    · rw [hnone] at hfd; cases hfd
  · rw [hclient, hcomp]
    exact hk.prepares
  · rw [hclient, hhandle, hcomp]
    exact hk.reachable

/-- **A prepared component is a fresh one.** -/
theorem ClientPc.Prepares.fresh {c : Component} {cid : OvsComponentId}
    (h : (ClientPc.initManager cid).Prepares c) (hidle : c.listener = .idle) (hmon : c.db.monitors = [])
    (hrec : c.db.receipts = []) :
    { c with manager := .start } = Component.start cid.toNat := by
  obtain ⟨⟨hblocked, hfeedback, hcalls, hmcalls⟩, hid, hsent, hmutex⟩ := h
  cases c with
  | mk blocked monitorFeedback mutex manager db calls monitorCalls listener =>
      cases db with
      | mk id receipts monitors sent =>
          cases hblocked; cases hfeedback; cases hcalls; cases hmcalls
          cases hid; cases hsent; cases hmutex; cases hidle; cases hmon; cases hrec
          cases cid <;> rfl

/-- Nothing is left of an earlier use, on the connection `fd`. -/
structure Component.Unused (c : Component) (fd : Option Nat) : Prop where
  listener : c.listener = .idle
  monitors : c.db.monitors = []
  receipts : c.db.receipts = []
  unsent : fd.isSome = true → c.db.sent = []

/-- Behind the clearing of the lists nothing is left. -/
theorem ApiProcess.Kept.unused (hk : s.Kept) (h : s.client.noReceipts s.handle = true) :
    s.component.Unused s.ovsdbSockFd := by
  obtain ⟨hmonitors, _⟩ := Bool.and_eq_true_iff.1 h
  obtain ⟨hserving, _⟩ := Bool.and_eq_true_iff.1 hmonitors
  have hserving : s.client.serving s.handle = false := by
    cases hs : s.client.serving s.handle with
    | false => rfl
    | true => rw [hs] at hserving; cases hserving
  exact ⟨hk.idle hserving, hk.monitors hmonitors, hk.receipts h, hk.unsent hserving⟩

/-- Where nothing is left, all is kept. -/
theorem Component.Unused.kept (hu : s.component.Unused s.ovsdbSockFd) (hprep : s.client.Prepares s.component)
    (hdown : s.client = .idle → s.handle = false) : s.Kept where
  busy := fun hb => absurd hu.listener hb
  monitors := fun _ => hu.monitors
  receipts := fun _ => hu.receipts
  unsent := fun _ => hu.unsent
  prepares := hprep
  reachable := fun hidle hup => by rw [hdown hidle] at hup; cases hup

/-- Nothing but the client's place has to be looked at. -/
theorem Component.Unused.goes (hu : s.component.Unused s.ovsdbSockFd) (hcomp : s'.component = s.component)
    (hfd : s'.ovsdbSockFd = s.ovsdbSockFd ∨ s'.ovsdbSockFd = none) (hprep : s'.client.Prepares s.component)
    (hdown : s'.client = .idle → s'.handle = false) : s'.Kept := by
  refine Component.Unused.kept ⟨?_, ?_, ?_, fun hsome => ?_⟩ (hcomp ▸ hprep) hdown
  · rw [hcomp]; exact hu.listener
  · rw [hcomp]; exact hu.monitors
  · rw [hcomp]; exact hu.receipts
  · rw [hcomp]
    rcases hfd with hsame | hnone
    · exact hu.unsent (hsame ▸ hsome)
    · rw [hnone] at hsome; cases hsome

/-- The steps of the client. -/
theorem clientStep_kept {c : Choice} (h : clientStep s c = some s') (ho : s.Ordered) (hk : s.Kept) :
    s'.Kept := by
  have hprep := hk.prepares
  have hu := hk.unused
  unfold clientStep at h
  cases hpc : s.client with
  | idle => simp only [hpc] at h; cases h
  | openLog cid =>
      have hu := hu (by rw [hpc]; rfl)
      simp only [hpc] at h
      split at h
      · split at h
        · cases h; exact hu.goes rfl (.inl rfl) trivial ClientPc.noConfusion
        · cases h; exact hu.goes rfl (.inl rfl) trivial ClientPc.noConfusion
      · cases h
  | setFields cid =>
      have hu := hu (by rw [hpc]; rfl)
      simp only [hpc] at h
      cases h
      exact Component.Unused.kept ⟨hu.listener, hu.monitors, hu.receipts, hu.unsent⟩
        ⟨rfl, rfl, rfl, rfl⟩ ClientPc.noConfusion
  | ovsdbInit cid =>
      have hu := hu (by rw [hpc]; rfl)
      rw [hpc] at hprep
      obtain ⟨hblocked, hfeedback, hcalls, hmcalls⟩ := hprep
      simp only [hpc] at h
      split at h
      · next hfd =>
          cases h
          exact Component.Unused.kept ⟨hu.listener, hu.monitors, hu.receipts, hu.unsent⟩
            ⟨⟨hblocked, hfeedback, hcalls, hmcalls⟩, rfl, hu.unsent hfd⟩ ClientPc.noConfusion
      · cases h
        exact Component.Unused.kept ⟨hu.listener, hu.monitors, hu.receipts, hu.unsent⟩
          ⟨⟨hblocked, hfeedback, hcalls, hmcalls⟩, rfl⟩ ClientPc.noConfusion
  | connect cid =>
      have hu := hu (by rw [hpc]; rfl)
      rw [hpc] at hprep
      obtain ⟨⟨hblocked, hfeedback, hcalls, hmcalls⟩, hid⟩ := hprep
      simp only [hpc] at h
      split at h
      · split at h
        · cases h; exact hu.goes rfl (.inl rfl) trivial ClientPc.noConfusion
        · cases h
          exact Component.Unused.kept ⟨hu.listener, hu.monitors, hu.receipts, fun _ => rfl⟩
            ⟨⟨hblocked, hfeedback, hcalls, hmcalls⟩, hid, rfl⟩ ClientPc.noConfusion
      · cases h
  | createThread cid =>
      have hu := hu (by rw [hpc]; rfl)
      rw [hpc] at hprep
      simp only [hpc] at h
      split at h
      · cases h; exact hu.goes rfl (.inl rfl) hprep ClientPc.noConfusion
      · cases h; exact hu.goes rfl (.inr rfl) trivial ClientPc.noConfusion
  | mutexInit cid =>
      have hu := hu (by rw [hpc]; rfl)
      rw [hpc] at hprep
      obtain ⟨⟨hblocked, hfeedback, hcalls, hmcalls⟩, hid, hsent⟩ := hprep
      simp only [hpc] at h
      split at h
      · cases h
        exact Component.Unused.kept ⟨hu.listener, hu.monitors, hu.receipts, hu.unsent⟩
          ⟨⟨hblocked, hfeedback, hcalls, hmcalls⟩, hid, hsent, rfl⟩ ClientPc.noConfusion
      · cases h; exact hu.goes rfl (.inl rfl) trivial ClientPc.noConfusion
  | condInit cid =>
      have hu := hu (by rw [hpc]; rfl)
      rw [hpc] at hprep
      simp only [hpc] at h
      split at h
      · cases h; exact hu.goes rfl (.inl rfl) hprep ClientPc.noConfusion
      · cases h; exact hu.goes rfl (.inl rfl) trivial ClientPc.noConfusion
  | initManager cid =>
      have hu := hu (by rw [hpc]; rfl)
      rw [hpc] at hprep
      have htable : s.table = false := by
        have hobj := ho.inPhase
        unfold ApiProcess.InPhase at hobj
        rw [hpc] at hobj
        exact congrArg (fun x => x.2.1) hobj
      simp only [hpc] at h
      rw [if_neg (by rw [htable]; exact Bool.false_ne_true)] at h
      split at h
      · cases h
        refine ⟨fun hb => absurd hu.listener hb, fun _ => hu.monitors, fun _ => hu.receipts,
          fun _ => hu.unsent, trivial,
          fun _ _ => ⟨cid, .init ?_⟩⟩
        exact ClientPc.Prepares.fresh hprep hu.listener hu.monitors hu.receipts
      · cases h; exact hu.goes rfl (.inl rfl) trivial ClientPc.noConfusion
  | cancelMonitor =>
      simp only [hpc] at h
      cases h
      refine ⟨fun hb => ?_, fun hno => (Bool.false_ne_true hno).elim,
        fun hno => (Bool.false_ne_true hno).elim,
        fun hno => (Bool.false_ne_true hno.symm).elim, trivial, fun hidle => ClientPc.noConfusion hidle⟩
      exact ⟨(hk.busy hb).1, rfl⟩
  | setTerminate =>
      simp only [hpc] at h
      cases h
      refine ⟨fun hb => ?_, fun hno => (Bool.false_ne_true hno).elim,
        fun hno => (Bool.false_ne_true hno).elim,
        fun hno => (Bool.false_ne_true hno.symm).elim, trivial, fun hidle => ClientPc.noConfusion hidle⟩
      exact ⟨(hk.busy hb).1, rfl⟩
  | join =>
      simp only [hpc] at h
      split at h
      · cases h
      · next hrun =>
          cases h
          have hnone : s.ovsdbSockFd = none :=
            ho.oneThread.joined (by rw [hpc]; rfl) (Bool.eq_false_iff.2 hrun)
          refine ⟨fun hb => ?_, fun hno => (Bool.false_ne_true hno).elim,
            fun hno => (Bool.false_ne_true hno).elim,
            fun _ hsome => ?_, trivial, fun hidle => ClientPc.noConfusion hidle⟩
          · -- the thread would still handle the message
            obtain ⟨_, hon⟩ := ho.oneThread.parsing (hk.busy hb).1
            rw [ApiProcess.attended, hnone] at hon
            cases hon
          · have hsome : s.ovsdbSockFd.isSome = true := hsome
            rw [hnone] at hsome
            cases hsome
  | clearMonitors =>
      simp only [hpc] at h
      cases h
      have hnone : s.ovsdbSockFd = none := ho.linked.apart (by rw [hpc]; rfl)
      refine ⟨fun hb => absurd (hk.idle (by rw [hpc]; rfl)) hb, fun _ => rfl,
        fun hno => (Bool.false_ne_true hno).elim,
        fun _ hsome => ?_, trivial, fun hidle => ClientPc.noConfusion hidle⟩
      have hsome : s.ovsdbSockFd.isSome = true := hsome
      rw [hnone] at hsome
      cases hsome
  | clearReceipts =>
      simp only [hpc] at h
      cases h
      refine Component.Unused.kept ⟨hk.idle (by rw [hpc]; rfl), hk.monitors (by rw [hpc]; rfl), rfl,
        hk.unsent (by rw [hpc]; rfl)⟩ trivial ClientPc.noConfusion
  | deinitManager =>
      have hu := hu (by rw [hpc]; rfl)
      simp only [hpc] at h
      split at h
      · cases h
        exact Component.Unused.kept ⟨hu.listener, hu.monitors, hu.receipts,
          hu.unsent⟩ trivial ClientPc.noConfusion
      · cases h; exact hu.goes rfl (.inl rfl) trivial ClientPc.noConfusion
  | freeHandle rtn =>
      have hu := hu (by rw [hpc]; rfl)
      simp only [hpc] at h
      cases h
      exact hu.goes rfl (.inl rfl) trivial fun _ => rfl
  | _ rtn =>
      have hu := hu (by rw [hpc]; rfl)
      simp only [hpc] at h
      cases h
      exact hu.goes rfl (.inl rfl) trivial ClientPc.noConfusion

/-- Every step. -/
theorem apiStep_kept {i : ApiStep} (h : apiStep s i = some s') (ho : s.Ordered) (hk : s.Kept) : s'.Kept := by
  obtain ⟨c, hc⟩ | ⟨n, ht⟩ | hother := apiStep_cases h
  · exact clientStep_kept hc ho hk
  · exact ht.kept ho hk
  · exact hother.kept ho hk

end Kept

/-! ## §2. Sessions. -/

/-- The run lemma. -/
theorem api_invariant {s : ApiProcess} (h : apiMachine.Reachable s) : s.Ordered ∧ s.Kept := by
  refine h.invariant (I := fun s => s.Ordered ∧ s.Kept) ?_ ?_
  · intro s h0
    have h0 : s = .start := h0
    subst h0
    exact ⟨ordered_start, kept_start⟩
  · intro s i s' hI _ hstep
    exact ⟨apiStep_ordered hstep hI.1, apiStep_kept hstep hI.1 hI.2⟩

/-- **Every session is a run of the component.**  Whatever failed before,
between an `init` that succeeded and the `deinit` the component is in a state
that it reaches from the start. -/
theorem session_reachable {s : ApiProcess} (h : apiMachine.Reachable s) (hidle : s.client = .idle)
    (hup : s.handle = true) : ∃ cid : OvsComponentId, (componentMachine cid.toNat).Reachable s.component :=
  (api_invariant h).2.reachable hidle hup

/-- What the environment answers when all goes well, with the two descriptors it gives. -/
def Choice.well (log socket : Nat) : Choice := ⟨true, some log, false, .connected socket, true, true⟩

/-- An `ovs_agent_api_init` that succeeds. -/
def initSteps (cid : OvsComponentId) (log socket : Nat) : List ApiStep :=
  .init cid true :: List.replicate 8 (.client (.well log socket))

/-- A second session: the first `init` fails at its mutex and leaves the connection. -/
def secondTrySteps : List ApiStep :=
  [.init .ovsAgent true] ++ List.replicate 5 (.client (.well 3 4)) ++
    [.client ⟨true, some 3, false, .connected 4, false, true⟩, .client (.well 3 4), .client (.well 3 4),
      .thread 0 .nothing] ++
    [.init .meshAgent true] ++ List.replicate 6 (.client (.well 3 5))

/-- The process after a list of steps. -/
def ApiProcess.after (is : List ApiStep) : ApiProcess := (apiMachine.run .start is).getD .start

/-- A list of steps that can be taken leads to a reachable process. -/
theorem ApiProcess.reachable_after {is : List ApiStep} (h : (apiMachine.run .start is).isSome = true) :
    apiMachine.Reachable (ApiProcess.after is) := by
  obtain ⟨s, hs⟩ := Option.isSome_iff_exists.1 h
  have hr : apiMachine.Reachable s := Machine.reachable_of_run (.init rfl) hs
  unfold ApiProcess.after
  rw [hs]
  exact hr

theorem session_reachable_secondTry :
    ∃ cid : OvsComponentId,
      (componentMachine cid.toNat).Reachable (ApiProcess.after secondTrySteps).component :=
  session_reachable (ApiProcess.reachable_after (by decide)) (by decide) (by decide)

/-! ## §3. A lost connection. -/

/-- No access of the call has succeeded in sending. -/
def DbPc.Unsent : DbPc → Prop
  | .monListRemove _ sent => sent = false
  | .returned status => status ≠ .success
  | _ => True

/-- A request that is ready has sent nothing. -/
theorem DbCall.ready_unsent (call : DbCall) (ids : List Nat) : (call.ready ids).Unsent := by
  unfold DbCall.ready
  split
  · trivial
  · split
    · exact OvsStatus.noConfusion
    · trivial

/-- An access while `send` fails sends nothing. -/
theorem dbStep_sent_error {o : Outcome} {pc : DbPc} {db : OvsDbApi} (ho : o.send = .error) :
    (dbStep o pc db).2.sent = db.sent := by
  cases pc with
  | receiptListAdd p =>
      simp only [dbStep]
      split
      · rfl
      · split <;> rfl
  | monListAdd p uniqueId monCb =>
      simp only [dbStep]
      split <;> rfl
  | socketWrite p =>
      simp only [dbStep, ovsdbSocketWrite, ho]
      split <;> rfl
  | monListRemove uuid sent =>
      simp only [dbStep]
      split <;> rfl
  | _ => rfl

/-- An access while `send` fails leaves the call where nothing was sent. -/
theorem dbStep_unsent {o : Outcome} {pc : DbPc} {db : OvsDbApi} (ho : o.send = .error) (h : pc.Unsent) :
    (dbStep o pc db).1.Unsent := by
  cases pc with
  | idGenerate call ids => exact DbCall.ready_unsent ..
  | receiptListAdd p =>
      simp only [dbStep]
      split
      · exact OvsStatus.noConfusion
      · split
        · trivial
        · trivial
  | monListAdd p uniqueId monCb =>
      simp only [dbStep]
      split
      · exact OvsStatus.noConfusion
      · trivial
  | socketWrite p =>
      simp only [dbStep, ovsdbSocketWrite, ho]
      split
      · exact OvsStatus.noConfusion
      · rfl
  | monListRemove uuid sent =>
      have hsent : sent = false := h
      simp only [dbStep, hsent]
      split
      · exact OvsStatus.noConfusion
      · exact OvsStatus.noConfusion
  | returned status => exact h

/-- The call has not sent its request and will not wait for an answer. -/
def CallPc.Failing : CallPc → Prop
  | .idGenerate => True
  | .setBlocked => True
  | .insertTransaction => True
  | .ovsdbWrite pc => pc.Unsent
  | .clearBlocked => True
  | .deleteTransaction => True
  | .returned rtn => rtn = false
  | _ => False

/-- Behind such an access the call is bound to fail, -/
theorem Call.failing_afterWrite {c : Call} {pc : DbPc} (h : pc.Unsent) : (c.afterWrite pc).pc.Failing := by
  cases pc with
  | returned status =>
      cases status with
      | success => exact absurd rfl h
      | _ => trivial
  | _ => exact h

/-- and so it is at its first one. -/
theorem Call.failing_write (c : Call) (receiptCb : Option OvsdbReceiptCb) : (c.write receiptCb).pc.Failing :=
  Call.failing_afterWrite (DbCall.ready_unsent ..)

/-- Whatever a call does, the layer is touched by one access at most. -/
theorem callStep_layer {a a' : Component} {n : Nat} {malloc : Bool} {o : Outcome} (ho : o.send = .error)
    (h : callStep a n malloc o = some a') : a'.db.sent = a.db.sent := by
  obtain ⟨c, _, hcs⟩ := callStep_cases h
  cases hcs with
  | ovsdbWrite _ =>
      exact dbStep_sent_error ho
  | _ => rfl

/-- The listener's requests send nothing either. -/
theorem listenerStep_layer {a a' : Component} {o : Outcome} {waiter : Option Nat} (ho : o.send = .error)
    (h : listenerStep a o waiter = some a') : a'.db.sent = a.db.sent := by
  unfold listenerStep at h
  split at h
  · cases h
  · split at h <;> (cases h; rfl)
  · split at h <;> (cases h; rfl)
  · cases h; exact dbStep_sent_error ho
  · cases h; rfl
  · cases h; rfl
  · cases h; rfl
  · cases h; exact dbStep_sent_error ho
  · cases h; exact dbStep_sent_error ho
  · split at h <;> (cases h; rfl)
  · split at h
    · cases h; rfl
    · cases h
  · cases h; rfl
  · rw [(condSignal_frame h).1]
  · cases h; rfl

/-- Nothing is sent without a connection. -/
theorem componentStep_disconnected {a a' : Component} {i : ComponentStep}
    (h : componentStep a (i.over false) = some a') : a'.db.sent = a.db.sent := by
  cases i with
  | interact request callback => cases h; rfl
  | call n malloc o => exact callStep_layer (o := o.over false) rfl h
  | wake n result =>
      obtain ⟨c, _, _, rfl⟩ := wakeStep_cases h
      rfl
  | interactMonitor t cb => cases h; rfl
  | monitorCall n o =>
      simp only [ComponentStep.over, componentStep] at h
      split at h
      · cases h
      · cases h; exact dbStep_sent_error (o := o.over false) rfl
  | receipt rid result =>
      obtain ⟨_, l', rfl, _⟩ := receiptStep_cases h
      rfl
  | update monId tableName row =>
      obtain ⟨_, rfl | ⟨_, _, _, _, _, ⟨_, l', _, rfl⟩ | ⟨_, rfl⟩⟩⟩ := updateStep_cases h
      · rfl
      · rfl
      · rfl
  | listener o waiter => exact listenerStep_layer (o := o.over false) rfl h

/-- The requests from the `k`-th and the monitor requests from the `l`-th on come to nothing. -/
structure Component.Vain (k l : Nat) (a : Component) : Prop where
  calls : ∀ m c, k ≤ m → a.calls[m]? = some c → c.pc.Failing
  monitorCalls : ∀ m pc, l ≤ m → a.monitorCalls[m]? = some pc → pc.Unsent

/-- A step of a request that is bound to fail, or of an older one. -/
theorem callStep_vain {k l : Nat} {a a' : Component} {n : Nat} {malloc : Bool} {o : Outcome}
    (ho : o.send = .error) (h : callStep a n malloc o = some a') (hv : a.Vain k l) : a'.Vain k l := by
  obtain ⟨c, hc, hcs⟩ := callStep_cases h
  have hset : ∀ {b : Component} {c' : Call}, b.calls = a.calls → b.monitorCalls = a.monitorCalls →
      (c.pc.Failing → c'.pc.Failing) → (b.setCall n c').Vain k l := by
    intro b c' hcalls hmcalls hown
    refine ⟨fun m d hkm hd => ?_, fun m pc hlm hpc => hv.monitorCalls m pc hlm (hmcalls ▸ hpc)⟩
    have hd : (b.setCall n c').calls[m]? = some d := hd
    rcases call_of_set (s := a) (by rw [← hcalls]; rfl) hd with ⟨rfl, rfl⟩ | ⟨_, hold⟩
    · exact hown (hv.calls _ c hkm hc)
    · exact hv.calls m d hkm hold
  cases hcs with
  | idGenerate hpc hc' =>
      refine hset rfl rfl fun _ => ?_
      split
      · trivial
      · exact Call.failing_write ..
  | setBlocked hpc => exact hset rfl rfl fun _ => trivial
  | insertFails hpc hm => exact hset rfl rfl fun _ => rfl
  | insert hpc hm hc' => exact hset rfl rfl fun _ => Call.failing_write ..
  | ovsdbWrite hpc =>
      refine hset rfl rfl fun hf => ?_
      rw [hpc] at hf
      exact Call.failing_afterWrite (dbStep_unsent ho hf)
  | clearBlocked hpc => exact hset rfl rfl fun _ => trivial
  | deleteTransaction hpc => exact hset rfl rfl fun _ => rfl
  | mutexLock hpc _ => exact hset rfl rfl fun hf => by rw [hpc] at hf; exact hf.elim
  | loopWait hpc _ => exact hset rfl rfl fun hf => by rw [hpc] at hf; exact hf.elim
  | loopExit hpc _ => exact hset rfl rfl fun hf => by rw [hpc] at hf; exact hf.elim
  | relock hpc _ => exact hset rfl rfl fun hf => by rw [hpc] at hf; exact hf.elim
  | signalled hpc => exact hset rfl rfl fun hf => by rw [hpc] at hf; exact hf.elim
  | waitFailed hpc _ => exact hset rfl rfl fun hf => by rw [hpc] at hf; exact hf.elim
  | unlockSuccess hpc => exact hset rfl rfl fun hf => by rw [hpc] at hf; exact hf.elim
  | unlock hpc _ => exact hset rfl rfl fun hf => by rw [hpc] at hf; exact hf.elim

/-- The signal of a completion wakes a call that was sent before, or none. -/
theorem listenerStep_vain {k l : Nat} {a a' : Component} {o : Outcome} {waiter : Option Nat}
    (h : listenerStep a o waiter = some a') (hv : a.Vain k l) : a'.Vain k l := by
  cases listenerStep_cases h with
  | signalWakes _ hc hw =>
      refine ⟨fun m d hkm hd => ?_, hv.monitorCalls⟩
      rcases call_of_set rfl hd with ⟨rfl, rfl⟩ | ⟨_, hold⟩
      · have hf := hv.calls _ _ hkm hc
        rw [Call.pc_of_waiting hw] at hf
        exact hf.elim
      · exact hv.calls m d hkm hold
  | signalSkip _ _ =>
      refine ⟨fun m d hkm hd => ?_, hv.monitorCalls⟩
      obtain ⟨c, hc, rfl⟩ := call_of_feed rfl hd
      exact hv.calls m c hkm hc
  | signalUnlock _ =>
      refine ⟨fun m d hkm hd => ?_, hv.monitorCalls⟩
      obtain ⟨c, hc, rfl⟩ := call_of_feed rfl hd
      exact hv.calls m c hkm hc
  | _ => exact ⟨hv.calls, hv.monitorCalls⟩

/-- Every step of a component whose connection is lost. -/
theorem componentStep_vain {k l : Nat} {a a' : Component} {i : ComponentStep}
    (h : componentStep a (i.over false) = some a') (hv : a.Vain k l) : a'.Vain k l := by
  cases i with
  | interact request callback =>
      cases h
      refine ⟨fun m d hkm hd => ?_, hv.monitorCalls⟩
      rcases call_of_append rfl hd with rfl | hold
      · trivial
      · exact hv.calls m d hkm hold
  | call n malloc o => exact callStep_vain (o := o.over false) rfl h hv
  | wake n result =>
      obtain ⟨c, hc, hw, rfl⟩ := wakeStep_cases h
      refine ⟨fun m d hkm hd => ?_, hv.monitorCalls⟩
      rcases call_of_set rfl hd with ⟨rfl, rfl⟩ | ⟨_, hold⟩
      · have hf := hv.calls _ _ hkm hc
        rw [Call.pc_of_waiting hw] at hf
        exact hf.elim
      · exact hv.calls m d hkm hold
  | interactMonitor t cb =>
      cases h
      refine ⟨hv.calls, fun m pc hlm hpc => ?_⟩
      have hpc : (a.monitorCalls ++ [(DbCall.monitor t cb none).start])[m]? = some pc := hpc
      rw [List.getElem?_append] at hpc
      split at hpc
      · exact hv.monitorCalls m pc hlm hpc
      · rw [List.mem_singleton.1 (List.mem_of_getElem? hpc)]
        exact DbCall.ready_unsent ..
  | monitorCall n o =>
      simp only [ComponentStep.over, componentStep] at h
      split at h
      · cases h
      · next pc hpc =>
          cases h
          refine ⟨hv.calls, fun m q hlm hq => ?_⟩
          have hq : (a.monitorCalls.set n (dbStep (o.over false) pc a.db).1)[m]? = some q := hq
          rw [List.getElem?_set] at hq
          split at hq
          · next hnm =>
              split at hq
              · cases hq
                exact dbStep_unsent (o := o.over false) rfl (hv.monitorCalls n pc (hnm ▸ hlm) hpc)
              · cases hq
          · exact hv.monitorCalls m q hlm hq
  | receipt rid result =>
      obtain ⟨_, l', rfl, _⟩ := receiptStep_cases h
      exact ⟨hv.calls, hv.monitorCalls⟩
  | update monId tableName row =>
      obtain ⟨_, rfl | ⟨_, _, _, _, _, ⟨_, l', _, rfl⟩ | ⟨_, rfl⟩⟩⟩ := updateStep_cases h
      · exact hv
      · exact ⟨hv.calls, hv.monitorCalls⟩
      · exact ⟨hv.calls, hv.monitorCalls⟩
  | listener o waiter => exact listenerStep_vain h hv

/-- The API is up and its connection is gone; so far `sent` was sent. -/
structure ApiProcess.Lost (k l : Nat) (sent : List Sent) (s : ApiProcess) : Prop where
  idle : s.client = .idle
  up : s.handle = true
  gone : s.ovsdbSockFd = none
  kept : s.component.db.sent = sent
  vain : s.component.Vain k l

/-- The step is not the call of `ovs_agent_api_deinit`. -/
def ApiStep.isDeinit : ApiStep → Bool
  | .deinit => true
  | _ => false

/-- Every step of the process but for the deinitialisation. -/
theorem apiStep_lost {k l : Nat} {sent : List Sent} {s s' : ApiProcess} {i : ApiStep} (hl : s.Lost k l sent)
    (hi : i.isDeinit = false) (h : apiStep s i = some s') : s'.Lost k l sent := by
  obtain ⟨hidle, hup, hgone, hkept, hvain⟩ := hl
  cases i with
  | openLog malloc opened path name =>
      simp only [apiStep] at h
      split at h
      · cases h; exact ⟨hidle, hup, hgone, hkept, hvain⟩
      · cases h
  | closeLog =>
      simp only [apiStep, if_pos hidle] at h
      cases h
      exact ⟨hidle, hup, hgone, hkept, hvain⟩
  | init cid malloc =>
      simp only [apiStep, ovsAgentApiInit, hidle, hup, if_pos] at h
      cases h
      exact ⟨rfl, hup, hgone, hkept, hvain⟩
  | deinit => cases hi
  | client c =>
      simp only [apiStep, clientStep, hidle] at h
      cases h
  | thread n r =>
      have ht := threadStep_effect h
      obtain ⟨hclient, hobj, _, hcomp, _⟩ := ht.frame
      have hhandle : s'.handle = s.handle := congrArg Prod.fst hobj
      refine ⟨hclient ▸ hidle, hhandle ▸ hup,
        ?_, by rw [hcomp]; exact hkept, by rw [hcomp]; exact hvain⟩
      rcases ht.sockFd with hsame | ⟨hnone, _⟩
      · rw [hsame, hgone]
      · exact hnone
  | request i =>
      have hoff : s.connected = false := by
        unfold ApiProcess.connected
        rw [hgone]
        rfl
      simp only [apiStep, requestStep, hoff] at h
      split at h
      · obtain ⟨a, ha, rfl⟩ := Option.map_eq_some_iff.1 h
        exact ⟨hidle, hup, hgone, (componentStep_disconnected ha).trans hkept,
          componentStep_vain ha hvain⟩
      · cases h
  | logTest level =>
      obtain ⟨l, _, rfl⟩ := Option.map_eq_some_iff.1 h
      exact ⟨hidle, hup, hgone, hkept, hvain⟩
  | logWrite malloc =>
      simp only [apiStep, logWrite] at h
      split at h
      · cases h; exact ⟨hidle, hup, hgone, hkept, hvain⟩
      · cases h

/-- **A lost connection stays lost.**  Until the client deinitialises the API,
each `init` says that all is well, nothing is sent any more, and no request
begun after the loss ever returns success. -/
theorem lost_until_deinit {s s' : ApiProcess} (is : List ApiStep) (hidle : s.client = .idle)
    (hup : s.handle = true) (hgone : s.ovsdbSockFd = none) (his : ∀ i ∈ is, i.isDeinit = false)
    (hrun : apiMachine.run s is = some s') :
    (∀ cid malloc, ovsAgentApiInit s' cid malloc = some (s'.returns true)) ∧
    s'.ovsdbSockFd = none ∧ s'.component.db.sent = s.component.db.sent ∧
      (∀ n c, s.component.calls.length ≤ n → s'.component.calls[n]? = some c →
        c.result ≠ some true) ∧
      ∀ n, s.component.monitorCalls.length ≤ n → s'.component.monitorCalls[n]? ≠
      some (.returned .success) := by
  have hstart : s.Lost s.component.calls.length s.component.monitorCalls.length s.component.db.sent := by
    refine ⟨hidle, hup, hgone, rfl, fun m c hm hc => ?_, fun m pc hm hpc => ?_⟩
    · rw [List.getElem?_eq_none hm] at hc; cases hc
    · rw [List.getElem?_eq_none hm] at hpc; cases hpc
  have hlost := Machine.AllSteps.invariant (M := apiMachine) (C := fun _ i => i.isDeinit = false)
    (fun _ _ _ hl hi hstep => apiStep_lost hl hi hstep) (Machine.allSteps_labels is s his) hrun hstart
  refine ⟨fun cid malloc => ?_, hlost.gone, hlost.kept, fun n c hn hc hres => ?_, fun n hn hpc => ?_⟩
  · unfold ovsAgentApiInit
    simp only [hlost.idle, hlost.up, if_pos]
  · have hf := hlost.vain.calls n c hn hc
    rw [Call.pc_of_result hres] at hf
    cases hf
  · exact hlost.vain.monitorCalls n _ hn hpc rfl

/-- The connection breaks while the thread listens; then `init` is called
again and a request is made. -/
def lossSteps : List ApiStep :=
  initSteps .meshAgent 3 4 ++
    [.thread 0 .nothing, .thread 0 .error, .thread 0 .nothing, .thread 0 .nothing]

def vainSteps : List ApiStep :=
  [.init .meshAgent true, .request (.interact (gatewayRequest .disable 1) (some (.client 0)))] ++
    List.replicate 7 (.request (.call 0 true .ok))

theorem lost_until_deinit_mesh : (ApiProcess.after (lossSteps ++ vainSteps)).ovsdbSockFd = none ∧
    (ApiProcess.after (lossSteps ++ vainSteps)).component.calls.map Call.result = [some false] := by
  have hlost := lost_until_deinit (s := ApiProcess.after lossSteps) vainSteps (by decide)
      (by decide) (by decide)
    (by decide) (by rfl)
  exact ⟨hlost.2.1, by decide⟩

end OvsAgent
