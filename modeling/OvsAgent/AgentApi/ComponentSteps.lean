/-
  OvsAgent.AgentApi.ComponentSteps — what a step of the process can do.

  `CallStep` and `ListenerStep` list the effects of a step of a call and of the
  listener case by case; the proofs about runs go by these cases and never
  unfold a step function.

  Main result: `component_refines` — seen from the transaction manager, every
  step of the process is at most one call of the manager's interface, so what
  holds in every run of `managerMachine` holds in every run of the process.
-/
import OvsAgent.AgentApi.Component
import OvsAgent.AgentApi.Accounting

namespace OvsAgent

open CString (utoa)

/-! ## §1. Steps of a call. -/

/-- What the next access of call `n`, which is `c`, can do. -/
inductive CallStep (s : Component) (n : Nat) (c : Call) (malloc : Bool) (o : Outcome) :
    Component → Prop where
  | idGenerate (hpc : c.pc = .idGenerate) {c' : Call} (hc' : c' = { c with rid := (idGenerate s.db).1 }) :
      CallStep s n c malloc o ({ s with db := (idGenerate s.db).2 }.setCall n
        (if c'.registers then c'.goto .setBlocked else c'.write none))
  | setBlocked (hpc : c.pc = .setBlocked) :
      CallStep s n c malloc o
        ({ s with blocked := c.blocking }.setCall n (c.goto .insertTransaction))
  | insertFails (hpc : c.pc = .insertTransaction) (hm : malloc = false) :
      CallStep s n c malloc o (s.setCall n (c.goto (.returned false)))
  | insert (hpc : c.pc = .insertTransaction) (hm : malloc = true) {c' : Call}
      (hc' : c' = { c with entry := some s.manager.mallocs }) :
      CallStep s n c malloc o
        ({ s with manager := (insertTransaction true (some (utoa c.rid)) c.callback
            (some c.request.tableConfig) s.manager).2 }.setCall n
          (c'.write (some .ovsAgentApiWriteCallback)))
  | ovsdbWrite {pc : DbPc} (hpc : c.pc = .ovsdbWrite pc) :
      CallStep s n c malloc o
        ({ s with db := (dbStep o pc s.db).2 }.setCall n (c.afterWrite (dbStep o pc s.db).1))
  | clearBlocked (hpc : c.pc = .clearBlocked) :
      CallStep s n c malloc o ({ s with blocked := false }.setCall n (c.goto .deleteTransaction))
  | mutexLock (hpc : c.pc = .mutexLock) (hm : s.mutex = none) :
      CallStep s n c malloc o
        ({ s with mutex := some (.call n) }.setCall n (c.goto (.loopTest .failed)))
  | loopWait {status : OvsStatus} (hpc : c.pc = .loopTest status) (hb : s.blocked = true) :
      CallStep s n c malloc o ({ s with mutex := none }.setCall n (c.goto .condWait))
  | loopExit {status : OvsStatus} (hpc : c.pc = .loopTest status) (hb : s.blocked = false) :
      CallStep s n c malloc o (s.setCall n (c.goto (.mutexUnlock status)))
  | relock {result : WaitResult} (hpc : c.pc = .condWoken result) (hm : s.mutex = none) :
      CallStep s n c malloc o
        ({ s with mutex := some (.call n) }.setCall n (c.goto (.condReturned result)))
  | signalled (hpc : c.pc = .condReturned .ok) :
      CallStep s n c malloc o (s.setCall n (c.goto (.loopTest .success)))
  | waitFailed {result : WaitResult} (hpc : c.pc = .condReturned result) (hr : result ≠ .ok) :
      CallStep s n c malloc o
        ({ s with blocked := false }.setCall n (c.goto (.loopTest result.status)))
  | unlockSuccess (hpc : c.pc = .mutexUnlock .success) :
      CallStep s n c malloc o ({ s with mutex := none }.setCall n (c.goto (.returned true)))
  | unlock {status : OvsStatus} (hpc : c.pc = .mutexUnlock status) (hs : status ≠ .success) :
      CallStep s n c malloc o ({ s with mutex := none }.setCall n (c.goto .deleteTransaction))
  | deleteTransaction (hpc : c.pc = .deleteTransaction) :
      CallStep s n c malloc o
        ({ s with manager := (deleteTransaction (some (utoa c.rid)) s.manager).2 }.setCall n
          (c.goto (.returned false)))

/-- A failed `malloc` leaves the table. -/
theorem insertTransaction_false (rid : Option CString) (callback : Option OvsInteractCb)
    (tableConfig : Option RdkbTableConfig) (m : TransactionManager) :
    insertTransaction false rid callback tableConfig m = (false, m) := by
  cases rid with
  | none => rfl
  | some rid =>
      cases tableConfig with
      | none => rfl
      | some tc => rfl

/-- The inversion lemma of a call. -/
theorem callStep_cases {s s' : Component} {n : Nat} {malloc : Bool} {o : Outcome}
    (h : callStep s n malloc o = some s') :
    ∃ c, s.calls[n]? = some c ∧ CallStep s n c malloc o s' := by
  unfold callStep at h
  cases hc : s.calls[n]? with
  | none => rw [hc] at h; cases h
  | some c =>
      rw [hc] at h
      refine ⟨c, rfl, ?_⟩
      cases hpc : c.pc with
      | idGenerate => simp only [hpc] at h; cases h; exact .idGenerate hpc (by rw [hpc])
      | setBlocked => simp only [hpc] at h; cases h; exact .setBlocked hpc
      | insertTransaction =>
          simp only [hpc] at h
          cases malloc with
          | false =>
              rw [insertTransaction_false] at h
              cases h
              exact .insertFails hpc rfl
          | true =>
              have hins := insertTransaction_eq (utoa c.rid) c.callback c.request.tableConfig s.manager
              rw [hins] at h
              cases h
              have := CallStep.insert (o := o) (s := s) (n := n) hpc rfl rfl
              rw [hins] at this
              exact this
      | ovsdbWrite pc => simp only [hpc] at h; cases h; exact .ovsdbWrite hpc
      | clearBlocked => simp only [hpc] at h; cases h; exact .clearBlocked hpc
      | mutexLock =>
          simp only [hpc] at h
          cases hm : s.mutex with
          | none => rw [hm] at h; cases h; exact .mutexLock hpc hm
          | some _ => rw [hm] at h; cases h
      | loopTest status =>
          simp only [hpc] at h
          by_cases hb : s.blocked = true
          · rw [if_pos hb] at h; cases h; exact .loopWait hpc hb
          · rw [if_neg hb] at h; cases h; exact .loopExit hpc (Bool.eq_false_iff.2 hb)
      | condWait => simp only [hpc] at h; cases h
      | condWoken result =>
          simp only [hpc] at h
          cases hm : s.mutex with
          | none => rw [hm] at h; cases h; exact .relock hpc hm
          | some _ => rw [hm] at h; cases h
      | condReturned result =>
          cases result with
          | ok => simp only [hpc] at h; cases h; exact .signalled hpc
          | timedOut => simp only [hpc] at h; cases h; exact .waitFailed hpc (by decide)
          | error => simp only [hpc] at h; cases h; exact .waitFailed hpc (by decide)
      | mutexUnlock status =>
          cases status with
          | success => simp only [hpc] at h; cases h; exact .unlockSuccess hpc
          | unknown => simp only [hpc] at h; cases h; exact .unlock hpc (by decide)
          | failed => simp only [hpc] at h; cases h; exact .unlock hpc (by decide)
          | timedOut => simp only [hpc] at h; cases h; exact .unlock hpc (by decide)
          | timedWaitError => simp only [hpc] at h; cases h; exact .unlock hpc (by decide)
      | deleteTransaction => simp only [hpc] at h; cases h; exact .deleteTransaction hpc
      | returned rtn => simp only [hpc] at h; cases h

/-- The call once its request went out. -/
def Call.sentOff (c : Call) : Call :=
  { c with sent := true, pc := if c.blocking then .mutexLock else .returned true }

/-- Where an access of the write leaves the call. -/
theorem afterWrite_cases (c : Call) (pc : DbPc) :
    c.afterWrite pc = c.sentOff ∨ c.afterWrite pc = c.goto .clearBlocked ∨
      ∃ pc', c.afterWrite pc = c.goto (.ovsdbWrite pc') := by
  cases pc with
  | returned status =>
      cases status with
      | success => exact Or.inl rfl
      | _ => exact Or.inr (Or.inl rfl)
  | _ => exact Or.inr (Or.inr ⟨_, rfl⟩)

/-- The request of a call stays what it was asked, -/
theorem afterWrite_request (c : Call) (pc : DbPc) : (c.afterWrite pc).request = c.request := by
  rcases afterWrite_cases c pc with h | h | ⟨pc', h⟩
  · rw [h]; rfl
  · rw [h]; rfl
  · rw [h]; rfl

/-- also when the write begins. -/
theorem write_request (c : Call) (receiptCb : Option OvsdbReceiptCb) :
    (c.write receiptCb).request = c.request := afterWrite_request c _

/-- Whether a call blocks is up to its request. -/
theorem Call.blocking_eq {c c' : Call} (h : c'.request = c.request) : c'.blocking = c.blocking := by
  unfold Call.blocking
  rw [h]

/-- A waiting call stands at the wait. -/
theorem Call.pc_of_waiting {c : Call} (h : c.waiting = true) : c.pc = .condWait := by
  unfold Call.waiting at h
  split at h
  · next hpc => exact hpc
  · cases h

/-! ## §2. Steps of the listener. -/

namespace ListenerPc

/-- The listener holds the mutex. -/
def holdsMutex : ListenerPc → Bool
  | signalClear _ => true
  | condSignal _ => true
  | signalUnlock _ => true
  | _ => false

/-- The entry whose Feedback is being processed. -/
def addr : ListenerPc → Option Nat
  | callback e _ => some e.addr
  | deleteGwConfig a _ _ => some a
  | deleteFeedback a _ _ => some a
  | signalTest a => some a
  | signalLock a => some a
  | signalClear a => some a
  | condSignal a => some a
  | signalUnlock a => some a
  | _ => none

/-- The completions whose callback is running. -/
def running : ListenerPc → List TransactionEntry
  | callback e _ => [e]
  | _ => []

/-- `l'` is a place outside the callback and the mutex, on behalf of no entry
but `a`, and with no uuid that the receipt parser would not let through. -/
structure Quiet (a : Option Nat) (l' : ListenerPc) : Prop where
  running : l'.running = []
  holdsMutex : l'.holdsMutex = false
  addr : ∀ a', l'.addr = some a' → a = some a'
  uuid : ∀ i rid uuid, l' = .updateTransaction i rid uuid → uuid.length ≤ maxUuidLen

/-- A place on behalf of no entry and with no uuid. -/
def resting : ListenerPc → Bool
  | idle => true
  | monitorTest _ => true
  | ovsdbMonitor _ _ => true
  | setMonitorFeedback _ _ => true
  | unlink _ => true
  | _ => false

/-- A resting place is quiet. -/
theorem Quiet.of_resting {a : Option Nat} {l' : ListenerPc} (h : l'.resting = true) : Quiet a l' := by
  cases l' with
  | idle => exact ⟨rfl, rfl, fun _ h => (by cases h), fun _ _ _ h => (by cases h)⟩
  | monitorTest i => exact ⟨rfl, rfl, fun _ h => (by cases h), fun _ _ _ h => (by cases h)⟩
  | ovsdbMonitor i pc => exact ⟨rfl, rfl, fun _ h => (by cases h), fun _ _ _ h => (by cases h)⟩
  | setMonitorFeedback i value => exact ⟨rfl, rfl, fun _ h => (by cases h), fun _ _ _ h => (by cases h)⟩
  | unlink i => exact ⟨rfl, rfl, fun _ h => (by cases h), fun _ _ _ h => (by cases h)⟩
  | _ => cases h

/-- Behind the call to `ovsdb_monitor`, whether it has returned or not. -/
theorem Quiet.afterMonitor (a : Option Nat) (i : Nat) (pc : DbPc) : Quiet a (.afterMonitor i pc) := by
  cases pc with
  | _ => exact .of_resting rfl

/-- Behind the first delete, with the next one to come or not. -/
theorem Quiet.afterDeleteGwConfig (a : Nat) (uuid : CString) (pc : DbPc) :
    Quiet (some a) (.afterDeleteGwConfig a uuid pc) := by
  cases pc with
  | returned status =>
      cases status with
      | success => exact ⟨rfl, rfl, fun _ h => h, fun _ _ _ h => (by cases h)⟩
      | _ => exact .of_resting rfl
  | _ => exact ⟨rfl, rfl, fun _ h => h, fun _ _ _ h => (by cases h)⟩

/-- Behind the second delete, with the signal to come or not. -/
theorem Quiet.afterDeleteFeedback (a : Nat) (uuid : CString) (pc : DbPc) :
    Quiet (some a) (.afterDeleteFeedback a uuid pc) := by
  cases pc with
  | returned status =>
      cases status with
      | success => exact ⟨rfl, rfl, fun _ h => h, fun _ _ _ h => (by cases h)⟩
      | _ => exact .of_resting rfl
  | _ => exact ⟨rfl, rfl, fun _ h => h, fun _ _ _ h => (by cases h)⟩

/-- What the parser let through is short enough. -/
theorem Quiet.receiptCallback (a : Option Nat) (i : Nat) (rid : CString) (cb : OvsdbReceiptCb)
    {receipt : OvsDbReceipt} (hr : ∀ error uuid, receipt = .insert error uuid →
      uuid.length ≤ maxUuidLen) : Quiet a (.receiptCallback i rid cb receipt) := by
  unfold ListenerPc.receiptCallback
  split
  · refine ⟨rfl, rfl, fun _ h => (by cases h), fun _ _ _ h => ?_⟩
    cases h
    exact hr _ _ rfl
  · exact .of_resting rfl

end ListenerPc

open ListenerPc (Quiet)

/-- What the next access of the listener can do. -/
inductive ListenerStep (s : Component) : Component → Prop where
  /-- Only the OVSDB layer and `monitorFeedback` are touched. -/
  | quiet {b : Bool} {db : OvsDbApi} {l' : ListenerPc} (hr : s.listener.running = [])
      (hm : s.listener.holdsMutex = false) (hl' : Quiet s.listener.addr l') :
      ListenerStep s { s with monitorFeedback := b, db := db, listener := l' }
  | updateTransaction {i : Nat} {rid uuid : CString} {l' : ListenerPc}
      (hl : s.listener = .updateTransaction i rid uuid) (hl' : Quiet none l') :
      ListenerStep s { s with
        manager := (updateTransaction (some rid) (some uuid) s.manager).2, listener := l' }
  | callbackReturns {e : TransactionEntry} {uuid : CString} {l' : ListenerPc}
      (hl : s.listener = .callback e uuid) (hl' : Quiet (some e.addr) l') :
      ListenerStep s { s with manager := destroyTransaction e s.manager, listener := l' }
  | signalSkip {a : Nat} (hl : s.listener = .signalTest a) (hb : s.blocked = false) :
      ListenerStep s (s.signalled a)
  | signalLock {a : Nat} (hl : s.listener = .signalLock a) (hm : s.mutex = none) :
      ListenerStep s { s with mutex := some .listener, listener := .signalClear a }
  | signalClear {a : Nat} (hl : s.listener = .signalClear a) :
      ListenerStep s { s with blocked := false, listener := .condSignal a }
  | signalNone {a : Nat} (hl : s.listener = .condSignal a) (hw : s.calls.any Call.waiting = false) :
      ListenerStep s { s with listener := .signalUnlock a }
  | signalWakes {a n : Nat} {c : Call} (hl : s.listener = .condSignal a)
      (hc : s.calls[n]? = some c) (hw : c.waiting = true) :
      ListenerStep s ({ s with listener := .signalUnlock a }.setCall n (c.goto (.condWoken .ok)))
  | signalUnlock {a : Nat} (hl : s.listener = .signalUnlock a) :
      ListenerStep s ({ s with mutex := none }.signalled a)

/-- The listener leaves the place `l`. -/
theorem ListenerStep.leave {s : Component} {l l' : ListenerPc} {b : Bool} {db : OvsDbApi}
    (hl : s.listener = l) (hr : l.running = []) (hm : l.holdsMutex = false) (hl' : Quiet l.addr l') :
    ListenerStep s { s with monitorFeedback := b, db := db, listener := l' } := by
  subst hl
  exact .quiet hr hm hl'

theorem updateTransaction_eq_pair (rid uuid : Option CString) (m : TransactionManager) :
    ∃ ok, updateTransaction rid uuid m = (ok, (updateTransaction rid uuid m).2) := ⟨_, rfl⟩

/-- The inversion lemma of the listener. -/
theorem listenerStep_cases {s s' : Component} {o : Outcome} {waiter : Option Nat}
    (h : listenerStep s o waiter = some s') : ListenerStep s s' := by
  unfold listenerStep at h
  cases hl : s.listener with
  | idle => simp only [hl] at h; cases h
  | updateTransaction i rid uuid =>
      simp only [hl] at h
      obtain ⟨ok, hok⟩ := updateTransaction_eq_pair (some rid) (some uuid) s.manager
      rw [hok] at h
      cases ok with
      | true => cases h; exact .updateTransaction hl (.of_resting rfl)
      | false => cases h; exact .updateTransaction hl (.of_resting rfl)
  | monitorTest i =>
      simp only [hl] at h
      split at h
      · cases h; exact .leave hl rfl rfl (.of_resting rfl)
      · cases h; exact .leave hl rfl rfl (.afterMonitor _ _ _)
  | ovsdbMonitor i pc =>
      simp only [hl] at h
      cases h
      exact .leave hl rfl rfl (.afterMonitor _ _ _)
  | setMonitorFeedback i value =>
      simp only [hl] at h
      cases h
      exact .leave hl rfl rfl (.of_resting rfl)
  | unlink i =>
      simp only [hl] at h
      cases h
      exact .leave hl rfl rfl (.of_resting rfl)
  | callback e uuid =>
      simp only [hl] at h
      cases h
      exact .callbackReturns hl (.afterDeleteGwConfig _ _ _)
  | deleteGwConfig a uuid pc =>
      simp only [hl] at h
      cases h
      exact .leave hl rfl rfl (.afterDeleteGwConfig _ _ _)
  | deleteFeedback a uuid pc =>
      simp only [hl] at h
      cases h
      exact .leave hl rfl rfl (.afterDeleteFeedback _ _ _)
  | signalTest a =>
      simp only [hl] at h
      by_cases hb : s.blocked = true
      · rw [if_pos hb] at h
        cases h
        exact .leave hl rfl rfl ⟨rfl, rfl, fun _ h => h, fun _ _ _ h => (by cases h)⟩
      · rw [if_neg hb] at h
        cases h
        exact .signalSkip hl (Bool.eq_false_iff.2 hb)
  | signalLock a =>
      simp only [hl] at h
      cases hm : s.mutex with
      | none => rw [hm] at h; cases h; exact .signalLock hl hm
      | some _ => rw [hm] at h; cases h
  | signalClear a => simp only [hl] at h; cases h; exact .signalClear hl
  | condSignal a =>
      simp only [hl, condSignal] at h
      cases waiter with
      -- with nobody to wake the signal is lost
      | none =>
          simp only at h
          by_cases hw : s.calls.any Call.waiting = true
          · rw [if_pos hw] at h; cases h
          · rw [if_neg hw] at h; cases h; exact .signalNone hl (Bool.eq_false_iff.2 hw)
      | some n =>
          simp only at h
          cases hc : s.calls[n]? with
          | none => rw [hc] at h; cases h
          | some c =>
              simp only [hc] at h
              by_cases hw : c.waiting = true
              · rw [if_pos hw] at h; cases h; exact .signalWakes hl hc hw
              · rw [if_neg hw] at h; cases h
  | signalUnlock a => simp only [hl] at h; cases h; exact .signalUnlock hl

/-! ## §3. Messages and wake-ups. -/

/-- The inversion lemma of a reply: an idle listener takes it up. -/
theorem receiptStep_cases {s s' : Component} {rid : CString} {result : Option Json}
    (h : receiptStep s rid result = some s') :
    s.listener = .idle ∧ ∃ l', s' = { s with listener := l' } ∧ Quiet none l' := by
  unfold receiptStep at h
  have hsame : s.listener = .idle → some s = some s' →
      s.listener = .idle ∧ ∃ l', s' = { s with listener := l' } ∧ Quiet none l' := by
    intro hl hs
    cases hs
    exact ⟨hl, .idle, by rw [← hl], .of_resting rfl⟩
  split at h
  · next hl _ =>
      split at h
      · exact hsame hl h
      · split at h
        · exact hsame hl h
        · split at h
          · next hp _ =>
              cases h
              refine ⟨hl, _, rfl, .receiptCallback _ _ _ _ fun error uuid hins => ?_⟩
              exact ovsdbParseResult_insert (hins ▸ hp)
          · exact hsame hl h
          · cases h
  · cases h

/-- A row of an update changes nothing, or completes a transaction. -/
theorem updateStep_cases {s s' : Component} {monId tableName : CString} {row : Json}
    (h : updateStep s monId tableName row = some s') :
    s.listener = .idle ∧ (s' = s ∨ ∃ uuid status e m,
      takeTransaction (some uuid) status s.manager = some (e, m) ∧
        ((e.callback = none ∧ ∃ l', Quiet (some e.addr) l' ∧
            s' = { s with manager := destroyTransaction e m, listener := l' })
          ∨ e.callback.isSome ∧ s' = { s with manager := m, listener := .callback e uuid })) := by
  unfold updateStep at h
  split at h
  · next hl =>
      refine ⟨hl, ?_⟩
      split at h
      · split at h
        · cases h
          unfold monitorFeedbackCallback
          split
          · split
            · exact Or.inl rfl
            · next e m ht =>
                right
                refine ⟨_, _, e, m, ht, ?_⟩
                cases e.callback with
                | none => exact Or.inl ⟨rfl, _, .afterDeleteGwConfig .., rfl⟩
                | some cb => exact Or.inr ⟨rfl, rfl⟩
          · exact Or.inl rfl
        · cases h; exact Or.inl rfl
        · cases h
      · cases h; exact Or.inl rfl
  · cases h

/-- The inversion lemma of a wake-up. -/
theorem wakeStep_cases {s s' : Component} {n : Nat} {result : WaitResult}
    (h : wakeStep s n result = some s') : ∃ c, s.calls[n]? = some c ∧ c.waiting = true ∧
      s' = s.setCall n ({ c with expired := c.expired || result ≠ WaitResult.ok }.goto
        (.condWoken result)) := by
  unfold wakeStep at h
  split at h
  · cases h
  · next c hc =>
      split at h
      · next hw => cases h; exact ⟨c, hc, hw, rfl⟩
      · cases h

/-- A monitor request touches the layer only. -/
theorem monitorCallStep_cases {s s' : Component} {n : Nat} {o : Outcome}
    (h : componentStep s (.monitorCall n o) = some s') :
    ∃ db pcs, s' = { s with db := db, monitorCalls := pcs } := by
  simp only [componentStep] at h
  split at h
  · cases h
  · cases h; exact ⟨_, _, rfl⟩

/-- The signal is given to a waiting call or lost; either way the listener goes on to the unlock. -/
theorem condSignal_frame {s s' : Component} {addr : Nat} {waiter : Option Nat}
    (h : condSignal s addr waiter = some s') : s'.db = s.db ∧ s'.listener = .signalUnlock addr := by
  unfold condSignal at h
  split at h
  · split at h
    · cases h
    · cases h; exact ⟨rfl, rfl⟩
  · split at h
    · cases h
    · split at h
      · cases h; exact ⟨rfl, rfl⟩
      · cases h

/-- The listener touches the layer by one access, or only unlinks a node. -/
theorem listenerStep_sent {s s' : Component} {o : Outcome} {waiter : Option Nat}
    (h : listenerStep s o waiter = some s') : s.db.sent ⊆ s'.db.sent := by
  unfold listenerStep at h
  split at h
  · cases h
  · split at h <;> (cases h; exact List.Subset.refl _)
  · split at h <;> (cases h; exact List.Subset.refl _)
  · cases h; exact dbStep_sent ..
  · cases h; exact List.Subset.refl _
  · cases h; exact List.Subset.refl _
  · cases h; exact List.Subset.refl _
  · cases h; exact dbStep_sent ..
  · cases h; exact dbStep_sent ..
  · split at h <;> (cases h; exact List.Subset.refl _)
  · split at h
    · cases h; exact List.Subset.refl _
    · cases h
  · cases h; exact List.Subset.refl _
  · rw [(condSignal_frame h).1]; exact List.Subset.refl _
  · cases h; exact List.Subset.refl _

/-- The step lemma: nothing that was sent is lost from the record. -/
theorem component_sent {s s' : Component} {i : ComponentStep} (h : componentStep s i = some s') :
    s.db.sent ⊆ s'.db.sent := by
  cases i with
  | interact request callback => cases h; exact List.Subset.refl _
  | call n malloc o =>
      obtain ⟨c, _, hcs⟩ := callStep_cases h
      cases hcs with
      | ovsdbWrite _ => exact dbStep_sent ..
      | _ => exact List.Subset.refl _
  | wake n result =>
      obtain ⟨c, _, _, rfl⟩ := wakeStep_cases h
      exact List.Subset.refl _
  | interactMonitor t cb => cases h; exact List.Subset.refl _
  | monitorCall n o =>
      simp only [componentStep] at h
      split at h
      · cases h
      · cases h; exact dbStep_sent ..
  | receipt rid result =>
      obtain ⟨_, l', rfl, _⟩ := receiptStep_cases h
      exact List.Subset.refl _
  | update monId tableName row =>
      obtain ⟨_, rfl | ⟨_, _, _, _, _, ⟨_, l', _, rfl⟩ | ⟨_, rfl⟩⟩⟩ := updateStep_cases h
      · exact List.Subset.refl _
      · exact List.Subset.refl _
      · exact List.Subset.refl _
  | listener o waiter => exact listenerStep_sent h

/-! ## §4. The process refines the transaction manager. -/

/-- The transaction manager of the process. -/
def Component.managerState (s : Component) : ManagerState :=
  ⟨true, s.manager, s.listener.running⟩

/-- The uuid an update of the manager is given was let through by the receipt parser. -/
def Component.Passes (s : Component) (call : ManagerCall) : Prop :=
  ∀ rid uuid, call = .update rid uuid →
    ∃ i r u, s.listener = .updateTransaction i r u ∧ rid = some r ∧ uuid = some u

/-- **Refinement.**  A step of the process is at most one call of the manager. -/
theorem component_refines {cid : Nat} {s s' : Component} {i : ComponentStep}
    (h : (componentMachine cid).step s i = some s') :
    s'.managerState = s.managerState ∨
      ∃ call, managerMachine.step s.managerState call = some s'.managerState ∧ s.Passes call := by
  have h : componentStep s i = some s' := h
  cases i with
  | interact request callback => cases h; exact Or.inl rfl
  | call n malloc o =>
      obtain ⟨c, _, hcs⟩ := callStep_cases h
      cases hcs with
      | insert hpc _ _ =>
          exact Or.inr ⟨.insert true (some (utoa c.rid)) c.callback (some c.request.tableConfig),
            rfl, fun _ _ h => (by cases h)⟩
      | deleteTransaction hpc =>
          exact Or.inr ⟨.delete (some (utoa c.rid)), rfl, fun _ _ h => (by cases h)⟩
      | _ => exact Or.inl rfl
  | wake n result =>
      obtain ⟨c, _, _, rfl⟩ := wakeStep_cases h
      exact Or.inl rfl
  | interactMonitor ovsdbTable callback => cases h; exact Or.inl rfl
  | monitorCall n o =>
      obtain ⟨db, pcs, rfl⟩ := monitorCallStep_cases h
      exact Or.inl rfl
  | receipt rid result =>
      obtain ⟨hl, l', rfl, hq⟩ := receiptStep_cases h
      left
      show ManagerState.mk true s.manager l'.running = ⟨true, s.manager, s.listener.running⟩
      rw [hq.running, hl]; rfl
  | update monId tableName row =>
      obtain ⟨hl, rfl | ⟨uuid, status, e, m, ht, ⟨hcb, l', hq, rfl⟩ | ⟨hcb, rfl⟩⟩⟩ :=
        updateStep_cases h
      · exact Or.inl rfl
      · right
        refine ⟨.complete (some uuid) status, ?_, fun _ _ h => (by cases h)⟩
        have hm : takeTransaction (some uuid) status s.managerState.manager = some (e, m) := ht
        show some (completeStep (some uuid) status s.managerState) = some _
        -- nobody is told: the entry is destroyed in the same step
        rw [completeStep_of_noCallback hm hcb]
        show some (ManagerState.mk true (destroyTransaction e m) s.listener.running)
          = some (ManagerState.mk true (destroyTransaction e m) l'.running)
        rw [hq.running, hl]; rfl
      · right
        refine ⟨.complete (some uuid) status, ?_, fun _ _ h => (by cases h)⟩
        have hm : takeTransaction (some uuid) status s.managerState.manager = some (e, m) := ht
        show some (completeStep (some uuid) status s.managerState) = some _
        -- the listener is idle, so this callback is the only one running
        rw [completeStep_of_callback hm hcb]
        show some (ManagerState.mk true m (e :: s.listener.running)) = some (ManagerState.mk true m [e])
        rw [hl]; rfl
  | listener o waiter =>
      cases listenerStep_cases h with
      | quiet hr hm hq =>
          left
          show ManagerState.mk true s.manager _ = ⟨true, s.manager, s.listener.running⟩
          rw [hr, hq.running]
      | @updateTransaction i rid uuid l' hl hq =>
          right
          refine ⟨.update (some rid) (some uuid), ?_, fun _ _ h => ?_⟩
          · show some (ManagerState.mk true (updateTransaction (some rid) (some uuid) s.manager).2
              s.listener.running) = some (ManagerState.mk true
                (updateTransaction (some rid) (some uuid) s.manager).2 l'.running)
            rw [hl, hq.running]; rfl
          · cases h
            exact ⟨i, rid, uuid, hl, rfl, rfl⟩
      | @callbackReturns e uuid l' hl hq =>
          right
          refine ⟨.callbackReturns, ?_, fun _ _ h => (by cases h)⟩
          have hms : s.managerState = ⟨true, s.manager, [e]⟩ := by
            unfold Component.managerState
            rw [hl]; rfl
          rw [hms]
          show some (ManagerState.mk true (destroyTransaction e s.manager) [])
            = some (ManagerState.mk true (destroyTransaction e s.manager) l'.running)
          rw [hq.running]
      | signalSkip hl _ => left; unfold Component.managerState; rw [hl]; rfl
      | signalLock hl _ => left; unfold Component.managerState; rw [hl]; rfl
      | signalClear hl => left; unfold Component.managerState; rw [hl]; rfl
      | signalNone hl _ => left; unfold Component.managerState; rw [hl]; rfl
      | signalWakes hl _ _ => left; unfold Component.managerState; rw [hl]; rfl
      | signalUnlock hl => left; unfold Component.managerState; rw [hl]; rfl

theorem managerState_start (cid : Nat) :
    managerMachine.step .start (.initManager true) = some (Component.start cid).managerState := rfl

/-- The run lemma: the transaction manager of a process runs as `managerMachine`. -/
theorem managerState_reachable {cid : Nat} {s : Component}
    (h : (componentMachine cid).Reachable s) : managerMachine.Reachable s.managerState := by
  refine h.invariant (I := fun s => managerMachine.Reachable s.managerState) ?_ ?_
  · intro s h0
    have h0 : s = .start cid := h0
    rw [h0]
    exact .step (.init rfl) trivial (managerState_start cid)
  · intro s i s' hI _ hstep
    rcases component_refines hstep with heq | ⟨call, hcall, _⟩
    · rw [heq]; exact hI
    · exact .step hI trivial hcall

/-- The accounting holds in every reachable component. -/
theorem balanced_of_component {cid : Nat} {s : Component}
    (h : (componentMachine cid).Reachable s) : Balanced s.managerState :=
  balanced_of_reachable (managerState_reachable h)

/-- Nothing is struck out of the history. -/
theorem log_subset_component {cid : Nat} {s s' : Component} {i : ComponentStep}
    (h : (componentMachine cid).step s i = some s') : s.manager.log ⊆ s'.manager.log := by
  rcases component_refines h with heq | ⟨call, hcall, _⟩
  · have hlog : s'.manager.log = s.manager.log := congrArg (·.manager.log) heq
    rw [hlog]
    exact List.Subset.refl _
  · exact log_subset_step hcall

/-! ## §5. Laws about every call of a process. -/

/-- A law that every call of the process obeys. -/
def EveryCall (I : Component → Call → Prop) (s : Component) : Prop :=
  ∀ (m : Nat) (c : Call), s.calls[m]? = some c → I s c

section EveryCall

variable {I : Component → Call → Prop} {s s' : Component}

/-- A call behind an update of one: that one, or one that was there. -/
theorem call_of_set {n m : Nat} {c c' : Call} (hcalls : s'.calls = s.calls.set n c')
    (hc : s'.calls[m]? = some c) : m = n ∧ c = c' ∨ m ≠ n ∧ s.calls[m]? = some c := by
  rw [hcalls, List.getElem?_set] at hc
  by_cases hm : n = m
  · rw [if_pos hm] at hc
    split at hc
    · cases hc; exact Or.inl ⟨hm.symm, rfl⟩
    · cases hc
  · rw [if_neg hm] at hc
    exact Or.inr ⟨Ne.symm hm, hc⟩

/-- A call behind a new one: the new one, or one that was there. -/
theorem call_of_append {m : Nat} {c c' : Call} (hcalls : s'.calls = s.calls ++ [c'])
    (hc : s'.calls[m]? = some c) : c = c' ∨ s.calls[m]? = some c := by
  rw [hcalls, List.getElem?_append] at hc
  split at hc
  · exact Or.inr hc
  · exact Or.inl (List.mem_singleton.1 (List.mem_of_getElem? hc))

/-- A call behind a signal is one that was there, signalled. -/
theorem call_of_feed {m a : Nat} {c : Call} (hcalls : s'.calls = s.calls.map (Call.feed a))
    (hc : s'.calls[m]? = some c) : ∃ c₀, s.calls[m]? = some c₀ ∧ c = c₀.feed a := by
  rw [hcalls, List.getElem?_map, Option.map_eq_some_iff] at hc
  obtain ⟨c₀, hc₀, rfl⟩ := hc
  exact ⟨c₀, hc₀, rfl⟩

/-- No call changes. -/
theorem EveryCall.same (h : EveryCall I s) (hcalls : s'.calls = s.calls)
    (hI : ∀ (m : Nat) c, s.calls[m]? = some c → I s c → I s' c) : EveryCall I s' := by
  intro m c hc
  rw [hcalls] at hc
  exact hI m c hc (h m c hc)

/-- Call `n` becomes `c'`, the others stay. -/
theorem EveryCall.set (h : EveryCall I s) {n : Nat} {c' : Call}
    (hcalls : s'.calls = s.calls.set n c') (hown : I s' c')
    (hI : ∀ (m : Nat) c, m ≠ n → s.calls[m]? = some c → I s c → I s' c) : EveryCall I s' := by
  intro m c hc
  rcases call_of_set hcalls hc with ⟨_, rfl⟩ | ⟨hm, hc⟩
  · exact hown
  · exact hI m c hm hc (h m c hc)

/-- A new call comes in. -/
theorem EveryCall.append (h : EveryCall I s) {c' : Call} (hcalls : s'.calls = s.calls ++ [c'])
    (hown : I s' c') (hI : ∀ (m : Nat) c, s.calls[m]? = some c → I s c → I s' c) : EveryCall I s' := by
  intro m c hc
  rcases call_of_append hcalls hc with rfl | hc
  · exact hown
  · exact hI m c hc (h m c hc)

/-- The processing of the Feedback for the entry at `a` ends. -/
theorem EveryCall.feed (h : EveryCall I s) {a : Nat} (hcalls : s'.calls = s.calls.map (Call.feed a))
    (hI : ∀ (m : Nat) c, s.calls[m]? = some c → I s c → I s' (c.feed a)) : EveryCall I s' := by
  intro m c hc
  obtain ⟨c₀, hc₀, rfl⟩ := call_of_feed hcalls hc
  exact hI m c₀ hc₀ (h m c₀ hc₀)

end EveryCall

end OvsAgent
