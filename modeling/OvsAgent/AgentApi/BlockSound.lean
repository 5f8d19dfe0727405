/-
  OvsAgent.AgentApi.BlockSound — when a blocking call may return true.

  All calls share one flag `blocked` and one condition variable, and a waiting
  call asks only whether the flag has been cleared.  It is cleared for the
  Feedback of any transaction, by a non-blocking request and by a request that
  fails or times out; whoever is waiting then takes it for its own.

  Main result: `blocking_true_completed` — in every run in which nobody clears
  the flag while another blocking call waits for a transaction that is still
  pending, a blocking call that returned true has had its own transaction
  completed.
-/
import OvsAgent.AgentApi.ComponentSteps

namespace OvsAgent

open CString (ofString)

/-! ## §1. The law and the condition. -/

/-- `complete_transaction` has completed the transaction this call inserted. -/
def Component.Done (s : Component) (c : Call) : Prop :=
  ∃ a st, c.entry = some a ∧ .completed a st ∈ s.manager.log

/-- The call is inside `pthread_cond_timedwait`, or about to test the flag
after a wake-up. -/
def CallPc.inWait : CallPc → Bool
  | .condWait => true
  | .condWoken _ => true
  | .condReturned _ => true
  | .loopTest .success => true
  | _ => false

/-- The step clears the flag on behalf of `who`. -/
inductive Component.Clears (s : Component) : ComponentStep → Owner → Prop where
  | listener {a : Nat} (o : Outcome) (w : Option Nat) (hl : s.listener = .signalClear a) :
      Clears s (.listener o w) .listener
  | setBlocked {n : Nat} {c : Call} (malloc : Bool) (o : Outcome) (hc : s.calls[n]? = some c)
      (hpc : c.pc = .setBlocked) (hb : c.blocking = false) : Clears s (.call n malloc o) (.call n)
  | clearBlocked {n : Nat} {c : Call} (malloc : Bool) (o : Outcome) (hc : s.calls[n]? = some c)
      (hpc : c.pc = .clearBlocked) : Clears s (.call n malloc o) (.call n)
  | waitFailed {n : Nat} {c : Call} {r : WaitResult} (malloc : Bool) (o : Outcome)
      (hc : s.calls[n]? = some c) (hpc : c.pc = .condReturned r) (hr : r ≠ .ok) :
      Clears s (.call n malloc o) (.call n)

/-- The condition of one step: no other blocking call is waiting for a
transaction that is still pending when the flag is cleared. -/
def ClearsNoOther (s : Component) (i : ComponentStep) : Prop :=
  ∀ who, s.Clears i who → ∀ (m : Nat) (c : Call), s.calls[m]? = some c → who ≠ .call m →
    c.blocking = true → c.pc.inWait = true → s.Done c

/-- The invariant of a call, by where it stands. -/
def Sound (s : Component) (c : Call) : Prop :=
  c.blocking = true →
    match c.pc with
    | .condWait | .condWoken _ | .condReturned _ | .loopTest .success => s.blocked = true ∨ s.Done c
    | .mutexUnlock .success | .returned true => s.Done c
    | _ => True

/-! ## §2. The invariant. -/

theorem Component.Done.mono {s s' : Component} {c c' : Call} (h : s.Done c)
    (hlog : s.manager.log ⊆ s'.manager.log) (he : c'.entry = c.entry) : s'.Done c' := by
  obtain ⟨a, st, hc, hmem⟩ := h
  exact ⟨a, st, he.trans hc, hlog hmem⟩

/-- The law survives a step that leaves the call where it stands, and clears
the flag only if that is no concern of the call. -/
theorem Sound.frame {s s' : Component} {c c' : Call} (h : Sound s c) (hpc : c'.pc = c.pc)
    (he : c'.entry = c.entry) (hr : c'.request = c.request)
    (hlog : s.manager.log ⊆ s'.manager.log)
    (hb : c.blocking = true → c.pc.inWait = true → s.blocked = true → s'.blocked = true ∨ s.Done c) :
    Sound s' c' := by
  intro hblk
  have hblk' : c.blocking = true := (Call.blocking_eq hr).symm.trans hblk
  have hold := h hblk'
  have hwait : c.pc.inWait = true → (s.blocked = true ∨ s.Done c) → s'.blocked = true ∨
      s'.Done c' := by
    intro hin hor
    rcases hor with hbl | hd
    · exact (hb hblk' hin hbl).imp_right fun hd => hd.mono hlog he
    · exact Or.inr (hd.mono hlog he)
  rw [hpc]
  cases hc : c.pc with
  | condWait => simp only [hc] at hold hwait; exact hwait rfl hold
  | condWoken r => simp only [hc] at hold hwait; exact hwait rfl hold
  | condReturned r => simp only [hc] at hold hwait; exact hwait rfl hold
  | loopTest st =>
      cases st with
      | success => simp only [hc] at hold hwait; exact hwait rfl hold
      | _ => trivial
  | mutexUnlock st =>
      cases st with
      | success => simp only [hc] at hold; exact hold.mono hlog he
      | _ => trivial
  | returned r =>
      cases r with
      | true => simp only [hc] at hold; exact hold.mono hlog he
      | false => trivial
  | _ => trivial

/-- Where an access of the write leaves the call, nothing is asked of a blocking call. -/
theorem Sound.afterWrite (s : Component) (c : Call) (pc : DbPc) : Sound s (c.afterWrite pc) := by
  rcases afterWrite_cases c pc with h | h | ⟨pc', h⟩
  · rw [h]
    intro hblk
    have hblk' : c.blocking = true := hblk
    unfold Call.sentOff
    simp only [hblk', if_true]
  · rw [h]; exact fun _ => trivial
  · rw [h]; exact fun _ => trivial

/-- The step lemma for a call's own access. -/
theorem Sound.call {s s' : Component} {n : Nat} {c : Call} {malloc : Bool} {o : Outcome}
    (hall : EveryCall Sound s) (hcond : ClearsNoOther s (.call n malloc o))
    (hc : s.calls[n]? = some c) (hlog : s.manager.log ⊆ s'.manager.log)
    (hcs : CallStep s n c malloc o s') : EveryCall Sound s' := by
  have hown := hall n c hc
  -- the others see the same flag, unless this step clears it
  have keep : s'.blocked = s.blocked → ∀ (m : Nat) c', m ≠ n → s.calls[m]? = some c' →
      Sound s c' →
      Sound s' c' := by
    intro hb m c' _ _ h
    exact h.frame rfl rfl rfl hlog fun _ _ hbl => Or.inl (hb.trans hbl)
  have clear : s.Clears (.call n malloc o) (.call n) → ∀ (m : Nat) c',
      m ≠ n → s.calls[m]? = some c' →
      Sound s c' → Sound s' c' := by
    intro hcl m c' hm hc' h
    refine h.frame rfl rfl rfl hlog fun hblk hin _ => Or.inr ?_
    exact hcond _ hcl m c' hc' (fun heq => hm (by cases heq; rfl)) hblk hin
  cases hcs with
  | idGenerate hpc hc' =>
      refine hall.set rfl ?_ (keep rfl)
      split
      · exact fun _ => trivial
      · exact Sound.afterWrite _ _ _
  | setBlocked hpc =>
      refine hall.set rfl (fun _ => trivial) ?_
      by_cases hb : c.blocking = true
      · intro m c' _ _ h
        exact h.frame rfl rfl rfl hlog fun _ _ _ => Or.inl hb
      · exact clear (.setBlocked malloc o hc hpc (Bool.eq_false_iff.2 hb))
  | insertFails hpc hm => exact hall.set rfl (fun _ => trivial) (keep rfl)
  | insert hpc hm hc' => exact hall.set rfl (Sound.afterWrite _ _ _) (keep rfl)
  | ovsdbWrite hpc => exact hall.set rfl (Sound.afterWrite _ _ _) (keep rfl)
  | clearBlocked hpc => exact hall.set rfl (fun _ => trivial) (clear (.clearBlocked malloc o hc hpc))
  | mutexLock hpc hm => exact hall.set rfl (fun _ => trivial) (keep rfl)
  | loopWait hpc hb => exact hall.set rfl (fun _ => Or.inl hb) (keep rfl)
  | @loopExit status hpc hb =>
      refine hall.set rfl (fun hblk => ?_) (keep rfl)
      have hold := hown hblk
      cases status with
      | success =>
          -- the flag is down, so the invariant leaves only a completed transaction
          simp only [hpc, hb, Bool.false_eq_true, false_or] at hold
          exact hold
      | _ => trivial
  | relock hpc hm =>
      refine hall.set rfl (fun hblk => ?_) (keep rfl)
      have hold := hown hblk
      simp only [hpc] at hold
      exact hold
  | signalled hpc =>
      refine hall.set rfl (fun hblk => ?_) (keep rfl)
      have hold := hown hblk
      simp only [hpc] at hold
      exact hold
  | @waitFailed result hpc hr =>
      refine hall.set rfl (fun _ => ?_) (clear (.waitFailed malloc o hc hpc hr))
      cases result with
      | ok => exact absurd rfl hr
      | timedOut => trivial
      | error => trivial
  | unlockSuccess hpc =>
      refine hall.set rfl (fun hblk => ?_) (keep rfl)
      have hold := hown hblk
      simp only [hpc] at hold
      exact hold
  | unlock hpc hs => exact hall.set rfl (fun _ => trivial) (keep rfl)
  | deleteTransaction hpc => exact hall.set rfl (fun _ => trivial) (keep rfl)

/-- The step lemma. -/
theorem Sound.step {cid : Nat} {s s' : Component} {i : ComponentStep} (hall : EveryCall Sound s)
    (hcond : ClearsNoOther s i) (hstep : (componentMachine cid).step s i = some s') :
    EveryCall Sound s' := by
  have hlog := log_subset_component hstep
  have hstep : componentStep s i = some s' := hstep
  have keep : s'.blocked = s.blocked → ∀ (m : Nat) c, s.calls[m]? = some c → Sound s c →
      Sound s' c := by
    intro hb m c _ h
    exact h.frame rfl rfl rfl hlog fun _ _ hbl => Or.inl (hb.trans hbl)
  have fed : s'.blocked = s.blocked → ∀ a (m : Nat) c, s.calls[m]? = some c → Sound s c →
      Sound s' (c.feed a) := by
    intro hb a m c _ h
    exact h.frame rfl rfl rfl hlog fun _ _ hbl => Or.inl (hb.trans hbl)
  cases i with
  | interact request callback =>
      cases hstep
      exact hall.append rfl (fun _ => trivial) (keep rfl)
  | call n malloc o =>
      obtain ⟨c, hc, hcs⟩ := callStep_cases hstep
      exact Sound.call hall hcond hc hlog hcs
  | wake n result =>
      obtain ⟨c, hc, hw, rfl⟩ := wakeStep_cases hstep
      refine hall.set rfl (fun hblk => ?_) fun m c' _ => keep rfl m c'
      have hold := hall n c hc hblk
      simp only [Call.pc_of_waiting hw] at hold
      exact hold
  | interactMonitor t cb => cases hstep; exact hall.same rfl (keep rfl)
  | monitorCall n o =>
      obtain ⟨db, pcs, rfl⟩ := monitorCallStep_cases hstep
      exact hall.same rfl (keep rfl)
  | receipt rid result =>
      obtain ⟨_, l', rfl, _⟩ := receiptStep_cases hstep
      exact hall.same rfl (keep rfl)
  | update monId tableName row =>
      obtain ⟨_, rfl | ⟨uuid, st, e, m, _, ⟨_, l', _, rfl⟩ | ⟨_, rfl⟩⟩⟩ :=
        updateStep_cases hstep
      · exact hall
      · exact hall.same rfl (keep rfl)
      · exact hall.same rfl (keep rfl)
  | listener o waiter =>
      cases listenerStep_cases hstep with
      | quiet _ _ _ => exact hall.same rfl (keep rfl)
      | updateTransaction _ _ => exact hall.same rfl (keep rfl)
      | callbackReturns _ _ => exact hall.same rfl (keep rfl)
      | signalSkip _ _ => exact hall.feed rfl (fed rfl _)
      | signalLock _ _ => exact hall.same rfl (keep rfl)
      | signalClear hl =>
          -- the only step that lowers the flag; the condition is about it
          refine hall.same rfl fun m c hc h => ?_
          refine h.frame rfl rfl rfl hlog fun hblk hin _ => Or.inr ?_
          exact hcond _ (.listener o waiter hl) m c hc (fun heq => by cases heq) hblk hin
      | signalNone _ _ => exact hall.same rfl (keep rfl)
      | @signalWakes a n c hl hc hw =>
          refine hall.set rfl (fun hblk => ?_) fun m c' _ => keep rfl m c'
          have hold := hall n c hc hblk
          simp only [Call.pc_of_waiting hw] at hold
          exact hold
      | signalUnlock _ => exact hall.feed rfl (fed rfl _)

/-- The run lemma. -/
theorem sound_of_reach {cid : Nat} {s : Component}
    (h : (componentMachine cid).Reach ClearsNoOther s) : EveryCall Sound s := by
  refine h.invariant (I := EveryCall Sound) ?_ fun s i s' hI hc hstep => Sound.step hI hc hstep
  intro s h0 m c hc
  have h0 : s = .start cid := h0
  subst h0
  cases hc

/-! ## §3. Block mode is sound. -/

/-- **Soundness of block mode**, under the condition that nobody clears the
flag while another blocking call waits for a pending transaction. -/
theorem blocking_true_completed {cid : Nat} {s : Component}
    (h : (componentMachine cid).Reach ClearsNoOther s) {n : Nat} {c : Call}
    (hc : s.calls[n]? = some c) (hblk : c.blocking = true) (hr : c.result = some true) :
    s.Done c := by
  have hs := sound_of_reach h n c hc hblk
  simp only [Call.pc_of_result hr] at hs
  exact hs

/-- The uuid the server gives the first row. -/
def firstUuid : CString := ofString "5f0d2c5e-6a5a-4d8e-9d57-0f6f2a7c9b11"

/-- A test for `ClearsNoOther` that a run can be checked with: only the
listener clears the flag, and it leaves no waiting call behind. -/
def clearsNoOtherTest (s : Component) : ComponentStep → Bool
  | .call n _ _ =>
      match s.calls[n]? with
      | none => true
      | some c =>
          match c.pc with
          | .setBlocked => c.blocking
          | .clearBlocked => false
          | .condReturned r => r = .ok
          | _ => true
  | .listener _ _ =>
      match s.listener with
      | .signalClear _ => s.calls.all fun c => !c.pc.inWait || c.entry.any fun a =>
          s.manager.log.any fun ev => match ev with | .completed a' _ => a' == a | _ => false
      | _ => true
  | _ => true

theorem clearsNoOther_of_test (s : Component) (i : ComponentStep)
    (h : clearsNoOtherTest s i = true) : ClearsNoOther s i := by
  intro who hcl m c hc hne _ hin
  cases hcl with
  | listener o w hl =>
      simp only [clearsNoOtherTest, hl] at h
      have hc' := List.all_eq_true.1 h c (List.mem_of_getElem? hc)
      simp only [hin, Bool.not_true, Bool.false_or] at hc'
      obtain ⟨a, ha, hany⟩ := (Option.any_eq_true _ _).1 hc'
      obtain ⟨ev, hev, htest⟩ := List.any_eq_true.1 hany
      cases ev with
      | completed a' st => exact ⟨a, st, ha, beq_iff_eq.1 htest ▸ hev⟩
      | _ => cases htest
  | setBlocked malloc o hn hpc hb =>
      simp only [clearsNoOtherTest, hn, hpc, hb] at h
      cases h
  | clearBlocked malloc o hn hpc =>
      simp only [clearsNoOtherTest, hn, hpc] at h
      cases h
  | waitFailed malloc o hn hpc hr =>
      simp only [clearsNoOtherTest, hn, hpc, decide_eq_true_eq] at h
      exact absurd h hr

/-- One blocking request: written, waiting, answered, completed, returned. -/
def blockingSteps : List ComponentStep :=
  requestSteps 0 (gatewayRequest .enable 100) ++ waitSteps 0 ++
    firstReceiptSteps (ofString "1001") firstUuid ++
    [.update (ofString "1002") feedbackTableName (feedbackRow firstUuid)] ++
    completionSteps (some 0) ++ returnSteps 0

theorem blocking_true_completed_alone :
    ∃ s c, (componentMachine 1).checkedRun clearsNoOtherTest (.start 1) blockingSteps = some s ∧
      s.calls[0]? = some c ∧ s.Done c := by
  have hrun : ((componentMachine 1).checkedRun clearsNoOtherTest (.start 1) blockingSteps).any
      (fun t => (t.calls[0]?).any fun c => c.blocking && c.result == some true) = true := by
    decide +kernel
  obtain ⟨s, hs, hcheck⟩ := (Option.any_eq_true _ _).1 hrun
  obtain ⟨c, hc, htest⟩ := (Option.any_eq_true _ _).1 hcheck
  obtain ⟨hblk, hr⟩ := Bool.and_eq_true_iff.1 htest
  have hreach : (componentMachine 1).Reach ClearsNoOther s :=
    Machine.reach_of_checkedRun clearsNoOther_of_test (.init rfl) hs
  exact ⟨s, c, hs, hc, blocking_true_completed hreach hc hblk (beq_iff_eq.1 hr)⟩

/-- Request 1001 does not block and is pending when request 1004 does. -/
def overtakenSteps : List ComponentStep :=
  requestSteps 0 (gatewayRequest .disable 100) ++ firstReceiptSteps (ofString "1001") firstUuid ++
    requestSteps 1 (gatewayRequest .enable 101) ++ waitSteps 1 ++
    [.update (ofString "1002") feedbackTableName (feedbackRow firstUuid)] ++
    completionSteps (some 1) ++ returnSteps 1

/-- The Feedback for request 1001 makes the call of request 1004 return true. -/
theorem feedback1001_returns_1004 :
    ∃ s c, (componentMachine 1).run (.start 1) overtakenSteps = some s ∧ s.calls[1]? = some c ∧
      c.blocking = true ∧ c.result = some true ∧ ¬ s.Done c := by
  have hrun : ((componentMachine 1).run (.start 1) overtakenSteps).any (fun t =>
      (t.calls[1]?).any (fun c => c.blocking && c.result == some true && c.entry == some 1) &&
        t.manager.log.all fun ev => match ev with | .completed a _ => a != 1 | _ => true) = true := by
    decide +kernel
  obtain ⟨s, hs, hcheck⟩ := (Option.any_eq_true _ _).1 hrun
  obtain ⟨hcall, hlog⟩ := Bool.and_eq_true_iff.1 hcheck
  obtain ⟨c, hc, htest⟩ := (Option.any_eq_true _ _).1 hcall
  simp only [Bool.and_eq_true, beq_iff_eq] at htest
  obtain ⟨⟨hblk, hr⟩, he⟩ := htest
  refine ⟨s, c, hs, hc, hblk, hr, fun hdone => ?_⟩
  obtain ⟨a, st, ha, hmem⟩ := hdone
  rw [he] at ha
  cases ha
  have hne : ((1 : Nat) != 1) = true := List.all_eq_true.1 hlog _ hmem
  exact absurd hne (by decide)

end OvsAgent
