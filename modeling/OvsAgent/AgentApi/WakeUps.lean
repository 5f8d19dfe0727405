/-
  OvsAgent.AgentApi.WakeUps — when the signal for a blocking call is lost.

  `wait_for_callback_completion` starts with status FAILED and only learns of
  a completion inside the wait: a flag that is cleared before the first test
  makes the call return false.  And `signal_callback_completion` signals only
  while the flag is up: once another request has cleared it, the waiting
  thread is left to its timeout.

  Main result: `fed_returns_true` — in every run in which a request writes the
  flag only while no other blocking call is in progress, and the listener
  clears it only while no blocking call is still before its wait, a blocking
  call whose Feedback was processed in time returns true.
-/
import OvsAgent.AgentApi.BlockSound

namespace OvsAgent

open CString (ofString utoa)

/-! ## §1. The condition and the invariant. -/

/-- From the write of the flag to the return. -/
def CallPc.inProgress : CallPc → Bool
  | .idGenerate => false
  | .setBlocked => false
  | .returned _ => false
  | _ => true

/-- From the write of the flag to the first test of it. -/
def CallPc.beforeWait : CallPc → Bool
  | .insertTransaction => true
  | .ovsdbWrite _ => true
  | .mutexLock => true
  | .loopTest .failed => true
  | _ => false

/-- Call `n` writes the flag next. -/
def CallPc.writesFlag (blocked : Bool) : CallPc → Bool
  | .setBlocked => true
  | .clearBlocked => blocked
  | .condReturned r => r ≠ WaitResult.ok
  | _ => false

/-- The condition of one step. -/
structure WakesSafely (s : Component) (i : ComponentStep) : Prop where
  /-- A request writes the flag only while no other blocking call is in progress. -/
  call : ∀ n malloc o c, i = .call n malloc o → s.calls[n]? = some c →
    c.pc.writesFlag s.blocked = true → ∀ (m : Nat) c', m ≠ n → s.calls[m]? = some c' →
      c'.blocking = true → c'.pc.inProgress = false
  /-- The listener clears it only while no blocking call is still before its wait. -/
  listener : ∀ o w a, i = .listener o w → s.listener = .signalClear a →
    ∀ (m : Nat) c, s.calls[m]? = some c → c.blocking = true → c.pc.beforeWait = false

/-- The listener has cleared the flag for this call's transaction and has not
finished the signal. -/
def Component.Past (s : Component) (c : Call) : Prop :=
  ∃ a, c.entry = some a ∧ (s.listener = .condSignal a ∨ s.listener = .signalUnlock a)

/-- The invariant of a blocking call, by where it stands. -/
def Wakeful (s : Component) (c : Call) : Prop :=
  c.blocking = true →
    match c.pc with
    | .idGenerate | .setBlocked => c.entry = none ∧ c.sent = false ∧ c.fed = false
    | .insertTransaction =>
        c.entry = none ∧ c.sent = false ∧ c.fed = false ∧ s.blocked = true
    | .ovsdbWrite _ => c.sent = false ∧ c.fed = false ∧ s.blocked = true ∧ ¬ s.Past c
    | .clearBlocked => c.sent = false ∧ c.fed = false
    | .mutexLock | .loopTest .failed => c.fed = false ∧ s.blocked = true ∧ ¬ s.Past c
    -- waiting: the flag is up, or it is down and the signal is next
    | .condWait => c.fed = false ∧ (s.blocked = true ∧ ¬ s.Past c ∨
        s.blocked = false ∧ ∃ a, s.listener = .condSignal a)
    -- woken: as long as the flag is up the call will wait again
    | .condWoken .ok | .condReturned .ok | .loopTest .success =>
        s.blocked = true → c.fed = false ∧ ¬ s.Past c
    | .condWoken _ | .condReturned _ => c.expired = true ∧ c.fed = false
    | .loopTest _ => c.expired = true ∧ c.fed = false ∧ s.blocked = false
    | .mutexUnlock .success | .returned true => True
    | .mutexUnlock _ => c.expired = true ∧ c.fed = false
    | .deleteTransaction | .returned false => (c.sent = false ∨ c.expired = true) ∧ c.fed = false

/-- Only a blocking call gets as far as the mutex. -/
def CallPc.atMutex : CallPc → Bool
  | .mutexLock => true
  | .loopTest _ => true
  | .condWait => true
  | .condWoken _ => true
  | .condReturned _ => true
  | .mutexUnlock _ => true
  | _ => false

def MutexBlocking (_ : Component) (c : Call) : Prop := c.pc.atMutex = true → c.blocking = true

/-- At most one blocking call is in progress. -/
def OneBlocking (s : Component) : Prop :=
  ∀ (m m' : Nat) c c', s.calls[m]? = some c → s.calls[m']? = some c' →
    c.blocking = true → c'.blocking = true → c.pc.inProgress = true → c'.pc.inProgress = true →
    m = m'

/-- The entry whose Feedback is being processed has been completed. -/
def ListenerDone (s : Component) : Prop :=
  ∀ a, s.listener.addr = some a → ∃ st, .completed a st ∈ s.manager.log

/-- The invariant of the process. -/
structure WakeInv (s : Component) : Prop where
  wakeful : EveryCall Wakeful s
  mutex : EveryCall MutexBlocking s
  one : OneBlocking s
  listener : ListenerDone s

/-! ## §2. Calls that do not move. -/

/-- The law survives a step that leaves the call, the flag and the signal under
way as they are. -/
theorem Wakeful.frame {s s' : Component} {c : Call} (h : Wakeful s c)
    (hb : s'.blocked = s.blocked) (hp : s'.Past c → s.Past c)
    (hw : c.blocking = true → c.pc = .condWait → (∃ a, s.listener = .condSignal a) →
      ∃ a, s'.listener = .condSignal a) : Wakeful s' c := by
  intro hblk
  have hold := h hblk
  cases hc : c.pc with
  | ovsdbWrite pc =>
      simp only [hc] at hold ⊢
      exact ⟨hold.1, hold.2.1, hb.trans hold.2.2.1, fun hpast => hold.2.2.2 (hp hpast)⟩
  | mutexLock =>
      simp only [hc] at hold ⊢
      exact ⟨hold.1, hb.trans hold.2.1, fun hpast => hold.2.2 (hp hpast)⟩
  | condWait =>
      simp only [hc] at hold ⊢
      refine ⟨hold.1, ?_⟩
      -- the flag is up, or it is down and the signal is on its way
      rcases hold.2 with ⟨hup, hnot⟩ | ⟨hdown, hsig⟩
      · exact Or.inl ⟨hb.trans hup, fun hpast => hnot (hp hpast)⟩
      · exact Or.inr ⟨hb.trans hdown, hw hblk hc hsig⟩
  | condWoken r =>
      cases r with
      | ok =>
          simp only [hc] at hold ⊢
          intro hup
          obtain ⟨hfed, hnot⟩ := hold (hb ▸ hup)
          exact ⟨hfed, fun hpast => hnot (hp hpast)⟩
      | _ => simp only [hc] at hold ⊢; exact hold
  | condReturned r =>
      cases r with
      | ok =>
          simp only [hc] at hold ⊢
          intro hup
          obtain ⟨hfed, hnot⟩ := hold (hb ▸ hup)
          exact ⟨hfed, fun hpast => hnot (hp hpast)⟩
      | _ => simp only [hc] at hold ⊢; exact hold
  | loopTest st =>
      cases st with
      | success =>
          simp only [hc] at hold ⊢
          intro hup
          obtain ⟨hfed, hnot⟩ := hold (hb ▸ hup)
          exact ⟨hfed, fun hpast => hnot (hp hpast)⟩
      | failed =>
          simp only [hc] at hold ⊢
          exact ⟨hold.1, hb.trans hold.2.1, fun hpast => hold.2.2 (hp hpast)⟩
      | _ => simp only [hc] at hold ⊢; exact ⟨hold.1, hold.2.1, hb.trans hold.2.2⟩
  | insertTransaction =>
      simp only [hc] at hold ⊢
      exact ⟨hold.1, hold.2.1, hold.2.2.1, hb.trans hold.2.2.2⟩
  | mutexUnlock st =>
      cases st with
      | success => trivial
      | _ => simp only [hc] at hold ⊢; exact hold
  | returned r =>
      cases r with
      | true => trivial
      | false => simp only [hc] at hold ⊢; exact hold
  | _ => simp only [hc] at hold ⊢; exact hold

/-- A call that is not in progress does not look at the flag. -/
theorem Wakeful.idle {s s' : Component} {c : Call} (h : Wakeful s c)
    (hi : c.blocking = true → c.pc.inProgress = false) : Wakeful s' c := by
  intro hblk
  have hold := h hblk
  have hidle := hi hblk
  cases hc : c.pc with
  | idGenerate => simp only [hc] at hold ⊢; exact hold
  | setBlocked => simp only [hc] at hold ⊢; exact hold
  | returned r =>
      cases r with
      | true => trivial
      | false => simp only [hc] at hold ⊢; exact hold
  | _ => rw [hc] at hidle; cases hidle

/-- The listener clears the flag: no call is before its wait, and a waiting one
is about to be signalled. -/
theorem Wakeful.clear {s s' : Component} {c : Call} (h : Wakeful s c) {a : Nat}
    (hb : s'.blocked = false) (hl : s'.listener = .condSignal a)
    (hbefore : c.blocking = true → c.pc.beforeWait = false) : Wakeful s' c := by
  intro hblk
  have hold := h hblk
  have hnot := hbefore hblk
  have hup : s'.blocked ≠ true := by rw [hb]; exact Bool.false_ne_true
  cases hc : c.pc with
  | condWait => simp only [hc] at hold ⊢; exact ⟨hold.1, Or.inr ⟨hb, a, hl⟩⟩
  | condWoken r =>
      cases r with
      | ok => simp only; exact fun h => absurd h hup
      | _ => simp only [hc] at hold ⊢; exact hold
  | condReturned r =>
      cases r with
      | ok => simp only; exact fun h => absurd h hup
      | _ => simp only [hc] at hold ⊢; exact hold
  | loopTest st =>
      cases st with
      | success => simp only; exact fun h => absurd h hup
      | failed => rw [hc] at hnot; cases hnot
      | _ => simp only [hc] at hold ⊢; exact ⟨hold.1, hold.2.1, hb⟩
  | mutexUnlock st =>
      cases st with
      | success => trivial
      | _ => simp only [hc] at hold ⊢; exact hold
  | returned r =>
      cases r with
      | true => trivial
      | false => simp only [hc] at hold ⊢; exact hold
  | insertTransaction => rw [hc] at hnot; cases hnot
  | ovsdbWrite pc => rw [hc] at hnot; cases hnot
  | mutexLock => rw [hc] at hnot; cases hnot
  | _ => simp only [hc] at hold ⊢; exact hold

/-- A Feedback that is not for this call, or comes too late, leaves it as it is. -/
theorem Call.feed_eq {c : Call} {a : Nat}
    (h : c.entry ≠ some a ∨ c.sent = false ∨ c.expired = true) : c.feed a = c := by
  have hnot : (decide (c.entry = some a) && c.sent && !c.expired) = false := by
    rcases h with he | hs | hx
    · rw [decide_eq_false he]; rfl
    · rw [hs, Bool.and_false]; rfl
    · rw [hx, Bool.not_true, Bool.and_false]
  show { c with fed := c.fed || (decide (c.entry = some a) && c.sent && !c.expired) } = c
  rw [hnot, Bool.or_false]

/-- The processing of the Feedback for the entry at `a` ends: with the flag up
it was not for this call, and a call it was for has been woken. -/
theorem Wakeful.feed {s s' : Component} {c : Call} {a : Nat} (h : Wakeful s c)
    (hb : s'.blocked = s.blocked) (hl' : s'.listener = .idle)
    (hl : ∀ a', s.listener ≠ .condSignal a')
    (hpast : s.blocked = true → c.entry = some a → s.Past c) : Wakeful s' (c.feed a) := by
  have hnp : ¬ s'.Past c := by
    intro ⟨a', _, hor⟩
    rw [hl'] at hor
    rcases hor with h | h <;> cases h
  have hframe : Wakeful s' c :=
    h.frame hb (fun hp => absurd hp hnp) fun _ _ ⟨a', ha'⟩ => absurd ha' (hl a')
  by_cases hne : c.entry ≠ some a ∨ c.sent = false ∨ c.expired = true
  · rw [Call.feed_eq hne]; exact hframe
  -- the call is fed, so it went out and did not time out: it has been woken
  push Not at hne
  obtain ⟨he, hsent, hexp⟩ := hne
  have hflag : s.blocked = true → ¬ s.Past c → False := fun hup hnot => hnot (hpast hup he)
  intro hblk
  have hold := h hblk
  have hpc : (c.feed a).pc = c.pc := rfl
  rw [hpc]
  cases hc : c.pc with
  | mutexLock => simp only [hc] at hold; exact (hflag hold.2.1 hold.2.2).elim
  | condWait =>
      simp only [hc] at hold
      rcases hold.2 with ⟨hup, hnot⟩ | ⟨_, a', ha'⟩
      · exact (hflag hup hnot).elim
      · exact absurd ha' (hl a')
  | condWoken r =>
      cases r with
      | ok =>
          simp only [hc] at hold
          exact fun hup => (hflag (hb ▸ hup) (hold (hb ▸ hup)).2).elim
      | _ => simp only [hc] at hold; exact absurd hold.1 hexp
  | condReturned r =>
      cases r with
      | ok =>
          simp only [hc] at hold
          exact fun hup => (hflag (hb ▸ hup) (hold (hb ▸ hup)).2).elim
      | _ => simp only [hc] at hold; exact absurd hold.1 hexp
  | loopTest st =>
      cases st with
      | success =>
          simp only [hc] at hold
          exact fun hup => (hflag (hb ▸ hup) (hold (hb ▸ hup)).2).elim
      | failed => simp only [hc] at hold; exact (hflag hold.2.1 hold.2.2).elim
      | _ => simp only [hc] at hold; exact absurd hold.1 hexp
  | mutexUnlock st =>
      cases st with
      | success => trivial
      | _ => simp only [hc] at hold; exact absurd hold.1 hexp
  | deleteTransaction => simp only [hc] at hold; exact (hold.1.elim hsent hexp).elim
  | returned r =>
      cases r with
      | true => trivial
      | false => simp only [hc] at hold; exact (hold.1.elim hsent hexp).elim
  | ovsdbWrite pc => simp only [hc] at hold; exact absurd hold.1 hsent
  | clearBlocked => simp only [hc] at hold; exact absurd hold.1 hsent
  | _ => simp only [hc] at hold; exact absurd hold.2.1 hsent

/-! ## §3. The call's own accesses. -/

theorem Component.Past.of_listener {s s' : Component} {c c' : Call} (h : s'.Past c')
    (hl : s'.listener = s.listener) (he : c'.entry = c.entry) : s.Past c := by
  obtain ⟨a, ha, hor⟩ := h
  rw [hl] at hor
  exact ⟨a, he ▸ ha, hor⟩

/-- The write is on its way, and nobody has cleared the flag. -/
theorem Wakeful.afterWrite {s s' : Component} {c : Call} (pc : DbPc)
    (h : c.sent = false ∧ c.fed = false ∧ s.blocked = true ∧ ¬ s.Past c)
    (hb : s'.blocked = s.blocked) (hl : s'.listener = s.listener) :
    Wakeful s' (c.afterWrite pc) := by
  obtain ⟨hsent, hfed, hup, hnot⟩ := h
  have hup' : s'.blocked = true := hb.trans hup
  have hnot' : ∀ c', c'.entry = c.entry → ¬ s'.Past c' := fun c' he hp => hnot (hp.of_listener hl he)
  rcases afterWrite_cases c pc with h | h | ⟨pc', h⟩
  · rw [h]
    intro hblk
    have hblk' : c.blocking = true := hblk
    have hpc : c.sentOff.pc = .mutexLock := by
      unfold Call.sentOff
      rw [hblk', if_pos rfl]
    rw [hpc]
    exact ⟨hfed, hup', hnot' _ rfl⟩
  · rw [h]; exact fun _ => ⟨hsent, hfed⟩
  · rw [h]; exact fun _ => ⟨hsent, hfed, hup', hnot' _ rfl⟩

/-- With its id drawn, a blocking call goes on to the flag. -/
theorem Wakeful.drawn {s s' : Component} {c c' : Call} (h : Wakeful s c) (hpc : c.pc = .idGenerate)
    (hc' : c' = { c with rid := (idGenerate s.db).1 }) :
    Wakeful s' (if c'.registers then c'.goto .setBlocked else c'.write none) := by
  split
  · intro hblk
    have hold := h (by rw [hc'] at hblk; exact hblk)
    simp only [hpc] at hold
    rw [hc']; exact hold
  · next hreg =>
      -- a blocking call registers
      intro hblk
      have hblk' : c'.blocking = true := (Call.blocking_eq (write_request c' none)).symm.trans hblk
      exact absurd (by unfold Call.registers; rw [hblk', Bool.or_true]) hreg

/-- The new entry's address is beyond the one that is being processed, so the
signal under way is not for this call. -/
theorem Wakeful.inserted {s s' : Component} {c c' : Call} (h : Wakeful s c) (hpc : c.pc = .insertTransaction)
    (haddr : ∀ a, s.listener.addr = some a → a < s.manager.mallocs)
    (hc' : c' = { c with entry := some s.manager.mallocs }) (receiptCb : Option OvsdbReceiptCb)
    (hb : s'.blocked = s.blocked) (hl : s'.listener = s.listener) : Wakeful s' (c'.write receiptCb) := by
  have hnot : ¬ s.Past c' := by
    intro ⟨a, ha, hor⟩
    have ha' : some s.manager.mallocs = some a := by rw [hc'] at ha; exact ha
    cases ha'
    rcases hor with h | h
    · exact absurd (haddr _ (by rw [h]; rfl)) (Nat.lt_irrefl _)
    · exact absurd (haddr _ (by rw [h]; rfl)) (Nat.lt_irrefl _)
  intro hblk
  have hblk' : c.blocking = true := by
    have hblk' := (Call.blocking_eq (write_request c' receiptCb)).symm.trans hblk
    rw [hc'] at hblk'
    exact hblk'
  have hold := h hblk'
  simp only [hpc] at hold
  obtain ⟨_, hsent, hfed, hup⟩ := hold
  have hlaw : c'.sent = false ∧ c'.fed = false ∧ s.blocked = true ∧ ¬ s.Past c' := by
    refine ⟨?_, ?_, hup, hnot⟩
    · rw [hc']; exact hsent
    · rw [hc']; exact hfed
  exact Wakeful.afterWrite _ hlaw hb hl hblk

/-- The law of the call after its own access. -/
theorem Wakeful.own {s s' : Component} {n : Nat} {c : Call} {malloc : Bool} {o : Outcome}
    (hown : Wakeful s c) (haddr : ∀ a, s.listener.addr = some a → a < s.manager.mallocs)
    (hcs : CallStep s n c malloc o s') :
    ∃ c', s'.calls = s.calls.set n c' ∧ Wakeful s' c' := by
  cases hcs with
  | idGenerate hpc hc' => exact ⟨_, rfl, hown.drawn hpc hc'⟩
  | setBlocked hpc =>
      refine ⟨_, rfl, fun hblk => ?_⟩
      have hold := hown hblk
      simp only [hpc] at hold
      exact ⟨hold.1, hold.2.1, hold.2.2, hblk⟩
  | insertFails hpc hm =>
      refine ⟨_, rfl, fun hblk => ?_⟩
      have hold := hown hblk
      simp only [hpc] at hold
      exact ⟨Or.inl hold.2.1, hold.2.2.1⟩
  | insert hpc hm hc' => exact ⟨_, rfl, hown.inserted hpc haddr hc' _ rfl rfl⟩
  | ovsdbWrite hpc =>
      refine ⟨_, rfl, fun hblk => ?_⟩
      have hold := hown ((Call.blocking_eq (afterWrite_request c _)).symm.trans hblk)
      simp only [hpc] at hold
      exact Wakeful.afterWrite (s := s) _ hold rfl rfl hblk
  | clearBlocked hpc =>
      refine ⟨_, rfl, fun hblk => ?_⟩
      have hold := hown hblk
      simp only [hpc] at hold
      exact ⟨Or.inl hold.1, hold.2⟩
  | mutexLock hpc hm =>
      refine ⟨_, rfl, fun hblk => ?_⟩
      have hold := hown hblk
      simp only [hpc] at hold
      exact hold
  -- the flag was up under the mutex, so the signal is still to come
  | @loopWait status hpc hb =>
      refine ⟨_, rfl, fun hblk => ?_⟩
      have hold := hown hblk
      cases status with
      | success => simp only [hpc] at hold; exact ⟨(hold hb).1, Or.inl ⟨hb, (hold hb).2⟩⟩
      | failed => simp only [hpc] at hold; exact ⟨hold.1, Or.inl ⟨hb, hold.2.2⟩⟩
      | _ =>
          simp only [hpc] at hold
          exact absurd (hold.2.2.symm.trans hb) Bool.false_ne_true
  | @loopExit status hpc hb =>
      refine ⟨_, rfl, fun hblk => ?_⟩
      have hold := hown hblk
      cases status with
      | success => trivial
      | failed =>
          simp only [hpc] at hold
          exact absurd (hb.symm.trans hold.2.1) Bool.false_ne_true
      | _ => simp only [hpc] at hold; exact ⟨hold.1, hold.2.1⟩
  | @relock result hpc hm =>
      refine ⟨_, rfl, fun hblk => ?_⟩
      have hold := hown hblk
      cases result with
      | _ => simp only [hpc] at hold; exact hold
  | signalled hpc =>
      refine ⟨_, rfl, fun hblk => ?_⟩
      have hold := hown hblk
      simp only [hpc] at hold
      exact hold
  | @waitFailed result hpc hr =>
      refine ⟨_, rfl, fun hblk => ?_⟩
      have hold := hown hblk
      cases result with
      | ok => exact absurd rfl hr
      | _ => simp only [hpc] at hold; exact ⟨hold.1, hold.2, rfl⟩
  | unlockSuccess hpc => exact ⟨_, rfl, fun _ => trivial⟩
  | @unlock status hpc hs =>
      refine ⟨_, rfl, fun hblk => ?_⟩
      have hold := hown hblk
      cases status with
      | success => exact absurd rfl hs
      | _ => simp only [hpc] at hold; exact ⟨Or.inr hold.1, hold.2⟩
  | deleteTransaction hpc =>
      refine ⟨_, rfl, fun hblk => ?_⟩
      have hold := hown hblk
      simp only [hpc] at hold
      exact hold

/-- What an access of a call leaves alone, and how far it takes the call. -/
structure CallAdvance (s s' : Component) (n : Nat) (c c' : Call) : Prop where
  calls : s'.calls = s.calls.set n c'
  listener : s'.listener = s.listener
  request : c'.request = c.request
  progress : c.blocking = true → c'.pc.inProgress = true →
    c.pc.inProgress = true ∨ c.pc = .setBlocked
  mutex : c'.pc.atMutex = true → c.pc.atMutex = true ∨ c.blocking = true
  blocked : s'.blocked = s.blocked ∨ c.pc.writesFlag s.blocked = true

/-- Only a blocking call goes from its write to the mutex. -/
theorem blocking_of_afterWrite {c : Call} {pc : DbPc} (hm : (c.afterWrite pc).pc.atMutex = true) :
    c.blocking = true := by
  rcases afterWrite_cases c pc with h | h | ⟨pc', h⟩
  · rw [h] at hm
    by_contra hblk
    unfold Call.sentOff at hm
    rw [if_neg hblk] at hm
    cases hm
  · rw [h] at hm; cases hm
  · rw [h] at hm; cases hm

theorem callAdvance {s s' : Component} {n : Nat} {c : Call} {malloc : Bool} {o : Outcome}
    (hcs : CallStep s n c malloc o s') : ∃ c', CallAdvance s s' n c c' := by
  cases hcs with
  | @idGenerate hpc c' hc' =>
      have hreq : c'.request = c.request := by rw [hc']
      by_cases hreg : c'.registers = true
      · rw [if_pos hreg]
        exact ⟨_, rfl, rfl, hreq, fun _ h => (by cases h), fun h => (by cases h), Or.inl rfl⟩
      · rw [if_neg hreg]
        -- a call that does not register does not block
        have hblk : ¬ c'.blocking = true := by
          intro hb
          refine hreg ?_
          unfold Call.registers
          rw [hb, Bool.or_true]
        refine ⟨_, rfl, rfl, (write_request c' none).trans hreq, fun hb => ?_, fun h => ?_, Or.inl rfl⟩
        · exact absurd ((Call.blocking_eq hreq).trans hb) hblk
        · exact absurd (blocking_of_afterWrite h) hblk
  | setBlocked hpc =>
      exact ⟨_, rfl, rfl, rfl, fun _ _ => Or.inr hpc, fun h => (by cases h), Or.inr (by rw [hpc]; rfl)⟩
  | insertFails hpc hm =>
      exact ⟨_, rfl, rfl, rfl, fun _ h => (by cases h), fun h => (by cases h), Or.inl rfl⟩
  | @insert hpc hm c' hc' =>
      have hreq : c'.request = c.request := by rw [hc']
      refine ⟨_, rfl, rfl, (write_request c' _).trans hreq, fun _ _ => Or.inl (by rw [hpc]; rfl),
        fun h => Or.inr ?_, Or.inl rfl⟩
      exact (Call.blocking_eq hreq).symm.trans (blocking_of_afterWrite h)
  | ovsdbWrite hpc =>
      exact ⟨_, rfl, rfl, afterWrite_request c _, fun _ _ => Or.inl (by rw [hpc]; rfl),
        fun h => Or.inr (blocking_of_afterWrite h), Or.inl rfl⟩
  | clearBlocked hpc =>
      refine ⟨_, rfl, rfl, rfl, fun _ _ => Or.inl (by rw [hpc]; rfl), fun h => (by cases h), ?_⟩
      -- the flag is written only if it is up
      by_cases hb : s.blocked = true
      · right; rw [hpc]; exact hb
      · left; exact (Bool.eq_false_iff.2 hb).symm
  | mutexLock hpc hm =>
      exact ⟨_, rfl, rfl, rfl, fun _ _ => Or.inl (by rw [hpc]; rfl), fun _ => Or.inl (by rw [hpc]; rfl),
        Or.inl rfl⟩
  | loopWait hpc hb =>
      exact ⟨_, rfl, rfl, rfl, fun _ _ => Or.inl (by rw [hpc]; rfl), fun _ => Or.inl (by rw [hpc]; rfl),
        Or.inl rfl⟩
  | loopExit hpc hb =>
      exact ⟨_, rfl, rfl, rfl, fun _ _ => Or.inl (by rw [hpc]; rfl), fun _ => Or.inl (by rw [hpc]; rfl),
        Or.inl rfl⟩
  | relock hpc hm =>
      exact ⟨_, rfl, rfl, rfl, fun _ _ => Or.inl (by rw [hpc]; rfl), fun _ => Or.inl (by rw [hpc]; rfl),
        Or.inl rfl⟩
  | signalled hpc =>
      exact ⟨_, rfl, rfl, rfl, fun _ _ => Or.inl (by rw [hpc]; rfl), fun _ => Or.inl (by rw [hpc]; rfl),
        Or.inl rfl⟩
  | waitFailed hpc hr =>
      refine ⟨_, rfl, rfl, rfl, fun _ _ => Or.inl (by rw [hpc]; rfl), fun _ => Or.inl (by rw [hpc]; rfl),
        Or.inr ?_⟩
      rw [hpc]
      exact decide_eq_true hr
  | unlockSuccess hpc =>
      exact ⟨_, rfl, rfl, rfl, fun _ h => (by cases h), fun h => (by cases h), Or.inl rfl⟩
  | unlock hpc hs =>
      exact ⟨_, rfl, rfl, rfl, fun _ _ => Or.inl (by rw [hpc]; rfl), fun h => (by cases h), Or.inl rfl⟩
  | deleteTransaction hpc =>
      exact ⟨_, rfl, rfl, rfl, fun _ h => (by cases h), fun h => (by cases h), Or.inl rfl⟩

/-! ## §4. One step. -/

theorem ListenerDone.mono {s s' : Component} (h : ListenerDone s)
    (hlog : s.manager.log ⊆ s'.manager.log)
    (hl : ∀ a, s'.listener.addr = some a → s.listener.addr = some a) : ListenerDone s' := by
  intro a ha
  obtain ⟨st, hst⟩ := h a (hl a ha)
  exact ⟨st, hlog hst⟩

/-- What the listener processes was allocated. -/
theorem ListenerDone.lt_mallocs {cid : Nat} {s : Component} (h : ListenerDone s)
    (hr : (componentMachine cid).Reachable s) (a : Nat) (ha : s.listener.addr = some a) :
    a < s.manager.mallocs := by
  obtain ⟨st, hst⟩ := h a ha
  refine (balanced_of_component hr).ledger.lt_mallocs fun hnil => ?_
  have hlife : TransactionEvent.completed a st ∈ life a s.manager.log :=
    KeyedLog.mem_history.2 ⟨hst, rfl⟩
  have hnil : life a s.manager.log = [] := hnil
  rw [hnil] at hlife
  cases hlife

/-- No new blocking call is in progress. -/
theorem OneBlocking.of_calls {s s' : Component} (h : OneBlocking s)
    (hs : ∀ (m : Nat) c', s'.calls[m]? = some c' → c'.blocking = true → c'.pc.inProgress = true →
      ∃ c, s.calls[m]? = some c ∧ c.blocking = true ∧ c.pc.inProgress = true) : OneBlocking s' := by
  intro m m' c c' hc hc' hb hb' hp hp'
  obtain ⟨c₁, hc₁, hb₁, hp₁⟩ := hs m c hc hb hp
  obtain ⟨c₂, hc₂, hb₂, hp₂⟩ := hs m' c' hc' hb' hp'
  exact h m m' c₁ c₂ hc₁ hc₂ hb₁ hb₂ hp₁ hp₂

/-- The step lemma for an access of a call. -/
theorem WakeInv.call {s s' : Component} {n : Nat} {c : Call} {malloc : Bool} {o : Outcome}
    (h : WakeInv s) (hlt : ∀ a, s.listener.addr = some a → a < s.manager.mallocs)
    (hcond : WakesSafely s (.call n malloc o)) (hc : s.calls[n]? = some c)
    (hlog : s.manager.log ⊆ s'.manager.log) (hcs : CallStep s n c malloc o s') : WakeInv s' := by
  obtain ⟨c', hadv⟩ := callAdvance hcs
  obtain ⟨c'', hcalls, hown⟩ := Wakeful.own (h.wakeful n c hc) hlt hcs
  have hblk : c'.blocking = c.blocking := Call.blocking_eq hadv.request
  have hl := hadv.listener
  constructor
  · refine h.wakeful.set hcalls hown fun m c₁ hm hc₁ hw => ?_
    rcases hadv.blocked with hsame | hwrites
    · exact hw.frame hsame (fun hp => hp.of_listener hl rfl) fun _ _ ⟨a, ha⟩ => ⟨a, hl.trans ha⟩
    · exact hw.idle fun hb => hcond.call n malloc o c rfl hc hwrites m c₁ hm hc₁ hb
  · refine h.mutex.set hadv.calls (fun hm => ?_) fun _ _ _ _ hm => hm
    rw [hblk]
    exact (hadv.mutex hm).elim (h.mutex n c hc) id
  · -- a call that writes the flag to go on is alone
    have halone : ∀ (m : Nat) c₁, s.calls[m]? = some c₁ → c₁.blocking = true →
        c₁.pc.inProgress = true → c'.blocking = true → c'.pc.inProgress = true → m = n := by
      intro m c₁ hc₁ hb₁ hp₁ hb' hp'
      rw [hblk] at hb'
      rcases hadv.progress hb' hp' with hp | hset
      · exact h.one m n c₁ c hc₁ hc hb₁ hb' hp₁ hp
      · by_contra hm
        have hidle := hcond.call n malloc o c rfl hc (by rw [hset]; rfl) m c₁ hm hc₁ hb₁
        rw [hp₁] at hidle
        cases hidle
    intro m m' c₁ c₂ hc₁ hc₂ hb₁ hb₂ hp₁ hp₂
    rcases call_of_set hadv.calls hc₁ with ⟨rfl, rfl⟩ | ⟨_, hc₁⟩
    · rcases call_of_set hadv.calls hc₂ with ⟨rfl, rfl⟩ | ⟨_, hc₂⟩
      · rfl
      · exact (halone m' c₂ hc₂ hb₂ hp₂ hb₁ hp₁).symm
    · rcases call_of_set hadv.calls hc₂ with ⟨rfl, rfl⟩ | ⟨_, hc₂⟩
      · exact halone m c₁ hc₁ hb₁ hp₁ hb₂ hp₂
      · exact h.one m m' c₁ c₂ hc₁ hc₂ hb₁ hb₂ hp₁ hp₂
  · exact h.listener.mono hlog fun a ha => (by rw [← hl]; exact ha)

/-- Between clearing the flag and unlocking the mutex. -/
def ListenerPc.signalling : ListenerPc → Bool
  | condSignal _ => true
  | signalUnlock _ => true
  | _ => false

theorem ListenerPc.not_signalling {l : ListenerPc} (h : l.holdsMutex = false) :
    l.signalling = false := by
  cases l with
  | condSignal a => cases h
  | signalUnlock a => cases h
  | _ => rfl

theorem not_past {s : Component} {c : Call} (h : s.listener.signalling = false) : ¬ s.Past c := by
  intro ⟨a, _, hor⟩
  rcases hor with hl | hl
  · rw [hl] at h; cases h
  · rw [hl] at h; cases h

/-- The invariant survives a step that leaves the calls, the flag and the
signal under way as they are. -/
theorem WakeInv.frame {s s' : Component} (h : WakeInv s) (hcalls : s'.calls = s.calls)
    (hb : s'.blocked = s.blocked) (hd : ListenerDone s')
    (hl : s'.listener = s.listener ∨
      s.listener.signalling = false ∧ s'.listener.signalling = false) : WakeInv s' := by
  constructor
  · refine h.wakeful.same hcalls fun m c _ hw => ?_
    rcases hl with hsame | ⟨hidle, hidle'⟩
    · exact hw.frame hb (fun hp => hp.of_listener hsame rfl) fun _ _ ⟨a, ha⟩ => ⟨a, hsame.trans ha⟩
    · refine hw.frame hb (fun hp => absurd hp (not_past hidle')) fun _ _ ⟨a, ha⟩ => ?_
      rw [ha] at hidle
      cases hidle
  · exact h.mutex.same hcalls fun _ _ _ hm => hm
  · refine h.one.of_calls fun m c hc hblk hp => ⟨c, ?_, hblk, hp⟩
    rw [← hcalls]; exact hc
  · exact hd

/-- The invariant survives the end of the processing of a Feedback. -/
theorem WakeInv.feed {s : Component} {a : Nat} {mutex : Option Owner} (h : WakeInv s)
    (hl : ∀ a', s.listener ≠ .condSignal a')
    (hpast : ∀ c : Call, s.blocked = true → c.entry = some a → s.Past c) :
    WakeInv ({ s with mutex := mutex }.signalled a) := by
  constructor
  · exact h.wakeful.feed rfl fun m c _ hw => hw.feed rfl rfl hl (hpast c)
  · exact h.mutex.feed rfl fun _ _ _ hm => hm
  · refine h.one.of_calls fun m c' hc hblk hp => ?_
    obtain ⟨c, hc₀, rfl⟩ := call_of_feed (s := s) rfl hc
    exact ⟨c, hc₀, hblk, hp⟩
  · intro a' ha'; cases ha'

/-- The invariant survives the wake-up of a waiting call. -/
theorem WakeInv.woken {s s' : Component} {n : Nat} {c c' : Call} (h : WakeInv s)
    (hc : s.calls[n]? = some c) (hwait : c.pc = .condWait) (hcalls : s'.calls = s.calls.set n c')
    (hreq : c'.request = c.request) (hown : Wakeful s' c')
    (hothers : ∀ (m : Nat) c, m ≠ n → s.calls[m]? = some c → Wakeful s c → Wakeful s' c)
    (hd : ListenerDone s') : WakeInv s' := by
  have hblk : c'.blocking = c.blocking := Call.blocking_eq hreq
  constructor
  · exact h.wakeful.set hcalls hown hothers
  · refine h.mutex.set hcalls (fun _ => ?_) fun _ _ _ _ hm => hm
    rw [hblk]
    exact h.mutex n c hc (by rw [hwait]; rfl)
  · refine h.one.of_calls fun m c₁ hc₁ hb₁ hp₁ => ?_
    rcases call_of_set hcalls hc₁ with ⟨rfl, rfl⟩ | ⟨_, hc₁⟩
    · exact ⟨c, hc, hblk ▸ hb₁, by rw [hwait]; rfl⟩
    · exact ⟨c₁, hc₁, hb₁, hp₁⟩
  · exact hd

/-- A new call is not in progress. -/
theorem WakeInv.interact {s : Component} (h : WakeInv s) (request : OvsInteractRequest)
    (callback : Option OvsInteractCb) :
    WakeInv { s with calls := s.calls ++ [.start request callback] } := by
  constructor
  · refine h.wakeful.append rfl (fun _ => ⟨rfl, rfl, rfl⟩) fun m c _ hw => ?_
    exact hw.frame rfl (fun hp => hp) fun _ _ hs => hs
  · exact h.mutex.append rfl (fun hm => (by cases hm)) fun _ _ _ hm => hm
  · refine h.one.of_calls fun m c hc hblk hp => ?_
    rcases call_of_append (s := s) rfl hc with rfl | hc
    · cases hp
    · exact ⟨c, hc, hblk, hp⟩
  · exact h.listener

/-- A wait ends without a signal: on time, or with a spurious wake-up. -/
theorem WakeInv.wake {s s' : Component} {n : Nat} {result : WaitResult} (h : WakeInv s)
    (hstep : wakeStep s n result = some s') : WakeInv s' := by
  obtain ⟨c, hc, hw, rfl⟩ := wakeStep_cases hstep
  have hpc := Call.pc_of_waiting hw
  refine h.woken hc hpc rfl rfl (fun hblk => ?_)
    (fun m c' _ _ hw => hw.frame rfl (fun hp => hp) fun _ _ hs => hs) h.listener
  have hold := h.wakeful n c hc hblk
  simp only [hpc] at hold
  cases result with
  | ok =>
      intro hup
      rcases hold.2 with ⟨_, hnot⟩ | ⟨hdown, _⟩
      · exact ⟨hold.1, hnot⟩
      · exact absurd (hdown.symm.trans hup) Bool.false_ne_true
  | _ => exact ⟨Bool.or_true _, hold.1⟩

/-- The signal goes out: the listener is no further with its entry. -/
theorem Component.Past.of_condSignal {s s' : Component} {a : Nat} {c : Call} (h : s'.Past c)
    (hl : s.listener = .condSignal a) (hl' : s'.listener = .signalUnlock a) : s.Past c := by
  obtain ⟨a', ha', hor⟩ := h
  rw [hl'] at hor
  rcases hor with hs | hs
  · cases hs
  · cases hs; exact ⟨a, ha', Or.inl hl⟩

/-- Nobody is waiting for the signal. -/
theorem WakeInv.signalNone {s : Component} {a : Nat} (h : WakeInv s) (hl : s.listener = .condSignal a)
    (hw : s.calls.any Call.waiting = false) (hd : ListenerDone { s with listener := .signalUnlock a }) :
    WakeInv { s with listener := .signalUnlock a } := by
  constructor
  · refine h.wakeful.same rfl fun m c hc hwk => ?_
    refine hwk.frame rfl (fun hp => hp.of_condSignal hl rfl) fun _ hpc _ => ?_
    have hno := List.any_eq_false.1 hw c (List.mem_of_getElem? hc)
    unfold Call.waiting at hno
    rw [hpc] at hno
    exact absurd rfl hno
  · exact h.mutex.same rfl fun _ _ _ hm => hm
  · exact h.one.of_calls fun m c hc hblk hp => ⟨c, hc, hblk, hp⟩
  · exact hd

/-- The signal wakes a call.  It blocks, so no other blocking call is waiting. -/
theorem WakeInv.signalWakes {s s' : Component} {a n : Nat} {c : Call} (h : WakeInv s)
    (hl : s.listener = .condSignal a) (hc : s.calls[n]? = some c) (hw : c.waiting = true)
    (hs' : s' = { s with listener := .signalUnlock a }.setCall n (c.goto (.condWoken .ok)))
    (hd : ListenerDone s') : WakeInv s' := by
  subst hs'
  have hpc := Call.pc_of_waiting hw
  refine h.woken hc hpc rfl rfl (fun hblk hup => ?_) (fun m c₁ hm hc₁ hwk => ?_) hd
  · have hold := h.wakeful n c hc hblk
    simp only [hpc] at hold
    rcases hold.2 with ⟨_, hnot⟩ | ⟨hdown, _⟩
    · exact ⟨hold.1, fun hp => hnot (hp.of_condSignal (s := s) hl rfl)⟩
    · exact absurd (hdown.symm.trans hup) Bool.false_ne_true
  · refine hwk.frame rfl (fun hp => hp.of_condSignal hl rfl) fun hblk hpc₁ _ => ?_
    have hblk' := h.mutex n c hc (by rw [hpc]; rfl)
    exact absurd (h.one m n c₁ c hc₁ hc hblk hblk' (by rw [hpc₁]; rfl) (by rw [hpc]; rfl)) hm

/-- The step lemma for an access of the listener. -/
theorem WakeInv.listen {s s' : Component} {o : Outcome} {waiter : Option Nat} (h : WakeInv s)
    (hcond : WakesSafely s (.listener o waiter)) (hlog : s.manager.log ⊆ s'.manager.log)
    (hstep : ListenerStep s s') : WakeInv s' := by
  cases hstep with
  | quiet _ hm hq =>
      exact h.frame rfl rfl (h.listener.mono hlog hq.addr)
        (Or.inr ⟨ListenerPc.not_signalling hm, ListenerPc.not_signalling hq.holdsMutex⟩)
  | updateTransaction hl hq =>
      refine h.frame rfl rfl (fun a ha => ?_)
        (Or.inr ⟨by rw [hl]; rfl, ListenerPc.not_signalling hq.holdsMutex⟩)
      cases hq.addr a ha
  | callbackReturns hl hq =>
      refine h.frame rfl rfl (h.listener.mono hlog fun a ha => ?_)
        (Or.inr ⟨by rw [hl]; rfl, ListenerPc.not_signalling hq.holdsMutex⟩)
      rw [hl]; exact hq.addr a ha
  | signalSkip hl hb =>
      refine h.feed (fun a' ha' => ?_) fun c hup _ => ?_
      · rw [hl] at ha'; cases ha'
      · exact absurd (hb.symm.trans hup) Bool.false_ne_true
  | signalLock hl _ =>
      refine h.frame rfl rfl (h.listener.mono hlog fun a ha => ?_) (Or.inr ⟨by rw [hl]; rfl, rfl⟩)
      rw [hl]; exact ha
  -- the flag goes down, and the signal is on its way from here to `condSignal`
  | @signalClear a hl =>
      constructor
      · refine h.wakeful.same rfl fun m c hc hw => ?_
        exact hw.clear rfl rfl fun hblk => hcond.listener o waiter a rfl hl m c hc hblk
      · exact h.mutex.same rfl fun _ _ _ hm => hm
      · exact h.one.of_calls fun m c hc hblk hp => ⟨c, hc, hblk, hp⟩
      · exact h.listener.mono hlog fun a ha => (by rw [hl]; exact ha)
  | signalNone hl hw =>
      exact h.signalNone hl hw (h.listener.mono hlog fun a ha => (by rw [hl]; exact ha))
  | signalWakes hl hc hw =>
      exact h.signalWakes hl hc hw rfl (h.listener.mono hlog fun a ha => (by rw [hl]; exact ha))
  | @signalUnlock a hl =>
      refine h.feed (fun a' ha' => ?_) fun c _ he => ⟨a, he, Or.inr hl⟩
      rw [hl] at ha'; cases ha'

/-- The step lemma. -/
theorem WakeInv.step {cid : Nat} {s s' : Component} {i : ComponentStep}
    (hr : (componentMachine cid).Reachable s) (h : WakeInv s) (hcond : WakesSafely s i)
    (hstep : (componentMachine cid).step s i = some s') : WakeInv s' := by
  have hlog := log_subset_component hstep
  have hstep : componentStep s i = some s' := hstep
  cases i with
  | interact request callback => cases hstep; exact h.interact request callback
  | call n malloc o =>
      obtain ⟨c, hc, hcs⟩ := callStep_cases hstep
      exact h.call (h.listener.lt_mallocs hr) hcond hc hlog hcs
  | wake n result => exact h.wake hstep
  | interactMonitor t cb => cases hstep; exact h.frame rfl rfl h.listener (Or.inl rfl)
  | monitorCall n o =>
      obtain ⟨db, pcs, rfl⟩ := monitorCallStep_cases hstep
      exact h.frame rfl rfl h.listener (Or.inl rfl)
  | receipt rid result =>
      obtain ⟨hl, l', rfl, hq⟩ := receiptStep_cases hstep
      refine h.frame rfl rfl (fun a ha => ?_)
        (Or.inr ⟨by rw [hl]; rfl, ListenerPc.not_signalling hq.holdsMutex⟩)
      cases hq.addr a ha
  | update monId tableName row =>
      obtain ⟨hl, hor⟩ := updateStep_cases hstep
      have hidle : s.listener.signalling = false := by rw [hl]; rfl
      rcases hor with rfl | ⟨uuid, st, e, m, ht, ⟨_, l', hq, rfl⟩ | ⟨_, rfl⟩⟩
      · exact h
      · refine h.frame rfl rfl (fun a ha => ?_) (Or.inr ⟨hidle, ListenerPc.not_signalling hq.holdsMutex⟩)
        cases hq.addr a ha
        exact ⟨st, List.mem_append_left _ (takeTransaction_log ht)⟩
      · refine h.frame rfl rfl (fun a ha => ?_) (Or.inr ⟨hidle, rfl⟩)
        cases ha
        exact ⟨st, takeTransaction_log ht⟩
  | listener o waiter => exact h.listen hcond hlog (listenerStep_cases hstep)

/-- The run lemma. -/
theorem wakeInv_of_reach {cid : Nat} {s : Component}
    (h : (componentMachine cid).Reach WakesSafely s) : WakeInv s := by
  have hboth : (componentMachine cid).Reachable s ∧ WakeInv s := by
    refine h.invariant (I := fun s => (componentMachine cid).Reachable s ∧ WakeInv s) ?_ ?_
    · intro s h0
      refine ⟨.init h0, ?_⟩
      have h0 : s = .start cid := h0
      subst h0
      exact ⟨fun _ _ hc => (by cases hc), fun _ _ hc => (by cases hc),
        fun _ _ _ _ hc => (by cases hc), fun _ ha => (by cases ha)⟩
    · intro s i s' ⟨hr, hI⟩ hcond hstep
      exact ⟨.step hr trivial hstep, hI.step hr hcond hstep⟩
  exact hboth.2

/-! ## §5. No wake-up is lost. -/

/-- **No lost wake-up in block mode**, under the condition: a blocking call
whose Feedback was fully processed before its wait timed out returns true. -/
theorem fed_returns_true {cid : Nat} {s : Component}
    (h : (componentMachine cid).Reach WakesSafely s) {n : Nat} {c : Call} {rtn : Bool}
    (hc : s.calls[n]? = some c) (hblk : c.blocking = true) (hfed : c.fed = true)
    (hr : c.result = some rtn) : rtn = true := by
  have hw := (wakeInv_of_reach h).wakeful n c hc hblk
  simp only [Call.pc_of_result hr] at hw
  cases rtn with
  | true => rfl
  | false => exact absurd (hw.2.symm.trans hfed) Bool.false_ne_true

/-- A test for `WakesSafely` that a run can be checked with: when the flag is
written there is one call only. -/
def wakesSafelyTest (s : Component) : ComponentStep → Bool
  | .call n _ _ =>
      match s.calls[n]? with
      | none => true
      | some c => !c.pc.writesFlag s.blocked || decide (s.calls.length = 1)
  | .listener _ _ =>
      match s.listener with
      | .signalClear _ => s.calls.all fun c => !c.pc.beforeWait
      | _ => true
  | _ => true

theorem wakesSafely_of_test (s : Component) (i : ComponentStep)
    (h : wakesSafelyTest s i = true) : WakesSafely s i := by
  constructor
  · intro n malloc o c hi hc hwrites m c' hm hc'
    subst hi
    simp only [wakesSafelyTest, hc, hwrites, Bool.not_true, Bool.false_or, decide_eq_true_eq] at h
    -- there is one call only
    have hn : n < s.calls.length := (List.getElem?_eq_some_iff.1 hc).1
    have hm' : m < s.calls.length := (List.getElem?_eq_some_iff.1 hc').1
    omega
  · intro o w a hi hl m c hc _
    subst hi
    simp only [wakesSafelyTest, hl] at h
    have hc' := List.all_eq_true.1 h c (List.mem_of_getElem? hc)
    rw [Bool.not_eq_true'] at hc'
    exact hc'

theorem fed_returns_true_alone :
    ∃ s c, (componentMachine 1).checkedRun wakesSafelyTest (.start 1) blockingSteps = some s ∧
      s.calls[0]? = some c ∧ c.fed = true ∧ c.result = some true := by
  have hrun : ((componentMachine 1).checkedRun wakesSafelyTest (.start 1) blockingSteps).any
      (fun t => (t.calls[0]?).any fun c => c.blocking && c.fed && c.result.isSome) = true := by
    decide +kernel
  obtain ⟨s, hs, hcheck⟩ := (Option.any_eq_true _ _).1 hrun
  obtain ⟨c, hc, htest⟩ := (Option.any_eq_true _ _).1 hcheck
  simp only [Bool.and_eq_true] at htest
  obtain ⟨⟨hblk, hfed⟩, hres⟩ := htest
  obtain ⟨rtn, hr⟩ := Option.isSome_iff_exists.1 hres
  have hreach : (componentMachine 1).Reach WakesSafely s :=
    Machine.reach_of_checkedRun wakesSafely_of_test (.init rfl) hs
  have htrue : rtn = true := fed_returns_true hreach hc hblk hfed hr
  exact ⟨s, c, hs, hc, hfed, htrue ▸ hr⟩

/-- The Feedback is processed, signal included, after the write of the call
and before it takes the mutex. -/
def earlyFeedbackSteps : List ComponentStep :=
  requestSteps 0 (gatewayRequest .enable 100) ++ firstReceiptSteps (ofString "1001") firstUuid ++
    [.update (ofString "1002") feedbackTableName (feedbackRow firstUuid)] ++
    completionSteps none ++ List.replicate 4 (.call 0 true .ok)

/-- The call never waits, and returns false. -/
theorem earlyFeedback_returns_false :
    ∃ s c, (componentMachine 1).run (.start 1) earlyFeedbackSteps = some s ∧
      s.calls[0]? = some c ∧ c.blocking = true ∧ c.fed = true ∧ c.expired = false ∧
        c.result = some false ∧ s.Done c := by
  have hrun : ((componentMachine 1).run (.start 1) earlyFeedbackSteps).any (fun t =>
      (t.calls[0]?).any (fun c => c.blocking && c.fed && !c.expired && c.result == some false &&
        c.entry == some 0) &&
      t.manager.log.contains (.completed 0 0)) = true := by
    decide +kernel
  obtain ⟨s, hs, hcheck⟩ := (Option.any_eq_true _ _).1 hrun
  obtain ⟨hcall, hlog⟩ := Bool.and_eq_true_iff.1 hcheck
  obtain ⟨c, hc, htest⟩ := (Option.any_eq_true _ _).1 hcall
  simp only [Bool.and_eq_true, beq_iff_eq, Bool.not_eq_true'] at htest
  obtain ⟨⟨⟨⟨hblk, hfed⟩, hexp⟩, hr⟩, he⟩ := htest
  exact ⟨s, c, hs, hc, hblk, hfed, hexp, hr, 0, 0, he, List.contains_iff_mem.1 hlog⟩

end OvsAgent
