/-
  OvsAgent.AgentApi.Progress — requests return and messages get handled.

  Follows OvsAgentApi.c.  The mutex of the handle is taken by waiting calls and
  by the listener; the flag `blocked` that the waiting loop tests is shared by
  all of them.  When no request and no message comes in any more, all that has
  begun comes to its end whatever the scheduler does, with a time limit on
  every wait.

  Main results:
    * `owned_of_reachable` — the mutex has the owner the code thinks it has;
    * `comes_to_rest` — from every reachable state, rest is inevitable;
    * `nonblocking_never_waits` — a request that does not block returns after a
      bounded number of its own steps, whatever the others do.
-/
import OvsAgent.AgentApi.Lifecycle
import OvsAgent.AgentApi.WakeUps
import OvsAgent.Lib.Progress

namespace OvsAgent

open Machine (Inevitable Rank sum_map_set)

/-! ## §1. The owner of the mutex. -/

/-- The call holds the mutex. -/
def CallPc.holdsMutex : CallPc → Bool
  | .loopTest _ => true
  | .condReturned _ => true
  | .mutexUnlock _ => true
  | _ => false

/-- The one that holds the mutex is its owner. -/
structure Component.Owned (s : Component) : Prop where
  call : ∀ n c, s.calls[n]? = some c → (c.pc.holdsMutex = true ↔ s.mutex = some (.call n))
  listener : s.listener.holdsMutex = true ↔ s.mutex = some .listener
  bound : ∀ n, s.mutex = some (.call n) → n < s.calls.length

section Owned

variable {s s' : Component}

theorem owned_start (cid : Nat) : (Component.start cid).Owned where
  call := fun n c h => by
    have h : ([] : List Call)[n]? = some c := h
    rw [List.getElem?_nil] at h
    cases h
  listener := by
    show false = true ↔ none = some Owner.listener
    simp
  bound := fun n h => by cases h

/-- Whoever holds the mutex goes on holding it. -/
theorem Component.Owned.keep (h : s.Owned) (hcalls : ∀ (n : Nat) (c' : Call), s'.calls[n]? = some c' →
      ∃ c : Call, s.calls[n]? = some c ∧ c'.pc.holdsMutex = c.pc.holdsMutex)
    (hlength : s'.calls.length = s.calls.length) (hmutex : s'.mutex = s.mutex)
    (hl : s'.listener.holdsMutex = s.listener.holdsMutex) : s'.Owned where
  call := by
    intro n c' hc'
    obtain ⟨c, hc, hpc⟩ := hcalls n c' hc'
    rw [hpc, hmutex]
    exact h.call n c hc
  listener := by
    rw [hl, hmutex]
    exact h.listener
  bound := by
    rw [hlength, hmutex]
    exact h.bound

theorem Component.Owned.same (h : s.Owned) (hcalls : s'.calls = s.calls) (hmutex : s'.mutex = s.mutex)
    (hl : s'.listener.holdsMutex = s.listener.holdsMutex) : s'.Owned :=
  h.keep (fun _ c hc => ⟨c, hcalls ▸ hc, rfl⟩) (congrArg List.length hcalls) hmutex hl

theorem Component.Owned.feed (h : s.Owned) {a : Nat} (hcalls : s'.calls = s.calls.map (Call.feed a))
    (hmutex : s'.mutex = s.mutex) (hl : s'.listener.holdsMutex = s.listener.holdsMutex) : s'.Owned := by
  refine h.keep (fun n c' hc' => ?_) (by rw [hcalls, List.length_map]) hmutex hl
  obtain ⟨c, hc, rfl⟩ := call_of_feed hcalls hc'
  exact ⟨c, hc, rfl⟩

/-- Call `n` goes on and holds the mutex as before. -/
theorem Component.Owned.set (h : s.Owned) {n : Nat} {c c' : Call} (hc : s.calls[n]? = some c)
    (hcalls : s'.calls = s.calls.set n c') (hmutex : s'.mutex = s.mutex)
    (hl : s'.listener.holdsMutex = s.listener.holdsMutex) (hpc : c'.pc.holdsMutex = c.pc.holdsMutex) :
    s'.Owned := by
  refine h.keep (fun m d hd => ?_) (by rw [hcalls, List.length_set]) hmutex hl
  rcases call_of_set hcalls hd with ⟨rfl, rfl⟩ | ⟨_, hold⟩
  · exact ⟨c, hc, hpc⟩
  · exact ⟨d, hold, rfl⟩

/-- `pthread_mutex_lock` of call `n`. -/
theorem Component.Owned.lock (h : s.Owned) {n : Nat} {c c' : Call} (hc : s.calls[n]? = some c)
    (hfree : s.mutex = none) (hcalls : s'.calls = s.calls.set n c') (hmutex : s'.mutex = some (.call n))
    (hl : s'.listener = s.listener) (hpc : c'.pc.holdsMutex = true) : s'.Owned where
  call := by
    intro m d hd
    rw [hmutex]
    rcases call_of_set hcalls hd with ⟨rfl, rfl⟩ | ⟨hne, hold⟩
    · rw [hpc]
      exact ⟨fun _ => rfl, fun _ => rfl⟩
    · rw [h.call m d hold, hfree]
      exact ⟨fun hno => (by cases hno), fun heq => (by cases heq; exact absurd rfl hne)⟩
  listener := by
    rw [hl, h.listener, hfree, hmutex]
    exact ⟨fun hno => (by cases hno), fun hno => (by cases hno)⟩
  bound := by
    intro m hm
    rw [hmutex] at hm
    cases hm
    rw [hcalls, List.length_set]
    exact (List.getElem?_eq_some_iff.1 hc).1

/-- `pthread_mutex_unlock` of call `n`, or its wait. -/
theorem Component.Owned.unlock (h : s.Owned) {n : Nat} {c c' : Call} (hc : s.calls[n]? = some c)
    (hheld : c.pc.holdsMutex = true) (hcalls : s'.calls = s.calls.set n c') (hmutex : s'.mutex = none)
    (hl : s'.listener = s.listener) (hpc : c'.pc.holdsMutex = false) : s'.Owned where
  call := by
    have hown := (h.call n c hc).1 hheld
    intro m d hd
    rw [hmutex]
    rcases call_of_set hcalls hd with ⟨rfl, rfl⟩ | ⟨hne, hold⟩
    · rw [hpc]
      exact ⟨fun hno => (by cases hno), fun hno => (by cases hno)⟩
    · rw [h.call m d hold, hown]
      exact ⟨fun heq => (by cases heq; exact absurd rfl hne), fun hno => (by cases hno)⟩
  listener := by
    rw [hl, h.listener, hmutex, (h.call n c hc).1 hheld]
    exact ⟨fun hno => (by cases hno), fun hno => (by cases hno)⟩
  bound := by
    intro m hm
    rw [hmutex] at hm
    cases hm

/-- The listener takes the mutex or gives it back. -/
theorem Component.Owned.turn (h : s.Owned) (hcalls : ∀ (n : Nat) (c' : Call), s'.calls[n]? = some c' →
      ∃ c : Call, s.calls[n]? = some c ∧ c'.pc.holdsMutex = c.pc.holdsMutex)
    (hold : s.mutex = none ∨ s.mutex = some .listener)
    (hnew : s'.mutex = none ∧ s'.listener.holdsMutex = false ∨
      s'.mutex = some .listener ∧ s'.listener.holdsMutex = true) : s'.Owned := by
  have hno : ∀ n, s.mutex ≠ some (.call n) := by
    intro n heq
    rcases hold with h | h <;> rw [h] at heq <;> cases heq
  have hno' : ∀ n, s'.mutex ≠ some (.call n) := by
    intro n heq
    rcases hnew with ⟨h, _⟩ | ⟨h, _⟩ <;> rw [h] at heq <;> cases heq
  refine ⟨fun n c' hc' => ?_, ?_, fun n hn => absurd hn (hno' n)⟩
  · obtain ⟨c, hc, hpc⟩ := hcalls n c' hc'
    rw [hpc]
    exact ⟨fun hh => absurd ((h.call n c hc).1 hh) (hno n), fun hh => absurd hh (hno' n)⟩
  · rcases hnew with ⟨hm, hl⟩ | ⟨hm, hl⟩
    · rw [hm, hl]
      exact ⟨fun hno => (by cases hno), fun hno => (by cases hno)⟩
    · rw [hm, hl]
      exact ⟨fun _ => rfl, fun _ => rfl⟩

end Owned

section OwnedStep

variable {s s' : Component}

theorem afterWrite_holdsMutex (c : Call) (pc : DbPc) : (c.afterWrite pc).pc.holdsMutex = false := by
  rcases afterWrite_cases c pc with h | h | ⟨pc', h⟩
  · rw [h]
    unfold Call.sentOff
    split <;> rfl
  · rw [h]; rfl
  · rw [h]; rfl

theorem CallStep.owned {n : Nat} {c : Call} {malloc : Bool} {o : Outcome} (hc : s.calls[n]? = some c)
    (hcs : CallStep s n c malloc o s') (h : s.Owned) : s'.Owned := by
  cases hcs with
  | idGenerate hpc hc' =>
      refine h.set hc rfl rfl rfl ?_
      rw [hpc]
      split
      · rfl
      · exact afterWrite_holdsMutex ..
  | setBlocked hpc => exact h.set hc rfl rfl rfl (by rw [hpc]; rfl)
  | insertFails hpc hm => exact h.set hc rfl rfl rfl (by rw [hpc]; rfl)
  | insert hpc hm hc' => exact h.set hc rfl rfl rfl (by rw [hpc]; exact afterWrite_holdsMutex ..)
  | ovsdbWrite hpc => exact h.set hc rfl rfl rfl (by rw [hpc]; exact afterWrite_holdsMutex ..)
  | clearBlocked hpc => exact h.set hc rfl rfl rfl (by rw [hpc]; rfl)
  | mutexLock hpc hm => exact h.lock hc hm rfl rfl rfl rfl
  | loopWait hpc hb => exact h.unlock hc (by rw [hpc]; rfl) rfl rfl rfl rfl
  | loopExit hpc hb => exact h.set hc rfl rfl rfl (by rw [hpc]; rfl)
  | relock hpc hm => exact h.lock hc hm rfl rfl rfl rfl
  | signalled hpc => exact h.set hc rfl rfl rfl (by rw [hpc]; rfl)
  | waitFailed hpc hr => exact h.set hc rfl rfl rfl (by rw [hpc]; rfl)
  | unlockSuccess hpc => exact h.unlock hc (by rw [hpc]; rfl) rfl rfl rfl rfl
  | unlock hpc hs => exact h.unlock hc (by rw [hpc]; rfl) rfl rfl rfl rfl
  | deleteTransaction hpc => exact h.set hc rfl rfl rfl (by rw [hpc]; rfl)

theorem ListenerStep.owned (hls : ListenerStep s s') (h : s.Owned) : s'.Owned := by
  have hheld : ∀ {l : ListenerPc}, s.listener = l → l.holdsMutex = true → s.mutex = some .listener :=
    fun hl hm => h.listener.1 (by rw [hl]; exact hm)
  cases hls with
  | quiet hr hm hl' => exact h.same rfl rfl (hl'.holdsMutex.trans hm.symm)
  | updateTransaction hl hl' => exact h.same rfl rfl (by rw [hl]; exact hl'.holdsMutex)
  | callbackReturns hl hl' => exact h.same rfl rfl (by rw [hl]; exact hl'.holdsMutex)
  | signalSkip hl hb => exact h.feed rfl rfl (by rw [hl]; rfl)
  | signalLock hl hm => exact h.turn (fun n c hc => ⟨c, hc, rfl⟩) (.inl hm) (.inr ⟨rfl, rfl⟩)
  | signalClear hl => exact h.same rfl rfl (by rw [hl]; rfl)
  | signalNone hl hw => exact h.same rfl rfl (by rw [hl]; rfl)
  | signalWakes hl hc hw =>
      exact h.set hc rfl rfl (by rw [hl]; rfl) (by rw [Call.pc_of_waiting hw]; rfl)
  | signalUnlock hl =>
      refine h.turn (fun n c' hc' => ?_) (.inr (hheld hl rfl)) (.inl ⟨rfl, rfl⟩)
      obtain ⟨c, hc, rfl⟩ := call_of_feed rfl hc'
      exact ⟨c, hc, rfl⟩

theorem componentStep_owned {i : ComponentStep} (h : componentStep s i = some s') (ho : s.Owned) :
    s'.Owned := by
  cases i with
  | interact request callback =>
      cases h
      refine ⟨fun n c hc => ?_, ho.listener, fun n hn => ?_⟩
      · have hc : (s.calls ++ [Call.start request callback])[n]? = some c := hc
        rw [List.getElem?_append] at hc
        split at hc
        · exact ho.call n c hc
        · next hlt =>
            rw [List.mem_singleton.1 (List.mem_of_getElem? hc)]
            exact ⟨fun hno => (by cases hno), fun hown => absurd (ho.bound n hown) hlt⟩
      · show n < (s.calls ++ [Call.start request callback]).length
        rw [List.length_append]
        exact Nat.lt_of_lt_of_le (ho.bound n hn) (Nat.le_add_right ..)
  | call n malloc o =>
      obtain ⟨c, hc, hcs⟩ := callStep_cases h
      exact hcs.owned hc ho
  | wake n result =>
      obtain ⟨c, hc, hw, rfl⟩ := wakeStep_cases h
      exact ho.set hc rfl rfl rfl (by rw [Call.pc_of_waiting hw]; rfl)
  | interactMonitor t cb => cases h; exact ho.same rfl rfl rfl
  | monitorCall n o =>
      obtain ⟨db, pcs, rfl⟩ := monitorCallStep_cases h
      exact ho.same rfl rfl rfl
  | receipt rid result =>
      obtain ⟨hl, l', rfl, hq⟩ := receiptStep_cases h
      exact ho.same rfl rfl (by rw [hl]; exact hq.holdsMutex)
  | update monId tableName row =>
      obtain ⟨hl, rfl | ⟨_, _, _, _, _, ⟨_, l', hq, rfl⟩ | ⟨_, rfl⟩⟩⟩ := updateStep_cases h
      · exact ho
      · exact ho.same rfl rfl (by rw [hl]; exact hq.holdsMutex)
      · exact ho.same rfl rfl (by rw [hl]; rfl)
  | listener o waiter => exact (listenerStep_cases h).owned ho

/-- **The owner of the mutex is the one that took it last.** -/
theorem owned_of_reachable {cid : Nat} (h : (componentMachine cid).Reachable s) : s.Owned := by
  refine h.invariant (I := Component.Owned) ?_ ?_
  · intro s h0
    have h0 : s = .start cid := h0
    subst h0
    exact owned_start cid
  · intro s i s' hI _ hstep
    exact componentStep_owned hstep hI

end OwnedStep

/-! ## §2. What is left to do. -/

/-- How much of the call of the OVSDB layer is left. -/
def DbPc.rank : DbPc → Nat
  | .idGenerate call ids => 5 + (call.draws - ids.length)
  | .receiptListAdd _ => 4
  | .monListAdd .. => 3
  | .socketWrite _ => 2
  | .monListRemove .. => 1
  | .returned _ => 0

theorem DbCall.ready_rank (call : DbCall) (ids : List Nat) :
    (call.ready ids).rank ≤ 4 + (call.draws - ids.length) + if ids.length < call.draws then 1 else 0 := by
  unfold DbCall.ready
  split
  · next hlt =>
      show 5 + (call.draws - ids.length) ≤ _
      omega
  · split
    · exact Nat.zero_le _
    · show 4 ≤ _
      omega

theorem DbCall.start_rank (call : DbCall) : call.start.rank ≤ 7 := by
  have hr := DbCall.ready_rank call []
  have hd : call.draws ≤ 2 := by
    unfold DbCall.draws
    split <;> omega
  rw [List.length_nil] at hr
  unfold DbCall.start
  split at hr <;> omega

/-- Every access leaves less to do. -/
theorem dbStep_rank {o : Outcome} {pc : DbPc} {db : OvsDbApi} (h : pc.hasReturned = false) :
    (dbStep o pc db).1.rank < pc.rank := by
  cases pc with
  | idGenerate call ids =>
      have hr := DbCall.ready_rank call (ids ++ [(idGenerate db).1])
      rw [List.length_append, List.length_singleton] at hr
      show (call.ready (ids ++ [(idGenerate db).1])).rank < 5 + (call.draws - ids.length)
      split at hr <;> omega
  | receiptListAdd p =>
      simp only [dbStep]
      split
      · exact Nat.zero_lt_succ _
      · split
        · exact (by decide : 2 < 4)
        · exact (by decide : 3 < 4)
  | monListAdd p uniqueId monCb =>
      simp only [dbStep]
      split
      · exact (by decide : 0 < 3)
      · exact (by decide : 2 < 3)
  | socketWrite p =>
      simp only [dbStep]
      split
      · split
        · exact (by decide : 0 < 2)
        · exact (by decide : 1 < 2)
      · split
        · exact (by decide : 0 < 2)
        · exact (by decide : 1 < 2)
  | monListRemove uuid sent =>
      simp only [dbStep]
      split
      · exact (by decide : 0 < 1)
      · exact (by decide : 0 < 1)
  | returned status => cases h

/-- A caller that has less than `b` left once the call of the layer returns has
less left after each access. -/
theorem dbStep_then {o : Outcome} {pc : DbPc} {db : OvsDbApi} {b r : Nat}
    (h : r ≤ if (dbStep o pc db).1.hasReturned then b else b + 1 + (dbStep o pc db).1.rank) :
    r < b + 1 + pc.rank := by
  cases hreturned : pc.hasReturned with
  | false =>
      have hless : (dbStep o pc db).1.rank < pc.rank := dbStep_rank hreturned
      split at h <;> omega
  | true =>
      have hsame : (dbStep o pc db).1.hasReturned = true := by
        cases pc with
        | returned status => rfl
        | _ => cases hreturned
      rw [if_pos hsame] at h
      omega

/-- How much of the call is left, as long as the flag stays as it is: a call
that finds it up waits again. -/
def CallPc.rank (blocked : Bool) : CallPc → Nat
  | .idGenerate => 19
  | .setBlocked => 18
  | .insertTransaction => 17
  | .ovsdbWrite pc => 9 + pc.rank
  | .condWoken .ok => 9
  | .mutexLock => 8
  | .condReturned .ok => 8
  | .loopTest _ => if blocked then 7 else 3
  | .condWait => 6
  | .condWoken _ => 5
  | .condReturned _ => 4
  | .mutexUnlock _ => 2
  | .clearBlocked => 2
  | .deleteTransaction => 1
  | .returned _ => 0

/-- The call may still raise the flag. -/
def CallPc.raising : CallPc → Nat
  | .idGenerate => 1
  | .setBlocked => 1
  | _ => 0

/-- How much of the handling of the message is left. -/
def ListenerPc.rank : ListenerPc → Nat
  | .callback .. => 22
  | .deleteGwConfig _ _ pc => 14 + pc.rank
  | .deleteFeedback _ _ pc => 6 + pc.rank
  | .signalTest _ => 5
  | .signalLock _ => 4
  | .signalClear _ => 3
  | .condSignal _ => 2
  | .signalUnlock _ => 1
  | .updateTransaction .. => 12
  | .monitorTest _ => 11
  | .ovsdbMonitor _ pc => 3 + pc.rank
  | .setMonitorFeedback .. => 2
  | .unlink _ => 1
  | .idle => 0

/-- The calls that may raise the flag come first, then the listener, which may
wake a call, then the flag, and then the places of the calls. -/
def Component.rank (s : Component) : Rank :=
  ((s.calls.map fun c => c.pc.raising).sum, s.listener.rank, s.blocked.toNat,
    (s.calls.map fun c => c.pc.rank s.blocked).sum + (s.monitorCalls.map DbPc.rank).sum)

/-- Steps that take what has begun further: no new request, no new message, no
spurious wake-up. -/
def ComponentStep.Internal (s : Component) : ComponentStep → Prop
  | .call .. => True
  | .wake _ result => result ≠ .ok
  | .monitorCall n _ => ∃ pc, s.monitorCalls[n]? = some pc ∧ pc.hasReturned = false
  | .listener .. => True
  | _ => False

section Rank

variable {s s' : Component}

theorem loopTest_rank (blocked : Bool) (status : OvsStatus) :
    (CallPc.loopTest status).rank blocked ≤ 7 := by
  cases blocked with
  | false => exact (by decide : 3 ≤ 7)
  | true => exact (by decide : 7 ≤ 7)

theorem afterWrite_rank (c : Call) (pc : DbPc) (blocked : Bool) :
    (c.afterWrite pc).pc.rank blocked ≤ (if pc.hasReturned then 8 else 9 + pc.rank) ∧
    (c.afterWrite pc).pc.raising = 0 := by
  cases pc with
  | returned status =>
      cases status with
      | success =>
          show (if c.blocking then CallPc.mutexLock else .returned true).rank blocked ≤ 8 ∧
            (if c.blocking then CallPc.mutexLock else .returned true).raising = 0
          split
          · exact ⟨Nat.le_refl _, rfl⟩
          · exact ⟨Nat.zero_le _, rfl⟩
      | _ => exact ⟨(by decide : 2 ≤ 8), rfl⟩
  | _ => exact ⟨Nat.le_refl _, rfl⟩

theorem write_rank (c : Call) (receiptCb : Option OvsdbReceiptCb) (blocked : Bool) :
    (c.write receiptCb).pc.rank blocked ≤ 16 ∧ (c.write receiptCb).pc.raising = 0 := by
  obtain ⟨hrank, hraising⟩ := afterWrite_rank c
    (DbCall.write (some (CString.utoa c.rid)) (some c.request.tableConfig) receiptCb).start blocked
  have hstart := DbCall.start_rank (.write (some (CString.utoa c.rid)) (some c.request.tableConfig) receiptCb)
  refine ⟨?_, hraising⟩
  show (c.afterWrite _).pc.rank blocked ≤ 16
  split at hrank <;> omega

end Rank

section Lower

variable {s s' : Component} {n : Nat} {c c' : Call}

theorem raising_set (hc : s.calls[n]? = some c) (hcalls : s'.calls = s.calls.set n c') :
    (s'.calls.map fun c => c.pc.raising).sum + c.pc.raising =
      (s.calls.map fun c => c.pc.raising).sum + c'.pc.raising := by
  rw [hcalls]
  exact sum_map_set (fun c => c.pc.raising) c' hc

/-- Call `n` goes on and the flag stays. -/
theorem rank_goes (hc : s.calls[n]? = some c) (hcalls : s'.calls = s.calls.set n c')
    (hmonitor : s'.monitorCalls = s.monitorCalls) (hl : s'.listener = s.listener)
    (hb : s'.blocked = s.blocked) (hraise : c'.pc.raising ≤ c.pc.raising)
    (hrank : c'.pc.rank s.blocked < c.pc.rank s.blocked) :
    s'.rank.Less s.rank := by
  have hraising := raising_set hc hcalls
  have hplaces := sum_map_set (fun c => c.pc.rank s.blocked) c' hc
  refine Rank.fourth (by omega) (by rw [hl]) (by rw [hb]) ?_
  rw [hcalls, hmonitor, hb]
  omega

/-- Call `n` goes on and clears the flag. -/
theorem rank_clears (hc : s.calls[n]? = some c) (hcalls : s'.calls = s.calls.set n c')
    (hmonitor : s'.monitorCalls = s.monitorCalls) (hl : s'.listener = s.listener) (hb : s'.blocked = false)
    (hraise : c'.pc.raising ≤ c.pc.raising) (hrank : c'.pc.rank false < c.pc.rank false) :
    s'.rank.Less s.rank := by
  have hraising := raising_set hc hcalls
  cases hold : s.blocked with
  | false => exact rank_goes hc hcalls hmonitor hl (hb.trans hold.symm) hraise (by rw [hold]; exact hrank)
  | true =>
      refine Rank.third (by omega) (by rw [hl]) ?_
      rw [hb, hold]
      exact (by decide : 0 < 1)

/-- Call `n` will not raise the flag any more. -/
theorem rank_decides (hc : s.calls[n]? = some c) (hcalls : s'.calls = s.calls.set n c')
    (hraise : c'.pc.raising < c.pc.raising) : s'.rank.Less s.rank := by
  have hraising := raising_set hc hcalls
  exact Rank.first (by omega)

theorem CallStep.rank_less {malloc : Bool} {o : Outcome} (hc : s.calls[n]? = some c)
    (hcs : CallStep s n c malloc o s') :
    s'.rank.Less s.rank := by
  cases hcs with
  | @idGenerate hpc c' hc' =>
      by_cases hreg : c'.registers = true
      · rw [if_pos hreg]
        refine rank_goes hc rfl rfl rfl rfl ?_ ?_
        · rw [hpc]; exact Nat.le_refl _
        · rw [hpc]; exact (by decide : 18 < 19)
      · rw [if_neg hreg]
        refine rank_decides hc rfl ?_
        rw [hpc, (write_rank c' none s.blocked).2]
        exact (by decide : 0 < 1)
  | setBlocked hpc =>
      refine rank_decides hc rfl ?_
      rw [hpc]
      exact (by decide : 0 < 1)
  | insertFails hpc hm =>
      refine rank_goes hc rfl rfl rfl rfl (Nat.zero_le _) ?_
      rw [hpc]
      exact (by decide : 0 < 17)
  | @insert hpc hm c' hc' =>
      obtain ⟨hrank, hraising⟩ := write_rank c' (some .ovsAgentApiWriteCallback) s.blocked
      refine rank_goes hc rfl rfl rfl rfl (by rw [hraising]; exact Nat.zero_le _) ?_
      rw [hpc]
      exact Nat.lt_succ_of_le hrank
  | @ovsdbWrite pc hpc =>
      obtain ⟨hrank, hraising⟩ := afterWrite_rank c (dbStep o pc s.db).1 s.blocked
      refine rank_goes hc rfl rfl rfl rfl (by rw [hraising]; exact Nat.zero_le _) ?_
      rw [hpc]
      exact dbStep_then (b := 8) hrank
  | clearBlocked hpc =>
      refine rank_clears hc rfl rfl rfl rfl (Nat.zero_le _) ?_
      rw [hpc]
      exact (by decide : 1 < 2)
  | mutexLock hpc hm =>
      refine rank_goes hc rfl rfl rfl rfl (Nat.zero_le _) ?_
      rw [hpc]
      exact Nat.lt_succ_of_le (loopTest_rank ..)
  | @loopWait status hpc hb =>
      refine rank_goes hc rfl rfl rfl rfl (Nat.zero_le _) ?_
      rw [hpc, hb]
      exact (by decide : 6 < 7)
  | @loopExit status hpc hb =>
      refine rank_goes hc rfl rfl rfl rfl (Nat.zero_le _) ?_
      rw [hpc, hb]
      exact (by decide : 2 < 3)
  | @relock result hpc hm =>
      refine rank_goes hc rfl rfl rfl rfl (Nat.zero_le _) ?_
      rw [hpc]
      cases result with
      | ok => exact (by decide : 8 < 9)
      | timedOut => exact (by decide : 4 < 5)
      | error => exact (by decide : 4 < 5)
  | signalled hpc =>
      refine rank_goes hc rfl rfl rfl rfl (Nat.zero_le _) ?_
      rw [hpc]
      exact Nat.lt_succ_of_le (loopTest_rank ..)
  | @waitFailed result hpc hr =>
      refine rank_clears hc rfl rfl rfl rfl (Nat.zero_le _) ?_
      rw [hpc]
      cases result with
      | ok => exact absurd rfl hr
      | timedOut => exact (by decide : 3 < 4)
      | error => exact (by decide : 3 < 4)
  | unlockSuccess hpc =>
      refine rank_goes hc rfl rfl rfl rfl (Nat.zero_le _) ?_
      rw [hpc]
      exact (by decide : 0 < 2)
  | unlock hpc hs =>
      refine rank_goes hc rfl rfl rfl rfl (Nat.zero_le _) ?_
      rw [hpc]
      exact (by decide : 1 < 2)
  | deleteTransaction hpc =>
      refine rank_goes hc rfl rfl rfl rfl (Nat.zero_le _) ?_
      rw [hpc]
      exact (by decide : 0 < 1)

end Lower

section LowerListener

variable {s s' : Component}

theorem afterMonitor_rank (i : Nat) (pc : DbPc) :
    (ListenerPc.afterMonitor i pc).rank ≤ if pc.hasReturned then 2 else 3 + pc.rank := by
  cases pc with
  | _ => exact Nat.le_refl _

theorem afterDeleteFeedback_rank (addr : Nat) (uuid : CString) (pc : DbPc) :
    (ListenerPc.afterDeleteFeedback addr uuid pc).rank ≤ if pc.hasReturned then 5 else 6 + pc.rank := by
  cases pc with
  | returned status =>
      cases status with
      | success => exact Nat.le_refl _
      | _ => exact Nat.zero_le _
  | _ => exact Nat.le_refl _

theorem afterDeleteGwConfig_rank (addr : Nat) (uuid : CString) (pc : DbPc) :
    (ListenerPc.afterDeleteGwConfig addr uuid pc).rank ≤ if pc.hasReturned then 13 else 14 + pc.rank := by
  cases pc with
  | returned status =>
      cases status with
      | success => exact Nat.add_le_add_left (DbCall.start_rank _) 6
      | _ => exact Nat.zero_le _
  | _ => exact Nat.le_refl _

/-- Every access of the listener leaves it less to do, and raises no flag. -/
theorem listenerStep_rank {o : Outcome} {waiter : Option Nat} (h : listenerStep s o waiter = some s') :
    s'.listener.rank < s.listener.rank := by
  unfold listenerStep at h
  cases hl : s.listener with
  | idle => simp only [hl] at h; cases h
  | updateTransaction i rid uuid =>
      simp only [hl] at h
      split at h
      · cases h; exact (by decide : 11 < 12)
      · cases h; exact (by decide : 1 < 12)
  | monitorTest i =>
      simp only [hl] at h
      split at h
      · cases h; exact (by decide : 1 < 11)
      · cases h
        have hstart := DbCall.start_rank monitorFeedbackCall
        have hafter := afterMonitor_rank i monitorFeedbackCall.start
        show (ListenerPc.afterMonitor i monitorFeedbackCall.start).rank < 11
        split at hafter <;> omega
  | ovsdbMonitor i pc => simp only [hl] at h; cases h; exact dbStep_then (b := 2) (afterMonitor_rank ..)
  | setMonitorFeedback i value => simp only [hl] at h; cases h; exact (by decide : 1 < 2)
  | unlink i => simp only [hl] at h; cases h; exact (by decide : 0 < 1)
  | callback e uuid =>
      simp only [hl] at h
      cases h
      have hstart := DbCall.start_rank (deleteGwConfigCall uuid)
      have hafter := afterDeleteGwConfig_rank e.addr uuid (deleteGwConfigCall uuid).start
      show (ListenerPc.afterDeleteGwConfig e.addr uuid (deleteGwConfigCall uuid).start).rank < 22
      split at hafter <;> omega
  | deleteGwConfig addr uuid pc =>
      simp only [hl] at h
      cases h
      exact dbStep_then (b := 13) (afterDeleteGwConfig_rank ..)
  | deleteFeedback addr uuid pc =>
      simp only [hl] at h
      cases h
      exact dbStep_then (b := 5) (afterDeleteFeedback_rank ..)
  | signalTest addr =>
      simp only [hl] at h
      split at h
      · cases h; exact (by decide : 4 < 5)
      · cases h; exact (by decide : 0 < 5)
  | signalLock addr =>
      simp only [hl] at h
      split at h
      · cases h; exact (by decide : 3 < 4)
      · cases h
  | signalClear addr => simp only [hl] at h; cases h; exact (by decide : 2 < 3)
  | condSignal addr =>
      simp only [hl] at h
      rw [(condSignal_frame h).2]
      exact (by decide : 1 < 2)
  | signalUnlock addr => simp only [hl] at h; cases h; exact (by decide : 0 < 1)

/-- The calls the listener touches had decided about the flag. -/
theorem ListenerStep.raising (h : ListenerStep s s') :
    (s'.calls.map fun c => c.pc.raising).sum = (s.calls.map fun c => c.pc.raising).sum := by
  cases h with
  | signalSkip _ _ =>
      show ((s.calls.map (Call.feed _)).map fun c => c.pc.raising).sum = _
      rw [List.map_map]
      rfl
  | signalUnlock _ =>
      show ((s.calls.map (Call.feed _)).map fun c => c.pc.raising).sum = _
      rw [List.map_map]
      rfl
  | @signalWakes a n c hl hc hw =>
      have hraising := sum_map_set (fun c => c.pc.raising) (c.goto (.condWoken .ok)) hc
      simp only [Call.pc_of_waiting hw] at hraising
      exact hraising
  | _ => rfl

/-- **Every step that takes something further lowers the rank.** -/
theorem internal_rank_less {i : ComponentStep} (hi : i.Internal s) (h : componentStep s i = some s') :
    s'.rank.Less s.rank := by
  cases i with
  | call n malloc o =>
      obtain ⟨c, hc, hcs⟩ := callStep_cases h
      exact hcs.rank_less hc
  | wake n result =>
      obtain ⟨c, hc, hw, rfl⟩ := wakeStep_cases h
      refine rank_goes hc rfl rfl rfl rfl (Nat.zero_le _) ?_
      rw [Call.pc_of_waiting hw]
      cases result with
      | ok => exact absurd rfl hi
      | timedOut => exact (by decide : 5 < 6)
      | error => exact (by decide : 5 < 6)
  | monitorCall n o =>
      obtain ⟨pc, hpc, hreturned⟩ := hi
      simp only [componentStep, hpc] at h
      cases h
      have hless : (dbStep o pc s.db).1.rank < pc.rank := dbStep_rank hreturned
      have hsum := sum_map_set DbPc.rank (dbStep o pc s.db).1 hpc
      refine Rank.fourth (Nat.le_refl _) (Nat.le_refl _) (Nat.le_refl _) ?_
      show _ + ((s.monitorCalls.set n (dbStep o pc s.db).1).map DbPc.rank).sum < _
      refine Nat.add_lt_add_left ?_ _
      omega
  | listener o waiter =>
      exact Rank.second (Nat.le_of_eq (listenerStep_cases h).raising) (listenerStep_rank h)
  | _ => exact hi.elim

end LowerListener

/-! ## §3. Something can always go on. -/

section Enabled

variable {s : Component}

/-- A call can go on by itself unless it has returned, waits for a signal, or
wants a mutex that is taken. -/
theorem call_enabled {n : Nat} {c : Call} (hc : s.calls[n]? = some c) (hresult : c.result = none)
    (hwait : c.waiting = false)
    (hmutex : s.mutex = none ∨ c.pc ≠ .mutexLock ∧ ∀ r, c.pc ≠ .condWoken r) (malloc : Bool)
    (o : Outcome) : ∃ s', componentStep s (.call n malloc o) = some s' := by
  simp only [componentStep, callStep, hc]
  cases hpc : c.pc with
  | idGenerate => exact ⟨_, rfl⟩
  | setBlocked => exact ⟨_, rfl⟩
  | insertTransaction =>
      dsimp only
      split
      · exact ⟨_, rfl⟩
      · exact ⟨_, rfl⟩
  | ovsdbWrite pc => exact ⟨_, rfl⟩
  | clearBlocked => exact ⟨_, rfl⟩
  | mutexLock =>
      rcases hmutex with hfree | ⟨hno, _⟩
      · rw [hfree]; exact ⟨_, rfl⟩
      · exact absurd hpc hno
  | loopTest status =>
      dsimp only
      split
      · exact ⟨_, rfl⟩
      · exact ⟨_, rfl⟩
  | condWait =>
      unfold Call.waiting at hwait
      rw [hpc] at hwait
      cases hwait
  | condWoken r =>
      rcases hmutex with hfree | ⟨_, hno⟩
      · rw [hfree]; exact ⟨_, rfl⟩
      · exact absurd hpc (hno r)
  | condReturned r => cases r <;> exact ⟨_, rfl⟩
  | mutexUnlock status => cases status <;> exact ⟨_, rfl⟩
  | deleteTransaction => exact ⟨_, rfl⟩
  | returned rtn =>
      unfold Call.result at hresult
      rw [hpc] at hresult
      cases hresult

/-- A call that holds the mutex is past waiting for it. -/
theorem Call.of_holdsMutex {c : Call} (h : c.pc.holdsMutex = true) :
    c.result = none ∧ c.waiting = false ∧ c.pc ≠ .mutexLock ∧ ∀ r, c.pc ≠ .condWoken r := by
  unfold Call.result Call.waiting
  cases hpc : c.pc with
  | loopTest status => exact ⟨rfl, rfl, CallPc.noConfusion, fun _ => CallPc.noConfusion⟩
  | condReturned r => exact ⟨rfl, rfl, CallPc.noConfusion, fun _ => CallPc.noConfusion⟩
  | mutexUnlock status => exact ⟨rfl, rfl, CallPc.noConfusion, fun _ => CallPc.noConfusion⟩
  | _ => rw [hpc] at h; cases h

/-- The listener can go on unless it wants a mutex that is taken. -/
theorem listener_enabled (hbusy : s.listener ≠ .idle)
    (hmutex : s.mutex = none ∨ ∀ a, s.listener ≠ .signalLock a) (o : Outcome) :
    ∃ waiter s', componentStep s (.listener o waiter) = some s' := by
  refine ⟨s.calls.findIdx? Call.waiting, ?_⟩
  simp only [componentStep, listenerStep]
  cases hl : s.listener with
  | idle => exact absurd hl hbusy
  | updateTransaction i rid uuid =>
      dsimp only
      split
      · exact ⟨_, rfl⟩
      · exact ⟨_, rfl⟩
  | monitorTest i =>
      dsimp only
      split
      · exact ⟨_, rfl⟩
      · exact ⟨_, rfl⟩
  | signalTest a =>
      dsimp only
      split
      · exact ⟨_, rfl⟩
      · exact ⟨_, rfl⟩
  | signalLock a =>
      rcases hmutex with hfree | hno
      · rw [hfree]; exact ⟨_, rfl⟩
      · exact absurd hl (hno a)
  | condSignal a =>
      dsimp only
      unfold condSignal
      cases hfind : s.calls.findIdx? Call.waiting with
      | none =>
          have hnone : s.calls.any Call.waiting = false :=
            List.any_eq_false.2 fun c hc => Bool.eq_false_iff.1 (List.findIdx?_eq_none_iff.1 hfind c hc)
          simp only [hnone]
          exact ⟨_, rfl⟩
      | some n =>
          obtain ⟨hlt, hwait, _⟩ := List.findIdx?_eq_some_iff_getElem.1 hfind
          simp only [List.getElem?_eq_getElem hlt, hwait]
          exact ⟨_, rfl⟩
  | _ => exact ⟨_, rfl⟩

/-- The owner of the mutex can go on, with a connection or without. -/
theorem owner_enabled (ho : s.Owned) (hmutex : s.mutex ≠ none) (b : Bool) :
    ∃ i s', ComponentStep.Internal s i ∧ componentStep s (i.over b) = some s' := by
  cases howner : s.mutex with
  | none => exact absurd howner hmutex
  | some owner =>
      cases owner with
      | call n =>
          have hc := List.getElem?_eq_getElem (ho.bound n howner)
          obtain ⟨hresult, hwait, hlock, hwoken⟩ := Call.of_holdsMutex ((ho.call n _ hc).2 howner)
          obtain ⟨s', hs'⟩ :=
            call_enabled hc hresult hwait (.inr ⟨hlock, hwoken⟩) true (Outcome.ok.over b)
          exact ⟨.call n true .ok, s', trivial, hs'⟩
      | listener =>
          have hholds := ho.listener.2 howner
          have hbusy : s.listener ≠ .idle := fun hl => by rw [hl] at hholds; cases hholds
          obtain ⟨waiter, s', hs'⟩ := listener_enabled hbusy
            (.inr fun a hl => by rw [hl] at hholds; cases hholds) (Outcome.ok.over b)
          exact ⟨.listener .ok waiter, s', trivial, hs'⟩

theorem ComponentStep.over_true (i : ComponentStep) : i.over true = i := by
  cases i <;> rfl

/-- Nothing is under way. -/
def Component.Settled (s : Component) : Prop := s.atRest = true ∧ s.listener = .idle

/-- **There is no deadlock.**  As long as something is under way, something can
go on, with a connection or without. -/
theorem internal_enabled (ho : s.Owned) (hrest : ¬ s.Settled) (b : Bool) :
    ∃ i s', ComponentStep.Internal s i ∧ componentStep s (i.over b) = some s' := by
  by_cases hmutex : s.mutex = none
  · by_cases hbusy : s.listener = .idle
    · by_cases hcalls : s.calls.all (·.result.isSome) = true
      · have hmonitors : s.monitorCalls.all DbPc.hasReturned = false := by
          by_contra hall
          refine hrest ⟨?_, hbusy⟩
          unfold Component.atRest
          rw [hcalls, Bool.eq_true_of_not_eq_false hall]
          rfl
        obtain ⟨pc, hmem, hpc⟩ := List.all_eq_false.1 hmonitors
        obtain ⟨n, hn⟩ := List.mem_iff_getElem?.1 hmem
        have hstep : ∃ s', componentStep s (.monitorCall n (Outcome.ok.over b)) = some s' := by
          simp only [componentStep, hn]
          exact ⟨_, rfl⟩
        obtain ⟨s', hs'⟩ := hstep
        exact ⟨.monitorCall n .ok, s', ⟨pc, hn, Bool.eq_false_iff.2 hpc⟩, hs'⟩
      · obtain ⟨c, hmem, hpc⟩ := List.all_eq_false.1 (Bool.eq_false_iff.2 hcalls)
        obtain ⟨n, hn⟩ := List.mem_iff_getElem?.1 hmem
        have hresult : c.result = none := Option.not_isSome_iff_eq_none.1 hpc
        by_cases hwait : c.waiting = true
        · -- its time limit passes
          have hstep : ∃ s', componentStep s (.wake n .timedOut) = some s' := by
            simp only [componentStep, wakeStep, hn, hwait, if_pos]
            exact ⟨_, rfl⟩
          obtain ⟨s', hs'⟩ := hstep
          exact ⟨.wake n .timedOut, s', WaitResult.noConfusion, hs'⟩
        · obtain ⟨s', hs'⟩ := call_enabled hn hresult (Bool.eq_false_iff.2 hwait) (.inl hmutex) true
            (Outcome.ok.over b)
          exact ⟨.call n true .ok, s', trivial, hs'⟩
    · obtain ⟨waiter, s', hs'⟩ := listener_enabled hbusy (.inl hmutex) (Outcome.ok.over b)
      exact ⟨.listener .ok waiter, s', trivial, hs'⟩
  · exact owner_enabled ho hmutex b

end Enabled

/-! ## §4. Rest. -/

section Rest

variable {s s' : Component} {cid : Nat}

/-- From a state in which the mutex has its owner. -/
theorem inevitable_of_owned (ho : s.Owned) :
    (componentMachine cid).Inevitable ComponentStep.Internal Component.Settled s := by
  refine Inevitable.of_measure Rank.less_wf Component.rank (I := Component.Owned) ?_ ?_ ho
  · intro s i s' ho _ hi hstep
    exact ⟨componentStep_owned hstep ho, internal_rank_less hi hstep⟩
  · intro s ho hrest
    obtain ⟨i, s', hi, hs'⟩ := internal_enabled ho hrest true
    exact ⟨i, s', hi, ComponentStep.over_true i ▸ hs'⟩

/-- **All comes to rest.**  Whatever was going on, and in whatever order the
threads go on, when nothing new comes in every request returns and the message
is handled. -/
theorem comes_to_rest (h : (componentMachine cid).Reachable s) :
    (componentMachine cid).Inevitable ComponentStep.Internal Component.Settled s :=
  inevitable_of_owned (owned_of_reachable h)

/-- At rest nothing goes on by itself. -/
theorem Component.Settled.stuck (h : s.Settled) {i : ComponentStep} (hi : i.Internal s) :
    componentStep s i = none := by
  obtain ⟨hrest, hidle⟩ := h
  obtain ⟨hcalls, hmonitors⟩ := Bool.and_eq_true_iff.1 hrest
  have hreturned : ∀ {n : Nat} {c : Call}, s.calls[n]? = some c → ∃ rtn, c.pc = .returned rtn := by
    intro n c hc
    obtain ⟨rtn, hrtn⟩ :=
      Option.isSome_iff_exists.1 (List.all_eq_true.1 hcalls c (List.mem_of_getElem? hc))
    exact ⟨rtn, Call.pc_of_result hrtn⟩
  cases i with
  | call n malloc o =>
      simp only [componentStep, callStep]
      cases hc : s.calls[n]? with
      | none => rfl
      | some c =>
          obtain ⟨rtn, hpc⟩ := hreturned hc
          simp only [hpc]
  | wake n result =>
      simp only [componentStep, wakeStep]
      cases hc : s.calls[n]? with
      | none => rfl
      | some c =>
          obtain ⟨rtn, hpc⟩ := hreturned hc
          simp [Call.waiting, hpc]
  | monitorCall n o =>
      obtain ⟨pc, hpc, hno⟩ := hi
      rw [List.all_eq_true.1 hmonitors pc (List.mem_of_getElem? hpc)] at hno
      cases hno
  | listener o waiter =>
      simp only [componentStep, listenerStep, hidle]
  | _ => exact hi.elim

/-- Nothing goes on for ever by itself. -/
theorem no_endless_run {state : Nat → Component} {label : Nat → ComponentStep}
    (h : (componentMachine cid).Reachable (state 0))
    (hinternal : ∀ n, ComponentStep.Internal (state n) (label n)) :
    ∃ n, componentStep (state n) (label n) ≠ some (state (n + 1)) := by
  by_contra hno
  have hall : ∀ n, componentStep (state n) (label n) = some (state (n + 1)) := by
    intro n
    by_contra hn
    exact hno ⟨n, hn⟩
  have hrest : (componentMachine cid).Inevitable ComponentStep.Internal Component.Settled (state 0) :=
    inevitable_of_owned (owned_of_reachable h)
  obtain ⟨n, hn⟩ := hrest.schedule state label rfl fun n => ⟨hinternal n, hall n⟩
  have hstuck := hall n
  rw [hn.stuck (hinternal n)] at hstuck
  cases hstuck

/-- Two threads that wait for the same flag. -/
def twoWaitersSteps : List ComponentStep :=
  requestSteps 0 (gatewayRequest .enable 1) ++ waitSteps 0 ++ requestSteps 1 (gatewayRequest .enable 2) ++
    waitSteps 1

theorem comes_to_rest_twoWaiters : ∃ s, (componentMachine 4).run (.start 4) twoWaitersSteps = some s ∧
    (componentMachine 4).Inevitable ComponentStep.Internal Component.Settled s :=
  ⟨_, rfl, comes_to_rest (Machine.reachable_of_run (.init rfl)
    (show (componentMachine 4).run (.start 4) twoWaitersSteps = some _ from rfl))⟩

end Rest

/-! ## §5. Requests that do not block. -/

section Nonblocking

variable {s s' : Component} {cid n : Nat}

/-- The step lemma: only a blocking call comes to the mutex. -/
theorem mutexBlocking_step {i : ComponentStep} (h : componentStep s i = some s')
    (hI : EveryCall MutexBlocking s) :
    EveryCall MutexBlocking s' := by
  cases i with
  | interact request callback =>
      cases h
      exact hI.append rfl (fun hm => (by cases hm)) fun _ _ _ hm => hm
  | call n malloc o =>
      obtain ⟨c, hc, hcs⟩ := callStep_cases h
      obtain ⟨c', hadv⟩ := callAdvance hcs
      refine hI.set hadv.calls (fun hm => ?_) fun _ _ _ _ hm => hm
      rw [Call.blocking_eq hadv.request]
      exact (hadv.mutex hm).elim (hI n c hc) id
  | wake n result =>
      obtain ⟨c, hc, hw, rfl⟩ := wakeStep_cases h
      exact hI.set rfl (fun _ => hI n c hc (by rw [Call.pc_of_waiting hw]; rfl)) fun _ _ _ _ hm => hm
  | interactMonitor t cb => cases h; exact hI
  | monitorCall n o =>
      obtain ⟨db, pcs, rfl⟩ := monitorCallStep_cases h
      exact hI
  | receipt rid result =>
      obtain ⟨_, l', rfl, _⟩ := receiptStep_cases h
      exact hI
  | update monId tableName row =>
      obtain ⟨_, rfl | ⟨_, _, _, _, _, ⟨_, l', _, rfl⟩ | ⟨_, rfl⟩⟩⟩ := updateStep_cases h
      · exact hI
      · exact hI
      · exact hI
  | listener o waiter =>
      cases listenerStep_cases h with
      | signalSkip _ _ => exact hI.feed rfl fun _ _ _ hm => hm
      | signalUnlock _ => exact hI.feed rfl fun _ _ _ hm => hm
      | @signalWakes a m c _ hc hw =>
          exact hI.set rfl (fun _ => hI m c hc (by rw [Call.pc_of_waiting hw]; rfl)) fun _ _ _ _ hm => hm
      | _ => exact hI

theorem mutexBlocking_of_reachable (h : (componentMachine cid).Reachable s) : EveryCall MutexBlocking s := by
  refine h.invariant (I := EveryCall MutexBlocking) ?_ ?_
  · intro s h0 m c hc
    have h0 : s = .start cid := h0
    subst h0
    have hc : ([] : List Call)[m]? = some c := hc
    rw [List.getElem?_nil] at hc
    cases hc
  · intro s i s' hI _ hstep
    exact mutexBlocking_step hstep hI

/-- The step is the next one of call `n`. -/
def ComponentStep.isCall (n : Nat) : ComponentStep → Bool
  | .call m _ _ => m == n
  | _ => false

/-- Away from the mutex every access of a call leaves it less to do. -/
theorem CallStep.own_rank {c : Call} {malloc : Bool} {o : Outcome} (hcs : CallStep s n c malloc o s')
    (haway : c.pc.atMutex = false) :
    ∃ c', s'.calls = s.calls.set n c' ∧ c'.pc.rank false < c.pc.rank false := by
  cases hcs with
  | @idGenerate hpc c' hc' =>
      refine ⟨_, rfl, ?_⟩
      rw [hpc]
      split
      · exact (by decide : 18 < 19)
      · exact Nat.lt_of_le_of_lt (write_rank c' none false).1 (by decide)
  | setBlocked hpc => exact ⟨_, rfl, by rw [hpc]; exact (by decide : 17 < 18)⟩
  | insertFails hpc hm => exact ⟨_, rfl, by rw [hpc]; exact (by decide : 0 < 17)⟩
  | @insert hpc hm c' hc' =>
      refine ⟨_, rfl, ?_⟩
      rw [hpc]
      exact Nat.lt_succ_of_le (write_rank c' (some .ovsAgentApiWriteCallback) false).1
  | ovsdbWrite hpc =>
      refine ⟨_, rfl, ?_⟩
      rw [hpc]
      exact dbStep_then (b := 8) (afterWrite_rank ..).1
  | clearBlocked hpc => exact ⟨_, rfl, by rw [hpc]; exact (by decide : 1 < 2)⟩
  | deleteTransaction hpc => exact ⟨_, rfl, by rw [hpc]; exact (by decide : 0 < 1)⟩
  | mutexLock hpc hm => rw [hpc] at haway; cases haway
  | loopWait hpc hb => rw [hpc] at haway; cases haway
  | loopExit hpc hb => rw [hpc] at haway; cases haway
  | relock hpc hm => rw [hpc] at haway; cases haway
  | signalled hpc => rw [hpc] at haway; cases haway
  | waitFailed hpc hr => rw [hpc] at haway; cases haway
  | unlockSuccess hpc => rw [hpc] at haway; cases haway
  | unlock hpc hs => rw [hpc] at haway; cases haway

/-- A call that another step leaves where it is. -/
theorem same_of_set {m : Nat} {c d : Call} (hc : s.calls[n]? = some c) (hcalls : s'.calls = s.calls.set m d)
    (hne : m ≠ n) : s'.calls[n]? = some c := by
  rw [hcalls, List.getElem?_set_ne hne]
  exact hc

/-- What a step does to a call that does not block. -/
theorem nonblocking_step {i : ComponentStep} {c : Call} (h : componentStep s i = some s')
    (hc : s.calls[n]? = some c) (hblk : c.blocking = false) (hI : EveryCall MutexBlocking s) :
    ∃ c', s'.calls[n]? = some c' ∧ c'.blocking = false ∧
      (i.isCall n).toNat + c'.pc.rank false ≤ c.pc.rank false := by
  have haway : c.pc.atMutex = false := by
    by_contra hat
    rw [hI n c hc (Bool.eq_true_of_not_eq_false hat)] at hblk
    cases hblk
  have hawake : ∀ {m : Nat} {d : Call}, s.calls[m]? = some d → d.waiting = true → m ≠ n := by
    intro m d hd hw hmn
    rw [hmn, hc] at hd
    cases hd
    rw [Call.pc_of_waiting hw] at haway
    cases haway
  have hsame : s'.calls[n]? = some c → i.isCall n = false → ∃ c', s'.calls[n]? = some c' ∧
      c'.blocking = false ∧
      (i.isCall n).toNat + c'.pc.rank false ≤ c.pc.rank false := by
    intro hc' hno
    refine ⟨c, hc', hblk, ?_⟩
    rw [hno, Bool.toNat_false, Nat.zero_add]
  cases i with
  | interact request callback =>
      cases h
      refine hsame ?_ rfl
      show (s.calls ++ [Call.start request callback])[n]? = some c
      rw [List.getElem?_append_left (List.getElem?_eq_some_iff.1 hc).1]
      exact hc
  | call m malloc o =>
      obtain ⟨d, hd, hcs⟩ := callStep_cases h
      by_cases hmn : m = n
      · subst hmn
        rw [hc] at hd
        cases hd
        obtain ⟨c', hcalls, hrank⟩ := hcs.own_rank haway
        obtain ⟨c'', hadv⟩ := callAdvance hcs
        have hc' : s'.calls[m]? = some c' := by
          rw [hcalls]
          exact List.getElem?_set_self (List.getElem?_eq_some_iff.1 hc).1
        have hsame : c' = c'' := by
          rw [hadv.calls, List.getElem?_set_self (List.getElem?_eq_some_iff.1 hc).1] at hc'
          exact (Option.some.inj hc').symm
        refine ⟨c', hc', ?_, ?_⟩
        · rw [hsame, Call.blocking_eq hadv.request]
          exact hblk
        · show (m == m).toNat + c'.pc.rank false ≤ c.pc.rank false
          rw [beq_self_eq_true, Bool.toNat_true]
          omega
      · obtain ⟨c', hadv⟩ := callAdvance hcs
        exact hsame (same_of_set hc hadv.calls hmn) (beq_eq_false_iff_ne.2 hmn)
  | wake m result =>
      obtain ⟨d, hd, hw, rfl⟩ := wakeStep_cases h
      exact hsame (same_of_set hc rfl (hawake hd hw)) rfl
  | interactMonitor t cb => cases h; exact hsame hc rfl
  | monitorCall m o =>
      obtain ⟨db, pcs, rfl⟩ := monitorCallStep_cases h
      exact hsame hc rfl
  | receipt rid result =>
      obtain ⟨_, l', rfl, _⟩ := receiptStep_cases h
      exact hsame hc rfl
  | update monId tableName row =>
      obtain ⟨_, rfl | ⟨_, _, _, _, _, ⟨_, l', _, rfl⟩ | ⟨_, rfl⟩⟩⟩ := updateStep_cases h
      · exact hsame hc rfl
      · exact hsame hc rfl
      · exact hsame hc rfl
  | listener o waiter =>
      have hfeed : ∀ {b : Component} {a : Nat}, b.calls = s.calls.map (Call.feed a) →
          ∃ c', b.calls[n]? = some c' ∧ c'.blocking = false ∧ false.toNat + c'.pc.rank false ≤
            c.pc.rank false := by
        intro b a hcalls
        refine ⟨c.feed a, ?_, hblk, Nat.le_of_eq (Nat.zero_add _)⟩
        rw [hcalls, List.getElem?_map, hc]
        rfl
      cases listenerStep_cases h with
      | signalSkip _ _ => exact hfeed rfl
      | signalUnlock _ => exact hfeed rfl
      | signalWakes _ hd hw => exact hsame (same_of_set hc rfl (hawake hd hw)) rfl
      | _ => exact hsame hc rfl

/-- **A request that does not block never waits.**  Whatever the other threads
do, it can always take its next step, and it returns after a number of its own
steps that is fixed when it begins. -/
theorem nonblocking_never_waits {c : Call} (is : List ComponentStep)
    (h : (componentMachine cid).Reachable s) (hc : s.calls[n]? = some c) (hblk : c.blocking = false)
    (hrun : (componentMachine cid).run s is = some s') :
    ∃ c', s'.calls[n]? = some c' ∧ is.countP (ComponentStep.isCall n) + c'.pc.rank false ≤
      c.pc.rank false ∧
      (c'.result = none → ∀ malloc o, ∃ s'', componentStep s' (.call n malloc o) = some s'') := by
  induction is generalizing s c with
  | nil =>
      cases hrun
      refine ⟨c, hc, Nat.le_of_eq (Nat.zero_add _), fun hresult malloc o => ?_⟩
      have hat := mutexBlocking_of_reachable h n c hc
      have haway : c.pc.atMutex = false := by
        by_contra hno
        rw [hat (Bool.eq_true_of_not_eq_false hno)] at hblk
        cases hblk
      refine call_enabled hc hresult ?_ (.inr ⟨fun hpc => ?_, fun r hpc => ?_⟩) malloc o
      · by_contra hw
        rw [Call.pc_of_waiting (Bool.eq_true_of_not_eq_false hw)] at haway
        cases haway
      · rw [hpc] at haway; cases haway
      · rw [hpc] at haway; cases haway
  | cons i is ih =>
      rw [Machine.run_cons] at hrun
      obtain ⟨t, hstep, hrest⟩ := Option.bind_eq_some_iff.1 hrun
      obtain ⟨c₁, hc₁, hblk₁, hless⟩ :=
        nonblocking_step hstep hc hblk (mutexBlocking_of_reachable h)
      obtain ⟨c', hc', hcount, henabled⟩ := ih (h.step trivial hstep) hc₁ hblk₁ hrest
      refine ⟨c', hc', ?_, henabled⟩
      rw [List.countP_cons]
      cases hi : i.isCall n with
      | false =>
          rw [hi, Bool.toNat_false] at hless
          simp only [Bool.false_eq_true, if_false]
          omega
      | true =>
          rw [hi, Bool.toNat_true] at hless
          simp only [if_true]
          omega

/-- A request without block mode that is at its write. -/
def atWriteSteps : List ComponentStep :=
  .interact (gatewayRequest .disable 1) (some (.client 0)) :: List.replicate 3 (.call 0 true .ok)

theorem nonblocking_never_waits_atWrite :
    ∃ s s' c, (componentMachine 4).run (.start 4) atWriteSteps = some s ∧ s.calls[0]? = some c ∧
      (componentMachine 4).run s (List.replicate 2 (.call 0 true .ok)) = some s' ∧
      ∃ c', s'.calls[0]? = some c' ∧ 2 + c'.pc.rank false ≤ c.pc.rank false ∧
        (c'.result = none → ∀ malloc o, ∃ s'', componentStep s' (.call 0 malloc o) = some s'') :=
  ⟨_, _, _, rfl, rfl, rfl, nonblocking_never_waits (List.replicate 2 (.call 0 true .ok))
    (Machine.reachable_of_run (.init rfl)
      (show (componentMachine 4).run (.start 4) atWriteSteps = some _ from rfl)) rfl rfl rfl⟩

end Nonblocking

end OvsAgent
