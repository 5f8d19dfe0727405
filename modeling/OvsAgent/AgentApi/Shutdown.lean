/-
  OvsAgent.AgentApi.Shutdown — `ovs_agent_api_deinit` returns.

  Once `g_terminate` is set the client waits for the thread of `ovsdb_listen`,
  which may be in the middle of a message, and in a callback whose requests wait
  in their turn.  Nothing of this lasts for ever: the thread comes back to the
  test of its loop, finds the flag, and ends.  What has begun is followed to its
  end; a message that the thread has yet to look at, a new request of a callback
  and a wake-up for no reason are steps of their own, and nothing bounds them.

  Main result: `deinit_returns` — from the join on, the return is inevitable.
-/
import OvsAgent.AgentApi.Progress
import OvsAgent.AgentApi.Sessions

namespace OvsAgent

open CString (ofString)
open Machine (Inevitable Rank sum_map_set)

/-! ## §1. What holds while the client waits. -/

/-- The client is in `deinit`, before the end of the join. -/
def ClientPc.ending : ClientPc → Bool
  | .cancelMonitor => true
  | .setTerminate => true
  | .join => true
  | _ => false

/-- The mutex has its owner, and from the join on the thread has been told to end. -/
structure ApiProcess.Ending (s : ApiProcess) : Prop where
  owned : s.client.ending = true → s.component.Owned
  terminate : s.client = .join → s.terminate = true

section Ending

variable {s s' : ApiProcess}

theorem clientStep_ending {c : Choice} (h : clientStep s c = some s') (he : s.Ending) : s'.Ending := by
  have howned := he.owned
  unfold clientStep at h
  cases hpc : s.client with
  | cancelMonitor =>
      simp only [hpc] at h
      cases h
      exact ⟨fun _ => (howned (by rw [hpc]; rfl)).same rfl rfl rfl,
        fun hjoin => ClientPc.noConfusion hjoin⟩
  | setTerminate =>
      simp only [hpc] at h
      cases h
      exact ⟨fun _ => howned (by rw [hpc]; rfl), fun _ => rfl⟩
  | openLog cid =>
      simp only [hpc] at h
      split at h
      · split at h
        · cases h
          exact ⟨fun hno => (Bool.false_ne_true hno).elim, fun hjoin => ClientPc.noConfusion hjoin⟩
        · cases h
          exact ⟨fun hno => (Bool.false_ne_true hno).elim, fun hjoin => ClientPc.noConfusion hjoin⟩
      · cases h
  | _ =>
      simp only [hpc] at h
      (repeat' split at h) <;> cases h <;>
        exact ⟨fun hno => (Bool.false_ne_true hno).elim, fun hjoin => ClientPc.noConfusion hjoin⟩

theorem OtherEffect.ending {i : ApiStep} (h : OtherEffect s i s') (hk : s.Kept) (he : s.Ending) :
    s'.Ending := by
  cases h with
  | openLog malloc opened path name hidle hgives => exact ⟨he.owned, he.terminate⟩
  | closeLog hidle => exact ⟨he.owned, he.terminate⟩
  | returned i rtn hidle =>
      exact ⟨fun hno => (Bool.false_ne_true hno).elim, fun hjoin => ClientPc.noConfusion hjoin⟩
  | init cid malloc hidle hdown =>
      exact ⟨fun hno => (Bool.false_ne_true hno).elim, fun hjoin => ClientPc.noConfusion hjoin⟩
  | deinit hidle hup =>
      obtain ⟨cid, hreach⟩ := hk.reachable hidle hup
      exact ⟨fun _ => owned_of_reachable hreach, fun hjoin => ClientPc.noConfusion hjoin⟩
  | request i a hwhen hc => exact ⟨fun hend => componentStep_owned hc (he.owned hend), he.terminate⟩
  | logTest level logging hlogger => exact ⟨he.owned, he.terminate⟩
  | logWrite malloc logging => exact ⟨he.owned, he.terminate⟩

theorem ThreadEffect.terminate {n : Nat} (h : ThreadEffect s n s') : s'.terminate = s.terminate := by
  cases h <;> rfl

theorem apiStep_ending {i : ApiStep} (h : apiStep s i = some s') (hk : s.Kept) (he : s.Ending) :
    s'.Ending := by
  obtain ⟨c, hc⟩ | ⟨n, ht⟩ | hother := apiStep_cases h
  · exact clientStep_ending hc he
  · obtain ⟨hclient, _, _, hcomp, _⟩ := ht.frame
    exact ⟨fun hend => by rw [hcomp]; exact he.owned (hclient ▸ hend),
      fun hjoin => ht.terminate.trans (he.terminate (hclient ▸ hjoin))⟩
  · exact hother.ending hk he

/-- The invariants of the process. -/
structure ApiProcess.Sound (s : ApiProcess) : Prop where
  ordered : s.Ordered
  kept : s.Kept
  ending : s.Ending

theorem apiStep_sound {i : ApiStep} (h : apiStep s i = some s') (hs : s.Sound) : s'.Sound :=
  ⟨apiStep_ordered h hs.ordered, apiStep_kept h hs.ordered hs.kept, apiStep_ending h hs.kept hs.ending⟩

/-- The run lemma. -/
theorem sound_of_reachable (h : apiMachine.Reachable s) : s.Sound := by
  refine h.invariant (I := ApiProcess.Sound) ?_ ?_
  · intro s h0
    have h0 : s = .start := h0
    subst h0
    exact ⟨ordered_start, kept_start, fun hno => (Bool.false_ne_true hno).elim,
      fun hjoin => ClientPc.noConfusion hjoin⟩
  · intro s i s' hI _ hstep
    exact apiStep_sound hstep hI

end Ending

/-! ## §2. What is left to do. -/

/-- How much of `deinit` is left from the join on; 0 elsewhere. -/
def ClientPc.rank : ClientPc → Nat
  | .join => 8
  | .clearMonitors => 7
  | .clearReceipts => 6
  | .deinitManager => 5
  | .condDestroy true => 4
  | .mutexDestroy true => 3
  | .closeLog true => 2
  | .freeHandle true => 1
  | _ => 0

/-- How much is left of a thread that finds `g_terminate` set. -/
def ThreadPc.rank : ThreadPc → Nat
  | .listen => 6
  | .parse => 5
  | .test => 4
  | .close => 3
  | .forget => 2
  | .exited => 0
  | .joined => 0

/-- The client's place, then the component, then the threads. -/
def ApiProcess.rank (s : ApiProcess) : Nat × Rank × Nat :=
  (s.client.rank, s.component.rank, (s.threads.map ThreadPc.rank).sum)

/-- The order of these ranks. -/
def ApiProcess.Less : Nat × Rank × Nat → Nat × Rank × Nat → Prop :=
  Prod.Lex (· < ·) (Prod.Lex Rank.Less (· < ·))

theorem ApiProcess.less_wf : WellFounded ApiProcess.Less :=
  (Prod.lex Nat.lt_wfRel (Prod.lex ⟨Rank.Less, Rank.less_wf⟩ Nat.lt_wfRel)).wf

/-- Steps that take what has begun further: no reply or row of an update is
taken up, no request made, no wait ended for no reason, and no line logged. -/
def ApiStep.Internal (s : ApiProcess) : ApiStep → Prop
  | .client _ => True
  | .thread .. => True
  | .request i => i.Internal s.component
  | _ => False

/-- `deinit` has returned. -/
structure ApiProcess.Ended (s : ApiProcess) : Prop where
  idle : s.client = .idle
  down : s.handle = false
  result : s.result = some true

section Lower

variable {s s' : ApiProcess}

/-- Each access of `deinit` leaves less of it. -/
theorem clientStep_rank {c : Choice} (h : clientStep s c = some s') (hleaving : 0 < s.client.rank) :
    s'.client.rank < s.client.rank ∧ (0 < s'.client.rank ∨ s'.Ended) := by
  unfold clientStep at h
  cases hpc : s.client with
  | join =>
      simp only [hpc] at h
      split at h
      · cases h
      · cases h; exact ⟨(by decide : 7 < 8), .inl (by decide : 0 < 7)⟩
  | clearMonitors => simp only [hpc] at h; cases h; exact ⟨(by decide : 6 < 7), .inl (by decide : 0 < 6)⟩
  | clearReceipts => simp only [hpc] at h; cases h; exact ⟨(by decide : 5 < 6), .inl (by decide : 0 < 5)⟩
  | deinitManager =>
      simp only [hpc] at h
      split at h
      · cases h; exact ⟨(by decide : 4 < 5), .inl (by decide : 0 < 4)⟩
      · cases h; exact ⟨(by decide : 4 < 5), .inl (by decide : 0 < 4)⟩
  | condDestroy rtn =>
      cases rtn with
      | true => simp only [hpc] at h; cases h; exact ⟨(by decide : 3 < 4), .inl (by decide : 0 < 3)⟩
      | false => rw [hpc] at hleaving; cases hleaving
  | mutexDestroy rtn =>
      cases rtn with
      | true => simp only [hpc] at h; cases h; exact ⟨(by decide : 2 < 3), .inl (by decide : 0 < 2)⟩
      | false => rw [hpc] at hleaving; cases hleaving
  | closeLog rtn =>
      cases rtn with
      | true => simp only [hpc] at h; cases h; exact ⟨(by decide : 1 < 2), .inl (by decide : 0 < 1)⟩
      | false => rw [hpc] at hleaving; cases hleaving
  | freeHandle rtn =>
      cases rtn with
      | true => simp only [hpc] at h; cases h; exact ⟨(by decide : 0 < 1), .inr ⟨rfl, rfl, rfl⟩⟩
      | false => rw [hpc] at hleaving; cases hleaving
  | _ => rw [hpc] at hleaving; cases hleaving

/-- Each access of a thread that has been told to end leaves less of it. -/
theorem threadStep_rank {n : Nat} {r : ListenResult} (h : threadStep s n r = some s')
    (hterm : s.terminate = true) :
    (s'.threads.map ThreadPc.rank).sum < (s.threads.map ThreadPc.rank).sum := by
  have hset : ∀ {pc pc' : ThreadPc}, s.threads[n]? = some pc → pc'.rank < pc.rank →
      ((s.threads.set n pc').map ThreadPc.rank).sum < (s.threads.map ThreadPc.rank).sum := by
    intro pc pc' hpc hless
    have hsum := sum_map_set ThreadPc.rank pc' hpc
    omega
  unfold threadStep at h
  split at h
  · next hpc =>
      rw [hterm, if_pos rfl] at h
      cases h
      exact hset hpc (by decide)
  · next hpc =>
      cases h
      refine hset hpc ?_
      cases r <;> decide
  · next hpc =>
      split at h
      · cases h; exact hset hpc (by decide)
      · cases h
  · next hpc => cases h; exact hset hpc (by decide)
  · next hpc => cases h; exact hset hpc (by decide)
  · cases h

/-- Past the join no thread runs, and nothing is requested. -/
theorem ApiProcess.Ordered.unattended (ho : s.Ordered) (hleaving : 0 < s.client.rank)
    (hjoin : s.client ≠ .join) :
    s.attended = false ∧ s.serves = false := by
  have hcases : s.client.apart = true ∧ s.serves = false := by
    unfold ApiProcess.serves
    cases hpc : s.client with
    | join => exact absurd hpc hjoin
    | clearMonitors => exact ⟨rfl, rfl⟩
    | clearReceipts => exact ⟨rfl, rfl⟩
    | deinitManager => exact ⟨rfl, rfl⟩
    | condDestroy rtn => cases rtn <;> first | exact ⟨rfl, rfl⟩ | (rw [hpc] at hleaving; cases hleaving)
    | mutexDestroy rtn => cases rtn <;> first | exact ⟨rfl, rfl⟩ | (rw [hpc] at hleaving; cases hleaving)
    | closeLog rtn => cases rtn <;> first | exact ⟨rfl, rfl⟩ | (rw [hpc] at hleaving; cases hleaving)
    | freeHandle rtn => cases rtn <;> first | exact ⟨rfl, rfl⟩ | (rw [hpc] at hleaving; cases hleaving)
    | _ => rw [hpc] at hleaving; cases hleaving
  refine ⟨?_, hcases.2⟩
  unfold ApiProcess.attended
  rw [ho.linked.apart hcases.1]
  rfl

theorem ComponentStep.internal_over {a : Component} {i : ComponentStep} {b : Bool} (h : i.Internal a) :
    (i.over b).Internal a := by
  cases i <;> exact h

end Lower

/-! ## §3. The return. -/

section Return

variable {s s' : ApiProcess}

/-- A step from the join on lowers the rank. -/
theorem internal_less {i : ApiStep} (hi : i.Internal s) (h : apiStep s i = some s') (hs : s.Sound)
    (hleaving : 0 < s.client.rank) :
    ApiProcess.Less s'.rank s.rank ∧ (0 < s'.client.rank ∨ s'.Ended) := by
  -- what a thread or a request does, it does during the join
  have hjoin : s.attended = true ∨ s.serves = true → s.client = .join := by
    intro hsome
    by_contra hno
    obtain ⟨hoff, hidle⟩ := hs.ordered.unattended hleaving hno
    rw [hoff, hidle] at hsome
    rcases hsome with h | h <;> cases h
  cases i with
  | client c =>
      obtain ⟨hless, hnext⟩ := clientStep_rank h hleaving
      exact ⟨.left _ _ hless, hnext⟩
  | thread n r =>
      have ht := threadStep_effect h
      obtain ⟨hclient, _, _, hcomp, _⟩ := ht.frame
      obtain ⟨pc, _, hpc, hrun, _, _⟩ := ht.goes
      obtain ⟨_, hon⟩ := (hs.ordered.oneThread.each n pc hpc).1 hrun
      have hsum := threadStep_rank h (hs.ending.terminate (hjoin (.inl hon)))
      refine ⟨?_, .inl (hclient ▸ hleaving)⟩
      show ApiProcess.Less (s'.client.rank, s'.component.rank, _) (s.client.rank, s.component.rank, _)
      rw [hclient, hcomp]
      exact .right _ (.right _ hsum)
  | request i =>
      simp only [apiStep, requestStep] at h
      split at h
      · obtain ⟨a, ha, rfl⟩ := Option.map_eq_some_iff.1 h
        exact ⟨.right _ (.left _ _ (internal_rank_less (ComponentStep.internal_over hi) ha)),
          .inl hleaving⟩
      · cases h
  | _ => exact hi.elim

/-- The client goes on by itself, but for the join. -/
theorem client_enabled (hleaving : 0 < s.client.rank)
    (hjoin : s.client ≠ .join ∨ (s.threads[s.listenThread]?.map ThreadPc.running).getD false = false)
    (c : Choice) :
    ∃ s', clientStep s c = some s' := by
  simp only [clientStep]
  cases hpc : s.client with
  | join =>
      rcases hjoin with hno | hstopped
      · exact absurd hpc hno
      · rw [hstopped]
        exact ⟨_, rfl⟩
  | clearMonitors => exact ⟨_, rfl⟩
  | clearReceipts => exact ⟨_, rfl⟩
  | deinitManager =>
      dsimp only
      split
      · exact ⟨_, rfl⟩
      · exact ⟨_, rfl⟩
  | condDestroy rtn => exact ⟨_, rfl⟩
  | mutexDestroy rtn => exact ⟨_, rfl⟩
  | closeLog rtn => exact ⟨_, rfl⟩
  | freeHandle rtn => exact ⟨_, rfl⟩
  | _ => rw [hpc] at hleaving; cases hleaving

/-- The client can go on, or its thread can, or what the thread handles. -/
theorem internal_possible (hs : s.Sound) (hleaving : 0 < s.client.rank) :
    ∃ i s', ApiStep.Internal s i ∧ apiStep s i = some s' := by
  by_cases hjoin : s.client = .join
  · by_cases hrun : (s.threads[s.listenThread]?.map ThreadPc.running).getD false = true
    · cases hpc : s.threads[s.listenThread]? with
      | none => rw [hpc] at hrun; cases hrun
      | some pc =>
          have hthread : ∀ r, (∃ s', threadStep s s.listenThread r = some s') →
              ∃ i s', ApiStep.Internal s i ∧ apiStep s i = some s' := by
            intro r hstep
            obtain ⟨s', hs'⟩ := hstep
            exact ⟨.thread s.listenThread r, s', trivial, hs'⟩
          cases pc with
          | parse =>
              have hparse : s.threads.contains .parse = true :=
                List.contains_iff_mem.2 (List.mem_of_getElem? hpc)
              by_cases hsettled : s.component.Settled
              · refine hthread .nothing ?_
                simp only [threadStep, hpc, hsettled.1, hsettled.2, Bool.or_true]
                exact ⟨_, rfl⟩
              · obtain ⟨i, a, hi, ha⟩ :=
                  internal_enabled (hs.ending.owned (by rw [hjoin]; rfl)) hsettled s.connected
                have hpermits : s.permits i = true := by
                  unfold ApiProcess.permits ApiProcess.serves
                  rw [hjoin]
                  split
                  · exact hparse
                  · exact hparse
                have hstep : ∃ s', apiStep s (.request i) = some s' := by
                  simp only [apiStep, requestStep, hpermits, if_pos, ha]
                  exact ⟨_, rfl⟩
                obtain ⟨s', hs'⟩ := hstep
                exact ⟨.request i, s', hi, hs'⟩
          | exited => rw [hpc] at hrun; cases hrun
          | joined => rw [hpc] at hrun; cases hrun
          | _ =>
              refine hthread .nothing ?_
              simp only [threadStep, hpc]
              exact ⟨_, rfl⟩
    · obtain ⟨s', hs'⟩ := client_enabled hleaving (.inr (Bool.eq_false_iff.2 hrun)) (.well 0 0)
      exact ⟨.client (.well 0 0), s', trivial, hs'⟩
  · obtain ⟨s', hs'⟩ := client_enabled hleaving (.inl hjoin) (.well 0 0)
    exact ⟨.client (.well 0 0), s', trivial, hs'⟩

/-- **`deinit` returns.**  Once it has set `g_terminate`, nothing that the thread
or its callbacks have begun keeps it, whatever the order of the internal steps:
there is one until it returns, and they do not go on for ever. -/
theorem deinit_returns (h : apiMachine.Reachable s) (hjoin : s.client = .join) :
    apiMachine.Inevitable ApiStep.Internal ApiProcess.Ended s := by
  refine Inevitable.of_measure ApiProcess.less_wf ApiProcess.rank
    (I := fun s => s.Sound ∧ (0 < s.client.rank ∨ s.Ended)) ?_ ?_ ⟨sound_of_reachable h,
      .inl (by rw [hjoin]; decide)⟩
  · intro s i s' hI hno hi hstep
    obtain ⟨hs, hleaving | hended⟩ := hI
    · obtain ⟨hless, hnext⟩ := internal_less hi hstep hs hleaving
      exact ⟨⟨apiStep_sound hstep hs, hnext⟩, hless⟩
    · exact absurd hended hno
  · intro s hI hno
    obtain ⟨hs, hleaving | hended⟩ := hI
    · exact internal_possible hs hleaving
    · exact absurd hended hno

/-- The reply to request 4001, the monitor request 4002 it leads to, and the row
that completes the transaction. -/
def answeredSteps : List ComponentStep :=
  firstReceiptSteps (ofString "4001") firstUuid ++
    [.update (ofString "4002") feedbackTableName (feedbackRow firstUuid)]

/-- `deinit` is called while the thread runs the callback of a completed request;
the callback then makes a request of its own. -/
def busyDeinitSteps : List ApiStep :=
  initSteps .meshAgent 3 4 ++ (requestSteps 0 (gatewayRequest .disable 1)).map ApiStep.request ++
    [.thread 0 .nothing, .thread 0 .data] ++ answeredSteps.map ApiStep.request ++ [.deinit] ++
      List.replicate 2 (.client (.well 3 4)) ++
    ((requestSteps 1 (gatewayRequest .disable 2)).take 3).map ApiStep.request

theorem deinit_returns_busy :
    (∃ e, (ApiProcess.after busyDeinitSteps).component.listener = .callback e firstUuid) ∧
    (ApiProcess.after busyDeinitSteps).component.atRest = false ∧
    apiMachine.Inevitable ApiStep.Internal ApiProcess.Ended (ApiProcess.after busyDeinitSteps) := by
  have hreach : apiMachine.Reachable (ApiProcess.after busyDeinitSteps) :=
    ApiProcess.reachable_after (by decide +kernel)
  exact ⟨⟨_, rfl⟩, by decide +kernel, deinit_returns hreach (by decide +kernel)⟩

end Return

end OvsAgent
