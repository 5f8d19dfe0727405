/-
  OvsAgent.AgentApi.Evictions — how a pending transaction leaves the table.

  All requests of a process draw their ids from one counter: a monitor request
  two, each of the two deletes after a Feedback one.  Two pending transactions
  can therefore have ids with one remainder modulo 5 long before the table is
  full, and the later one takes the slot of the earlier.  The cleanup of a
  failed request deletes by slot as well.

  Main result: `no_silent_drop_iff` — along every run, no pending transaction
  is dropped exactly when every insertion finds its slot free (or the table
  full) and every cleanup finds its own transaction or none.
-/
import OvsAgent.AgentApi.ComponentSteps

namespace OvsAgent

open CString (ofString utoa atou)

/-! ## §1. Leaving the table. -/

/-- The number of live transactions. -/
def TransactionManager.live (m : TransactionManager) : Nat :=
  (List.finRange maxTableSize).countP fun key => (m.table.elements key).isSome

/-- The numeric value of the call's `rid`. -/
def Call.id (c : Call) : Nat := atou (utoa c.rid)

/-- Its completion is in the log, and its callback, if it has one, was called. -/
def CompletedIn (e : TransactionEntry) (m : TransactionManager) : Prop :=
  ∃ st, .completed e.addr st ∈ m.log ∧
    ∀ cb, e.callback = some cb → .invoked e.addr cb st e.tableConfig ∈ m.log

/-- The step is the cleanup of a request with this entry's id. -/
def DeletedByOwn (e : TransactionEntry) (s : Component) (i : ComponentStep) : Prop :=
  ∃ n malloc o c, i = .call n malloc o ∧ s.calls[n]? = some c ∧ c.pc = .deleteTransaction ∧
    e.id = c.id

/-- The step is an insertion into a full table. -/
def InsertedFull (s : Component) (i : ComponentStep) : Prop :=
  ∃ n malloc o c, i = .call n malloc o ∧ s.calls[n]? = some c ∧ c.pc = .insertTransaction ∧
    maxTableSize ≤ s.manager.live

/-- The law of one step: a live entry that is live no more has been completed,
or deleted for its own request, or evicted from a full table. -/
def NoSilentDrop (s : Component) (i : ComponentStep) (s' : Component) : Prop :=
  ∀ e, s.manager.table.Mem e → (∀ e', s'.manager.table.Mem e' → e'.addr ≠ e.addr) →
    CompletedIn e s'.manager ∨ DeletedByOwn e s i ∨ InsertedFull s i

/-- The condition of one step: an insertion finds its slot free or the table
full, a cleanup finds its own transaction or none. -/
def KeepsOthers (s : Component) : ComponentStep → Prop
  | .call n malloc _ => ∀ c, s.calls[n]? = some c →
      (c.pc = .insertTransaction → malloc = true →
        maxTableSize ≤ s.manager.live ∨ s.manager.table.elements (hashCode c.id) = none) ∧
      (c.pc = .deleteTransaction → ∀ e, s.manager.table.elements (hashCode c.id) = some e →
        e.id = c.id)
  | _ => True

/-- Every live entry stays live, perhaps with another uuid. -/
def Survive (m m' : TransactionManager) : Prop :=
  ∀ e, m.table.Mem e → ∃ e', m'.table.Mem e' ∧ e'.addr = e.addr

theorem survive_of_eq {m m' : TransactionManager} (h : m'.table = m.table) : Survive m m' := by
  intro e he
  exact ⟨e, by rw [h]; exact he, rfl⟩

theorem survive_update (rid uuid : CString) (m : TransactionManager) :
    Survive m (updateTransaction (some rid) (some uuid) m).2 := by
  cases hk : m.table.elements (hashCode (atou rid)) with
  | none => rw [updateTransaction_of_free hk]; exact survive_of_eq rfl
  | some e₁ =>
      rw [updateTransaction_of_some hk]
      intro e he
      by_cases hslot : hashCode e.id = hashCode e₁.id
      · have heq : e = e₁ := SlotTable.mem_unique he (SlotTable.mem_of_elements hk) hslot
        exact ⟨e₁.withUuid uuid, SlotTable.mem_put.2 (Or.inl rfl), by rw [heq]; rfl⟩
      · exact ⟨e, SlotTable.mem_put.2 (Or.inr ⟨hslot, he⟩), rfl⟩

theorem noSilentDrop_of_survive {s s' : Component} {i : ComponentStep}
    (h : Survive s.manager s'.manager) : NoSilentDrop s i s' := by
  intro e he hgone
  obtain ⟨e', he', ha⟩ := h e he
  exact absurd ha (hgone e' he')

/-! ## §2. The step that drops. -/

section Drop

variable {cid : Nat} {s : Component}

/-- A live entry has not been completed. -/
theorem not_completed_of_live (h : (componentMachine cid).Reachable s) {e : TransactionEntry}
    (he : s.manager.table.Mem e) {st : Int} : .completed e.addr st ∉ s.manager.log := by
  intro hmem
  obtain ⟨e₀, _, hl⟩ := ((balanced_of_component h).ledger.account e.addr).live e he rfl
  have hlife : TransactionEvent.completed e.addr st ∈ life e.addr s.manager.log :=
    KeyedLog.mem_history.2 ⟨hmem, rfl⟩
  have hl : life e.addr s.manager.log = [.inserted e₀] := hl
  rw [hl] at hlife
  cases List.mem_singleton.1 hlife

/-- What a dropped slot held is live no more and has not been completed. -/
theorem dropSlot_drops (h : (componentMachine cid).Reachable s) {key : Fin maxTableSize}
    {e : TransactionEntry} (he : s.manager.table.elements key = some e) :
    (∀ e', (dropSlot key s.manager).table.Mem e' → e'.addr ≠ e.addr) ∧
      ∀ st, .completed e.addr st ∉ (dropSlot key s.manager).log := by
  have hm := SlotTable.mem_of_elements he
  have hb : Ledger s.manager s.listener.running := (balanced_of_component h).ledger
  rw [dropSlot_of_some he, ← hashCode_of_elements he]
  refine ⟨fun e' he' => ((hb.clear_iff hm).1 he').2, fun st hst => ?_⟩
  rcases List.mem_append.1 hst with hst | hst
  · exact not_completed_of_live h hm hst
  · rcases mem_frees.1 hst with ⟨_, _, heq⟩ | heq
    · cases heq
    · cases heq

/-- The law and the condition of a cleanup. -/
theorem delete_iff (h : (componentMachine cid).Reachable s) {n : Nat} {malloc : Bool} {o : Outcome}
    {c c' : Call} (hc : s.calls[n]? = some c) (hpc : c.pc = .deleteTransaction) :
    NoSilentDrop s (.call n malloc o) ({ s with
        manager := (deleteTransaction (some (utoa c.rid)) s.manager).2 }.setCall n c')
      ↔ KeepsOthers s (.call n malloc o) := by
  constructor
  · intro hlaw c₁ hc₁
    rw [hc] at hc₁
    cases hc₁
    -- what is in the slot is dropped, and the law then says whose it is
    refine ⟨fun hpc' => (by rw [hpc] at hpc'; cases hpc'), fun _ e he => ?_⟩
    obtain ⟨hgone, hnot⟩ := dropSlot_drops h he
    rcases hlaw e (SlotTable.mem_of_elements he) hgone with ⟨st, hst, _⟩ | hown | hfull
    · exact absurd hst (hnot st)
    · obtain ⟨_, _, _, c₂, heq, hc₂, _, hid⟩ := hown
      cases heq
      rw [hc] at hc₂
      cases hc₂
      exact hid
    · obtain ⟨_, _, _, c₂, heq, hc₂, hpc₂, _⟩ := hfull
      cases heq
      rw [hc] at hc₂
      cases hc₂
      rw [hpc] at hpc₂
      cases hpc₂
  · intro hcond e he hgone
    by_cases hslot : hashCode e.id = hashCode c.id
    · have he' : s.manager.table.elements (hashCode c.id) = some e := hslot ▸ he
      exact Or.inr (Or.inl ⟨n, malloc, o, c, rfl, hc, hpc, (hcond c hc).2 hpc e he'⟩)
    · refine absurd rfl (hgone e ?_)
      show (dropSlot (hashCode c.id) s.manager).table.elements (hashCode e.id) = some e
      rw [dropSlot_elements, if_neg hslot]
      exact he

/-- The law and the condition of an insertion. -/
theorem insert_iff (h : (componentMachine cid).Reachable s) {n : Nat} {o : Outcome} {c c' : Call}
    (hc : s.calls[n]? = some c) (hpc : c.pc = .insertTransaction) :
    NoSilentDrop s (.call n true o) ({ s with
        manager := (insertTransaction true (some (utoa c.rid)) c.callback
          (some c.request.tableConfig) s.manager).2 }.setCall n c')
      ↔ KeepsOthers s (.call n true o) := by
  let e₁ := createTransaction (atou (utoa c.rid)) c.callback c.request.tableConfig s.manager
  have hins := congrArg Prod.snd
    (insertTransaction_eq (utoa c.rid) c.callback c.request.tableConfig s.manager)
  rw [hins]
  constructor
  · intro hlaw c₁ hc₁
    rw [hc] at hc₁
    cases hc₁
    refine ⟨fun _ _ => ?_, fun hpc' => (by rw [hpc] at hpc'; cases hpc')⟩
    cases hk : s.manager.table.elements (hashCode c.id) with
    | none => exact Or.inr rfl
    | some e =>
        left
        -- the slot is taken: its entry is gone after the insertion
        have hm := SlotTable.mem_of_elements hk
        obtain ⟨hgone, hnot⟩ := dropSlot_drops h hk
        have hlt : e.addr < s.manager.mallocs := by
          obtain ⟨e₀, _, hl⟩ := ((balanced_of_component h).ledger.account e.addr).live e hm rfl
          exact (balanced_of_component h).ledger.lt_mallocs (by rw [hl]; exact List.cons_ne_nil _ _)
        have hgone' : ∀ e', ((dropSlot (hashCode c.id) s.manager).table.put e₁).Mem e' →
            e'.addr ≠ e.addr := by
          intro e' he'
          rcases SlotTable.mem_put.1 he' with rfl | ⟨_, hm'⟩
          · exact Nat.ne_of_gt hlt
          · exact hgone e' hm'
        rcases hlaw e hm hgone' with ⟨st, hst, _⟩ | hown | hfull
        · rcases List.mem_append.1 hst with hst | hst
          · exact absurd hst (hnot st)
          · cases List.mem_singleton.1 hst
        · obtain ⟨_, _, _, c₂, heq, hc₂, hpc₂, _⟩ := hown
          cases heq
          rw [hc] at hc₂
          cases hc₂
          rw [hpc] at hpc₂
          cases hpc₂
        · obtain ⟨_, _, _, _, _, _, _, hlive⟩ := hfull
          exact hlive
  · intro hcond e he hgone
    rcases (hcond c hc).1 hpc rfl with hfull | hfree
    · exact Or.inr (Or.inr ⟨n, true, o, c, rfl, hc, hpc, hfull⟩)
    · have hslot : hashCode e.id ≠ hashCode c.id := by
        intro hk
        have he' : s.manager.table.elements (hashCode c.id) = some e := hk ▸ he
        rw [hfree] at he'
        cases he'
      refine absurd rfl (hgone e (SlotTable.mem_put.2 (Or.inr ⟨hslot, ?_⟩)))
      show (dropSlot (hashCode c.id) s.manager).table.elements (hashCode e.id) = some e
      rw [dropSlot_elements, if_neg hslot]
      exact he

/-- A completion drops nothing but what it completes. -/
theorem completion_keeps {i : ComponentStep}
    {s' : Component} {uuid : CString} {status : Int} {e' : TransactionEntry} {m : TransactionManager}
    (ht : takeTransaction (some uuid) status s.manager = some (e', m))
    (htable : s'.manager.table = m.table) (hlog : m.log ⊆ s'.manager.log) : NoSilentDrop s i s' := by
  obtain ⟨u, e₁, _, hm, _, rfl, rfl⟩ := takeTransaction_some ht
  intro e he hgone
  by_cases hslot : hashCode e.id = hashCode e₁.id
  · left
    have heq : e = e₁ := SlotTable.mem_unique he hm hslot
    subst heq
    refine ⟨status, hlog (List.mem_append_right _ (mem_completion.2 (Or.inl rfl))), fun cb hcb => ?_⟩
    exact hlog (List.mem_append_right _ (mem_completion.2 (Or.inr ⟨cb, hcb, rfl⟩)))
  · refine absurd rfl (hgone e ?_)
    rw [htable]
    exact SlotTable.mem_clear.2 ⟨hslot, he⟩

/-- The law and the condition agree on every step from a reachable state. -/
theorem noSilentDrop_step_iff {s' : Component} {i : ComponentStep}
    (h : (componentMachine cid).Reachable s) (hstep : (componentMachine cid).step s i = some s') :
    NoSilentDrop s i s' ↔ KeepsOthers s i := by
  have hstep : componentStep s i = some s' := hstep
  cases i with
  | call n malloc o =>
      obtain ⟨c, hc, hcs⟩ := callStep_cases hstep
      cases hcs with
      | insert hpc hm _ => subst hm; exact insert_iff h hc hpc
      | deleteTransaction hpc => exact delete_iff h hc hpc
      | insertFails hpc hm =>
          refine iff_of_true (noSilentDrop_of_survive (survive_of_eq rfl)) fun c₁ hc₁ => ?_
          rw [hc] at hc₁
          cases hc₁
          exact ⟨fun _ ht => (by rw [hm] at ht; cases ht), fun hd => (by rw [hpc] at hd; cases hd)⟩
      | _ hpc =>
          -- the other accesses of a call leave the table alone
          refine iff_of_true (noSilentDrop_of_survive (survive_of_eq rfl)) fun c₁ hc₁ => ?_
          rw [hc] at hc₁
          cases hc₁
          exact ⟨fun hi => (by rw [hpc] at hi; cases hi), fun hd => (by rw [hpc] at hd; cases hd)⟩
  | interact request callback =>
      cases hstep
      exact iff_of_true (noSilentDrop_of_survive (survive_of_eq rfl)) trivial
  | wake n result =>
      obtain ⟨c, _, _, rfl⟩ := wakeStep_cases hstep
      exact iff_of_true (noSilentDrop_of_survive (survive_of_eq rfl)) trivial
  | interactMonitor t cb =>
      cases hstep
      exact iff_of_true (noSilentDrop_of_survive (survive_of_eq rfl)) trivial
  | monitorCall n o =>
      obtain ⟨db, pcs, rfl⟩ := monitorCallStep_cases hstep
      exact iff_of_true (noSilentDrop_of_survive (survive_of_eq rfl)) trivial
  | receipt rid result =>
      obtain ⟨_, l', rfl, _⟩ := receiptStep_cases hstep
      exact iff_of_true (noSilentDrop_of_survive (survive_of_eq rfl)) trivial
  | update monId tableName row =>
      refine iff_of_true ?_ trivial
      obtain ⟨_, rfl | ⟨uuid, st, e, m, ht, ⟨_, l', _, rfl⟩ | ⟨_, rfl⟩⟩⟩ :=
        updateStep_cases hstep
      · exact noSilentDrop_of_survive (survive_of_eq rfl)
      · exact completion_keeps ht rfl (List.subset_append_left _ _)
      · exact completion_keeps ht rfl (List.Subset.refl _)
  | listener o waiter =>
      refine iff_of_true (noSilentDrop_of_survive ?_) trivial
      cases listenerStep_cases hstep with
      | updateTransaction _ _ => exact survive_update _ _ _
      | _ => exact survive_of_eq rfl

end Drop

/-! ## §3. Along runs. -/

/-- **No pending transaction is silently dropped.**  From any reachable state,
every live transaction that leaves the table during a run is completed, deleted
by its own request or evicted from a full table, if and only if every
insertion and every cleanup of the run meets the condition. -/
theorem no_silent_drop_iff {cid : Nat} {s : Component} (h : (componentMachine cid).Reachable s)
    (is : List ComponentStep) :
    (componentMachine cid).AllSteps NoSilentDrop s is
      ↔ (componentMachine cid).AllSteps (fun s i _ => KeepsOthers s i) s is :=
  Machine.allSteps_iff (fun _ _ _ hr hstep => noSilentDrop_step_iff hr hstep) is s h

theorem no_silent_drop_iff_first :
    (componentMachine 1).AllSteps NoSilentDrop (.start 1) (requestSteps 0 (gatewayRequest .disable 100))
      ↔ (componentMachine 1).AllSteps (fun s i _ => KeepsOthers s i) (.start 1)
          (requestSteps 0 (gatewayRequest .disable 100)) :=
  no_silent_drop_iff (.init rfl) _

/-- Request 1001 is pending, two monitor requests have taken four ids, and
request 1006 is about to be inserted. -/
def onePendingSteps : List ComponentStep :=
  requestSteps 0 (gatewayRequest .disable 100) ++
    (.interactMonitor .feedback (some (.client 1)) :: List.replicate 5 (.monitorCall 0 .ok)) ++
    (.interactMonitor .gwConfig (some (.client 2)) :: List.replicate 5 (.monitorCall 1 .ok)) ++
    [.interact (gatewayRequest .disable 101) (some (.client 3)), .call 1 true .ok, .call 1 true .ok]

/-- It takes the slot of request 1001. -/
theorem insert1006_drops_1001 :
    ¬ (componentMachine 1).AllSteps NoSilentDrop (.start 1)
        (onePendingSteps ++ [.call 1 true .ok]) := by
  have hrun : ((componentMachine 1).run (.start 1) onePendingSteps).any (fun t =>
      (t.calls[1]?).any (fun c => (match c.pc with | .insertTransaction => true | _ => false) &&
          decide (c.id = 1006)) &&
        (t.manager.table.elements 1).isSome && decide (t.manager.live = 1) &&
        (componentStep t (.call 1 true .ok)).isSome) = true := by
    decide +kernel
  obtain ⟨t, ht, hcheck⟩ := (Option.any_eq_true _ _).1 hrun
  simp only [Bool.and_eq_true, decide_eq_true_eq] at hcheck
  obtain ⟨⟨⟨hcall, hheld⟩, hlive⟩, hstep⟩ := hcheck
  obtain ⟨c, hc, hpc⟩ := (Option.any_eq_true _ _).1 hcall
  simp only [Bool.and_eq_true, decide_eq_true_eq] at hpc
  obtain ⟨hpc, hid⟩ := hpc
  obtain ⟨t', ht'⟩ := Option.isSome_iff_exists.1 hstep
  have ht' : (componentMachine 1).step t (.call 1 true .ok) = some t' := ht'
  have hr : (componentMachine 1).Reachable t := Machine.reachable_of_run (.init rfl) ht
  refine Machine.not_allSteps_of_run ht ht' ?_
  rw [noSilentDrop_step_iff hr ht']
  intro hcond
  have hpc' : c.pc = .insertTransaction := by
    cases h : c.pc with
    | insertTransaction => rfl
    | _ => rw [h] at hpc; cases hpc
  rcases (hcond c hc).1 hpc' rfl with hfull | hfree
  · rw [hlive] at hfull
    exact absurd hfull (by decide)
  · have hslot : hashCode c.id = 1 := by rw [hid]; decide
    rw [hslot] at hfree
    rw [hfree] at hheld
    cases hheld

end OvsAgent
