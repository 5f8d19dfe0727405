/-
  OvsAgent.AgentApi.Accounting — what becomes of every inserted transaction.

  The log says what was done to an entry; its history (`life`) is the part of
  the log about one address.  `Ledger` says which histories are possible:

      live         [inserted]
      in progress  [inserted, completed, invoked]
      gone         [inserted, (configFreed), freed]
                   [inserted, completed, (invoked), (configFreed), freed]

  A call of the manager either extends one history by one of these steps or
  leaves all of them alone, so `Ledger` is an invariant of every run; the
  counts the main result `accounting` speaks of are read off it.
-/
import OvsAgent.AgentApi.ManagerRuns
import OvsAgent.Lib.KeyedLog

namespace OvsAgent

open CString (ofString strncpy atou)
open KeyedLog

/-! ## §1. Histories. -/

/-- The entry an event of an entry's life is about; recording a uuid is not one. -/
def TransactionEvent.lifeKey : TransactionEvent → Option Nat
  | uuidRecorded _ _ => none
  | ev => some ev.addr

/-- The life of the entry at address `a`. -/
abbrev life (a : Nat) (log : List TransactionEvent) : List TransactionEvent :=
  history TransactionEvent.lifeKey a log

/-- `e` is the transaction that was inserted as `e₀`. -/
structure TransactionEntry.Same (e₀ e : TransactionEntry) : Prop where
  addr : e.addr = e₀.addr
  id : e.id = e₀.id
  callback : e.callback = e₀.callback
  tableConfig : e.tableConfig = e₀.tableConfig

theorem TransactionEntry.Same.rfl {e : TransactionEntry} : e.Same e :=
  ⟨Eq.refl _, Eq.refl _, Eq.refl _, Eq.refl _⟩

theorem TransactionEntry.Same.trans {e₀ e e' : TransactionEntry} (h : e₀.Same e) (h' : e.Same e') :
    e₀.Same e' :=
  ⟨h'.addr.trans h.addr, h'.id.trans h.id, h'.callback.trans h.callback,
    h'.tableConfig.trans h.tableConfig⟩

theorem TransactionEntry.Same.frees {e₀ e : TransactionEntry} (h : e₀.Same e) :
    e.frees = e₀.frees := by
  unfold TransactionEntry.frees
  rw [h.addr, h.tableConfig]

theorem TransactionEntry.Same.completion {e₀ e : TransactionEntry} (h : e₀.Same e) (st : Int) :
    e.completion st = e₀.completion st := by
  unfold TransactionEntry.completion
  rw [h.addr, h.callback, h.tableConfig]

theorem mem_frees {e : TransactionEntry} {ev : TransactionEvent} :
    ev ∈ e.frees ↔ (∃ c, e.tableConfig.configAddr = some c ∧ ev = .configFreed e.addr c)
      ∨ ev = .freed e.addr := by
  unfold TransactionEntry.frees
  rw [List.mem_append, List.mem_singleton, Option.mem_toList, Option.map_eq_some_iff]
  simp only [eq_comm]

theorem mem_completion {e : TransactionEntry} {st : Int} {ev : TransactionEvent} :
    ev ∈ e.completion st ↔ ev = .completed e.addr st
      ∨ ∃ cb, e.callback = some cb ∧ ev = .invoked e.addr cb st e.tableConfig := by
  unfold TransactionEntry.completion
  rw [List.mem_cons, Option.mem_toList, Option.map_eq_some_iff]
  simp only [eq_comm]

theorem lifeKey_frees {e : TransactionEntry} : ∀ ev ∈ e.frees, ev.lifeKey = some e.addr := by
  intro ev hev
  rcases mem_frees.1 hev with ⟨c, _, rfl⟩ | rfl
  · rfl
  · rfl

theorem lifeKey_completion {e : TransactionEntry} {st : Int} :
    ∀ ev ∈ e.completion st, ev.lifeKey = some e.addr := by
  intro ev hev
  rcases mem_completion.1 hev with rfl | ⟨cb, _, rfl⟩
  · rfl
  · rfl

/-! ## §2. The ledger. -/

/-- The life of a transaction that is gone. -/
def Gone (e₀ : TransactionEntry) (l : List TransactionEvent) : Prop :=
  l = .inserted e₀ :: e₀.frees ∨ ∃ st, l = .inserted e₀ :: (e₀.completion st ++ e₀.frees)

/-- The life of the entry at address `a`, by what holds it: a slot, a
completion, or nothing. -/
structure Account (m : TransactionManager) (running : List TransactionEntry) (a : Nat) : Prop where
  live : ∀ e, m.table.Mem e → e.addr = a →
    ∃ e₀ : TransactionEntry, e₀.Same e ∧ life a m.log = [.inserted e₀]
  inProgress : ∀ r ∈ running, r.addr = a → ∃ (e₀ : TransactionEntry) (st : Int), e₀.Same r ∧
    e₀.callback.isSome ∧ life a m.log = .inserted e₀ :: e₀.completion st
  gone : (∀ e, m.table.Mem e → e.addr ≠ a) → (∀ r ∈ running, r.addr ≠ a) →
    life a m.log = [] ∨ ∃ e₀ : TransactionEntry, e₀.addr = a ∧ Gone e₀ (life a m.log)
  fresh : m.mallocs ≤ a → life a m.log = []

/-- Every address has its account, and no completion is open twice. -/
structure Ledger (m : TransactionManager) (running : List TransactionEntry) : Prop where
  account : ∀ a, Account m running a
  nodup : (running.map TransactionEntry.addr).Nodup

/-- The frame rule: an account whose life and holders are as before stays in order. -/
theorem Account.frame {m m' : TransactionManager} {running running' : List TransactionEntry}
    {a : Nat} (h : Account m running a) (hlife : life a m'.log = life a m.log)
    (hmallocs : m.mallocs ≤ m'.mallocs)
    (hlive : ∀ e, e.addr = a → (m'.table.Mem e ↔ m.table.Mem e))
    (hrun : ∀ r, r.addr = a → (r ∈ running' ↔ r ∈ running)) : Account m' running' a := by
  constructor
  · intro e he ha
    rw [hlife]
    exact h.live e ((hlive e ha).1 he) ha
  · intro r hr ha
    rw [hlife]
    exact h.inProgress r ((hrun r ha).1 hr) ha
  · intro hl hr
    rw [hlife]
    refine h.gone (fun e he ha => ?_) (fun r hr' ha => ?_)
    · exact hl e ((hlive e ha).2 he) ha
    · exact hr r ((hrun r ha).2 hr') ha
  · intro ha
    rw [hlife]
    exact h.fresh (le_trans hmallocs ha)

theorem life_other {a a' : Nat} {log b : List TransactionEvent}
    (hb : ∀ ev ∈ b, ev.lifeKey = some a) (ha : a' ≠ a) : life a' (log ++ b) = life a' log := by
  apply history_append_other
  intro ev hev hk
  rw [hb ev hev] at hk
  exact ha (Option.some.inj hk).symm

section Ledger

variable {m : TransactionManager} {running : List TransactionEntry}

/-- No two slots hold one entry. -/
theorem Ledger.live_unique (h : Ledger m running) {e e' : TransactionEntry}
    (he : m.table.Mem e) (he' : m.table.Mem e') (ha : e.addr = e'.addr) : e = e' := by
  obtain ⟨e₀, hs, hl⟩ := (h.account e'.addr).live e he ha
  obtain ⟨e₁, hs', hl'⟩ := (h.account e'.addr).live e' he' rfl
  rw [hl] at hl'
  cases hl'
  exact SlotTable.mem_unique he he' (by rw [hs.id, hs'.id])

/-- An entry in a slot is in no completion. -/
theorem Ledger.live_not_running (h : Ledger m running) {e r : TransactionEntry}
    (he : m.table.Mem e) (hr : r ∈ running) : r.addr ≠ e.addr := by
  intro ha
  obtain ⟨e₀, _, hl⟩ := (h.account e.addr).live e he rfl
  obtain ⟨e₁, st, _, _, hl'⟩ := (h.account e.addr).inProgress r hr ha
  rw [hl] at hl'
  unfold TransactionEntry.completion at hl'
  cases hl'

/-- An entry with a life was allocated. -/
theorem Ledger.lt_mallocs (h : Ledger m running) {a : Nat} (hl : life a m.log ≠ []) :
    a < m.mallocs := by
  by_contra hlt
  exact hl ((h.account a).fresh (not_lt.1 hlt))

/-- What the table still holds after a slot was freed. -/
theorem Ledger.clear_iff (h : Ledger m running) {e : TransactionEntry} (he : m.table.Mem e)
    {e' : TransactionEntry} :
    (m.table.clear (hashCode e.id)).Mem e' ↔ m.table.Mem e' ∧ e'.addr ≠ e.addr := by
  rw [SlotTable.mem_clear]
  constructor
  · intro ⟨hk, hm⟩
    refine ⟨hm, fun ha => hk ?_⟩
    rw [h.live_unique hm he ha]
  · intro ⟨hm, ha⟩
    refine ⟨fun hk => ha ?_, hm⟩
    rw [SlotTable.mem_unique hm he hk]

/-- An entry leaves its slot and its life goes on with `b`; the account of its
own address is all there is to check. -/
theorem Ledger.leave (h : Ledger m running) {e : TransactionEntry} (he : m.table.Mem e)
    {b : List TransactionEvent} (hb : ∀ ev ∈ b, ev.lifeKey = some e.addr)
    {running' : List TransactionEntry}
    (hrun : ∀ r, r.addr ≠ e.addr → (r ∈ running' ↔ r ∈ running))
    (hnodup : (running'.map TransactionEntry.addr).Nodup)
    (hin : ∀ e₀ : TransactionEntry, e₀.Same e → ∀ r ∈ running', r.addr = e.addr →
      e₀.Same r ∧ e₀.callback.isSome ∧ ∃ st, b = e₀.completion st)
    (hout : ∀ e₀ : TransactionEntry, e₀.Same e → (∀ r ∈ running', r.addr ≠ e.addr) →
      Gone e₀ (.inserted e₀ :: b)) :
    Ledger { m with table := m.table.clear (hashCode e.id), log := m.log ++ b } running' := by
  obtain ⟨e₀, hs, hl⟩ := (h.account e.addr).live e he rfl
  have hown : life e.addr (m.log ++ b) = .inserted e₀ :: b := by
    have happ : life e.addr (m.log ++ b) = life e.addr m.log ++ b := history_append_own hb
    rw [happ, hl]; rfl
  refine ⟨fun a => ?_, hnodup⟩
  by_cases ha : a = e.addr
  · subst ha
    constructor
    · intro e' he' ha'
      exact absurd ha' ((h.clear_iff he).1 he').2
    · intro r hr ha'
      obtain ⟨hsr, hcb, st, hst⟩ := hin e₀ hs r hr ha'
      exact ⟨e₀, st, hsr, hcb, by rw [hown, hst]⟩
    · intro _ hr
      exact Or.inr ⟨e₀, hs.addr.symm, by rw [hown]; exact hout e₀ hs hr⟩
    · intro hlt
      have := h.lt_mallocs (a := e.addr) (by rw [hl]; exact List.cons_ne_nil _ _)
      exact absurd hlt (not_le.2 this)
  · refine (h.account a).frame (life_other hb ha) le_rfl (fun e' ha' => ?_) fun r ha' => ?_
    · rw [h.clear_iff he]
      exact and_iff_left (ha' ▸ ha)
    · exact hrun r (ha' ▸ ha)

/-- An entry leaves its slot and is destroyed at the end of `b`. -/
theorem Ledger.destroy (h : Ledger m running) {e : TransactionEntry} (he : m.table.Mem e)
    {b : List TransactionEvent} (hb : ∀ ev ∈ b, ev.lifeKey = some e.addr)
    (hgone : ∀ e₀ : TransactionEntry, e₀.Same e → Gone e₀ (.inserted e₀ :: b)) :
    Ledger { m with table := m.table.clear (hashCode e.id), log := m.log ++ b } running :=
  h.leave he hb (fun _ _ => Iff.rfl) h.nodup
    (fun _ _ _ hr ha => absurd ha (h.live_not_running he hr)) fun e₀ hs _ => hgone e₀ hs

/-- An entry leaves its slot for its callback. -/
theorem Ledger.complete (h : Ledger m running) {e e' : TransactionEntry} (he : m.table.Mem e)
    (hcb : e.callback.isSome) (he' : e.Same e') (st : Int) :
    Ledger { m with table := m.table.clear (hashCode e.id), log := m.log ++ e.completion st }
      (e' :: running) := by
  refine h.leave he lifeKey_completion (fun r ha => ?_) ?_ (fun e₀ hs r hr ha => ?_) fun e₀ _ hr => ?_
  · rw [List.mem_cons]
    exact or_iff_right fun hr => ha (hr ▸ he'.addr)
  · rw [List.map_cons, List.nodup_cons]
    refine ⟨fun hmem => ?_, h.nodup⟩
    obtain ⟨r, hr, hra⟩ := List.mem_map.1 hmem
    exact h.live_not_running he hr (hra.trans he'.addr)
  · rcases List.mem_cons.1 hr with rfl | hr
    · exact ⟨hs.trans he', hs.callback ▸ hcb, st, hs.completion st⟩
    · exact absurd ha (h.live_not_running he hr)
  · exact absurd he'.addr (hr e' (List.mem_cons_self ..))

/-- The innermost callback returns and its entry is destroyed. -/
theorem Ledger.callbackReturns {r : TransactionEntry} (h : Ledger m (r :: running)) :
    Ledger (destroyTransaction r m) running := by
  have hmem : r ∈ r :: running := List.mem_cons_self ..
  obtain ⟨e₀, st, hs, _, hl⟩ := (h.account r.addr).inProgress r hmem rfl
  have hnodup := h.nodup
  rw [List.map_cons, List.nodup_cons] at hnodup
  have hne : ∀ r' ∈ running, r'.addr ≠ r.addr := fun r' hr' ha =>
    hnodup.1 (List.mem_map.2 ⟨r', hr', ha⟩)
  refine ⟨fun a => ?_, hnodup.2⟩
  by_cases ha : a = r.addr
  · subst ha
    have hown : life r.addr (m.log ++ r.frees) = .inserted e₀ :: (e₀.completion st ++ e₀.frees) := by
      have happ : life r.addr (m.log ++ r.frees) = life r.addr m.log ++ r.frees :=
        history_append_own lifeKey_frees
      rw [happ, hl, hs.frees]; rfl
    constructor
    · intro e he ha
      exact absurd ha.symm (h.live_not_running he hmem)
    · intro r' hr' ha
      exact absurd ha (hne r' hr')
    · intro _ _
      exact Or.inr ⟨e₀, hs.addr.symm, Or.inr ⟨st, hown⟩⟩
    · intro hlt
      have := h.lt_mallocs (a := r.addr) (by rw [hl]; exact List.cons_ne_nil _ _)
      exact absurd hlt (not_le.2 this)
  · refine (h.account a).frame (life_other lifeKey_frees ha) le_rfl (fun _ _ => Iff.rfl) fun r' ha' => ?_
    rw [List.mem_cons]
    exact (or_iff_right fun hr => ha (by rw [← ha', hr])).symm

theorem Ledger.dropSlot (h : Ledger m running) (key : Fin maxTableSize) :
    Ledger (dropSlot key m) running := by
  cases hk : m.table.elements key with
  | none => rw [dropSlot_of_free hk]; exact h
  | some e =>
      rw [dropSlot_of_some hk, ← hashCode_of_elements hk]
      refine h.destroy (SlotTable.mem_of_elements hk) lifeKey_frees fun e₀ hs => Or.inl ?_
      rw [hs.frees]

/-- A fresh entry goes into a free slot. -/
theorem Ledger.put (h : Ledger m running) {e : TransactionEntry} (ha : e.addr = m.mallocs)
    (hfree : m.table.elements (hashCode e.id) = none) :
    Ledger { m with
      table := m.table.put e, mallocs := m.mallocs + 1, log := m.log ++ [.inserted e] } running := by
  have hb : ∀ ev ∈ [TransactionEvent.inserted e], ev.lifeKey = some e.addr := by
    intro ev hev
    rw [List.mem_singleton.1 hev]; rfl
  -- the address has never been used before
  have hnil : life e.addr m.log = [] := (h.account e.addr).fresh (le_of_eq ha.symm)
  refine ⟨fun a => ?_, h.nodup⟩
  by_cases hae : a = e.addr
  · subst hae
    constructor
    · intro e' he' ha'
      rcases SlotTable.mem_put.1 he' with rfl | ⟨_, hm⟩
      · refine ⟨e', .rfl, ?_⟩
        have happ : life e'.addr (m.log ++ [.inserted e']) = life e'.addr m.log ++ [.inserted e'] :=
          history_append_own hb
        rw [happ, hnil]; rfl
      · obtain ⟨e₀, _, hl⟩ := (h.account e.addr).live e' hm ha'
        rw [hnil] at hl
        cases hl
    · intro r hr ha'
      obtain ⟨e₀, st, _, _, hl⟩ := (h.account e.addr).inProgress r hr ha'
      rw [hnil] at hl
      cases hl
    · intro hlive _
      exact absurd rfl (hlive e (SlotTable.mem_put.2 (Or.inl rfl)))
    · intro hle
      have hle' : m.mallocs + 1 ≤ e.addr := hle
      omega
  · refine (h.account a).frame (life_other hb hae) (Nat.le_succ _) (fun e' ha' => ?_) fun _ _ => Iff.rfl
    rw [SlotTable.mem_put]
    constructor
    · intro hm
      rcases hm with rfl | ⟨_, hm⟩
      · exact absurd ha'.symm hae
      · exact hm
    · intro hm
      -- an entry of the same slot would have been there before
      refine Or.inr ⟨fun hk => ?_, hm⟩
      have hm' : m.table.elements (hashCode e.id) = some e' := hk ▸ hm
      rw [hfree] at hm'
      cases hm'

/-- A uuid is recorded: no life changes. -/
theorem Ledger.withUuid (h : Ledger m running) {e : TransactionEntry} (he : m.table.Mem e)
    (u : CString) :
    Ledger { m with
      table := m.table.put (e.withUuid u), log := m.log ++ [.uuidRecorded e.addr u] } running := by
  have hlog : ∀ a, life a (m.log ++ [.uuidRecorded e.addr u]) = life a m.log := by
    intro a
    apply history_append_other
    intro ev hev hk
    rw [List.mem_singleton.1 hev] at hk
    cases hk
  refine ⟨fun a => ?_, h.nodup⟩
  by_cases ha : a = e.addr
  · subst ha
    constructor
    · intro e' he' ha'
      show ∃ e₀ : TransactionEntry, e₀.Same e' ∧ life e.addr (m.log ++ _) = _
      rw [hlog]
      rcases SlotTable.mem_put.1 he' with rfl | ⟨_, hm⟩
      · obtain ⟨e₀, hs, hl⟩ := (h.account e.addr).live e he rfl
        exact ⟨e₀, ⟨hs.addr, hs.id, hs.callback, hs.tableConfig⟩, hl⟩
      · exact (h.account e.addr).live e' hm ha'
    · intro r hr ha'
      exact absurd ha' (h.live_not_running he hr)
    · intro hlive _
      exact absurd rfl (hlive (e.withUuid u) (SlotTable.mem_put.2 (Or.inl rfl)))
    · intro hle
      show life e.addr (m.log ++ _) = []
      rw [hlog]
      exact (h.account e.addr).fresh hle
  · refine (h.account a).frame (hlog a) le_rfl (fun e' ha' => ?_) fun _ _ => Iff.rfl
    rw [SlotTable.mem_put]
    constructor
    · intro hm
      rcases hm with rfl | ⟨_, hm⟩
      · exact absurd ha'.symm ha
      · exact hm
    · intro hm
      refine Or.inr ⟨fun hk => ?_, hm⟩
      exact ha (by rw [← ha', SlotTable.mem_unique hm he hk])

end Ledger

/-! ## §3. The ledger along runs. -/

/-- A live entry's uuid is the empty one it was created with, or one that was
recorded for it. -/
def Recorded (m : TransactionManager) : Prop :=
  ∀ e, m.table.Mem e → e.uuid = [] ∨
    ∃ u, .uuidRecorded e.addr u ∈ m.log ∧ e.uuid = strncpy maxUuidLen u

/-- Entries only leave, and the log only grows. -/
theorem Recorded.shrink {m m' : TransactionManager} (h : Recorded m)
    (hlive : ∀ e, m'.table.Mem e → m.table.Mem e) (hlog : m.log ⊆ m'.log) : Recorded m' := by
  intro e he
  rcases h e (hlive e he) with hnil | ⟨u, hu, heq⟩
  · exact Or.inl hnil
  · exact Or.inr ⟨u, hlog hu, heq⟩

theorem Recorded.clear {m : TransactionManager} (h : Recorded m) (key : Fin maxTableSize)
    (b : List TransactionEvent) :
    Recorded { m with table := m.table.clear key, log := m.log ++ b } :=
  h.shrink (fun _ he => (SlotTable.mem_clear.1 he).2) (List.subset_append_left _ _)

theorem Recorded.dropSlot {m : TransactionManager} (h : Recorded m) (key : Fin maxTableSize) :
    Recorded (dropSlot key m) := by
  cases hk : m.table.elements key with
  | none => rw [dropSlot_of_free hk]; exact h
  | some e => rw [dropSlot_of_some hk]; exact h.clear key e.frees

/-- The invariant of the machine. -/
structure Balanced (s : ManagerState) : Prop where
  ledger : Ledger s.manager s.running
  recorded : Recorded s.manager
  closed : s.initialized = false → ∀ i, s.manager.table.elements i = none

/-- Dropping the slots of a list one after the other. -/
theorem dropSlots (keys : List (Fin maxTableSize)) :
    ∀ {m : TransactionManager} {running : List TransactionEntry}, Ledger m running → Recorded m →
      Ledger (keys.foldl (fun m key => dropSlot key m) m) running ∧
        Recorded (keys.foldl (fun m key => dropSlot key m) m) ∧
        ∀ i, (keys.foldl (fun m key => dropSlot key m) m).table.elements i
          = if i ∈ keys then none else m.table.elements i := by
  induction keys with
  | nil =>
      intro m running h hr
      exact ⟨h, hr, fun i => rfl⟩
  | cons key keys ih =>
      intro m running h hr
      obtain ⟨h', hr', he⟩ := ih (h.dropSlot key) (hr.dropSlot key)
      refine ⟨h', hr', fun i => ?_⟩
      rw [List.foldl_cons, he, dropSlot_elements]
      by_cases hi : i = key
      · simp [hi]
      · simp [hi]

section Balanced

variable {s s' : ManagerState} {e : TransactionEntry} {m : TransactionManager}

theorem Balanced.insert (h : Balanced s) (rid : CString) (callback : Option OvsInteractCb)
    (tc : RdkbTableConfig) (hi : s.initialized = true) :
    Balanced { s with manager := (insertTransaction true (some rid) callback (some tc) s.manager).2 } := by
  let e := createTransaction (atou rid) callback tc s.manager
  let m₁ := OvsAgent.dropSlot (hashCode e.id) s.manager
  have hfree : m₁.table.elements (hashCode e.id) = none := by
    rw [dropSlot_elements, if_pos rfl]
  have ha : e.addr = m₁.mallocs := (dropSlot_mallocs _ _).symm
  rw [insertTransaction_eq rid callback tc s.manager]
  refine ⟨(h.ledger.dropSlot _).put ha hfree, ?_, fun hn => ?_⟩
  · intro e' he'
    rcases SlotTable.mem_put.1 he' with rfl | ⟨_, hm⟩
    · exact Or.inl rfl
    · rcases h.recorded.dropSlot _ e' hm with hnil | ⟨u, hu, heq⟩
      · exact Or.inl hnil
      · exact Or.inr ⟨u, List.mem_append_left _ hu, heq⟩
  · exact absurd (hi.symm.trans hn) Bool.noConfusion

theorem Balanced.update (h : Balanced s) {rid uuid : CString} (hi : s.initialized = true)
    (hk : s.manager.table.elements (hashCode (atou rid)) = some e) :
    Balanced { s with manager := (updateTransaction (some rid) (some uuid) s.manager).2 } := by
  rw [updateTransaction_of_some hk]
  refine ⟨h.ledger.withUuid (SlotTable.mem_of_elements hk) uuid, ?_, fun hn => ?_⟩
  · intro e' he'
    rcases SlotTable.mem_put.1 he' with rfl | ⟨_, hm⟩
    · exact Or.inr ⟨uuid, List.mem_append_right _ (List.mem_singleton.2 rfl), rfl⟩
    · rcases h.recorded e' hm with hnil | ⟨u, hu, heq⟩
      · exact Or.inl hnil
      · exact Or.inr ⟨u, List.mem_append_left _ hu, heq⟩
  · exact absurd (hi.symm.trans hn) Bool.noConfusion

/-- A completion without a callback: the entry is destroyed at once. -/
theorem Balanced.destroys (h : Balanced s) {uuid : Option CString} {status : Int} (hi : s.initialized = true)
    (ht : takeTransaction uuid status s.manager = some (e, m)) (hcb : e.callback = none) :
    Balanced { s with manager := destroyTransaction e m } := by
  obtain ⟨u, e₁, _, hm, _, rfl, rfl⟩ := takeTransaction_some ht
  have hs : destroyTransaction { e₁ with status := status, state := .complete }
      { s.manager with
        table := s.manager.table.clear (hashCode e₁.id), log := s.manager.log ++ e₁.completion status }
      = { s.manager with
        table := s.manager.table.clear (hashCode e₁.id)
        log := s.manager.log ++ (e₁.completion status ++ e₁.frees) } := by
    rw [← List.append_assoc]
    rfl
  have hb : ∀ ev ∈ e₁.completion status ++ e₁.frees, ev.lifeKey = some e₁.addr := by
    intro ev hev
    rcases List.mem_append.1 hev with hev | hev
    · exact lifeKey_completion ev hev
    · exact lifeKey_frees ev hev
  rw [hs]
  refine ⟨h.ledger.destroy hm hb fun e₀ hs => Or.inr ⟨status, ?_⟩, h.recorded.clear _ _,
    fun hn => absurd (hi.symm.trans hn) Bool.noConfusion⟩
  rw [hs.completion, hs.frees]

/-- A completion with a callback: the entry is out of the table while it runs. -/
theorem Balanced.calls (h : Balanced s) {uuid : Option CString} {status : Int} (hi : s.initialized = true)
    (ht : takeTransaction uuid status s.manager = some (e, m)) (hcb : e.callback.isSome) :
    Balanced { s with manager := m, running := e :: s.running } := by
  obtain ⟨u, e₁, _, hm, _, rfl, rfl⟩ := takeTransaction_some ht
  have hsame : e₁.Same { e₁ with status := status, state := .complete } := ⟨rfl, rfl, rfl, rfl⟩
  exact ⟨h.ledger.complete hm hcb hsame status, h.recorded.clear _ _,
    fun hn => absurd (hi.symm.trans hn) Bool.noConfusion⟩

/-- The step lemma. -/
theorem Balanced.step {i : ManagerCall} (h : Balanced s) (hstep : managerMachine.step s i = some s') :
    Balanced s' := by
  cases managerStep_cases hstep with
  | same => exact h
  | opens hi =>
      -- an uninitialised manager has nothing in its table
      have hempty : s.manager.table = .empty := SlotTable.ext (funext (h.closed hi))
      rw [← hempty]
      exact ⟨h.ledger, h.recorded, fun _ => h.closed hi⟩
  | closes =>
      obtain ⟨hl, hr, he⟩ := dropSlots (List.finRange maxTableSize) h.ledger h.recorded
      refine ⟨hl, hr, fun _ i => ?_⟩
      show (deinitTransactionManager s.manager).table.elements i = none
      unfold deinitTransactionManager
      rw [he, if_pos (List.mem_finRange i)]
  | inserts hi _ => exact h.insert _ _ _ hi
  | records hi _ hk => exact h.update hi hk
  | drops key hi =>
      exact ⟨h.ledger.dropSlot key, h.recorded.dropSlot key,
        fun hn => absurd (hi.symm.trans hn) Bool.noConfusion⟩
  | destroys hi ht hcb => exact h.destroys hi ht hcb
  | calls hi ht hcb => exact h.calls hi ht hcb
  | returns hr =>
      exact ⟨(hr ▸ h.ledger).callbackReturns,
        h.recorded.shrink (fun _ he => he) (List.subset_append_left _ _), h.closed⟩

end Balanced

theorem balanced_start : Balanced .start := by
  refine ⟨⟨fun a => ⟨fun e he => ?_, fun r hr => ?_, fun _ _ => Or.inl rfl, fun _ => rfl⟩,
    List.nodup_nil⟩, fun e he => ?_, fun _ _ => rfl⟩
  · cases he
  · cases hr
  · cases he

/-- The run lemma. -/
theorem balanced_of_reachable {s : ManagerState} (h : managerMachine.Reachable s) : Balanced s := by
  refine h.invariant (I := Balanced) ?_ fun s i s' hI _ hstep => hI.step hstep
  intro s h0
  have h0 : s = .start := h0
  rw [h0]
  exact balanced_start

/-! ### Configurations. -/

/-- Two insertions never passed the same configuration. -/
def OwnConfigs (log : List TransactionEvent) : Prop :=
  ∀ e e' : TransactionEntry, ∀ c, .inserted e ∈ log → .inserted e' ∈ log →
    e.tableConfig.configAddr = some c → e'.tableConfig.configAddr = some c → e.addr = e'.addr

/-- The condition of one step: an insertion passes a configuration no insertion passed before. -/
def PassesOwnConfig (s : ManagerState) : ManagerCall → Prop
  | .insert _ _ _ (some tableConfig) =>
      ∀ c e, tableConfig.configAddr = some c → .inserted e ∈ s.manager.log →
        e.tableConfig.configAddr ≠ some c
  | _ => True

theorem inserted_notMem_frees {e e' : TransactionEntry} : TransactionEvent.inserted e' ∉ e.frees := by
  intro h
  rcases mem_frees.1 h with ⟨_, _, h⟩ | h
  · cases h
  · cases h

theorem inserted_notMem_completion {e e' : TransactionEntry} {st : Int} :
    TransactionEvent.inserted e' ∉ e.completion st := by
  intro h
  rcases mem_completion.1 h with h | ⟨_, _, h⟩
  · cases h
  · cases h

/-- Why a call may put an event into the log: only an insertion logs that very
insertion, only an update the recording of its uuid. -/
def Explains (s : ManagerState) (i : ManagerCall) : TransactionEvent → Prop
  | .inserted e => ∃ malloc rid callback tc, i = .insert malloc (some rid) callback (some tc) ∧
      e = createTransaction (atou rid) callback tc s.manager
  | .uuidRecorded _ uuid => ∃ rid, i = .update (some rid) (some uuid)
  | _ => True

theorem explains_frees {s : ManagerState} {i : ManagerCall} {e : TransactionEntry} :
    ∀ ev ∈ e.frees, Explains s i ev := by
  intro ev hev
  rcases mem_frees.1 hev with ⟨_, _, rfl⟩ | rfl
  · trivial
  · trivial

theorem explains_completion {s : ManagerState} {i : ManagerCall} {e : TransactionEntry} {st : Int} :
    ∀ ev ∈ e.completion st, Explains s i ev := by
  intro ev hev
  rcases mem_completion.1 hev with rfl | ⟨_, _, rfl⟩
  · trivial
  · trivial

/-- The log `log'` is `log` and a block of events the call explains. -/
def Extends (s : ManagerState) (i : ManagerCall) (log' : List TransactionEvent) : Prop :=
  ∃ b, log' = s.manager.log ++ b ∧ ∀ ev ∈ b, Explains s i ev

theorem Extends.rfl {s : ManagerState} {i : ManagerCall} : Extends s i s.manager.log :=
  ⟨[], (List.append_nil _).symm, fun _ h => by cases h⟩

theorem Extends.append {s : ManagerState} {i : ManagerCall} {log' b : List TransactionEvent}
    (h : Extends s i log') (hb : ∀ ev ∈ b, Explains s i ev) : Extends s i (log' ++ b) := by
  obtain ⟨b₀, rfl, hb₀⟩ := h
  refine ⟨b₀ ++ b, List.append_assoc .., fun ev hev => ?_⟩
  rcases List.mem_append.1 hev with hev | hev
  · exact hb₀ ev hev
  · exact hb ev hev

theorem Extends.dropSlot {s : ManagerState} {i : ManagerCall} {m : TransactionManager}
    (h : Extends s i m.log) (key : Fin maxTableSize) : Extends s i (dropSlot key m).log := by
  cases hk : m.table.elements key with
  | none => rw [dropSlot_of_free hk]; exact h
  | some e => rw [dropSlot_of_some hk]; exact h.append explains_frees

theorem Extends.dropSlots {s : ManagerState} {i : ManagerCall} (keys : List (Fin maxTableSize)) :
    ∀ {m : TransactionManager}, Extends s i m.log →
      Extends s i (keys.foldl (fun m key => OvsAgent.dropSlot key m) m).log := by
  induction keys with
  | nil => intro m h; exact h
  | cons key keys ih => intro m h; exact ih (h.dropSlot key)

/-- Every call extends the log by events it explains. -/
theorem log_step {s s' : ManagerState} {i : ManagerCall}
    (hstep : managerMachine.step s i = some s') : Extends s i s'.manager.log := by
  cases managerStep_cases hstep with
  | same => exact .rfl
  | opens _ => exact .rfl
  | closes => exact Extends.dropSlots _ .rfl
  | @inserts rid callback tc _ hcall =>
      rw [insertTransaction_eq rid callback tc s.manager]
      refine (Extends.dropSlot .rfl _).append fun ev hev => ?_
      rw [List.mem_singleton.1 hev]
      exact ⟨true, rid, callback, tc, hcall, by rfl⟩
  | @records rid uuid e _ hcall hk =>
      rw [updateTransaction_of_some hk]
      refine Extends.rfl.append fun ev hev => ?_
      rw [List.mem_singleton.1 hev]
      exact ⟨rid, hcall⟩
  | drops key _ => exact Extends.dropSlot .rfl key
  | destroys _ ht _ =>
      obtain ⟨_, _, _, _, _, rfl, rfl⟩ := takeTransaction_some ht
      exact (Extends.rfl.append explains_completion).append explains_frees
  | calls _ ht _ =>
      obtain ⟨_, _, _, _, _, rfl, rfl⟩ := takeTransaction_some ht
      exact Extends.rfl.append explains_completion
  | returns _ => exact Extends.rfl.append explains_frees

/-- An event of the log after a call was there before, or the call explains it. -/
theorem mem_log_step {s s' : ManagerState} {i : ManagerCall} {ev : TransactionEvent}
    (hstep : managerMachine.step s i = some s') (hev : ev ∈ s'.manager.log) :
    ev ∈ s.manager.log ∨ Explains s i ev := by
  obtain ⟨b, hb, hex⟩ := log_step hstep
  rw [hb] at hev
  exact (List.mem_append.1 hev).imp_right (hex ev)

theorem log_subset_step {s s' : ManagerState} {i : ManagerCall}
    (hstep : managerMachine.step s i = some s') : s.manager.log ⊆ s'.manager.log := by
  obtain ⟨b, hb, _⟩ := log_step hstep
  rw [hb]
  exact List.subset_append_left _ _

theorem OwnConfigs.step {s s' : ManagerState} {i : ManagerCall} (h : OwnConfigs s.manager.log)
    (hc : PassesOwnConfig s i) (hstep : managerMachine.step s i = some s') :
    OwnConfigs s'.manager.log := by
  intro e₁ e₂ c h₁ h₂ hc₁ hc₂
  rcases mem_log_step hstep h₁ with h₁ | ⟨malloc, rid, callback, tc, rfl, rfl⟩
  · rcases mem_log_step hstep h₂ with h₂ | ⟨malloc, rid, callback, tc, rfl, rfl⟩
    · exact h e₁ e₂ c h₁ h₂ hc₁ hc₂
    · exact absurd hc₁ (hc c e₁ hc₂ h₁)
  · rcases mem_log_step hstep h₂ with h₂ | ⟨_, _, _, _, heq, rfl⟩
    · exact absurd hc₂ (hc c e₂ hc₁ h₂)
    · rfl

theorem ownConfigs_of_reach {s : ManagerState} (h : managerMachine.Reach PassesOwnConfig s) :
    OwnConfigs s.manager.log := by
  refine h.invariant (I := fun s => OwnConfigs s.manager.log) ?_ fun s i s' hI hc hstep =>
    hI.step hc hstep
  intro s h0 e e' c he
  have h0 : s = .start := h0
  rw [h0] at he
  cases he

/-! ## §4. Accounting. -/

/-- The event frees the configuration at `c`. -/
def TransactionEvent.freesConfig (c : Nat) : TransactionEvent → Bool
  | configFreed _ c' => c' == c
  | _ => false

/-- The event is a call of the callback of the entry at `a`. -/
def TransactionEvent.invokes (a : Nat) : TransactionEvent → Bool
  | invoked a' _ _ _ => a' == a
  | _ => false

/-- The event frees the entry at `a`. -/
def TransactionEvent.frees (a : Nat) : TransactionEvent → Bool
  | freed a' => a' == a
  | _ => false

namespace ManagerState

variable (s : ManagerState) (e : TransactionEntry)

/-- Slot `i` holds the transaction. -/
def Holds (i : Fin maxTableSize) : Prop :=
  ∃ e', s.manager.table.elements i = some e' ∧ e'.addr = e.addr

/-- Its completion is in progress: the callback is running. -/
def InCompletion : Prop := ∃ r ∈ s.running, r.addr = e.addr

/-- The entry and its configuration, if it has one, have been freed `n` times each. -/
def Freed (n : Nat) : Prop :=
  s.manager.log.countP (·.frees e.addr) = n ∧
    ∀ c, e.tableConfig.configAddr = some c → s.manager.log.countP (·.freesConfig c) = n

/-- What the table and the log must say of the transaction inserted as `e`:
it is live in its one slot, or in completion, or destroyed once; and its
callback was called at most once, by a completion, with its own configuration,
when nothing but the insertion had happened to it and nothing was freed yet. -/
structure Accounted : Prop where
  place : (∀ i, s.Holds e i ↔ i = hashCode e.id) ∧ ¬ s.InCompletion e ∧ s.Freed e 0
    ∨ (∀ i, ¬ s.Holds e i) ∧ s.InCompletion e ∧ s.Freed e 0
    ∨ (∀ i, ¬ s.Holds e i) ∧ ¬ s.InCompletion e ∧ s.Freed e 1
  once : s.manager.log.countP (·.invokes e.addr) ≤ 1
  callback : ∀ pre cb status tableConfig post,
    s.manager.log = pre ++ .invoked e.addr cb status tableConfig :: post →
      e.callback = some cb ∧ tableConfig = e.tableConfig ∧
      life e.addr pre = [.inserted e, .completed e.addr status] ∧
      ∀ c, e.tableConfig.configAddr = some c → pre.countP (·.freesConfig c) = 0

end ManagerState

section Accounting

variable {s : ManagerState} {e : TransactionEntry}

/-- Only the insertion itself is an `inserted` event of an entry's life. -/
theorem inserted_eq {e₀ : TransactionEntry} {b : List TransactionEvent} {a : Nat}
    {log : List TransactionEvent} (hl : life a log = .inserted e₀ :: b)
    (hb : ∀ e', TransactionEvent.inserted e' ∉ b) (he : .inserted e ∈ log) (ha : e.addr = a) :
    e₀ = e := by
  have hmem : TransactionEvent.inserted e ∈ life a log := mem_history.2 ⟨he, congrArg some ha⟩
  rw [hl] at hmem
  rcases List.mem_cons.1 hmem with h | h
  · cases h; rfl
  · exact absurd h (hb e)

theorem inserted_notMem_gone {e₀ e' : TransactionEntry} {st : Int} :
    TransactionEvent.inserted e' ∉ e₀.completion st ++ e₀.frees := by
  intro h
  rcases List.mem_append.1 h with h | h
  · exact inserted_notMem_completion h
  · exact inserted_notMem_frees h

/-- The life of an inserted transaction and what holds it. -/
theorem Ledger.cases {m : TransactionManager} {running : List TransactionEntry}
    (h : Ledger m running) (he : .inserted e ∈ m.log) :
    (∃ e', m.table.Mem e' ∧ e.Same e' ∧ life e.addr m.log = [.inserted e])
    ∨ (∃ r ∈ running, ∃ st, e.Same r ∧ e.callback.isSome ∧
        life e.addr m.log = .inserted e :: e.completion st)
    ∨ (∀ e', m.table.Mem e' → e'.addr ≠ e.addr) ∧ (∀ r ∈ running, r.addr ≠ e.addr) ∧
        Gone e (life e.addr m.log) := by
  by_cases hlive : ∃ e', m.table.Mem e' ∧ e'.addr = e.addr
  · left
    obtain ⟨e', hm, ha⟩ := hlive
    obtain ⟨e₀, hs, hl⟩ := (h.account e.addr).live e' hm ha
    obtain rfl := inserted_eq hl (by simp) he rfl
    exact ⟨e', hm, hs, hl⟩
  · by_cases hrun : ∃ r ∈ running, r.addr = e.addr
    · right; left
      obtain ⟨r, hr, ha⟩ := hrun
      obtain ⟨e₀, st, hs, hcb, hl⟩ := (h.account e.addr).inProgress r hr ha
      obtain rfl := inserted_eq hl (fun _ => inserted_notMem_completion) he rfl
      exact ⟨r, hr, st, hs, hcb, hl⟩
    · right; right
      have hlive' : ∀ e', m.table.Mem e' → e'.addr ≠ e.addr := fun e' hm ha => hlive ⟨e', hm, ha⟩
      have hrun' : ∀ r ∈ running, r.addr ≠ e.addr := fun r hr ha => hrun ⟨r, hr, ha⟩
      refine ⟨hlive', hrun', ?_⟩
      -- an address that is in neither place was used up or never used, and this one was used
      rcases (h.account e.addr).gone hlive' hrun' with hnil | ⟨e₀, _, hg⟩
      · have hmem : TransactionEvent.inserted e ∈ life e.addr m.log := mem_history.2 ⟨he, rfl⟩
        rw [hnil] at hmem
        cases hmem
      · have heq : e₀ = e := by
          rcases hg with hl | ⟨st, hl⟩
          · exact inserted_eq hl (fun _ => inserted_notMem_frees) he rfl
          · exact inserted_eq hl (fun _ => inserted_notMem_gone) he rfl
        exact heq ▸ hg

/-- The life of an inserted transaction begins with its insertion, goes on with
a completion or nothing, and ends with the frees or nothing. -/
theorem Balanced.life_eq (h : Balanced s) (he : .inserted e ∈ s.manager.log) :
    ∃ c f, life e.addr s.manager.log = .inserted e :: (c ++ f) ∧
      (c = [] ∨ ∃ st, c = e.completion st) ∧ (f = [] ∨ f = e.frees) := by
  rcases h.ledger.cases he with ⟨_, _, _, hl⟩ | ⟨_, _, st, _, _, hl⟩ | ⟨_, _, hl | ⟨st, hl⟩⟩
  · exact ⟨[], [], hl, Or.inl rfl, Or.inl rfl⟩
  · exact ⟨e.completion st, [], by rw [hl, List.append_nil], Or.inr ⟨st, rfl⟩, Or.inl rfl⟩
  · exact ⟨[], e.frees, hl, Or.inl rfl, Or.inr rfl⟩
  · exact ⟨e.completion st, e.frees, hl, Or.inr ⟨st, rfl⟩, Or.inr rfl⟩

/-- Whoever frees a configuration was inserted with it. -/
theorem Ledger.configFreed_inserted {m : TransactionManager} {running : List TransactionEntry}
    (h : Ledger m running) {a c : Nat} (hf : .configFreed a c ∈ m.log) :
    ∃ e₀ : TransactionEntry, .inserted e₀ ∈ m.log ∧ e₀.addr = a ∧
      e₀.tableConfig.configAddr = some c := by
  have hmem : TransactionEvent.configFreed a c ∈ life a m.log := mem_history.2 ⟨hf, rfl⟩
  have hcompletion : ∀ (e₀ : TransactionEntry) (st : Int),
      TransactionEvent.configFreed a c ∉ e₀.completion st := by
    intro e₀ st hc
    rcases mem_completion.1 hc with hc | ⟨_, _, hc⟩
    · cases hc
    · cases hc
  by_cases hlive : ∃ e', m.table.Mem e' ∧ e'.addr = a
  · obtain ⟨e', hm, ha⟩ := hlive
    obtain ⟨e₀, _, hl⟩ := (h.account a).live e' hm ha
    rw [hl] at hmem
    cases List.mem_singleton.1 hmem
  · by_cases hrun : ∃ r ∈ running, r.addr = a
    · obtain ⟨r, hr, ha⟩ := hrun
      obtain ⟨e₀, st, _, _, hl⟩ := (h.account a).inProgress r hr ha
      rw [hl] at hmem
      rcases List.mem_cons.1 hmem with hc | hc
      · cases hc
      · exact absurd hc (hcompletion e₀ st)
    · rcases (h.account a).gone (fun e' hm ha => hlive ⟨e', hm, ha⟩)
        (fun r hr ha => hrun ⟨r, hr, ha⟩) with hnil | ⟨e₀, ha, hg⟩
      · rw [hnil] at hmem
        cases hmem
      -- only the frees at the end of a life free a configuration
      · have hfree : TransactionEvent.configFreed a c ∈ e₀.frees := by
          rcases hg with hl | ⟨st, hl⟩
          · rw [hl] at hmem
            exact (List.mem_cons.1 hmem).resolve_left (by simp)
          · rw [hl] at hmem
            have hc := (List.mem_cons.1 hmem).resolve_left (by simp)
            exact (List.mem_append.1 hc).resolve_left (hcompletion e₀ st)
        have hins : TransactionEvent.inserted e₀ ∈ life a m.log := by
          rcases hg with hl | ⟨st, hl⟩
          · rw [hl]; exact List.mem_cons_self ..
          · rw [hl]; exact List.mem_cons_self ..
        rcases mem_frees.1 hfree with ⟨c', hc', heq⟩ | heq
        · cases heq
          exact ⟨e₀, (mem_history.1 hins).1, ha, hc'⟩
        · cases heq

/-- A configuration is only ever freed as that of the transaction inserted with it. -/
theorem Balanced.freesConfig_key (h : Balanced s) (ho : OwnConfigs s.manager.log)
    (he : .inserted e ∈ s.manager.log) {c : Nat} (hc : e.tableConfig.configAddr = some c) :
    ∀ ev ∈ s.manager.log, ev.freesConfig c = true → ev.lifeKey = some e.addr := by
  intro ev hev hf
  cases ev with
  | configFreed a c' =>
      have hcc : c' = c := beq_iff_eq.1 hf
      subst hcc
      obtain ⟨e₀, he₀, ha, hc₀⟩ := h.ledger.configFreed_inserted hev
      show some a = some e.addr
      rw [← ha, ho e₀ e c' he₀ he hc₀ hc]
  | _ => cases hf

theorem frees_key {a : Nat} {ev : TransactionEvent} (h : ev.frees a = true) : ev.lifeKey = some a := by
  cases ev with
  | freed a' => exact congrArg some (beq_iff_eq.1 h)
  | _ => cases h

theorem invokes_key {a : Nat} {ev : TransactionEvent} (h : ev.invokes a = true) :
    ev.lifeKey = some a := by
  cases ev with
  | invoked a' _ _ _ => exact congrArg some (beq_iff_eq.1 h)
  | _ => cases h

theorem countP_completion (c : Nat) (st : Int) :
    (e.completion st).countP (·.frees e.addr) = 0 ∧
      (e.completion st).countP (·.freesConfig c) = 0 ∧
      (e.completion st).countP (·.invokes e.addr) ≤ 1 := by
  unfold TransactionEntry.completion
  cases e.callback with
  | none => exact ⟨rfl, rfl, Nat.zero_le _⟩
  | some cb => exact ⟨rfl, rfl, by simp [TransactionEvent.invokes]⟩

theorem countP_frees :
    e.frees.countP (·.frees e.addr) = 1 ∧
      (∀ c, e.tableConfig.configAddr = some c → e.frees.countP (·.freesConfig c) = 1) ∧
      e.frees.countP (·.invokes e.addr) = 0 := by
  unfold TransactionEntry.frees
  cases e.tableConfig.configAddr with
  | none => exact ⟨by simp [TransactionEvent.frees], fun c hc => absurd hc (by simp), rfl⟩
  | some c =>
      refine ⟨by simp [TransactionEvent.frees], fun c' hc => ?_, rfl⟩
      cases hc
      simp [TransactionEvent.freesConfig]

/-- The counts over the whole log are those over the entry's own life. -/
theorem Balanced.freed_iff (h : Balanced s) (ho : OwnConfigs s.manager.log)
    (he : .inserted e ∈ s.manager.log) (n : Nat) :
    s.Freed e n ↔ (life e.addr s.manager.log).countP (·.frees e.addr) = n ∧
      ∀ c, e.tableConfig.configAddr = some c →
        (life e.addr s.manager.log).countP (·.freesConfig c) = n := by
  unfold ManagerState.Freed life
  rw [countP_history fun _ _ hp => frees_key hp]
  refine and_congr_right fun _ => forall_congr' fun c => forall_congr' fun hc => ?_
  rw [countP_history (h.freesConfig_key ho he hc)]

theorem Balanced.freed_zero (h : Balanced s) (ho : OwnConfigs s.manager.log)
    (he : .inserted e ∈ s.manager.log) {c : List TransactionEvent}
    (hc : c = [] ∨ ∃ st, c = e.completion st) (hl : life e.addr s.manager.log = .inserted e :: c) :
    s.Freed e 0 := by
  rw [h.freed_iff ho he, hl]
  rcases hc with rfl | ⟨st, rfl⟩
  · exact ⟨rfl, fun _ _ => rfl⟩
  · exact ⟨(countP_completion 0 st).1, fun c _ => (countP_completion c st).2.1⟩

theorem Balanced.freed_one (h : Balanced s) (ho : OwnConfigs s.manager.log)
    (he : .inserted e ∈ s.manager.log) (hg : Gone e (life e.addr s.manager.log)) : s.Freed e 1 := by
  rw [h.freed_iff ho he]
  obtain ⟨h₁, h₂, _⟩ := countP_frees (e := e)
  rcases hg with hl | ⟨st, hl⟩
  · rw [hl]
    exact ⟨h₁, h₂⟩
  · rw [hl]
    refine ⟨?_, fun c hc => ?_⟩
    · rw [List.countP_cons_of_neg (by simp [TransactionEvent.frees]), List.countP_append,
        (countP_completion 0 st).1, h₁]
    · rw [List.countP_cons_of_neg (by simp [TransactionEvent.freesConfig]), List.countP_append,
        (countP_completion c st).2.1, h₂ c hc]

/-- Where in its life an entry's callback is called. -/
theorem invoked_split {st : Int} {cb : OvsInteractCb} {tc : RdkbTableConfig}
    {pre post c f : List TransactionEvent} (hc : c = [] ∨ ∃ st', c = e.completion st')
    (hf : f = [] ∨ f = e.frees)
    (h : .inserted e :: (c ++ f) = pre ++ .invoked e.addr cb st tc :: post) :
    e.callback = some cb ∧ tc = e.tableConfig ∧ pre = [.inserted e, .completed e.addr st] := by
  have hnf : ∀ st tc cb, TransactionEvent.invoked e.addr cb st tc ∉ f := by
    intro st tc cb hmem
    rcases hf with rfl | rfl
    · cases hmem
    · rcases mem_frees.1 hmem with ⟨_, _, h⟩ | h
      · cases h
      · cases h
  have hin : TransactionEvent.invoked e.addr cb st tc ∈ c := by
    have hmem : TransactionEvent.invoked e.addr cb st tc ∈ .inserted e :: (c ++ f) := by
      rw [h]; simp
    rcases List.mem_cons.1 hmem with hm | hm
    · cases hm
    · exact (List.mem_append.1 hm).resolve_right (hnf st tc cb)
  rcases hc with rfl | ⟨st', rfl⟩
  · cases hin
  · rcases mem_completion.1 hin with hm | ⟨cb', hcb, hm⟩
    · cases hm
    · cases hm
      refine ⟨hcb, rfl, ?_⟩
      have hcomp : e.completion st
          = [.completed e.addr st, .invoked e.addr cb st e.tableConfig] := by
        unfold TransactionEntry.completion
        rw [hcb]; rfl
      rw [hcomp] at h
      -- the call is the third event, and no later one is a call
      match pre, h with
      | [], h => cases h
      | [_], h => cases h
      | [_, _], h => cases h; rfl
      | _ :: _ :: _ :: pre, h =>
          simp only [List.cons_append, List.nil_append, List.cons.injEq] at h
          exact absurd (h.2.2.2 ▸ List.mem_append_right pre (List.mem_cons_self ..)) (hnf st _ cb)

/-- **Transaction accounting.**  In every run in which no two insertions pass
the same configuration, every inserted transaction is accounted for. -/
theorem transaction_accounted (h : managerMachine.Reach PassesOwnConfig s)
    (he : .inserted e ∈ s.manager.log) : s.Accounted e := by
  have hb := balanced_of_reachable h.reachable
  have ho := ownConfigs_of_reach h
  constructor
  -- still in the table, in its callback, or gone
  · rcases hb.ledger.cases he with ⟨e', hm, hs, hl⟩ | ⟨r, hr, st, hs, _, hl⟩ | ⟨hlive, hrun, hg⟩
    · left
      refine ⟨fun i => ⟨?_, ?_⟩, ?_, hb.freed_zero ho he (Or.inl rfl) hl⟩
      · intro ⟨e₁, he₁, ha⟩
        have hm₁ := SlotTable.mem_of_elements he₁
        rw [← hashCode_of_elements he₁, hb.ledger.live_unique hm₁ hm (ha.trans hs.addr.symm), hs.id]
      · intro hi
        exact ⟨e', by rw [hi, ← hs.id]; exact hm, hs.addr⟩
      · intro ⟨r, hr, ha⟩
        exact hb.ledger.live_not_running hm hr (ha.trans hs.addr.symm)
    · right; left
      refine ⟨fun i => ?_, ⟨r, hr, hs.addr⟩, hb.freed_zero ho he (Or.inr ⟨st, rfl⟩) hl⟩
      intro ⟨e₁, he₁, ha⟩
      exact hb.ledger.live_not_running (SlotTable.mem_of_elements he₁) hr (hs.addr.trans ha.symm)
    · right; right
      refine ⟨fun i => ?_, ?_, hb.freed_one ho he hg⟩
      · intro ⟨e₁, he₁, ha⟩
        exact hlive e₁ (SlotTable.mem_of_elements he₁) ha
      · intro ⟨r, hr, ha⟩
        exact hrun r hr ha
  -- the callback is called in the completion only, and that happens once
  · obtain ⟨c, f, hl, hc, hf⟩ := hb.life_eq he
    have hcount : (life e.addr s.manager.log).countP (·.invokes e.addr)
        = s.manager.log.countP (·.invokes e.addr) :=
      countP_history fun _ _ hp => invokes_key hp
    rw [← hcount, hl, List.countP_cons_of_neg (by simp [TransactionEvent.invokes]),
      List.countP_append]
    have hc' : c.countP (·.invokes e.addr) ≤ 1 := by
      rcases hc with rfl | ⟨st, rfl⟩
      · exact Nat.zero_le _
      · exact (countP_completion 0 st).2.2
    have hf' : f.countP (·.invokes e.addr) = 0 := by
      rcases hf with rfl | rfl
      · rfl
      · exact countP_frees.2.2
    omega
  · intro pre cb status tableConfig post hlog
    -- before the call there is nothing in the life of the entry that frees its configuration
    obtain ⟨c, f, hl, hc, hf⟩ := hb.life_eq he
    have hsplit : life e.addr s.manager.log = life e.addr pre ++
        .invoked e.addr cb status tableConfig :: life e.addr post := history_split hlog rfl
    obtain ⟨hcb, htc, hpre⟩ := invoked_split hc hf (hl.symm.trans hsplit)
    refine ⟨hcb, htc, hpre, fun a ha => ?_⟩
    have hkey : ∀ ev ∈ pre, ev.freesConfig a = true → ev.lifeKey = some e.addr := by
      intro ev hev hp
      exact hb.freesConfig_key ho he ha ev (hlog ▸ List.mem_append_left _ hev) hp
    rw [← countP_history hkey]
    show (life e.addr pre).countP _ = 0
    rw [hpre]
    rfl

/-- Request 1 completes, and its callback inserts request 6, whose slot is the same. -/
def reentrantCalls : List ManagerCall :=
  [.initManager true,
   .insert true (some (ofString "1")) (some (.client 0)) (some (.notify (some ⟨100, ()⟩))),
   .update (some (ofString "1")) (some (ofString "u")),
   .complete (some (ofString "u")) 0,
   .insert true (some (ofString "6")) none (some (.notify (some ⟨101, ()⟩))),
   .callbackReturns]

/-- The transaction of request 1, as inserted. -/
def firstTransaction : TransactionEntry :=
  ⟨0, 1, [], .init, some (.client 0), .notify (some ⟨100, ()⟩), 1⟩

theorem transaction_accounted_reentrant :
    ∃ s, managerMachine.run .start reentrantCalls = some s ∧ s.running = [] ∧
      s.Accounted firstTransaction := by
  have hall : managerMachine.AllSteps (fun s i _ => PassesOwnConfig s i) .start reentrantCalls := by
    refine ⟨trivial, fun c e _ he => ?_, trivial, trivial, fun c e hc he => ?_, trivial, trivial⟩
    · cases he
    · have hlog : TransactionEvent.inserted e ∈ [TransactionEvent.inserted firstTransaction,
          .uuidRecorded 0 (ofString "u"), .completed 0 0,
          .invoked 0 (.client 0) 0 (.notify (some ⟨100, ()⟩))] := he
      cases hc
      simp only [List.mem_cons, TransactionEvent.inserted.injEq, reduceCtorEq, List.not_mem_nil,
        or_false] at hlog
      rw [hlog]
      decide
  refine ⟨_, rfl, rfl, transaction_accounted (Machine.reach_of_run (.init rfl) hall rfl) ?_⟩
  exact List.mem_cons_self ..

end Accounting

end OvsAgent
