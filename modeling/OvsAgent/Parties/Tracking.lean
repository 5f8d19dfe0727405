/-
  OvsAgent.Parties.Tracking — what every pending transaction waits for.

  A transaction first waits for the receipt that gives it its uuid: its
  `ovsdb_write` is about to add the receipt node, or the node is in the list.
  Afterwards it waits for the Feedback of that uuid.  What it takes for the
  Feedback to come is the network's business; here it is a predicate `Coming`.

  Main results: `Tracked.move` and `Tracked.hear`, `Uuids.move` and
  `Uuids.hear` — no step of the component and no message it reads loses track
  of a transaction.
-/
import OvsAgent.Parties.Processes
import OvsAgent.AgentApi.FeedbackRows

namespace OvsAgent

open CString (ofString utoa atou strncpy strncmpEq)
open Json
open ListenerPc (After)

/-! ## §1. Waiting for the receipt. -/

/-- A receipt handed to this node records its uuid in the slot of `e`. -/
structure ReceiptNode.Gives (node : ReceiptNode) (e : TransactionEntry) : Prop where
  receiptType : node.receiptType = .insert
  callback : node.callback = some .ovsAgentApiWriteCallback
  rid : atou node.rid = e.id

/-- The write of the request is about to add the node that gives `e` its uuid. -/
def Component.Adds (s : Component) (e : TransactionEntry) : Prop :=
  ∃ c ∈ s.calls, ∃ p, c.pc = .ovsdbWrite (.receiptListAdd p) ∧ p.node.Gives e

/-- The node is in the list, and no receipt was handed to it yet. -/
def Component.Holds (s : Component) (e : TransactionEntry) : Prop :=
  ∃ (j : Nat) (node : ReceiptNode), s.db.receipts[j]? = some node ∧ s.listener.spent ≠ some j ∧
    node.Gives e

/-- `e` waits for its receipt. -/
def Component.Awaits (s : Component) (e : TransactionEntry) : Prop := s.Adds e ∨ s.Holds e

theorem Component.Adds.mono {s s' : Component} {e : TransactionEntry} (h : s.Adds e)
    (hcalls : ∀ c ∈ s.calls, ∀ p, c.pc = .ovsdbWrite (.receiptListAdd p) → ∃ c' ∈ s'.calls,
      c'.pc = c.pc) :
    s'.Adds e := by
  obtain ⟨c, hc, p, hpc, hg⟩ := h
  obtain ⟨c', hc', hpc'⟩ := hcalls c hc p hpc
  exact ⟨c', hc', p, hpc'.trans hpc, hg⟩

theorem Component.Holds.mono {s s' : Component} {e : TransactionEntry} (h : s.Holds e)
    (hreceipts : s.db.receipts <+: s'.db.receipts) (hspent : s'.listener.spent = s.listener.spent) :
    s'.Holds e := by
  obtain ⟨j, node, hnode, hj, hg⟩ := h
  obtain ⟨rest, hrest⟩ := hreceipts
  refine ⟨j, node, ?_, hspent ▸ hj, hg⟩
  rw [← hrest, List.getElem?_append_left (List.getElem?_eq_some_iff.1 hnode).1, hnode]

/-- A node that was handed a receipt of this id gives its uuid to no other slot. -/
theorem Component.Holds.spend {s : Component} {e : TransactionEntry} {i : Nat} {l' : ListenerPc}
    (h : s.Holds e) (hs : l'.spent = some i)
    (hne : ∀ node, s.db.receipts[i]? = some node → ¬ node.Gives e) :
    Component.Holds { s with listener := l' } e := by
  obtain ⟨j, node, hnode, _, hg⟩ := h
  refine ⟨j, node, hnode, fun heq => ?_, hg⟩
  have heq : l'.spent = some j := heq
  rw [hs] at heq
  cases heq
  exact hne node hnode hg

/-- The spent node leaves the list. -/
theorem Component.Holds.unlink {s : Component} {e : TransactionEntry} {i : Nat} (h : s.Holds e)
    (hl : s.listener = .unlink i) :
    Component.Holds { s with
      db := { s.db with receipts := s.db.receipts.eraseIdx i }, listener := .idle } e := by
  obtain ⟨j, node, hnode, hj, hg⟩ := h
  have hij : i ≠ j := by
    intro heq
    subst heq
    rw [hl] at hj
    exact hj rfl
  by_cases hlt : j < i
  · refine ⟨j, node, ?_, fun h => (by cases h), hg⟩
    show (s.db.receipts.eraseIdx i)[j]? = some node
    rw [List.getElem?_eraseIdx_of_lt hlt]
    exact hnode
  · refine ⟨j - 1, node, ?_, fun h => (by cases h), hg⟩
    show (s.db.receipts.eraseIdx i)[j - 1]? = some node
    rw [List.getElem?_eraseIdx_of_ge (by omega), Nat.sub_add_cancel (by omega)]
    exact hnode

/-- A call that stands elsewhere than where a node is added can be replaced. -/
theorem mem_set_of_pc {calls : List Call} {n : Nat} {c c' : Call} (hc : calls[n]? = some c)
    {d : Call} (hd : d ∈ calls) (hne : d.pc ≠ c.pc) : d ∈ calls.set n c' := by
  obtain ⟨m, hm⟩ := List.getElem?_of_mem hd
  have hnm : n ≠ m := by
    intro heq
    subst heq
    rw [hc] at hm
    cases hm
    exact hne rfl
  exact List.mem_of_getElem? ((List.getElem?_set_ne hnm).trans hm)

/-! ## §2. Every pending transaction is tracked. -/

/-- Every pending transaction waits for its receipt, or for a Feedback that is
`Coming`; every transaction that was inserted is pending or completed. -/
structure Tracked (Coming : CString → Prop) (s : Component) : Prop where
  spent : ∀ i, s.listener.spent = some i → i < s.db.receipts.length
  recording : ∀ i rid uuid, s.listener.recording = some (i, rid, uuid) → Coming uuid ∧
    ∃ node, s.db.receipts[i]? = some node ∧ node.rid = rid
  live : ∀ e, s.manager.table.Mem e → s.Awaits e ∨ Coming e.uuid
  inserted : ∀ e, .inserted e ∈ s.manager.log →
    (∃ e', s.manager.table.Mem e' ∧ e'.addr = e.addr) ∨
    ∃ st, .completed e.addr st ∈ s.manager.log

variable {Coming Coming' : CString → Prop} {s s' : Component}

theorem Tracked.mono (h : Tracked Coming s) (hc : ∀ uuid, Coming uuid → Coming' uuid) :
    Tracked Coming' s :=
  ⟨h.spent, fun i rid uuid hr => ⟨hc uuid (h.recording i rid uuid hr).1, (h.recording i rid uuid hr).2⟩,
    fun e he => (h.live e he).imp_right (hc _), h.inserted⟩

/-- The transaction of `e` is pending or completed. -/
def TransactionManager.Keeps (m : TransactionManager) (e : TransactionEntry) : Prop :=
  (∃ e', m.table.Mem e' ∧ e'.addr = e.addr) ∨ ∃ st, .completed e.addr st ∈ m.log

/-- The log and the table after a step that completes nothing and drops no entry. -/
theorem inserted_step {m m' : TransactionManager} (h : ∀ e, .inserted e ∈ m.log → m.Keeps e)
    (hlog : m.log ⊆ m'.log)
    (hnew : ∀ e, .inserted e ∈ m'.log → .inserted e ∈ m.log ∨ m'.table.Mem e)
    (htable : ∀ e, m.table.Mem e → m'.Keeps e) : ∀ e, .inserted e ∈ m'.log → m'.Keeps e := by
  intro e he
  rcases hnew e he with hold | hmem
  · rcases h e hold with ⟨e₁, he₁, haddr⟩ | ⟨st, hst⟩
    · unfold TransactionManager.Keeps
      rw [← haddr]
      exact htable e₁ he₁
    · exact Or.inr ⟨st, hlog hst⟩
  · exact Or.inl ⟨e, hmem, rfl⟩

/-- The frame lemma: the manager is the same, the list only grows. -/
theorem Tracked.frame (h : Tracked Coming s) (hm : s'.manager = s.manager)
    (hcalls : ∀ c ∈ s.calls, ∀ p, c.pc = .ovsdbWrite (.receiptListAdd p) → ∃ c' ∈ s'.calls,
      c'.pc = c.pc)
    (hreceipts : s.db.receipts <+: s'.db.receipts) (hspent : s'.listener.spent = s.listener.spent)
    (hrecording : s'.listener.recording = none ∨ s'.listener = s.listener) : Tracked Coming s' := by
  constructor
  · intro i hi
    exact Nat.lt_of_lt_of_le (h.spent i (hspent ▸ hi)) hreceipts.length_le
  · intro i rid uuid hr
    rcases hrecording with hnone | hsame
    · rw [hnone] at hr; cases hr
    · rw [hsame] at hr
      obtain ⟨hcoming, node, hnode, hrid⟩ := h.recording i rid uuid hr
      obtain ⟨rest, hrest⟩ := hreceipts
      refine ⟨hcoming, node, ?_, hrid⟩
      rw [← hrest, List.getElem?_append_left (List.getElem?_eq_some_iff.1 hnode).1, hnode]
  · intro e he
    rw [hm] at he
    rcases h.live e he with (hadds | hholds) | hcoming
    · exact Or.inl (Or.inl (hadds.mono hcalls))
    · exact Or.inl (Or.inr (hholds.mono hreceipts hspent))
    · exact Or.inr hcoming
  · rw [hm]
    exact h.inserted

/-- The request id of a call leads to the slot of the entry it inserts. -/
theorem atou_rid {c : Call} {r : Role} (hpl : c.Plain r) : atou (utoa c.rid) = c.rid :=
  CString.atou_utoa hpl.rid

/-- The node of a call's write gives the call's own entry its uuid. -/
theorem node_gives {c : Call} {p : Prepared} (hpl : c.Plain componentRole) (hp : c.writeCall.Prepares p)
    {e : TransactionEntry} (he : e.id = c.rid) : p.node.Gives e := by
  obtain ⟨hrid, hty, js, _, _, hcb⟩ := hpl.prepares hp
  have hlen : (utoa c.rid).length ≤ maxUuidLen :=
    Nat.le_trans (CString.utoa_length_le hpl.rid) (by decide)
  refine ⟨hty, hcb, ?_⟩
  show atou (strncpy maxUuidLen p.rid) = e.id
  rw [hrid, CString.strncpy_of_length_le hlen, atou_rid hpl, he]

/-- A new transaction: its slot was free, and its write comes next. -/
theorem Tracked.insert (h : Tracked Coming s) {n : Nat} {c c' : Call} {p : Prepared}
    (hc : s.calls[n]? = some c) (hpl : c.Plain componentRole) (hpc : c.pc = .insertTransaction)
    (hp : c.writeCall.Prepares p)
    (hfree : s.manager.table.elements (hashCode (atou (utoa c.rid))) = none) :
    Tracked Coming ({ s with manager := (insertTransaction true (some (utoa c.rid)) c.callback
      (some c.request.tableConfig) s.manager).2 }.setCall n (c'.goto (.ovsdbWrite (.receiptListAdd p)))) := by
  have helems := fun i => insertTransaction_elements (utoa c.rid) c.callback c.request.tableConfig i s.manager
  have hlog : (insertTransaction true (some (utoa c.rid)) c.callback (some c.request.tableConfig)
      s.manager).2.log = _ := insertTransaction_log_of_free hfree
  generalize (insertTransaction true (some (utoa c.rid)) c.callback (some c.request.tableConfig)
    s.manager).2 = m
    at helems hlog
  -- the entries after the step: the new one, and all the old ones
  have hnew : m.table.Mem (createTransaction (atou (utoa c.rid)) c.callback c.request.tableConfig
      s.manager) := by
    have := helems (hashCode (atou (utoa c.rid)))
    rw [if_pos rfl] at this
    exact SlotTable.mem_of_elements this
  have hold : ∀ e, s.manager.table.Mem e → m.table.Mem e := by
    intro e he
    unfold SlotTable.Mem at he ⊢
    rw [helems, if_neg, he]
    intro heq
    rw [heq, hfree] at he
    cases he
  have hadd : ∀ d ∈ s.calls, ∀ q, d.pc = .ovsdbWrite (.receiptListAdd q) →
      ∃ d' ∈ s.calls.set n (c'.goto (.ovsdbWrite (.receiptListAdd p))), d'.pc = d.pc := by
    intro d hd q hdpc
    exact ⟨d, mem_set_of_pc hc hd (by rw [hdpc, hpc]; exact fun h => by cases h), rfl⟩
  refine ⟨h.spent, h.recording, fun e he => ?_, ?_⟩
  · have he : m.table.Mem e := he
    have hel := helems (hashCode e.id)
    unfold SlotTable.Mem at he
    rw [he] at hel
    split at hel
    · cases hel
      refine Or.inl (Or.inl ⟨c'.goto (.ovsdbWrite (.receiptListAdd p)), ?_, p, rfl,
        node_gives hpl hp (atou_rid hpl)⟩)
      exact List.mem_of_getElem? (List.getElem?_set_self (List.getElem?_eq_some_iff.1 hc).1)
    · rcases h.live e hel.symm with (hadds | hholds) | hcoming
      · exact Or.inl (Or.inl (hadds.mono hadd))
      · exact Or.inl (Or.inr hholds)
      · exact Or.inr hcoming
  · refine inserted_step h.inserted ?_ (fun e he => ?_) fun e he => Or.inl ⟨e, hold e he, rfl⟩
    · show s.manager.log ⊆ m.log
      rw [hlog]
      exact List.subset_append_left _ _
    · have he : .inserted e ∈ m.log := he
      rw [hlog, List.mem_append, List.mem_singleton] at he
      rcases he with he | he
      · exact Or.inl he
      · cases he
        exact Or.inr hnew

/-- The uuid is recorded: the entry of the slot waits for its Feedback now. -/
theorem Tracked.records (h : Tracked Coming s) (hform : ∀ uuid, Coming uuid → uuid.length ≤ maxUuidLen)
    {i : Nat} {rid uuid : CString} {l' : ListenerPc} (hl : s.listener = .updateTransaction i rid uuid)
    (hs : l'.spent = some i) (hr : l'.recording = none) :
    Tracked Coming { s with
      manager := (updateTransaction (some rid) (some uuid) s.manager).2, listener := l' } := by
  obtain ⟨hcoming, node, hnode, hrid⟩ := h.recording i rid uuid (by rw [hl]; rfl)
  -- a node with this id can only give its uuid to the entry of the slot
  have hslot : ∀ e, ¬ hashCode e.id = hashCode (atou rid) →
      ∀ node', s.db.receipts[i]? = some node' → ¬ node'.Gives e := by
    intro e hne node' hnode' hg
    rw [hnode] at hnode'
    cases hnode'
    rw [← hg.rid, hrid] at hne
    exact hne rfl
  have hrec : ∀ j r u, l'.recording = some (j, r, u) → Coming u ∧
      ∃ node, s.db.receipts[j]? = some node ∧ node.rid = r := by
    intro j r u hju
    rw [hr] at hju
    cases hju
  have hlt : i < s.db.receipts.length := (List.getElem?_eq_some_iff.1 hnode).1
  have hspent : ∀ j, l'.spent = some j → j < s.db.receipts.length := by
    intro j hj
    rw [hs] at hj
    cases hj
    exact hlt
  have hother : ∀ e, s.manager.table.Mem e → ¬ hashCode e.id = hashCode (atou rid) →
      ∀ m, Component.Awaits { s with manager := m, listener := l' } e ∨ Coming e.uuid := by
    intro e he hne m
    rcases h.live e he with (hadds | hholds) | hcom
    · exact Or.inl (Or.inl hadds)
    · exact Or.inl (Or.inr (hholds.spend hs (hslot e hne)))
    · exact Or.inr hcom
  cases hk : s.manager.table.elements (hashCode (atou rid)) with
  | none =>
      rw [updateTransaction_of_free hk]
      refine ⟨hspent, hrec, fun e he => hother e he (fun heq => ?_) _, h.inserted⟩
      have he : s.manager.table.elements (hashCode e.id) = some e := he
      rw [heq, hk] at he
      cases he
  | some e₀ =>
      have helems := @updateTransaction_elements _ uuid _ _ hk
      have hlog : (updateTransaction (some rid) (some uuid) s.manager).2.log
          = s.manager.log ++ [.uuidRecorded e₀.addr uuid] := by rw [updateTransaction_of_some hk]
      generalize (updateTransaction (some rid) (some uuid) s.manager).2 = m at helems hlog
      refine ⟨hspent, hrec, fun e he => ?_, inserted_step h.inserted ?_ ?_ ?_⟩
      · have he : m.table.elements (hashCode e.id) = some e := he
        rw [helems] at he
        by_cases hne : hashCode e.id = hashCode (atou rid)
        · rw [if_pos hne] at he
          cases he
          right
          rw [withUuid_uuid, CString.strncpy_of_length_le (hform uuid hcoming)]
          exact hcoming
        · rw [if_neg hne] at he
          exact hother e he hne m
      · show s.manager.log ⊆ m.log
        rw [hlog]
        exact List.subset_append_left _ _
      · intro e he
        have he : .inserted e ∈ m.log := he
        rw [hlog, List.mem_append, List.mem_singleton] at he
        rcases he with he | he
        · exact Or.inl he
        · cases he
      · intro e he
        have he : s.manager.table.elements (hashCode e.id) = some e := he
        by_cases hne : hashCode e.id = hashCode (atou rid)
        · rw [hne, hk] at he
          cases he
          refine Or.inl ⟨e₀.withUuid uuid, SlotTable.mem_of_elements (i := hashCode (atou rid)) ?_, rfl⟩
          show m.table.elements (hashCode (atou rid)) = _
          rw [helems, if_pos rfl]
        · refine Or.inl ⟨e, ?_, rfl⟩
          show m.table.elements (hashCode e.id) = some e
          rw [helems, if_neg hne, he]

/-- The receipt node is in the list now: the call stops adding it. -/
theorem Tracked.receiptListAdd (h : Tracked Coming s) {n : Nat} {c : Call} {p : Prepared}
    (hc : s.calls[n]? = some c) (hpc : c.pc = .ovsdbWrite (.receiptListAdd p)) :
    Tracked Coming ({ s with db := { s.db with receipts := s.db.receipts ++ [p.node] } }.setCall n
      (c.goto (.ovsdbWrite (.socketWrite p)))) := by
  have hprefix : s.db.receipts <+: s.db.receipts ++ [p.node] := List.prefix_append _ _
  constructor
  · intro i hi
    exact Nat.lt_of_lt_of_le (h.spent i hi) hprefix.length_le
  · intro i rid uuid hr
    obtain ⟨hcoming, node, hnode, hrid⟩ := h.recording i rid uuid hr
    refine ⟨hcoming, node, ?_, hrid⟩
    show (s.db.receipts ++ [p.node])[i]? = some node
    rw [List.getElem?_append_left (List.getElem?_eq_some_iff.1 hnode).1, hnode]
  · intro e he
    rcases h.live e he with (⟨d, hd, q, hq, hg⟩ | hholds) | hcoming
    · by_cases hsame : d.pc = c.pc
      · -- the node of this very call
        rw [hq, hpc] at hsame
        cases hsame
        refine Or.inl (Or.inr ⟨s.db.receipts.length, p.node, ?_, fun hsp => ?_, hg⟩)
        · exact List.getElem?_concat_length
        · exact absurd (h.spent _ hsp) (Nat.lt_irrefl _)
      · exact Or.inl (Or.inl ⟨d, mem_set_of_pc hc hd hsame, q, hq, hg⟩)
    · exact Or.inl (Or.inr (hholds.mono hprefix rfl))
    · exact Or.inr hcoming
  · exact h.inserted

/-- The call of a step stands elsewhere than where a node is added. -/
theorem adds_set {n : Nat} {c c' : Call} (hc : s.calls[n]? = some c)
    (hne : ∀ p, c.pc ≠ .ovsdbWrite (.receiptListAdd p)) :
    ∀ d ∈ s.calls, ∀ p, d.pc = .ovsdbWrite (.receiptListAdd p) →
      ∃ d' ∈ s.calls.set n c', d'.pc = d.pc :=
  fun d hd p hpc => ⟨d, mem_set_of_pc hc hd (fun heq => hne p (heq ▸ hpc)), rfl⟩

/-- **No step of the component loses track of a transaction.** -/
theorem Tracked.move (h : Tracked Coming s) (hform : ∀ uuid, Coming uuid → uuid.length ≤ maxUuidLen)
    (hshape : ComponentShape s) (hm : ComponentMove s s') : Tracked Coming s' := by
  have hsame : ∀ c ∈ s.calls, ∀ p, c.pc = .ovsdbWrite (.receiptListAdd p) → ∃ c' ∈ s.calls,
      c'.pc = c.pc :=
    fun c hc _ _ => ⟨c, hc, rfl⟩
  cases hm with
  | @interact c hpl hpc =>
      exact h.frame rfl (fun c hc _ _ => ⟨c, List.mem_append_left _ hc, rfl⟩) (List.prefix_refl _) rfl
        (Or.inr rfl)
  | @call n c s' hc hpl hfree hstep =>
      cases hstep with
      | idGenerate hpc _ _ =>
          exact h.frame rfl (adds_set hc (by rw [hpc]; exact fun _ h => by cases h)) (List.prefix_refl _)
            rfl (Or.inr rfl)
      | idGenerateWrite hpc _ _ =>
          exact h.frame rfl (adds_set hc (by rw [hpc]; exact fun _ h => by cases h)) (List.prefix_refl _)
            rfl (Or.inr rfl)
      | setBlocked hpc _ =>
          exact h.frame rfl (adds_set hc (by rw [hpc]; exact fun _ h => by cases h)) (List.prefix_refl _)
            rfl (Or.inr rfl)
      | insert hpc hp hc' =>
          -- the slot is free, so no other transaction is replaced
          refine h.insert hc hpl hpc hp ?_
          unfold Component.slotFree at hfree
          rw [hc] at hfree
          simp only [hpc, Option.isNone_iff_eq_none] at hfree
          exact hfree
      | receiptListAdd hpc hp => exact h.receiptListAdd hc hpc
      | socketWrite hpc hp =>
          exact h.frame rfl (adds_set hc (by rw [hpc]; exact fun _ h => by cases h)) (List.prefix_refl _)
            rfl (Or.inr rfl)
  | listener hl =>
      cases hl with
      | records hl hs hr ha => exact h.records hform hl hs hr
      | moves hr hs hr' ha => exact h.frame rfl hsame (List.prefix_refl _) hs (Or.inl hr')
      | @accesses call pc l' hl hl' =>
          have hmk := ListenerPc.access_makes hl
          obtain ⟨_, hacc⟩ := dbStep_access hmk.noCancel (hshape.listener call pc hl)
          exact h.frame rfl hsame hacc.receipts_prefix hl'.spent (Or.inl hl'.recording)
      | @unlinks i hl =>
          refine ⟨fun _ h => (by cases h), fun _ _ _ h => (by cases h), fun e he => ?_, h.inserted⟩
          rcases h.live e he with (hadds | hholds) | hcoming
          · exact Or.inl (Or.inl hadds)
          · exact Or.inl (Or.inr (hholds.unlink hl))
          · exact Or.inr hcoming
      | @destroys e uuid hl =>
          have hafter := After.afterDeleteGwConfig e.addr uuid (deleteGwConfigCall uuid).start
          have hspent : s.listener.spent = none := by rw [hl]; rfl
          have hsp : (ListenerPc.afterDeleteGwConfig e.addr uuid (deleteGwConfigCall uuid).start).spent
              = s.listener.spent := by rw [hspent]; exact hafter.spent
          have hframe : Tracked Coming { s with
              listener := .afterDeleteGwConfig e.addr uuid (deleteGwConfigCall uuid).start } :=
            h.frame rfl hsame (List.prefix_refl _) hsp (Or.inl hafter.recording)
          -- the log grows by what is freed, and nothing is inserted by that
          refine ⟨hframe.spent, hframe.recording, hframe.live, ?_⟩
          refine inserted_step h.inserted (List.subset_append_left _ _) (fun e' he' => ?_)
            fun e' he' => Or.inl ⟨e', he', rfl⟩
          rcases List.mem_append.1 he' with he' | he'
          · exact Or.inl he'
          · exact absurd he' inserted_notMem_frees
      | @signals a b m cs l' hr hs hcs hs' hr' ha =>
          refine h.frame rfl (fun c hc p hpc => ?_) (List.prefix_refl _) (hs'.trans hs.symm) (Or.inl hr')
          rcases hcs with rfl | rfl
          · exact ⟨c, hc, rfl⟩
          · exact ⟨c.feed a, List.mem_map_of_mem hc, rfl⟩
      | wakes hc hw =>
          rw [(hshape.calls _ (List.mem_of_getElem? hc)).not_waiting] at hw
          cases hw

/-! ## §3. Every uuid belongs to one transaction. -/

/-- The uuid of the new row, when the message reads as the reply to an insertion. -/
def ServerMsg.insertedUuid : ServerMsg → Option CString
  | .reply _ result =>
      match insertReceiptParser result with
      | .ok (some (.insert _ uuid)) => some uuid
      | _ => none
  | .update .. => none

/-- The uuid that is recorded next. -/
def Component.unrecorded (s : Component) : List CString :=
  (s.listener.recording.map fun r => r.2.2).toList

/-- The uuids `given` by the server: those on their way (`replies`) are new to
the component, and no two pending transactions have the same. -/
structure Uuids (given replies : List CString) (s : Component) : Prop where
  nodup : (s.unrecorded ++ replies).Nodup
  known : ∀ uuid ∈ s.unrecorded ++ replies, uuid ∈ given ∧ isUuid uuid = true
  live : ∀ e, s.manager.table.Mem e → e.uuid = [] ∨
    (e.uuid ∈ given ∧ isUuid e.uuid = true ∧ e.uuid ∉ s.unrecorded ++ replies)
  distinct : ∀ e e', s.manager.table.Mem e → s.manager.table.Mem e' → e.uuid = e'.uuid →
    e.uuid ≠ [] → e = e'

variable {given replies : List CString}

/-- Fewer uuids on their way, fewer transactions, more that are given. -/
theorem Uuids.frame {given' replies' : List CString} (h : Uuids given replies s)
    (hsub : (s'.unrecorded ++ replies').Sublist (s.unrecorded ++ replies))
    (hgiven : given ⊆ given') (htable : ∀ e, s'.manager.table.Mem e → s.manager.table.Mem e) :
    Uuids given' replies' s' := by
  constructor
  · exact h.nodup.sublist hsub
  · intro uuid hu
    obtain ⟨hg, huuid⟩ := h.known uuid (hsub.subset hu)
    exact ⟨hgiven hg, huuid⟩
  · intro e he
    rcases h.live e (htable e he) with hnil | ⟨hg, huuid, hnot⟩
    · exact Or.inl hnil
    · exact Or.inr ⟨hgiven hg, huuid, fun hmem => hnot (hsub.subset hmem)⟩
  · intro e e' he he'
    exact h.distinct e e' (htable e he) (htable e' he')

/-- A new transaction has no uuid yet. -/
theorem Uuids.insert (h : Uuids given replies s) {m : TransactionManager} {n : Nat} {c' : Call}
    {e₀ : TransactionEntry} (h₀ : e₀.uuid = [])
    (htable : ∀ e, m.table.Mem e → e = e₀ ∨ s.manager.table.Mem e) :
    Uuids given replies ({ s with manager := m }.setCall n c') := by
  refine ⟨h.nodup, h.known, fun e he => ?_, fun e e' he he' heq hne => ?_⟩
  · rcases htable e he with rfl | he
    · exact Or.inl h₀
    · exact h.live e he
  · rcases htable e he with rfl | he
    · exact absurd h₀ hne
    · rcases htable e' he' with rfl | he'
      · exact absurd (heq.trans h₀) hne
      · exact h.distinct e e' he he' heq hne

/-- The recorded uuid was new, so it becomes the uuid of one transaction only. -/
theorem Uuids.records (h : Uuids given replies s) {i : Nat} {rid uuid : CString} {l' : ListenerPc}
    (hl : s.listener = .updateTransaction i rid uuid) (hr : l'.recording = none) :
    Uuids given replies { s with
      manager := (updateTransaction (some rid) (some uuid) s.manager).2, listener := l' } := by
  have hun : s.unrecorded = [uuid] := by unfold Component.unrecorded; rw [hl]; rfl
  have hun' : ∀ m, Component.unrecorded { s with manager := m, listener := l' } = [] := by
    intro m
    show (l'.recording.map _).toList = []
    rw [hr]
    rfl
  have hmem : uuid ∈ s.unrecorded ++ replies := by rw [hun]; exact List.mem_cons_self ..
  obtain ⟨hgiven, huuid⟩ := h.known uuid hmem
  have hsub : replies.Sublist (s.unrecorded ++ replies) := List.sublist_append_right _ _
  have hnew : uuid ∉ replies := by
    have hnodup := h.nodup
    rw [hun] at hnodup
    exact (List.nodup_cons.1 hnodup).1
  cases hk : s.manager.table.elements (hashCode (atou rid)) with
  | none =>
      rw [updateTransaction_of_free hk]
      exact h.frame (by rw [hun']; exact hsub) (List.Subset.refl _) fun _ he => he
  | some e₀ =>
      have helems := @updateTransaction_elements _ uuid _ _ hk
      generalize (updateTransaction (some rid) (some uuid) s.manager).2 = m at helems
      have hcases : ∀ e, m.table.Mem e → e = e₀.withUuid uuid ∨ s.manager.table.Mem e := by
        intro e he
        have he : m.table.elements (hashCode e.id) = some e := he
        rw [helems] at he
        split at he
        · cases he; exact Or.inl rfl
        · exact Or.inr he
      have hstored : (e₀.withUuid uuid).uuid = uuid :=
        CString.strncpy_of_length_le (Nat.le_of_eq (length_of_isUuid huuid))
      -- no other transaction has the recorded uuid
      have hother : ∀ e, s.manager.table.Mem e → e.uuid ≠ uuid := by
        intro e he heq
        rcases h.live e he with hnil | ⟨_, _, hnot⟩
        · have hlen := length_of_isUuid huuid
          rw [← heq, hnil] at hlen
          cases hlen
        · rw [heq] at hnot
          exact hnot hmem
      refine ⟨?_, ?_, fun e he => ?_, fun e e' he he' heq hne => ?_⟩
      · rw [hun']; exact h.nodup.sublist hsub
      · rw [hun']; exact fun u hu => h.known u (hsub.subset hu)
      · rw [hun']
        rcases hcases e he with rfl | he
        · rw [hstored]
          exact Or.inr ⟨hgiven, huuid, hnew⟩
        · rcases h.live e he with hnil | ⟨hg, hform, hnot⟩
          · exact Or.inl hnil
          · exact Or.inr ⟨hg, hform, fun hu => hnot (hsub.subset hu)⟩
      · rcases hcases e he with rfl | he
        · rcases hcases e' he' with rfl | he'
          · rfl
          · exact absurd (heq.symm.trans hstored) (hother e' he')
        · rcases hcases e' he' with rfl | he'
          · exact absurd (heq.trans hstored) (hother e he)
          · exact h.distinct e e' he he' heq hne

/-- The step lemma of the uuids. -/
theorem Uuids.move (h : Uuids given replies s) (hshape : ComponentShape s) (hm : ComponentMove s s') :
    Uuids given replies s' := by
  have hsame : ∀ s' : Component, s'.manager.table = s.manager.table →
      (s'.listener.recording = none ∨ s'.listener = s.listener) → Uuids given replies s' := by
    intro s' htable hrec
    refine h.frame ?_ (List.Subset.refl _) fun e he => htable ▸ he
    unfold Component.unrecorded
    rcases hrec with hnone | heq
    · rw [hnone]
      exact List.sublist_append_right _ _
    · rw [heq]
  cases hm with
  | interact hpl hpc => exact hsame _ rfl (Or.inr rfl)
  | @call n c s' hc hpl hfree hstep =>
      cases hstep with
      | insert hpc hp hc' =>
          -- the new transaction has no uuid yet, whatever slot it takes
          have hfresh : (createTransaction (atou (utoa c.rid)) c.callback c.request.tableConfig
            s.manager).uuid = [] := rfl
          refine h.insert hfresh fun e he => ?_
          have he : (insertTransaction true (some (utoa c.rid)) c.callback (some c.request.tableConfig)
            s.manager).2.table.elements (hashCode e.id) = some e := he
          rw [insertTransaction_elements] at he
          split at he
          · cases he; exact Or.inl rfl
          · exact Or.inr he
      | _ => exact hsame _ rfl (Or.inr rfl)
  | listener hl =>
      cases hl with
      | records hl hs hr ha => exact h.records hl hr
      | moves hr hs hr' ha => exact hsame _ rfl (Or.inl hr')
      | accesses hl hl' => exact hsame _ rfl (Or.inl hl'.recording)
      | unlinks hl => exact hsame _ rfl (Or.inl rfl)
      | @destroys e uuid hl =>
          have hafter := After.afterDeleteGwConfig e.addr uuid (deleteGwConfigCall uuid).start
          exact hsame _ rfl (Or.inl hafter.recording)
      | signals hr hs hcs hs' hr' ha => exact hsame _ rfl (Or.inl hr')
      | wakes hc hw =>
          rw [(hshape.calls _ (List.mem_of_getElem? hc)).not_waiting] at hw
          cases hw

/-- The server gives a new uuid. -/
theorem Uuids.commit {given' : List CString} {uuid : CString} (h : Uuids given replies s)
    (huuid : isUuid uuid = true) (hnew : uuid ∉ given) (hgiven : given' = given ++ [uuid]) :
    Uuids given' (replies ++ [uuid]) s := by
  have hsub : given ⊆ given' := by rw [hgiven]; exact List.subset_append_left _ _
  have hmem : uuid ∈ given' := by rw [hgiven]; exact List.mem_append_right _ (List.mem_singleton_self _)
  constructor
  · rw [← List.append_assoc]
    refine h.nodup.append (List.nodup_singleton _) ?_
    rw [List.disjoint_singleton]
    exact fun hu => hnew (h.known uuid hu).1
  · intro u hu
    rw [← List.append_assoc, List.mem_append, List.mem_singleton] at hu
    rcases hu with hu | rfl
    · exact ⟨hsub (h.known u hu).1, (h.known u hu).2⟩
    · exact ⟨hmem, huuid⟩
  · intro e he
    rcases h.live e he with hnil | ⟨hg, hform, hnot⟩
    · exact Or.inl hnil
    · refine Or.inr ⟨hsub hg, hform, fun hu => ?_⟩
      rw [← List.append_assoc, List.mem_append, List.mem_singleton] at hu
      rcases hu with hu | heq
      · exact hnot hu
      · exact hnew (heq ▸ hg)
  · exact h.distinct

/-! ## §4. Messages. -/

/-- A receipt read as that of an insertion was the reply to one. -/
theorem insertedUuid_of_parse {ty : OvsdbReceiptId} {rid error uuid : CString} {result : Json}
    (h : ovsdbParseResult ty (some result) = .ok (some (.insert error uuid))) :
    (ServerMsg.reply rid result).insertedUuid = some uuid := by
  obtain rfl : OvsdbReceiptId.insert = ty := ovsdbParseResult_receiptId h
  have h : insertReceiptParser result = .ok (some (.insert error uuid)) := h
  simp only [ServerMsg.insertedUuid, h]

/-- What a message does to the component, whatever the message is. -/
structure HearFrame (s s' : Component) : Prop where
  idle : s.listener = .idle
  db : s'.db = s.db
  calls : s'.calls = s.calls
  table : ∀ e, s'.manager.table.Mem e → s.manager.table.Mem e

theorem hear_frame {msg : ServerMsg} (h : s.hear msg = some s') : HearFrame s s' := by
  obtain ⟨hl, hheard⟩ := hear_cases h
  cases hheard with
  | ignored => exact ⟨hl, rfl, rfl, fun _ he => he⟩
  | unlinks => exact ⟨hl, rfl, rfl, fun _ he => he⟩
  | records => exact ⟨hl, rfl, rfl, fun _ he => he⟩
  | takes _ _ ht hm' =>
      obtain ⟨_, e₁, _, _, _, _, rfl⟩ := takeTransaction_some ht
      rcases hm' with rfl | rfl
      · exact ⟨hl, rfl, rfl, fun e he => (SlotTable.mem_clear.1 he).2⟩
      · exact ⟨hl, rfl, rfl, fun e he => (SlotTable.mem_clear.1 he).2⟩

/-- The update is a Feedback row for this uuid, for a monitor the component has. -/
structure ServerMsg.Feeds (monitors : List MonNode) (msg : ServerMsg) (uuid : CString) : Prop where
  message : ∃ monId rowUuid ret, msg = .update monId feedbackTableName rowUuid
    (.new (.object (fbRow ⟨ret, uuid⟩))) ∧ ∃ node ∈ monitors, node.matches monId = true

/-- The column of a Feedback row holds the uuid it was made with. -/
theorem fbRow_reqUuid {uuid : CString} (h : isUuid uuid = true) (ret : Int) :
    (feedbackConfigParser (.object (fbRow ⟨ret, uuid⟩))).reqUuid = uuid := by
  have hcol : reqUuidColumn (.object (fbRow ⟨ret, uuid⟩)) = some uuid := by
    unfold fbRow
    rw [jsonString_of_valid (utf8Valid_of_isUuid h)]
    rfl
  rw [feedbackConfigParser_reqUuid, hcol]
  exact CString.strncpy_of_length_le (Nat.le_of_eq (length_of_isUuid h))

/-- The Feedback of a pending transaction completes it. -/
theorem feeds_completes (hu : Uuids given replies s) (hshape : ComponentShape s) {msg : ServerMsg}
    {e : TransactionEntry} (he : s.manager.table.Mem e) (huuid : isUuid e.uuid = true)
    (hf : msg.Feeds s.db.monitors e.uuid) (hstep : s.hear msg = some s') : ¬ s'.manager.table.Mem e := by
  obtain ⟨monId, rowUuid, ret, rfl, node, hnode, hmatch⟩ := hf.message
  have hfind : ∃ node', (s.db.monitors.find? fun node => node.matches monId) = some node' := by
    rw [← Option.isSome_iff_exists, List.find?_isSome]
    exact ⟨node, hnode, hmatch⟩
  obtain ⟨node', hfind⟩ := hfind
  have hcb := hshape.layer.monCb node' (List.mem_of_find?_eq_some hfind)
  have hs' := feedbackUpdate_step ⟨monId, node', rfl, hfind, hcb⟩ hstep
  have hreq := fbRow_reqUuid huuid ret
  have hne : e.uuid ≠ [] := by
    intro heq
    have hlen := length_of_isUuid huuid
    rw [heq] at hlen
    cases hlen
  cases ht : takeTransaction (some (feedbackConfigParser (.object (fbRow ⟨ret, e.uuid⟩))).reqUuid)
      (feedbackConfigParser (.object (fbRow ⟨ret, e.uuid⟩))).status s.manager with
  | none =>
      -- the transaction itself has the uuid
      have hno := takeTransaction_none.1 ht e he
      unfold TransactionEntry.hasUuid at hno
      rw [hreq, CString.strncmpEq_self] at hno
      cases hno
  | some p =>
      obtain ⟨e', m⟩ := p
      obtain ⟨u, e₁, hu₁, he₁, hhas, _, rfl⟩ := takeTransaction_some ht
      cases hu₁
      have hsame : e₁ = e := by
        unfold TransactionEntry.hasUuid at hhas
        rw [hreq] at hhas
        have hlen₁ : e₁.uuid.length ≤ maxUuidLen := by
          rcases hu.live e₁ he₁ with hnil | ⟨_, hform, _⟩
          · rw [hnil]; exact Nat.zero_le _
          · exact Nat.le_of_eq (length_of_isUuid hform)
        rw [CString.strncmpEq_iff_eq hlen₁ (Nat.le_of_eq (length_of_isUuid huuid))] at hhas
        exact hu.distinct e₁ e he₁ he hhas (by rw [hhas]; exact hne)
      have htable : s'.manager.table = s.manager.table.clear (hashCode e₁.id) := by
        rw [hs']
        simp only [monitorFeedbackCallback, ht]
        cases e'.callback with
        | none => rfl
        | some cb => rfl
      rw [htable, SlotTable.mem_clear, hsame]
      exact fun h => h.1 rfl

/-- A transaction that is taken out of the table is completed. -/
theorem inserted_take {uuid : Option CString} {status : Int} {m m' : TransactionManager}
    {e₀ : TransactionEntry} (ht : takeTransaction uuid status m = some (e₀, m'))
    (h : ∀ e, .inserted e ∈ m.log → m.Keeps e) (m'' : TransactionManager)
    (hm'' : m'' = m' ∨ m'' = destroyTransaction e₀ m') :
    ∀ e, .inserted e ∈ m''.log → m''.Keeps e := by
  obtain ⟨_, e₁, _, he₁, _, rfl, rfl⟩ := takeTransaction_some ht
  have htaken : ∀ e, (TransactionEvent.inserted e ∈ m.log ++ e₁.completion status) →
      (∃ e', (m.table.clear (hashCode e₁.id)).Mem e' ∧ e'.addr = e.addr) ∨
        ∃ st, .completed e.addr st ∈ m.log ++ e₁.completion status := by
    intro e he
    rcases List.mem_append.1 he with he | he
    · rcases h e he with ⟨e', he', haddr⟩ | ⟨st, hst⟩
      · by_cases hslot : hashCode e'.id = hashCode e₁.id
        · have hsame := SlotTable.mem_unique he' he₁ hslot
          subst hsame
          rw [← haddr]
          exact Or.inr ⟨status, List.mem_append_right _ (List.mem_cons_self ..)⟩
        · exact Or.inl ⟨e', SlotTable.mem_clear.2 ⟨hslot, he'⟩, haddr⟩
      · exact Or.inr ⟨st, List.mem_append_left _ hst⟩
    · exact absurd he inserted_notMem_completion
  rcases hm'' with rfl | rfl
  · exact htaken
  · intro e he
    rcases List.mem_append.1 he with he | he
    · rcases htaken e he with hlive | ⟨st, hst⟩
      · exact Or.inl hlive
      · exact Or.inr ⟨st, List.mem_append_left _ hst⟩
    · exact absurd he inserted_notMem_frees

/-- **No message loses track of a transaction.**  What was `Coming` still is,
unless it is the Feedback just read; a uuid the message tells of is `Coming`. -/
theorem Tracked.hear (h : Tracked Coming s) (hu : Uuids given replies s) (hshape : ComponentShape s)
    {msg : ServerMsg} (hform : ∀ uuid, Coming uuid → isUuid uuid = true)
    (hnext : ∀ uuid, Coming uuid → Coming' uuid ∨ msg.Feeds s.db.monitors uuid)
    (hinserted : ∀ uuid, msg.insertedUuid = some uuid → Coming' uuid)
    (hstep : s.hear msg = some s') : Tracked Coming' s' := by
  obtain ⟨hl, hdb, hcalls, htable⟩ := hear_frame hstep
  have hidle : s.listener.spent = none := by rw [hl]; rfl
  -- a transaction that is still pending was not completed by this message
  have hlive : ∀ e, s'.manager.table.Mem e → s.Awaits e ∨ Coming' e.uuid := by
    intro e he
    rcases h.live e (htable e he) with hawaits | hcoming
    · exact Or.inl hawaits
    · rcases hnext _ hcoming with hnow | hfeeds
      · exact Or.inr hnow
      · exact absurd he (feeds_completes hu hshape (htable e he) (hform _ hcoming) hfeeds hstep)
  have hawaits : ∀ e, s'.listener.spent = none → s.Awaits e → s'.Awaits e := by
    intro e hs hawaits
    rcases hawaits with hadds | hholds
    · exact Or.inl (hadds.mono fun c hc _ _ => ⟨c, hcalls ▸ hc, rfl⟩)
    · exact Or.inr (hholds.mono (hdb ▸ List.prefix_refl _) (hs.trans hidle.symm))
  -- the listener goes on for a transaction, or not at all
  have hgoes : s'.listener.spent = none → s'.listener.recording = none →
      (∀ e, .inserted e ∈ s'.manager.log → s'.manager.Keeps e) → Tracked Coming' s' := by
    intro hs hr hins
    refine ⟨fun i hi => ?_, fun i rid uuid hrec => ?_, fun e he => ?_, hins⟩
    · rw [hs] at hi; cases hi
    · rw [hr] at hrec; cases hrec
    · exact (hlive e he).imp_left (hawaits e hs)
  obtain ⟨_, hheard⟩ := hear_cases hstep
  cases hheard with
  | ignored => exact hgoes hidle (by rw [hl]; rfl) h.inserted
  | @unlinks i rid result node cb receipt hmsg hnode hcb hparse hnot =>
      refine ⟨fun j hj => ?_, fun _ _ _ hr => (by cases hr), fun e he => ?_, h.inserted⟩
      · cases hj; exact (List.getElem?_eq_some_iff.1 hnode).1
      · rcases hlive e he with (hadds | hholds) | hcoming
        · exact Or.inl (Or.inl hadds)
        · have hspent : (ListenerPc.unlink i).spent = some i := rfl
          refine Or.inl (Or.inr (hholds.spend hspent fun node' hnode' hg => ?_))
          -- a node that gives a uuid is not just unlinked
          rw [hnode] at hnode'
          cases hnode'
          rw [hg.receiptType] at hparse
          obtain ⟨uuid, hins, _⟩ := insertReceiptParser_ok hparse
          exact hnot (Option.some.inj (hcb.symm.trans hg.callback)) [] uuid hins
        · exact Or.inr hcoming
  | @records i rid result node error uuid hmsg hnode hmatch hcb hparse =>
      have hrid : rid = node.rid :=
        CString.eq_of_strncmpEq_succ (hshape.layer.receiptRid node (List.mem_of_getElem? hnode)) hmatch
      refine ⟨fun j hj => (by cases hj), fun j r u hr => ?_, fun e he => ?_, h.inserted⟩
      · cases hr
        subst hmsg
        exact ⟨hinserted uuid (insertedUuid_of_parse hparse), node, hnode, hrid.symm⟩
      · exact (hlive e he).imp_left (hawaits e rfl)
  | takes _ _ ht hm' hs hr _ => exact hgoes hs hr (inserted_take ht h.inserted _ hm')

/-- The step lemma of the uuids for a message. -/
theorem Uuids.hear {msg : ServerMsg} (h : Uuids given (msg.insertedUuid.toList ++ replies) s)
    (hstep : s.hear msg = some s') : Uuids given replies s' := by
  obtain ⟨hl, _, _, htable⟩ := hear_frame hstep
  have hun : s.unrecorded = [] := by unfold Component.unrecorded; rw [hl]; rfl
  refine h.frame ?_ (List.Subset.refl _) htable
  rw [hun, List.nil_append]
  refine List.Sublist.append ?_ (List.Sublist.refl _)
  have hnone : s'.listener.recording = none → s'.unrecorded.Sublist msg.insertedUuid.toList := by
    intro hr
    unfold Component.unrecorded
    rw [hr]
    exact List.nil_sublist _
  obtain ⟨_, hheard⟩ := hear_cases hstep
  cases hheard with
  | ignored => exact hnone (by rw [hl]; rfl)
  | unlinks => exact hnone rfl
  | records hmsg _ _ _ hparse =>
      subst hmsg
      rw [insertedUuid_of_parse hparse]
      exact List.Sublist.refl _
  | takes _ _ _ _ _ hr _ => exact hnone hr

end OvsAgent
