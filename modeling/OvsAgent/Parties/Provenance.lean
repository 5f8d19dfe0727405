/-
  OvsAgent.Parties.Provenance — what a completion says.

  A callback is told a status by a Feedback row that went through two
  processes and the server.  Nothing on the way is signed, and the parties
  find each other's rows by uuids and by request ids that wrap around at 2^32.
  What holds the chain together is that a transaction waits for one insertion
  at a time:

      a call that writes   a request unserved   a reply unread   a uuid unrecorded

  each have a transaction of their own in the table, which has no uuid yet; so
  the uuid that is recorded is that of the row it asked for, and the Feedback
  with this uuid reports the agent's action on that row.

  Main results: `provenance_step` and `provenance_of_reach` — no step mixes up
  what was asked for, and so no run does.
-/
import OvsAgent.Parties.Records

namespace OvsAgent

open CString (ofString utoa atou strncpy)
open Json
open ListenerPc (After)

/-! ## §1. Insertions underway. -/

/-- The call stands at an access of its write. -/
def Call.writing (c : Call) : Bool :=
  match c.pc with
  | .ovsdbWrite _ => true
  | _ => false

/-- The call is writing the insertion with this id. -/
def Call.inserts (id : Nat) (c : Call) : Bool := c.writing && c.rid == id

/-- The request is the insertion with this id. -/
def Sent.inserts (id : Nat) (x : Sent) : Bool :=
  match readRequest x.request with
  | some (rid, .insert _ _) => atou rid == id
  | _ => false

/-- The message is the reply to the insertion with this id. -/
def ServerMsg.inserts (id : Nat) (msg : ServerMsg) : Bool :=
  match msg with
  | .reply rid _ => msg.insertedUuid.isSome && atou rid == id
  | .update .. => false

/-- The listener is about to record the uuid of the insertion with this id. -/
def ListenerPc.inserts (id : Nat) (l : ListenerPc) : Bool := l.recording.any fun r => atou r.2.1 == id

/-- The requests of the component that the server has still to carry out. -/
def Network.unserved (s : Network) : List Sent := s.component.db.sent.drop s.server.servedComponent

/-- How many insertions with this id are underway. -/
def Network.insertions (s : Network) (id : Nat) : Nat :=
  s.component.calls.countP (Call.inserts id) + s.unserved.countP (Sent.inserts id) +
    s.server.toComponent.countP (ServerMsg.inserts id) + (s.component.listener.inserts id).toNat

theorem countP_writing_pos {calls : List Call} {c : Call} (hc : c ∈ calls) (hw : c.writing = true) :
    0 < calls.countP (Call.inserts c.rid) := by
  refine List.countP_pos_iff.2 ⟨c, hc, ?_⟩
  unfold Call.inserts
  rw [hw, beq_self_eq_true]
  rfl

theorem inserts_of_read {x : Sent} {rid table : CString} {row : Json}
    (h : readRequest x.request = some (rid, .insert table row)) : x.inserts (atou rid) = true := by
  unfold Sent.inserts
  rw [h]
  exact beq_self_eq_true _

theorem inserts_of_insertedUuid {rid uuid : CString} {result : Json}
    (h : (ServerMsg.reply rid result).insertedUuid = some uuid) :
    (ServerMsg.reply rid result).inserts (atou rid) = true := by
  show ((ServerMsg.reply rid result).insertedUuid.isSome && atou rid == atou rid) = true
  rw [h, beq_self_eq_true]
  rfl

/-- A message that tells of no uuid is no reply to an insertion. -/
theorem inserts_of_none {msg : ServerMsg} (h : msg.insertedUuid = none) (id : Nat) :
    msg.inserts id = false := by
  cases msg with
  | reply rid result => unfold ServerMsg.inserts; rw [h]; rfl
  | update _ _ _ _ => rfl

/-- The transaction `e` waits for the uuid of the row it asks for with this id. -/
structure TransactionEntry.Waits (e : TransactionEntry) (t : TransactionTable) (id : Nat)
    (row : Json) : Prop where
  mem : t.Mem e
  id : e.id = id
  uuid : e.uuid = []
  table : e.tableConfig.tableId.name = some gatewayConfigTableName
  row : row = .object e.tableConfig.row

/-- Some committed row answers the transaction at this address. -/
def Record.Owned (r : Record) (a : Nat) : Prop := ∃ c ∈ r.commits, c.owner = some a

/-- The row with this uuid is the one `e` asked for. -/
def Record.RowOf (r : Record) (e : TransactionEntry) (uuid : CString) : Prop :=
  ∃ c ∈ r.commits, c.owner = some e.addr ∧ c.row = ⟨gatewayConfigTableName, uuid,
    .object e.tableConfig.row⟩

/-! ## §2. The invariant. -/

/-- Every insertion underway belongs to a transaction of its own, and every
row, uuid and completion to the transaction it was asked for. -/
structure Provenance (s : Network) (r : Record) : Prop where
  writing : ∀ c ∈ s.component.calls, c.writing = true → ∃ e : TransactionEntry,
    e.Waits s.component.manager.table c.rid (.object c.request.tableConfig.row) ∧ ¬ r.Owned e.addr
  asked : ∀ x ∈ s.unserved, ∀ rid table row, readRequest x.request = some (rid, .insert table row) →
    ∃ e : TransactionEntry, e.Waits s.component.manager.table (atou rid) row ∧ ¬ r.Owned e.addr
  replied : ∀ rid result uuid, .reply rid result ∈ s.server.toComponent →
    (ServerMsg.reply rid result).insertedUuid = some uuid → ∃ (e : TransactionEntry) (row : Json),
      e.Waits s.component.manager.table (atou rid) row ∧ r.RowOf e uuid
  recording : ∀ i rid uuid, s.component.listener.recording = some (i, rid, uuid) →
    ∃ (e : TransactionEntry) (row : Json), e.Waits s.component.manager.table (atou rid) row ∧
      r.RowOf e uuid
  single : ∀ id, s.insertions id ≤ 1
  recorded : ∀ e, s.component.manager.table.Mem e → e.uuid ≠ [] → r.RowOf e e.uuid
  commits : ∀ c ∈ r.commits, c.row.table = gatewayConfigTableName → ∃ e : TransactionEntry,
    .inserted e ∈ s.component.manager.log ∧ c.owner = some e.addr ∧
      e.tableConfig.tableId.name = some gatewayConfigTableName ∧ c.row.columns = .object e.tableConfig.row
  owned : ∀ c ∈ r.commits, c.owner ≠ none → c.row.table = gatewayConfigTableName
  distinct : ∀ c ∈ r.commits, ∀ c' ∈ r.commits, c.owner = c'.owner → c.owner ≠ none → c = c'
  completed : ∀ a st, .completed a st ∈ s.component.manager.log →
    ∃ x ∈ r.actions, ∃ c ∈ r.commits,
      c.row.uuid = x.row.uuid ∧ c.owner = some a ∧ st = toInt x.ret

theorem provenance_start (cid agentCid : Nat) : Provenance (.start cid agentCid) ⟨[], []⟩ where
  writing := fun _ h => (by cases h)
  asked := fun _ h => (by cases h)
  replied := fun _ _ _ h => (by cases h)
  recording := fun _ _ _ h => (by cases h)
  single := fun _ => Nat.zero_le _
  recorded := fun _ h => (by cases h)
  commits := fun _ h => (by cases h)
  owned := fun _ h => (by cases h)
  distinct := fun _ h => (by cases h)
  completed := fun _ _ h => (by cases h)

section Frame

variable {s s' : Network} {r : Record}

/-- The frame lemma: the table is as before, and nothing new is underway. -/
theorem Provenance.frame (h : Provenance s r)
    (htable : s'.component.manager.table = s.component.manager.table)
    (hinserted : ∀ e, .inserted e ∈ s.component.manager.log → .inserted e ∈ s'.component.manager.log)
    (hcompleted : ∀ a st, .completed a st ∈ s'.component.manager.log →
      .completed a st ∈ s.component.manager.log)
    (hcalls : ∀ c' ∈ s'.component.calls, c'.writing = true → ∃ c ∈ s.component.calls,
      c.writing = true ∧ c.rid = c'.rid ∧ c.request = c'.request)
    (hunserved : ∀ x ∈ s'.unserved, x ∈ s.unserved ∨ ∀ rid table row,
      readRequest x.request ≠ some (rid, .insert table row))
    (hreplies : s'.server.toComponent ⊆ s.server.toComponent)
    (hrecording : s'.component.listener.recording = none ∨ s'.component.listener.recording =
      s.component.listener.recording)
    (hcount : ∀ id, s'.insertions id ≤ s.insertions id) : Provenance s' r := by
  constructor
  · intro c' hc' hw
    obtain ⟨c, hc, hcw, hrid, hreq⟩ := hcalls c' hc' hw
    rw [htable, ← hrid, ← hreq]
    exact h.writing c hc hcw
  · intro x hx rid table row hread
    rw [htable]
    rcases hunserved x hx with hx | hno
    · exact h.asked x hx rid table row hread
    · exact absurd hread (hno rid table row)
  · intro rid result uuid hmsg hins
    rw [htable]
    exact h.replied rid result uuid (hreplies hmsg) hins
  · intro i rid uuid hrec
    rw [htable]
    rcases hrecording with hnone | hsame
    · rw [hnone] at hrec; cases hrec
    · exact h.recording i rid uuid (hsame ▸ hrec)
  · exact fun id => Nat.le_trans (hcount id) (h.single id)
  · rw [htable]; exact h.recorded
  · intro c hc ht
    obtain ⟨e, he, hrest⟩ := h.commits c hc ht
    exact ⟨e, hinserted e he, hrest⟩
  · exact h.owned
  · exact h.distinct
  · exact fun a st hev => h.completed a st (hcompleted a st hev)

/-- An insertion that is underway has its transaction in the table. -/
theorem Provenance.exists_of_insertions (h : Provenance s r) {id : Nat} (hpos : 0 < s.insertions id) :
    ∃ e, s.component.manager.table.Mem e ∧ e.id = id := by
  have hsome : 0 < s.component.calls.countP (Call.inserts id) ∨ 0 < s.unserved.countP (Sent.inserts id) ∨
      0 < s.server.toComponent.countP (ServerMsg.inserts id) ∨ s.component.listener.inserts id = true := by
    unfold Network.insertions at hpos
    cases hl : s.component.listener.inserts id with
    | false =>
        rw [hl] at hpos
        simp only [Bool.toNat_false] at hpos
        omega
    | true => exact Or.inr (Or.inr (Or.inr rfl))
  rcases hsome with hc | hx | hm | hl
  · obtain ⟨c, hc, hp⟩ := List.countP_pos_iff.1 hc
    simp only [Call.inserts, Bool.and_eq_true, beq_iff_eq] at hp
    obtain ⟨e, he, _⟩ := h.writing c hc hp.1
    exact ⟨e, he.mem, he.id.trans hp.2⟩
  · obtain ⟨x, hx, hp⟩ := List.countP_pos_iff.1 hx
    unfold Sent.inserts at hp
    split at hp
    · next rid table row hread =>
        obtain ⟨e, he, _⟩ := h.asked x hx rid table row hread
        exact ⟨e, he.mem, he.id.trans (beq_iff_eq.1 hp)⟩
    · cases hp
  · obtain ⟨msg, hm, hp⟩ := List.countP_pos_iff.1 hm
    cases msg with
    | reply rid result =>
        simp only [ServerMsg.inserts, Bool.and_eq_true, beq_iff_eq, Option.isSome_iff_exists] at hp
        obtain ⟨⟨uuid, hu⟩, hid⟩ := hp
        obtain ⟨e, row, he, _⟩ := h.replied rid result uuid hm hu
        exact ⟨e, he.mem, he.id.trans hid⟩
    | update _ _ _ _ => cases hp
  · obtain ⟨⟨i, rid, uuid⟩, hrec, hid⟩ := (Option.any_eq_true _ _).1 hl
    obtain ⟨e, row, he, _⟩ := h.recording i rid uuid hrec
    exact ⟨e, he.mem, he.id.trans (beq_iff_eq.1 hid)⟩

end Frame

/-! ## §3. Steps of the component. -/

/-- Counting after one call has moved on. -/
theorem countP_set_add {α : Type*} {p : α → Bool} {l : List α} {n : Nat} {a b : α}
    (h : l[n]? = some a) :
    (l.set n b).countP p + (p a).toNat = l.countP p + (p b).toNat := by
  obtain ⟨hlt, rfl⟩ := List.getElem?_eq_some_iff.1 h
  have hle : (if p l[n] then 1 else 0) ≤ l.countP p := List.boole_getElem_le_countP hlt
  rw [List.countP_set hlt]
  cases hp : p l[n] with
  | false => cases p b <;> simp
  | true =>
      rw [hp, if_pos rfl] at hle
      cases p b <;> simp <;> omega

section Component

variable {s : Network} {r : Record}

/-- Every request of the component registers its transaction. -/
theorem Call.Plain.registers_component {c : Call} (h : c.Plain componentRole) : c.registers = true := by
  have hcb := h.receiptCb
  by_contra hreg
  rw [if_neg hreg] at hcb
  cases hcb

/-- A request that registers its transaction goes on to the flag when it has its id. -/
theorem callStep_registers {s : Component} {n : Nat} {c : Call} (hc : s.calls[n]? = some c)
    (hpc : c.pc = .idGenerate) (hreg : c.registers = true) (malloc : Bool) (o : Outcome) :
    callStep s n malloc o = some ({ s with db := (idGenerate s.db).2 }.setCall n
      (Call.goto { c with rid := (idGenerate s.db).1 } .setBlocked)) := by
  simp only [callStep, hc, hpc]
  exact congrArg (fun d => some (Component.setCall { s with db := (idGenerate s.db).2 } n d)) (if_pos hreg)

/-- The insertions underway after a step that changes one call and the requests sent. -/
theorem insertions_set {n : Nat} {c c' : Call} {comp : Component} (hc : s.component.calls[n]? = some c)
    (hcalls : comp.calls = s.component.calls.set n c') (hlistener : comp.listener = s.component.listener)
    (id : Nat) :
    Network.insertions { s with component := comp } id + (c.inserts id).toNat + s.unserved.countP
    (Sent.inserts id)
      = s.insertions id + (c'.inserts id).toNat +
        (Network.unserved { s with component := comp }).countP (Sent.inserts id) := by
  have hcount := countP_set_add (p := Call.inserts id) (b := c') hc
  unfold Network.insertions
  show comp.calls.countP _ + _ + s.server.toComponent.countP (ServerMsg.inserts id) +
    (comp.listener.inserts id).toNat + _ + _ = _
  rw [hcalls, hlistener]
  omega

theorem inserts_of_not_writing {c : Call} (h : c.writing = false) (id : Nat) : c.inserts id = false := by
  unfold Call.inserts
  rw [h]
  rfl

/-- A step of a call that is not writing before or after it. -/
theorem Provenance.quiet (h : Provenance s r) {n : Nat} {c d : Call} {comp : Component}
    (hc : s.component.calls[n]? = some c) (hcalls : comp.calls = s.component.calls.set n d)
    (hw : c.writing = false) (hw' : d.writing = false) (hm : comp.manager = s.component.manager)
    (hsent : comp.db.sent = s.component.db.sent) (hl : comp.listener = s.component.listener) :
    Provenance { s with component := comp } r := by
  have hunserved : Network.unserved { s with component := comp } = s.unserved := by
    unfold Network.unserved
    show comp.db.sent.drop _ = _
    rw [hsent]
  refine h.frame (congrArg _ hm) (fun e he => ?_) (fun a st hev => ?_) (fun k hk hkw => ?_) (fun x hx => ?_)
    (List.Subset.refl _) (Or.inr (congrArg _ hl)) fun id => ?_
  · show _ ∈ comp.manager.log
    rw [hm]; exact he
  · have hev : _ ∈ comp.manager.log := hev
    rw [hm] at hev; exact hev
  · have hk : k ∈ comp.calls := hk
    rw [hcalls] at hk
    rcases List.mem_or_eq_of_mem_set hk with hk | rfl
    · exact ⟨k, hk, hkw, rfl, rfl⟩
    · rw [hw'] at hkw; cases hkw
  · rw [hunserved] at hx
    exact Or.inl hx
  · have hcount := insertions_set hc hcalls hl id
    rw [inserts_of_not_writing hw, inserts_of_not_writing hw', hunserved] at hcount
    omega

/-- The receipt node of the write. -/
theorem Provenance.receiptListAdd (h : Provenance s r) {n : Nat} {c : Call} {p : Prepared} {comp : Component}
    (hc : s.component.calls[n]? = some c) (hpc : c.pc = .ovsdbWrite (.receiptListAdd p))
    (hcomp : comp = Component.setCall { s.component with
      db := { s.component.db with receipts := s.component.db.receipts ++ [p.node] } } n
        (c.goto (.ovsdbWrite (.socketWrite p)))) :
    Provenance { s with component := comp } r := by
  have hw : c.writing = true := by unfold Call.writing; rw [hpc]
  subst hcomp
  refine h.frame rfl (fun _ he => he) (fun _ _ hev => hev) (fun d hd hdw => ?_) (fun x hx => Or.inl hx)
    (List.Subset.refl _) (Or.inr rfl) fun id => ?_
  · rcases List.mem_or_eq_of_mem_set hd with hd | rfl
    · exact ⟨d, hd, hdw, rfl, rfl⟩
    · exact ⟨c, List.mem_of_getElem? hc, hw, rfl, rfl⟩
  · have hcount := countP_set_add (p := Call.inserts id) (b := c.goto (.ovsdbWrite (.socketWrite p))) hc
    -- the call is still the one that writes the insertion
    have hsame : (c.goto (.ovsdbWrite (.socketWrite p))).inserts id = c.inserts id := by
      unfold Call.inserts
      rw [hw]
      rfl
    rw [hsame] at hcount
    exact Nat.add_le_add_right (Nat.add_le_add_right (Nat.add_le_add_right (Nat.le_of_add_le_add_right
      (Nat.le_of_eq hcount)) _) _) _

/-- The insertion goes out: the request takes over from the call. -/
theorem Provenance.socketWrite (h : Provenance s r) {n : Nat} {c : Call} {p : Prepared} {comp : Component}
    (hc : s.component.calls[n]? = some c) (hpl : c.Plain componentRole)
    (hpc : c.pc = .ovsdbWrite (.socketWrite p)) (hp : c.writeCall.Prepares p)
    (hcomp : comp = Component.setCall { s.component with
      db := { s.component.db with sent := s.component.db.sent ++ [Sent.mk p.strJson .whole] } } n c.sentOff) :
    Provenance { s with component := comp } r := by
  have hw : c.writing = true := by unfold Call.writing; rw [hpc]
  have hw' : c.sentOff.writing = false := by
    have hplace : c.sentOff.pc = .returned true := if_neg (by rw [hpl.blocking]; decide)
    unfold Call.writing
    rw [hplace]
  have hcalls : comp.calls = s.component.calls.set n c.sentOff := by rw [hcomp]; rfl
  have hlistener : comp.listener = s.component.listener := by rw [hcomp]; rfl
  have hmanager : comp.manager = s.component.manager := by rw [hcomp]; rfl
  -- only in a state no run reaches has the server been ahead of the sender
  have hunserved : (Network.unserved { s with component := comp }).Sublist
      (s.unserved ++ [Sent.mk p.strJson .whole]) := by
    show (comp.db.sent.drop s.server.servedComponent).Sublist _
    rw [hcomp]
    show ((s.component.db.sent ++ _).drop _).Sublist _
    rw [List.drop_append]
    exact (List.Sublist.refl _).append (List.drop_sublist _ _)
  have hinserts : ∀ id, (Sent.mk p.strJson .whole).inserts id = true → c.inserts id = true := by
    intro id hx
    unfold Sent.inserts at hx
    split at hx
    · next rid table row hread =>
        obtain ⟨rfl, _⟩ := hpl.read hp hread
        rw [atou_rid hpl] at hx
        unfold Call.inserts
        rw [hw, Bool.true_and]
        exact hx
    · cases hx
  refine ⟨fun d hd hdw => ?_, fun x hx rid table row hread => ?_, ?_, ?_, fun id => ?_, ?_, ?_, h.owned,
    h.distinct, ?_⟩
  · show ∃ e : TransactionEntry, e.Waits comp.manager.table _ _ ∧ _
    rw [hmanager]
    have hd : d ∈ comp.calls := hd
    rw [hcalls] at hd
    rcases List.mem_or_eq_of_mem_set hd with hd | rfl
    · exact h.writing d hd hdw
    · rw [hw'] at hdw; cases hdw
  · show ∃ e : TransactionEntry, e.Waits comp.manager.table _ _ ∧ _
    rw [hmanager]
    rcases List.mem_append.1 (hunserved.subset hx) with hx | hx
    · exact h.asked x hx rid table row hread
    · rw [List.mem_singleton.1 hx] at hread
      obtain ⟨rfl, hreq⟩ := hpl.read hp hread
      cases hreq
      rw [atou_rid hpl]
      exact h.writing c (List.mem_of_getElem? hc) hw
  · show ∀ rid result uuid, _ → _ → ∃ (e : TransactionEntry) (row : Json),
      e.Waits comp.manager.table _ _ ∧ _
    rw [hmanager]
    exact h.replied
  · show ∀ i rid uuid, comp.listener.recording = _ →
      ∃ (e : TransactionEntry) (row : Json), e.Waits comp.manager.table _ _ ∧ _
    rw [hmanager, hlistener]
    exact h.recording
  · have hcount := insertions_set (s := s) hc hcalls hlistener id
    have hle := hunserved.countP_le (p := Sent.inserts id)
    rw [List.countP_append, List.countP_singleton] at hle
    rw [inserts_of_not_writing hw'] at hcount
    have hsingle := h.single id
    have hadd : (if (Sent.mk p.strJson .whole).inserts id = true then 1 else 0) ≤ (c.inserts id).toNat := by
      split
      · next hx => rw [hinserts id hx]; exact Nat.le_refl _
      · exact Nat.zero_le _
    simp only [Bool.toNat_false] at hcount
    omega
  · show ∀ e, comp.manager.table.Mem e → _
    rw [hmanager]
    exact h.recorded
  · show ∀ c ∈ r.commits, _ → ∃ e : TransactionEntry, .inserted e ∈ comp.manager.log ∧ _
    rw [hmanager]
    exact h.commits
  · show ∀ a st, .completed a st ∈ comp.manager.log → _
    rw [hmanager]
    exact h.completed

/-- The next entry has an address of its own. -/
theorem Provenance.not_owned_fresh (h : Provenance s r) (hb : Balanced s.component.managerState) :
    ¬ r.Owned s.component.manager.mallocs := by
  rintro ⟨c, hc, howner⟩
  obtain ⟨e, he, haddr, _⟩ := h.commits c hc (h.owned c hc (by rw [howner]; exact Option.some_ne_none _))
  rw [howner] at haddr
  have hlife : life e.addr s.component.manager.log ≠ [] := by
    have hmem : .inserted e ∈ life e.addr s.component.manager.log := KeyedLog.mem_history.2 ⟨he, rfl⟩
    exact List.ne_nil_of_mem hmem
  exact Nat.lt_irrefl _ (Option.some.inj haddr ▸ hb.ledger.lt_mallocs hlife)

/-- A transaction is inserted, and its insertion is the only one underway with its id. -/
theorem Provenance.insert (h : Provenance s r) (hb : Balanced s.component.managerState) {n : Nat}
    {c c' : Call} {p : Prepared} {comp : Component} (hc : s.component.calls[n]? = some c)
    (hpl : c.Plain componentRole) (hpc : c.pc = .insertTransaction)
    (hc' : c' = { c with entry := some s.component.manager.mallocs })
    (hfree : s.component.manager.table.elements (hashCode (atou (utoa c.rid))) = none)
    (hcomp : comp = Component.setCall { s.component with
      manager := (insertTransaction true (some (utoa c.rid)) c.callback (some c.request.tableConfig)
        s.component.manager).2 } n (c'.goto (.ovsdbWrite (.receiptListAdd p)))) :
    Provenance { s with component := comp } r := by
  have hmanager : comp.manager = (insertTransaction true (some (utoa c.rid)) c.callback
      (some c.request.tableConfig) s.component.manager).2 := by rw [hcomp]; rfl
  have helems := fun i =>
    insertTransaction_elements (utoa c.rid) c.callback c.request.tableConfig i s.component.manager
  have hlog := @insertTransaction_log_of_free _ c.callback c.request.tableConfig _ hfree
  rw [← hmanager] at helems hlog
  have hcalls : comp.calls = s.component.calls.set n (c'.goto (.ovsdbWrite (.receiptListAdd p))) := by
    rw [hcomp]; rfl
  have hdb : comp.db = s.component.db := by rw [hcomp]; rfl
  have hlistener : comp.listener = s.component.listener := by rw [hcomp]; rfl
  have hrid : (c'.goto (.ovsdbWrite (.receiptListAdd p))).rid = c.rid := by rw [hc']; rfl
  have hreq : (c'.goto (.ovsdbWrite (.receiptListAdd p))).request = c.request := by rw [hc']; rfl
  clear hcomp
  -- every transaction keeps its place, and waits on
  have hold : ∀ e, s.component.manager.table.Mem e → comp.manager.table.Mem e := by
    intro e he
    unfold SlotTable.Mem at he ⊢
    rw [helems, if_neg, he]
    intro heq
    rw [heq, hfree] at he
    cases he
  have hwaits : ∀ {e : TransactionEntry} {id : Nat} {row : Json},
      e.Waits s.component.manager.table id row →
      e.Waits comp.manager.table id row := fun hw => ⟨hold _ hw.mem, hw.id, hw.uuid, hw.table, hw.row⟩
  have hnone : ∀ id, id = c.rid → s.insertions id = 0 := by
    intro id hid
    by_contra hne
    obtain ⟨e, he, heid⟩ := h.exists_of_insertions (Nat.pos_of_ne_zero hne)
    have he : s.component.manager.table.elements (hashCode e.id) = some e := he
    rw [heid, hid, ← atou_rid hpl, hfree] at he
    cases he
  have hunserved : Network.unserved { s with component := comp } = s.unserved := by
    unfold Network.unserved
    show comp.db.sent.drop _ = _
    rw [hdb]
  refine ⟨fun d hd hdw => ?_, fun x hx rid table row hread => ?_, fun rid result uuid hmsg hins => ?_,
    fun i rid uuid hrec => ?_, fun id => ?_, fun e he hne => ?_, fun k hk ht => ?_, h.owned, h.distinct,
    fun a st hev => ?_⟩
  · have hd : d ∈ comp.calls := hd
    rw [hcalls] at hd
    rcases List.mem_or_eq_of_mem_set hd with hd | rfl
    · obtain ⟨e, hw, hown⟩ := h.writing d hd hdw
      exact ⟨e, hwaits hw, hown⟩
    · -- the new transaction
      rw [hrid, hreq]
      refine ⟨createTransaction (atou (utoa c.rid)) c.callback c.request.tableConfig s.component.manager,
        ⟨?_, atou_rid hpl, rfl, hpl.name, rfl⟩, h.not_owned_fresh hb⟩
      refine SlotTable.mem_of_elements (i := hashCode (atou (utoa c.rid))) ?_
      show comp.manager.table.elements _ = _
      rw [helems, if_pos rfl]
  · rw [hunserved] at hx
    obtain ⟨e, hw, hown⟩ := h.asked x hx rid table row hread
    exact ⟨e, hwaits hw, hown⟩
  · obtain ⟨e, row, hw, hrow⟩ := h.replied rid result uuid hmsg hins
    exact ⟨e, row, hwaits hw, hrow⟩
  · have hrec : comp.listener.recording = _ := hrec
    rw [hlistener] at hrec
    obtain ⟨e, row, hw, hrow⟩ := h.recording i rid uuid hrec
    exact ⟨e, row, hwaits hw, hrow⟩
  · have hcount := insertions_set (s := s) hc hcalls hlistener id
    rw [inserts_of_not_writing (by unfold Call.writing; rw [hpc]), hunserved] at hcount
    by_cases hid : id = c.rid
    · have hle : ((c'.goto (.ovsdbWrite (.receiptListAdd p))).inserts id).toNat ≤ 1 := Bool.toNat_le _
      rw [hnone id hid] at hcount
      simp only [Bool.toNat_false] at hcount
      omega
    · have hno : (c'.goto (.ovsdbWrite (.receiptListAdd p))).inserts id = false := by
        unfold Call.inserts
        rw [hrid, beq_false_of_ne (Ne.symm hid), Bool.and_false]
      rw [hno] at hcount
      have hsingle := h.single id
      omega
  · have he : comp.manager.table.elements (hashCode e.id) = some e := he
    rw [helems] at he
    split at he
    · cases he; exact absurd rfl hne
    · exact h.recorded e (SlotTable.mem_of_elements he) hne
  · obtain ⟨e, he, hrest⟩ := h.commits k hk ht
    refine ⟨e, ?_, hrest⟩
    show _ ∈ comp.manager.log
    rw [hlog]
    exact List.mem_append_left _ he
  · have hev : _ ∈ comp.manager.log := hev
    rw [hlog] at hev
    rcases List.mem_append.1 hev with hev | hev
    · exact h.completed a st hev
    · cases List.mem_singleton.1 hev

/-- The uuid is recorded for the one transaction that waits for it. -/
theorem Provenance.records (h : Provenance s r) (hform : ∀ c ∈ r.commits, isUuid c.row.uuid = true)
    {i : Nat} {rid uuid : CString} {l' : ListenerPc} {comp : Component}
    (hl : s.component.listener = .updateTransaction i rid uuid) (hr : l'.recording = none)
    (hcomp : comp = { s.component with
      manager := (updateTransaction (some rid) (some uuid) s.component.manager).2, listener := l' }) :
    Provenance { s with component := comp } r := by
  obtain ⟨e, row, hw, hrow⟩ := h.recording i rid uuid (by rw [hl]; rfl)
  have hslot : s.component.manager.table.elements (hashCode (atou rid)) = some e := by
    rw [← hw.id]
    exact hw.mem
  have hmanager : comp.manager = (updateTransaction (some rid) (some uuid) s.component.manager).2 := by
    rw [hcomp]
  have helems := @updateTransaction_elements rid uuid s.component.manager e hslot
  have hlog : comp.manager.log = s.component.manager.log ++ [.uuidRecorded e.addr uuid] := by
    rw [hmanager, updateTransaction_of_some hslot]
  rw [← hmanager] at helems
  have hcalls : comp.calls = s.component.calls := by rw [hcomp]
  have hlistener : comp.listener = l' := by rw [hcomp]
  have hunserved : Network.unserved { s with component := comp } = s.unserved := by
    unfold Network.unserved
    show comp.db.sent.drop _ = _
    rw [hcomp]
  clear hcomp
  -- the listener's is the only insertion with this id
  have hmine : s.component.listener.inserts (atou rid) = true := by
    unfold ListenerPc.inserts
    rw [hl]
    exact beq_self_eq_true _
  have honly : ∀ id, 0 < s.component.calls.countP (Call.inserts id) + s.unserved.countP (Sent.inserts id) +
      s.server.toComponent.countP (ServerMsg.inserts id) → id ≠ atou rid := by
    intro id hpos hid
    have hsingle := h.single id
    unfold Network.insertions at hsingle
    rw [hid] at hpos hsingle
    rw [hmine] at hsingle
    simp only [Bool.toNat_true] at hsingle
    omega
  have hwaits : ∀ {e' : TransactionEntry} {id : Nat} {row' : Json}, id ≠ atou rid →
      e'.Waits s.component.manager.table id row' → e'.Waits comp.manager.table id row' := by
    intro e' id row' hne hw'
    refine ⟨?_, hw'.id, hw'.uuid, hw'.table, hw'.row⟩
    show comp.manager.table.elements (hashCode e'.id) = some e'
    rw [helems, if_neg, hw'.mem]
    intro heq
    have hsame := SlotTable.mem_unique hw'.mem hw.mem (by rw [heq, hw.id])
    rw [← hw'.id, hsame, hw.id] at hne
    exact hne rfl
  refine ⟨fun d hd hdw => ?_, fun x hx rid' table row' hread => ?_, fun rid' result uuid' hmsg hins => ?_,
    fun j rid' uuid' hrec => ?_, fun id => ?_, fun e' he' hne => ?_, fun k hk ht => ?_, h.owned, h.distinct,
    fun a st hev => ?_⟩
  · have hd : d ∈ comp.calls := hd
    rw [hcalls] at hd
    obtain ⟨e', hw', hown⟩ := h.writing d hd hdw
    have hpos := countP_writing_pos hd hdw
    exact ⟨e', hwaits (honly _ (by omega)) hw', hown⟩
  · rw [hunserved] at hx
    obtain ⟨e', hw', hown⟩ := h.asked x hx rid' table row' hread
    have hpos : 0 < s.unserved.countP (Sent.inserts (atou rid')) :=
      List.countP_pos_iff.2 ⟨x, hx, inserts_of_read hread⟩
    exact ⟨e', hwaits (honly _ (by omega)) hw', hown⟩
  · obtain ⟨e', row', hw', hrow'⟩ := h.replied rid' result uuid' hmsg hins
    have hpos : 0 < s.server.toComponent.countP (ServerMsg.inserts (atou rid')) :=
      List.countP_pos_iff.2 ⟨_, hmsg, inserts_of_insertedUuid hins⟩
    exact ⟨e', row', hwaits (honly _ (by omega)) hw', hrow'⟩
  · have hrec : comp.listener.recording = _ := hrec
    rw [hlistener, hr] at hrec
    cases hrec
  · have hsingle := h.single id
    unfold Network.insertions at hsingle ⊢
    rw [hunserved]
    show comp.calls.countP _ + _ + _ + (comp.listener.inserts id).toNat ≤ 1
    have hno : l'.inserts id = false := by unfold ListenerPc.inserts; rw [hr]; rfl
    rw [hcalls, hlistener, hno]
    simp only [Bool.toNat_false]
    omega
  · have he' : comp.manager.table.elements (hashCode e'.id) = some e' := he'
    rw [helems] at he'
    split at he'
    · cases he'
      obtain ⟨c, hc, howner, hcrow⟩ := hrow
      have hlen : uuid.length ≤ maxUuidLen := by
        have hu := hform c hc
        rw [hcrow] at hu
        exact Nat.le_of_eq (length_of_isUuid hu)
      refine ⟨c, hc, howner, ?_⟩
      rw [withUuid_uuid, CString.strncpy_of_length_le hlen]
      exact hcrow
    · exact h.recorded e' (SlotTable.mem_of_elements he') hne
  · obtain ⟨e', he', hrest⟩ := h.commits k hk ht
    refine ⟨e', ?_, hrest⟩
    show _ ∈ comp.manager.log
    rw [hlog]
    exact List.mem_append_left _ he'
  · have hev : _ ∈ comp.manager.log := hev
    rw [hlog] at hev
    rcases List.mem_append.1 hev with hev | hev
    · exact h.completed a st hev
    · cases List.mem_singleton.1 hev

/-- The requests of the component's listener insert nothing. -/
theorem access_read {l : ListenerPc} {call : DbCall} {pc : DbPc} (h : l.access = some (call, pc))
    {p : Prepared} (hp : call.Prepares p) (rid table : CString) (row : Json) :
    readRequest p.strJson ≠ some (rid, .insert table row) := by
  have hdelete : ∀ t key value, (DbCall.delete t (some key) (some value)).Prepares p →
      readRequest p.strJson ≠ some (rid, .insert table row) := by
    intro t key value hp hread
    obtain ⟨_, js, hjs, rfl⟩ := prepares_delete hp
    obtain ⟨_, _, hr⟩ := readRequest_delete hjs
    rw [hr] at hread
    cases hread
  cases l with
  | ovsdbMonitor i pc' =>
      cases h
      intro hread
      obtain ⟨_, _, js, _, hjs, rfl⟩ := prepares_monitor hp
      obtain ⟨_, _, hr⟩ := readRequest_monitor hjs
      rw [hr] at hread
      cases hread
  | deleteGwConfig addr uuid pc' => cases h; exact hdelete _ _ _ hp
  | deleteFeedback addr uuid pc' => cases h; exact hdelete _ _ _ hp
  | _ => cases h

/-- A step of the listener that records no uuid and takes no transaction. -/
theorem Provenance.listener (h : Provenance s r) {comp : Component}
    (htable : comp.manager.table = s.component.manager.table)
    (hlog : ∃ l, comp.manager.log = s.component.manager.log ++ l ∧ ∀ a st, .completed a st ∉ l)
    (hcalls : comp.calls = s.component.calls ∨ ∃ a, comp.calls = s.component.calls.map (Call.feed a))
    (hsent : comp.db.sent = s.component.db.sent ∨ ∃ x, comp.db.sent = s.component.db.sent ++ [x] ∧
      ∀ rid table row, readRequest x.request ≠ some (rid, .insert table row))
    (hr : comp.listener.recording = none) : Provenance { s with component := comp } r := by
  obtain ⟨l, hlog, hl⟩ := hlog
  have hcount : ∀ id, comp.calls.countP (Call.inserts id) = s.component.calls.countP (Call.inserts id) := by
    intro id
    rcases hcalls with heq | ⟨a, heq⟩
    · rw [heq]
    · rw [heq, List.countP_map]
      rfl
  have hunserved : ∃ xs, (Network.unserved { s with component := comp }).Sublist (s.unserved ++ xs) ∧
      ∀ x ∈ xs, ∀ rid table row, readRequest x.request ≠ some (rid, .insert table row) := by
    unfold Network.unserved
    rcases hsent with heq | ⟨x, heq, hx⟩
    · refine ⟨[], ?_, fun _ hx => (by cases hx)⟩
      show (comp.db.sent.drop _).Sublist _
      rw [heq, List.append_nil]
    · refine ⟨[x], ?_, fun y hy => by rw [List.mem_singleton.1 hy]; exact hx⟩
      show (comp.db.sent.drop _).Sublist _
      rw [heq, List.drop_append]
      exact (List.Sublist.refl _).append (List.drop_sublist _ _)
  obtain ⟨xs, hsub, hxs⟩ := hunserved
  refine h.frame htable (fun e he => ?_) (fun a st hev => ?_) (fun d hd hdw => ?_) (fun x hx => ?_)
    (List.Subset.refl _) (Or.inl hr) fun id => ?_
  · show _ ∈ comp.manager.log
    rw [hlog]
    exact List.mem_append_left _ he
  · have hev : _ ∈ comp.manager.log := hev
    rw [hlog] at hev
    exact (List.mem_append.1 hev).resolve_right (hl a st)
  · have hd : d ∈ comp.calls := hd
    rcases hcalls with heq | ⟨a, heq⟩
    · rw [heq] at hd
      exact ⟨d, hd, hdw, rfl, rfl⟩
    · rw [heq] at hd
      obtain ⟨d₀, hd₀, rfl⟩ := List.mem_map.1 hd
      exact ⟨d₀, hd₀, hdw, rfl, rfl⟩
  · rcases List.mem_append.1 (hsub.subset hx) with hx | hx
    · exact Or.inl hx
    · exact Or.inr (hxs x hx)
  · have hle := hsub.countP_le (p := Sent.inserts id)
    have hzero : xs.countP (Sent.inserts id) = 0 := by
      refine List.countP_eq_zero.2 fun x hx hins => ?_
      unfold Sent.inserts at hins
      split at hins
      · next rid table row hread => exact hxs x hx rid table row hread
      · cases hins
    rw [List.countP_append, hzero] at hle
    have hno : comp.listener.inserts id = false := by unfold ListenerPc.inserts; rw [hr]; rfl
    unfold Network.insertions
    show comp.calls.countP _ + _ + s.server.toComponent.countP (ServerMsg.inserts id) +
      (comp.listener.inserts id).toNat ≤ _
    rw [hcount, hno]
    simp only [Bool.toNat_false]
    omega

/-- The step lemma of the component by itself. -/
theorem Provenance.stepComponent (h : Provenance s r) (hform : ∀ c ∈ r.commits, isUuid c.row.uuid = true)
    (hb : Balanced s.component.managerState) (hshape : ComponentShape s.component) {i : ComponentStep}
    {comp : Component} (hallowed : componentAllowed s.component i = true)
    (hstep : componentStep s.component i = some comp) : Provenance { s with component := comp } r := by
  have hnil : ∀ log : List TransactionEvent, ∃ l, log = log ++ l ∧
      ∀ (a : Nat) (st : Int), TransactionEvent.completed a st ∉ l :=
    fun log => ⟨[], (List.append_nil log).symm, fun _ _ h => (by cases h)⟩
  cases i with
  | interact request callback =>
      cases hstep
      have hw : (Call.start request callback).writing = false := rfl
      refine h.frame rfl (fun _ he => he) (fun _ _ hev => hev) (fun d hd hdw => ?_) (fun x hx => Or.inl hx)
        (List.Subset.refl _) (Or.inr rfl) fun id => ?_
      · rcases List.mem_append.1 hd with hd | hd
        · exact ⟨d, hd, hdw, rfl, rfl⟩
        · rw [List.mem_singleton.1 hd, hw] at hdw
          cases hdw
      · have hcount : (s.component.calls ++ [Call.start request callback]).countP (Call.inserts id)
            = s.component.calls.countP (Call.inserts id) := by
          rw [List.countP_append, List.countP_singleton, inserts_of_not_writing hw]
          rfl
        unfold Network.insertions
        exact Nat.le_of_eq (congrArg (· + _ + _ + _) hcount)
  | call n malloc o =>
      simp only [componentAllowed, Bool.and_eq_true, decide_eq_true_eq] at hallowed
      obtain ⟨⟨rfl, rfl⟩, hfree⟩ := hallowed
      obtain ⟨c, hc, hpl, hcs⟩ := plainStep_cases hshape.calls hstep
      have hquiet : ∀ {pc : CallPc}, c.pc = pc → (∀ q, pc ≠ .ovsdbWrite q) → c.writing = false := by
        intro pc hpc hne
        unfold Call.writing
        rw [hpc]
        cases pc with
        | ovsdbWrite q => exact absurd rfl (hne q)
        | _ => rfl
      cases hcs with
      | @idGenerate hpc c' hc' hreg =>
          exact h.quiet (d := c'.goto .setBlocked) hc rfl (hquiet hpc fun _ h => by cases h) rfl rfl rfl rfl
      | @idGenerateWrite hpc c' hc' p hp =>
          -- the component's calls go on to the flag
          have hstep : callStep s.component n true .ok = _ := hstep
          rw [callStep_registers hc hpc hpl.registers_component] at hstep
          have hcall := congrArg (fun comp => comp.calls[n]?) (Option.some.inj hstep)
          have hlt := (List.getElem?_eq_some_iff.1 hc).1
          simp only [Component.setCall, List.getElem?_set_self hlt, Option.some.injEq] at hcall
          have hpc' := congrArg Call.pc hcall
          cases hpc'
      | setBlocked hpc hreg =>
          exact h.quiet (d := c.goto .insertTransaction) hc rfl (hquiet hpc fun _ h => by cases h) rfl rfl
            rfl rfl
      | @insert hpc p hp c' hc' =>
          unfold Component.slotFree at hfree
          rw [hc] at hfree
          simp only [hpc, Option.isNone_iff_eq_none] at hfree
          exact h.insert hb hc hpl hpc hc' hfree rfl
      | @receiptListAdd p hpc hp => exact h.receiptListAdd hc hpc rfl
      | @socketWrite p hpc hp => exact h.socketWrite hc hpl hpc hp rfl
  | listener o waiter =>
      simp only [componentAllowed, decide_eq_true_eq] at hallowed
      subst hallowed
      cases listenerAccess_cases hstep with
      | records hl hs hr ha => exact h.records hform hl hr rfl
      | moves hr hs hr' ha => exact h.listener rfl (hnil _) (Or.inl rfl) (Or.inl rfl) hr'
      | @accesses call pc l' hl hl' =>
          have hmk := ListenerPc.access_makes hl
          obtain ⟨_, hacc⟩ := dbStep_access hmk.noCancel (hshape.listener call pc hl)
          refine h.listener rfl (hnil _) (Or.inl rfl) ?_ hl'.recording
          rcases hacc.sent with heq | ⟨p, hp, _, heq⟩
          · exact Or.inl heq
          · exact Or.inr ⟨_, heq, access_read hl hp⟩
      | @unlinks i hl => exact h.listener rfl (hnil _) (Or.inl rfl) (Or.inl rfl) rfl
      | @destroys e uuid hl =>
          refine h.listener rfl ⟨e.frees, rfl, fun a st hmem => ?_⟩ (Or.inl rfl) (Or.inl rfl)
            (After.afterDeleteGwConfig e.addr uuid (deleteGwConfigCall uuid).start).recording
          rcases mem_frees.1 hmem with ⟨_, _, heq⟩ | heq
          · cases heq
          · cases heq
      | @signals a b m cs l' hr hs hcs hs' hr' ha =>
          refine h.listener rfl (hnil _) ?_ (Or.inl rfl) hr'
          rcases hcs with rfl | rfl
          · exact Or.inl rfl
          · exact Or.inr ⟨a, rfl⟩
      | wakes hc hw =>
          rw [(hshape.calls _ (List.mem_of_getElem? hc)).not_waiting] at hw
          cases hw
  | _ => cases hallowed

end Component

/-! ## §4. Steps of the server. -/

theorem Record.RowOf.mono {r r' : Record} {e : TransactionEntry} {uuid : CString} (h : r.RowOf e uuid)
    (hsub : r.commits ⊆ r'.commits) : r'.RowOf e uuid := by
  obtain ⟨c, hc, hrest⟩ := h
  exact ⟨c, hsub hc, hrest⟩

theorem countP_inserts_of_none {msgs : List ServerMsg} (h : ∀ msg ∈ msgs, msg.insertedUuid = none)
    (id : Nat) :
    msgs.countP (ServerMsg.inserts id) = 0 := by
  refine List.countP_eq_zero.2 fun msg hmsg => ?_
  rw [inserts_of_none (h msg hmsg)]
  exact Bool.false_ne_true

/-- The requests of the component that are left when one was served. -/
theorem Serve.unserved {s s' : Network} {conn : Conn} {uuid rid : CString} {x : Sent} {req : Request}
    {server : OvsdbServer} (h : Serve s conn uuid s' x rid req server) :
    (conn = .component → s.unserved = x :: s'.unserved) ∧
    (conn = .agent → s'.unserved = s.unserved) := by
  constructor
  · rintro rfl
    have hnext : s.component.db.sent[s.server.servedComponent]? = some x := h.next
    have hserved : s'.server.servedComponent = s.server.servedComponent + 1 := h.served
    obtain ⟨hlt, hx⟩ := List.getElem?_eq_some_iff.1 hnext
    unfold Network.unserved
    rw [h.component, hserved, List.drop_eq_getElem_cons hlt, hx]
  · rintro rfl
    have hserved : s'.server.servedComponent = s.server.servedComponent := h.others .component (by decide)
    unfold Network.unserved
    rw [h.component, hserved]

section Server

variable {s s' : Network} {r : Record} {uuid rid : CString} {x : Sent} {req : Request} {server : OvsdbServer}

/-- A request of the component that inserts a row: the reply takes over from it. -/
theorem Provenance.serveInsert (h : Provenance s r) (hb : Balanced s.component.managerState)
    {row : Json} (hs : Serve s .component uuid s' x rid (.insert gatewayConfigTableName row) server)
    (huuid : isUuid uuid = true) {news : List ServerMsg} (hnews : ∀ msg ∈ news, msg.insertedUuid = none)
    (hqueue : s'.server.toComponent = s.server.toComponent ++ (news ++ [.reply rid (insertResult uuid)])) :
    Provenance s' { r with commits :=
      r.commits ++ [⟨⟨gatewayConfigTableName, uuid, row⟩, s.ownerOf .component rid⟩] } := by
  have hun := hs.unserved.1 rfl
  obtain ⟨e, hw, hown⟩ := h.asked x (by rw [hun]; exact List.mem_cons_self ..) rid _ row hs.read
  have howner : s.ownerOf .component rid = some e.addr := by
    unfold Network.ownerOf
    have hslot : s.component.manager.table.elements (hashCode (atou rid)) = some e := by
      rw [← hw.id]
      exact hw.mem
    simp only [hslot, Option.map_some]
  rw [howner]
  have hreply : (ServerMsg.reply rid (insertResult uuid)).insertedUuid = some uuid :=
    insertedUuid_insertResult (Nat.le_of_eq (length_of_isUuid huuid))
  have hx : x.inserts (atou rid) = true := inserts_of_read hs.read
  have hsub : ∀ k : Commit, r.commits ⊆ r.commits ++ [k] := fun _ => List.subset_append_left _ _
  -- every other insertion underway has another transaction
  have hother : ∀ {e' : TransactionEntry} {id : Nat} {row' : Json},
      e'.Waits s.component.manager.table id row' →
      0 < s.component.calls.countP (Call.inserts id) + s'.unserved.countP (Sent.inserts id) →
      ¬ r.Owned e'.addr → ¬ Record.Owned { r with
        commits := r.commits ++ [⟨⟨gatewayConfigTableName, uuid, row⟩, some e.addr⟩] } e'.addr := by
    rintro e' id row' hw' hpos hown' ⟨c, hc, hcowner⟩
    rcases List.mem_append.1 hc with hc | hc
    · exact hown' ⟨c, hc, hcowner⟩
    · rw [List.mem_singleton.1 hc] at hcowner
      have hsame := hb.ledger.live_unique hw'.mem hw.mem (Option.some.inj hcowner).symm
      have hid : id = atou rid := by rw [← hw'.id, hsame, hw.id]
      have hsingle := h.single id
      unfold Network.insertions at hsingle
      rw [hun, List.countP_cons, hid, hx] at hsingle
      rw [hid] at hpos
      simp only [if_true] at hsingle
      omega
  refine ⟨fun c hc hcw => ?_, fun y hy rid' table row' hread => ?_, fun rid' result uuid' hmsg hins => ?_,
    fun i rid' uuid' hrec => ?_, fun id => ?_, fun e' he' hne => ?_, fun c hc ht => ?_, fun c hc hne => ?_,
    fun c hc c' hc' heq hne => ?_, fun a st hev => ?_⟩
  · rw [hs.component] at hc ⊢
    obtain ⟨e', hw', hown'⟩ := h.writing c hc hcw
    have hpos := countP_writing_pos hc hcw
    exact ⟨e', hw', hother hw' (by omega) hown'⟩
  · rw [hs.component]
    obtain ⟨e', hw', hown'⟩ :=
      h.asked y (by rw [hun]; exact List.mem_cons_of_mem _ hy) rid' table row' hread
    have hpos : 0 < s'.unserved.countP (Sent.inserts (atou rid')) :=
      List.countP_pos_iff.2 ⟨y, hy, inserts_of_read hread⟩
    exact ⟨e', hw', hother hw' (by omega) hown'⟩
  · rw [hs.component]
    rw [hqueue, List.mem_append, List.mem_append, List.mem_singleton] at hmsg
    rcases hmsg with hmsg | hmsg | hmsg
    · obtain ⟨e', row', hw', hrow'⟩ := h.replied rid' result uuid' hmsg hins
      exact ⟨e', row', hw', hrow'.mono (hsub _)⟩
    · rw [hnews _ hmsg] at hins
      cases hins
    · cases hmsg
      rw [hreply] at hins
      cases hins
      exact ⟨e, row, hw, _, List.mem_append_right _ (List.mem_singleton_self _), rfl, by rw [hw.row]⟩
  · rw [hs.component] at hrec ⊢
    obtain ⟨e', row', hw', hrow'⟩ := h.recording i rid' uuid' hrec
    exact ⟨e', row', hw', hrow'.mono (hsub _)⟩
  · have hsingle := h.single id
    unfold Network.insertions at hsingle ⊢
    rw [hs.component, hqueue, List.countP_append, List.countP_append, countP_inserts_of_none hnews,
      List.countP_singleton]
    rw [hun, List.countP_cons] at hsingle
    have hle : (if (ServerMsg.reply rid (insertResult uuid)).inserts id = true then 1 else 0)
        ≤ (if x.inserts id = true then 1 else 0) := by
      split
      · next hr =>
          simp only [ServerMsg.inserts, Bool.and_eq_true, beq_iff_eq] at hr
          rw [← hr.2, hx]
          exact Nat.le_refl _
      · exact Nat.zero_le _
    omega
  · rw [hs.component] at he'
    exact (h.recorded e' he' hne).mono (hsub _)
  · rw [hs.component]
    rcases List.mem_append.1 hc with hc | hc
    · exact h.commits c hc ht
    · rw [List.mem_singleton.1 hc]
      -- the transaction was inserted, perhaps with another uuid and state
      obtain ⟨e₀, hsame, hlife⟩ := (hb.ledger.account e.addr).live e hw.mem rfl
      have hmem : TransactionEvent.inserted e₀ ∈ life e.addr s.component.manager.log := by
        have hlife : life e.addr s.component.manager.log = _ := hlife
        rw [hlife]
        exact List.mem_singleton_self _
      refine ⟨e₀, (KeyedLog.mem_history.1 hmem).1, congrArg some hsame.addr, ?_⟩
      rw [← hsame.tableConfig]
      exact ⟨hw.table, hw.row⟩
  · rcases List.mem_append.1 hc with hc | hc
    · exact h.owned c hc hne
    · rw [List.mem_singleton.1 hc]
  · have hnew : ∀ k ∈ r.commits, k.owner = some e.addr → False := fun k hk hko => hown ⟨k, hk, hko⟩
    rcases List.mem_append.1 hc with hc | hc
    · rcases List.mem_append.1 hc' with hc' | hc'
      · exact h.distinct c hc c' hc' heq hne
      · rw [List.mem_singleton.1 hc'] at heq
        exact (hnew c hc heq).elim
    · rcases List.mem_append.1 hc' with hc' | hc'
      · rw [List.mem_singleton.1 hc] at heq
        exact (hnew c' hc' heq.symm).elim
      · rw [List.mem_singleton.1 hc, List.mem_singleton.1 hc']
  · rw [hs.component] at hev
    obtain ⟨y, hy, c, hc, hrest⟩ := h.completed a st hev
    exact ⟨y, hy, c, List.mem_append_left _ hc, hrest⟩

/-- Any other request: nothing is asked for or answered, and what is committed
belongs to no transaction. -/
theorem Provenance.serveOther (h : Provenance s r) (hcomponent : s'.component = s.component)
    (hunserved : s'.unserved.Sublist s.unserved) {news : List ServerMsg}
    (hnews : ∀ msg ∈ news, msg.insertedUuid = none)
    (hqueue : s'.server.toComponent = s.server.toComponent ++ news) {l : List Commit}
    (hl : ∀ c ∈ l, c.owner = none ∧ c.row.table ≠ gatewayConfigTableName) :
    Provenance s' { r with commits := r.commits ++ l } := by
  have hsub : r.commits ⊆ r.commits ++ l := List.subset_append_left _ _
  have hown : ∀ {a : Nat}, ¬ r.Owned a → ¬ Record.Owned { r with commits := r.commits ++ l } a := by
    rintro a hno ⟨c, hc, howner⟩
    rcases List.mem_append.1 hc with hc | hc
    · exact hno ⟨c, hc, howner⟩
    · rw [(hl c hc).1] at howner
      cases howner
  refine ⟨fun c hc hcw => ?_, fun y hy rid' table row' hread => ?_, fun rid' result uuid' hmsg hins => ?_,
    fun i rid' uuid' hrec => ?_, fun id => ?_, fun e' he' hne => ?_, fun c hc ht => ?_, fun c hc hne => ?_,
    fun c hc c' hc' heq hne => ?_, fun a st hev => ?_⟩
  · rw [hcomponent] at hc ⊢
    obtain ⟨e', hw', hown'⟩ := h.writing c hc hcw
    exact ⟨e', hw', hown hown'⟩
  · rw [hcomponent]
    obtain ⟨e', hw', hown'⟩ := h.asked y (hunserved.subset hy) rid' table row' hread
    exact ⟨e', hw', hown hown'⟩
  · rw [hcomponent]
    rcases List.mem_append.1 (hqueue ▸ hmsg) with hmsg | hmsg
    · obtain ⟨e', row', hw', hrow'⟩ := h.replied rid' result uuid' hmsg hins
      exact ⟨e', row', hw', hrow'.mono hsub⟩
    · rw [hnews _ hmsg] at hins
      cases hins
  · rw [hcomponent] at hrec ⊢
    obtain ⟨e', row', hw', hrow'⟩ := h.recording i rid' uuid' hrec
    exact ⟨e', row', hw', hrow'.mono hsub⟩
  · have hsingle := h.single id
    have hle := hunserved.countP_le (p := Sent.inserts id)
    unfold Network.insertions at hsingle ⊢
    rw [hcomponent, hqueue, List.countP_append, countP_inserts_of_none hnews]
    omega
  · rw [hcomponent] at he'
    exact (h.recorded e' he' hne).mono hsub
  · rw [hcomponent]
    rcases List.mem_append.1 hc with hc | hc
    · exact h.commits c hc ht
    · exact absurd ht (hl c hc).2
  · rcases List.mem_append.1 hc with hc | hc
    · exact h.owned c hc hne
    · exact absurd (hl c hc).1 hne
  · rcases List.mem_append.1 hc with hc | hc
    · rcases List.mem_append.1 hc' with hc' | hc'
      · exact h.distinct c hc c' hc' heq hne
      · exact absurd (heq.trans (hl c' hc').1) hne
    · exact absurd (hl c hc).1 hne
  · rw [hcomponent] at hev
    obtain ⟨y, hy, c, hc, hrest⟩ := h.completed a st hev
    exact ⟨y, hy, c, List.mem_append_left _ hc, hrest⟩

/-- The step lemma of the server. -/
theorem Provenance.serve {conn : Conn} (h : Provenance s r) (hrec : RecordInv s r)
    (hb : Balanced s.component.managerState) (hs : Serve s conn uuid s' x rid req server) :
    Provenance s' { r with commits := r.commits ++ (s.commits conn uuid).toList } := by
  have hx : x ∈ (s.process conn).db.sent := List.mem_of_getElem? hs.next
  have hsub : s'.unserved.Sublist s.unserved := by
    cases conn with
    | component => rw [hs.unserved.1 rfl]; exact List.sublist_cons_self _ _
    | agent => rw [hs.unserved.2 rfl]
  have hq : s'.server.toComponent = server.toComponent := hs.queue .component
  rw [hs.commits_eq]
  cases hs.carries with
  | @insert table row huuid hnew =>
      cases conn with
      | component =>
          obtain rfl : table = gatewayConfigTableName :=
            hrec.component.layer.inserts x hx rid table row hs.read
          exact h.serveInsert hb hs huuid insertedUuid_updatesFor
            (hq.trans (OvsdbServer.queue_answer _ _ _ _ _ _ .component))
      | agent =>
          obtain rfl : table = feedbackTableName := hrec.agent.layer.inserts x hx rid table row hs.read
          refine h.serveOther hs.component hsub (fun msg hmsg => ?_)
            (hq.trans (OvsdbServer.queue_answer _ _ _ _ _ _ .component)) fun c hc => ?_
          · exact insertedUuid_updatesFor msg ((List.append_nil _) ▸ hmsg)
          · rw [List.mem_singleton.1 hc]
            refine ⟨rfl, ?_⟩
            show feedbackTableName ≠ gatewayConfigTableName
            decide
  | @delete table clause =>
      refine h.serveOther hs.component hsub (fun msg hmsg => ?_)
        (hq.trans (OvsdbServer.queue_answer _ _ _ _ _ _ .component)) fun c hc => (by cases hc)
      rcases List.mem_append.1 hmsg with hmsg | hmsg
      · exact insertedUuid_updatesFor msg hmsg
      · split at hmsg
        · rw [List.mem_singleton.1 hmsg]; rfl
        · cases hmsg
  | @monitor monId table =>
      refine h.serveOther hs.component hsub (fun msg hmsg => ?_)
        (hq.trans (OvsdbServer.queue_answer _ _ _ _ _ _ .component)) fun c hc => (by cases hc)
      rcases List.mem_append.1 hmsg with hmsg | hmsg
      · exact insertedUuid_updatesFor msg hmsg
      · split at hmsg
        · rw [List.mem_singleton.1 hmsg]; rfl
        · cases hmsg

end Server

/-! ## §5. Messages. -/

/-- The uuid of the row whose Feedback the listener is handling. -/
def ListenerPc.handles : ListenerPc → Option CString
  | callback _ uuid => some uuid
  | deleteGwConfig _ uuid _ => some uuid
  | deleteFeedback _ uuid _ => some uuid
  | _ => none

theorem receiptCallback_handles (i : Nat) (rid : CString) (cb : OvsdbReceiptCb) (receipt : OvsDbReceipt) :
    (ListenerPc.receiptCallback i rid cb receipt).handles = none := by
  unfold ListenerPc.receiptCallback
  split
  · rfl
  · rfl

/-- A message leaves the transactions alone, unless it is a Feedback row that takes one. -/
theorem hear_inv {s s' : Component} {msg : ServerMsg} (h : s.hear msg = some s') :
    (s'.manager = s.manager ∧ s'.listener.handles = none) ∨
      ∃ monId rowUuid columns e m, msg = .update monId feedbackTableName rowUuid (.new columns) ∧
        takeTransaction (some (feedbackConfigParser columns).reqUuid) (feedbackConfigParser columns).status
          s.manager = some (e, m) ∧
        s' = monitorFeedbackCallback (.feedback (some ⟨0, feedbackConfigParser columns⟩)) s := by
  have hfree : s.listener.handles = none := by rw [(hear_cases h).1]; rfl
  cases msg with
  | reply rid result =>
      obtain ⟨_, rfl | ⟨_, _, _, _, _, _, _, _, rfl⟩⟩ := receiptStep_access h
      · exact Or.inl ⟨rfl, hfree⟩
      · exact Or.inl ⟨rfl, receiptCallback_handles ..⟩
  | update monId table rowUuid row =>
      cases row with
      | old columns =>
          simp only [Component.hear] at h
          split at h
          · cases h; exact Or.inl ⟨rfl, hfree⟩
          · cases h
      | new columns =>
          simp only [Component.hear, componentStep, updateStep] at h
          split at h
          · split at h
            · next tc node hparse _ =>
                split at h
                · cases h
                  unfold parseTable at hparse
                  split at hparse
                  · cases hparse; exact Or.inl ⟨rfl, hfree⟩
                  · split at hparse
                    · next htable =>
                        cases hparse
                        subst htable
                        cases ht : takeTransaction (some (feedbackConfigParser columns).reqUuid)
                            (feedbackConfigParser columns).status s.manager with
                        | none =>
                            have hsame : monitorFeedbackCallback
                                (.feedback (some ⟨0, feedbackConfigParser columns⟩)) s
                                = s := by simp only [monitorFeedbackCallback, ht]
                            rw [hsame]
                            exact Or.inl ⟨rfl, hfree⟩
                        | some q => exact Or.inr ⟨monId, rowUuid, columns, q.1, q.2, rfl, ht, rfl⟩
                    · cases hparse
                · cases h; exact Or.inl ⟨rfl, hfree⟩
                · cases h
            · cases h; exact Or.inl ⟨rfl, hfree⟩
          · cases h

/-- The event neither begins nor completes a transaction. -/
def TransactionEvent.quiet : TransactionEvent → Bool
  | inserted _ => false
  | completed _ _ => false
  | _ => true

theorem quiet_frees {e : TransactionEntry} {ev : TransactionEvent} (h : ev ∈ e.frees) :
    ev.quiet = true := by
  rcases mem_frees.1 h with ⟨_, _, rfl⟩ | rfl
  · rfl
  · rfl

/-- What a Feedback row does to the transactions: the one it takes leaves the
table and is completed. -/
theorem taken_manager {s : Component} {feedback : Feedback} {e : TransactionEntry} {m : TransactionManager}
    (addr : Nat) (ht : takeTransaction (some feedback.reqUuid) feedback.status s.manager = some (e, m)) :
    ∃ e₀ evs, s.manager.table.Mem e₀ ∧ e₀.hasUuid feedback.reqUuid = true ∧
      (monitorFeedbackCallback (.feedback (some ⟨addr, feedback⟩)) s).manager.table
        = s.manager.table.clear (hashCode e₀.id) ∧
      (monitorFeedbackCallback (.feedback (some ⟨addr, feedback⟩)) s).manager.log
        = s.manager.log ++ .completed e₀.addr feedback.status :: evs ∧
      ∀ ev ∈ evs, ev.quiet = true := by
  have hcb : monitorFeedbackCallback (.feedback (some ⟨addr, feedback⟩)) s =
      if e.callback.isNone then
        { s with
          manager := destroyTransaction e m
          listener :=
            .afterDeleteGwConfig e.addr feedback.reqUuid (deleteGwConfigCall feedback.reqUuid).start }
      else { s with manager := m, listener := .callback e feedback.reqUuid } := by
    simp only [monitorFeedbackCallback, ht]
    cases e.callback with
    | none => rfl
    | some cb => rfl
  obtain ⟨u, e₀, hu, he₀, hhas, rfl, rfl⟩ := takeTransaction_some ht
  cases hu
  have hquiet : ∀ ev ∈ (e₀.callback.map fun cb => TransactionEvent.invoked e₀.addr cb feedback.status
      e₀.tableConfig).toList,
      ev.quiet = true := by
    intro ev hev
    obtain ⟨cb, _, rfl⟩ := Option.map_eq_some_iff.1 (Option.mem_toList.1 hev)
    rfl
  rw [hcb]
  split
  · refine ⟨e₀, _, he₀, hhas, rfl, List.append_assoc .., fun ev hev => ?_⟩
    rcases List.mem_append.1 hev with hev | hev
    · exact hquiet ev hev
    · exact quiet_frees hev
  · exact ⟨e₀, _, he₀, hhas, rfl, rfl, hquiet⟩

/-- The status column of a Feedback row holds the result it was made with. -/
theorem fbRow_status {uuid : CString} (h : isUuid uuid = true) (ret : Int) :
    (feedbackConfigParser (.object (fbRow ⟨ret, uuid⟩))).status = toInt ret := by
  unfold fbRow
  rw [jsonString_of_valid (utf8Valid_of_isUuid h)]
  exact toInt_enumValue ret

section Messages

variable {s s' : Network} {r : Record}

/-- A message that asks for nothing and takes no transaction, or takes one that
waits for nothing else. -/
theorem Provenance.heard (h : Provenance s r) {msg : ServerMsg} {rest : List ServerMsg} {comp : Component}
    (hq : s.server.toComponent = msg :: rest) (hf : HearFrame s.component comp)
    (hr : comp.listener.recording = none)
    (hinserted : ∀ e, .inserted e ∈ s.component.manager.log → .inserted e ∈ comp.manager.log)
    (htable : ∀ e, s.component.manager.table.Mem e → e.uuid = [] → comp.manager.table.Mem e)
    (hcompleted : ∀ a st, .completed a st ∈ comp.manager.log →
      .completed a st ∈ s.component.manager.log ∨ ∃ x ∈ r.actions, ∃ c ∈ r.commits,
        c.row.uuid = x.row.uuid ∧ c.owner = some a ∧ st = toInt x.ret) :
    Provenance { s with component := comp, server := { s.server with toComponent := rest } } r := by
  have hwaits : ∀ {e : TransactionEntry} {id : Nat} {row : Json},
      e.Waits s.component.manager.table id row →
      e.Waits comp.manager.table id row := fun hw => ⟨htable _ hw.mem hw.uuid, hw.id, hw.uuid,
        hw.table, hw.row⟩
  have hunserved : Network.unserved
      { s with component := comp, server := { s.server with toComponent := rest } } = s.unserved := by
    unfold Network.unserved
    show comp.db.sent.drop _ = _
    rw [hf.db]
  refine ⟨fun c hc hcw => ?_, fun y hy rid table row hread => ?_, fun rid result uuid hmsg hins => ?_,
    fun i rid uuid hrec => ?_, fun id => ?_, fun e he hne => ?_, fun c hc ht => ?_, h.owned, h.distinct,
    fun a st hev => ?_⟩
  · have hc : c ∈ comp.calls := hc
    rw [hf.calls] at hc
    obtain ⟨e, hw, hown⟩ := h.writing c hc hcw
    exact ⟨e, hwaits hw, hown⟩
  · rw [hunserved] at hy
    obtain ⟨e, hw, hown⟩ := h.asked y hy rid table row hread
    exact ⟨e, hwaits hw, hown⟩
  · obtain ⟨e, row, hw, hrow⟩ :=
      h.replied rid result uuid (by rw [hq]; exact List.mem_cons_of_mem _ hmsg) hins
    exact ⟨e, row, hwaits hw, hrow⟩
  · have hrec : comp.listener.recording = _ := hrec
    rw [hr] at hrec
    cases hrec
  · have hsingle := h.single id
    unfold Network.insertions at hsingle ⊢
    rw [hunserved]
    show comp.calls.countP _ + _ + rest.countP _ + (comp.listener.inserts id).toNat ≤ 1
    have hno : comp.listener.inserts id = false := by unfold ListenerPc.inserts; rw [hr]; rfl
    rw [hf.calls, hno]
    rw [hq, List.countP_cons] at hsingle
    simp only [Bool.toNat_false]
    omega
  · exact h.recorded e (hf.table e he) hne
  · obtain ⟨e, he, hrest⟩ := h.commits c hc ht
    exact ⟨e, hinserted e he, hrest⟩
  · rcases hcompleted a st hev with hold | hnew
    · exact h.completed a st hold
    · exact hnew

/-- The reply to an insertion: its uuid is recorded next. -/
theorem Provenance.hearsReply (h : Provenance s r) {rid uuid : CString} {result : Json}
    {rest : List ServerMsg} {comp : Component} {i : Nat}
    (hq : s.server.toComponent = .reply rid result :: rest) (hf : HearFrame s.component comp)
    (hm : comp.manager = s.component.manager) (hl : comp.listener = .updateTransaction i rid uuid)
    (hins : (ServerMsg.reply rid result).insertedUuid = some uuid) :
    Provenance { s with component := comp, server := { s.server with toComponent := rest } } r := by
  have hunserved : Network.unserved
      { s with component := comp, server := { s.server with toComponent := rest } } = s.unserved := by
    unfold Network.unserved
    show comp.db.sent.drop _ = _
    rw [hf.db]
  constructor
  · show ∀ c ∈ comp.calls, _ → ∃ e : TransactionEntry, e.Waits comp.manager.table _ _ ∧ _
    rw [hm, hf.calls]
    exact h.writing
  · show ∀ y ∈ Network.unserved _, ∀ rid table row, _ → ∃ e : TransactionEntry,
      e.Waits comp.manager.table _ _ ∧ _
    rw [hm, hunserved]
    exact h.asked
  · intro rid' result' uuid' hmsg hins'
    show ∃ (e : TransactionEntry) (row : Json), e.Waits comp.manager.table _ _ ∧ _
    rw [hm]
    exact h.replied rid' result' uuid' (by rw [hq]; exact List.mem_cons_of_mem _ hmsg) hins'
  · intro j rid' uuid' hrec
    have hrec : comp.listener.recording = _ := hrec
    rw [hl] at hrec
    cases hrec
    show ∃ (e : TransactionEntry) (row : Json), e.Waits comp.manager.table _ _ ∧ _
    rw [hm]
    exact h.replied rid result uuid (by rw [hq]; exact List.mem_cons_self ..) hins
  · intro id
    have hsingle := h.single id
    unfold Network.insertions at hsingle ⊢
    rw [hunserved]
    show comp.calls.countP _ + _ + rest.countP _ + (comp.listener.inserts id).toNat ≤ 1
    have hsame : comp.listener.inserts id = (ServerMsg.reply rid result).inserts id := by
      show _ = ((ServerMsg.reply rid result).insertedUuid.isSome && atou rid == id)
      rw [hl, hins]
      rfl
    rw [hq, List.countP_cons] at hsingle
    rw [hf.calls, hsame]
    cases hb : (ServerMsg.reply rid result).inserts id with
    | false => simp only [Bool.toNat_false]; omega
    | true =>
        simp only [hb, if_true] at hsingle
        simp only [Bool.toNat_true]
        omega
  · show ∀ e, comp.manager.table.Mem e → _
    rw [hm]
    exact h.recorded
  · show ∀ c ∈ r.commits, _ → ∃ e : TransactionEntry, .inserted e ∈ comp.manager.log ∧ _
    rw [hm]
    exact h.commits
  · exact h.owned
  · exact h.distinct
  · show ∀ a st, .completed a st ∈ comp.manager.log → _
    rw [hm]
    exact h.completed

/-- A committed Feedback row reports an action, and says on which row. -/
theorem RecordInv.reports (hrec : RecordInv s r) {k : Commit} (hk : k ∈ r.commits)
    (htable : k.row.table = feedbackTableName) : ∃ x ∈ r.actions, isUuid x.row.uuid = true ∧
      k.row.columns = .object (fbRow ⟨x.ret, x.row.uuid⟩) := by
  obtain ⟨x, hx, hcolumns⟩ := hrec.feedback k hk htable
  obtain ⟨c, hc, _, hcuuid, _⟩ := hrec.action x hx
  have hform : isUuid x.row.uuid = true := hcuuid ▸ hrec.form c hc
  refine ⟨x, hx, hform, ?_⟩
  rw [hcolumns]
  unfold AgentAction.feedback
  rw [CString.strncpy_of_length_le (Nat.le_of_eq (length_of_isUuid hform))]

/-- A transaction that is found by a row's uuid is the one the row belongs to. -/
theorem Provenance.row_of_taken (h : Provenance s r) (hrec : RecordInv s r) {e : TransactionEntry}
    {uuid : CString} (he : s.component.manager.table.Mem e) (hform : isUuid uuid = true)
    (hhas : e.hasUuid uuid = true) :
    e.uuid = uuid ∧ r.RowOf e uuid := by
  have hlen := length_of_isUuid hform
  have hne : e.uuid ≠ [] := by
    intro hnil
    unfold TransactionEntry.hasUuid at hhas
    rw [hnil, CString.strncmpEq_iff_eq (Nat.zero_le _) (Nat.le_of_eq hlen)] at hhas
    rw [← hhas] at hlen
    cases hlen
  obtain ⟨k, hk, howner, hkrow⟩ := h.recorded e he hne
  have hsame : e.uuid = uuid := by
    have hformk := hrec.form k hk
    rw [hkrow] at hformk
    unfold TransactionEntry.hasUuid at hhas
    rwa [CString.strncmpEq_iff_eq (Nat.le_of_eq (length_of_isUuid hformk)) (Nat.le_of_eq hlen)] at hhas
  exact ⟨hsame, k, hk, howner, hsame ▸ hkrow⟩

/-- A Feedback row takes the transaction `e`: it reports the action `x` on the
row of `e`, and completes `e` with the result. -/
structure Takes (s : Network) (r : Record) (columns : Json) (comp : Component) (e : TransactionEntry)
    (x : AgentAction) (evs : List TransactionEvent) : Prop where
  mem : s.component.manager.table.Mem e
  action : x ∈ r.actions
  form : isUuid x.row.uuid = true
  report : columns = .object (fbRow ⟨x.ret, x.row.uuid⟩)
  committed : ∃ k ∈ r.commits, k.row.table = feedbackTableName ∧ k.row.columns = columns
  uuid : e.uuid = x.row.uuid
  rowOf : r.RowOf e x.row.uuid
  table : comp.manager.table = s.component.manager.table.clear (hashCode e.id)
  log : comp.manager.log = s.component.manager.log ++ .completed e.addr (toInt x.ret) :: evs
  quiet : ∀ ev ∈ evs, ev.quiet = true

theorem Takes.reqUuid {columns : Json} {comp : Component} {e : TransactionEntry} {x : AgentAction}
    {evs : List TransactionEvent} (h : Takes s r columns comp e x evs) :
    (feedbackConfigParser columns).reqUuid = x.row.uuid := by
  rw [h.report]
  exact fbRow_reqUuid h.form x.ret

theorem Provenance.takes (h : Provenance s r) (hrec : RecordInv s r) {monId rowUuid : CString}
    {columns : Json} {comp : Component} {e : TransactionEntry} {m : TransactionManager}
    (hmsg : .update monId feedbackTableName rowUuid (.new columns) ∈ s.server.toComponent)
    (ht : takeTransaction (some (feedbackConfigParser columns).reqUuid) (feedbackConfigParser columns).status
      s.component.manager = some (e, m))
    (hcomp : comp = monitorFeedbackCallback (.feedback (some ⟨0, feedbackConfigParser columns⟩))
      s.component) :
    ∃ e x evs, Takes s r columns comp e x evs := by
  -- the row reports an action, which was on a committed row
  obtain ⟨⟨k, hk, hkrow⟩, _⟩ := hrec.update .component monId feedbackTableName rowUuid columns hmsg
  obtain ⟨x, hx, hform, hcolumns⟩ := hrec.reports hk (by rw [hkrow])
  rw [hkrow] at hcolumns
  have hcolumns : columns = .object (fbRow ⟨x.ret, x.row.uuid⟩) := hcolumns
  have huuid : (feedbackConfigParser columns).reqUuid = x.row.uuid := by
    rw [hcolumns]
    exact fbRow_reqUuid hform x.ret
  have hstatus : (feedbackConfigParser columns).status = toInt x.ret := by
    rw [hcolumns]
    exact fbRow_status hform x.ret
  -- the transaction that is taken has that row's uuid
  obtain ⟨e₀, evs, he₀, hhas, htable, hlog, hquiet⟩ := taken_manager 0 ht
  rw [← hcomp] at htable hlog
  rw [huuid] at hhas
  rw [hstatus] at hlog
  obtain ⟨hsame, hrowOf⟩ := h.row_of_taken hrec he₀ hform hhas
  exact ⟨e₀, x, evs, he₀, hx, hform, hcolumns, ⟨k, hk, by rw [hkrow], by rw [hkrow]⟩, hsame, hrowOf,
    htable, hlog,
    hquiet⟩

/-- What is new in the log is the completion of the transaction that was taken. -/
theorem Takes.completed {columns : Json} {comp : Component} {e : TransactionEntry} {x : AgentAction}
    {evs : List TransactionEvent} (h : Takes s r columns comp e x evs) {a : Nat} {st : Int}
    (hev : .completed a st ∈ comp.manager.log) :
    .completed a st ∈ s.component.manager.log ∨ a = e.addr ∧ st = toInt x.ret := by
  rw [h.log] at hev
  rcases List.mem_append.1 hev with hev | hev
  · exact Or.inl hev
  · rcases List.mem_cons.1 hev with heq | hev
    · cases heq
      exact Or.inr ⟨rfl, rfl⟩
    · cases h.quiet _ hev

/-- A Feedback row takes the transaction whose row the agent acted on. -/
theorem Provenance.hearsFeedback (h : Provenance s r) {msg : ServerMsg} {columns : Json}
    {rest : List ServerMsg} {comp : Component} {e : TransactionEntry} {x : AgentAction}
    {evs : List TransactionEvent} (hq : s.server.toComponent = msg :: rest)
    (hf : HearFrame s.component comp) (hr : comp.listener.recording = none)
    (htakes : Takes s r columns comp e x evs) :
    Provenance { s with component := comp, server := { s.server with toComponent := rest } } r := by
  have hne : e.uuid ≠ [] := by
    intro hnil
    have hlen := length_of_isUuid htakes.form
    rw [← htakes.uuid, hnil] at hlen
    cases hlen
  refine h.heard hq hf hr (fun e' he' => ?_) (fun e' he' hnil => ?_) fun a st hev => ?_
  · rw [htakes.log]
    exact List.mem_append_left _ he'
  · rw [htakes.table, SlotTable.mem_clear]
    refine ⟨fun heq => hne ?_, he'⟩
    rw [← SlotTable.mem_unique he' htakes.mem heq]
    exact hnil
  · rcases htakes.completed hev with hev | ⟨rfl, rfl⟩
    · exact Or.inl hev
    · obtain ⟨k, hk, howner, hkrow⟩ := htakes.rowOf
      exact Or.inr ⟨x, htakes.action, k, hk, by rw [hkrow], howner, rfl⟩

theorem Provenance.hearComponent (h : Provenance s r) (hrec : RecordInv s r)
    (hstep : s.hearComponent = some s') : Provenance s' r := by
  unfold Network.hearComponent at hstep
  cases hq : s.server.toComponent with
  | nil => rw [hq] at hstep; cases hstep
  | cons msg rest =>
      rw [hq] at hstep
      obtain ⟨comp, hear, rfl⟩ := Option.map_eq_some_iff.1 hstep
      have hf := hear_frame hear
      obtain ⟨hl, hheard⟩ := hear_cases hear
      by_cases hm : comp.manager = s.component.manager
      · have hsame : comp.listener.recording = none → Provenance
            { s with component := comp, server := { s.server with toComponent := rest } } r := fun hr =>
          h.heard hq hf hr (fun _ he => by rw [hm]; exact he) (fun _ he _ => by rw [hm]; exact he)
            fun _ _ hev => by rw [hm] at hev; exact Or.inl hev
        cases hheard with
        | ignored => exact hsame (by rw [hl]; rfl)
        | unlinks _ _ _ _ _ => exact hsame rfl
        | records hmsg _ _ _ hparse =>
            subst hmsg
            exact h.hearsReply hq hf hm rfl (insertedUuid_of_parse hparse)
        | takes _ _ _ _ _ hr _ => exact hsame hr
      · obtain ⟨hsame, _⟩ | ⟨monId, rowUuid, columns, e, m, rfl, ht, hcomp⟩ := hear_inv hear
        · exact absurd hsame hm
        obtain ⟨_, _, _, htakes⟩ := h.takes hrec (by rw [hq]; exact List.mem_cons_self ..) ht hcomp
        refine h.hearsFeedback hq hf ?_ htakes
        cases hheard with
        | ignored => rw [hl]; rfl
        | unlinks _ _ _ _ _ => rfl
        | records hmsg _ _ _ _ => cases hmsg
        | takes _ _ _ _ _ hr _ => exact hr

/-- The agent's action is a new one; the component is as before. -/
theorem Provenance.acts (h : Provenance s r) (hc : s'.component = s.component)
    (hq : s'.server.toComponent = s.server.toComponent)
    (hserved : s'.server.servedComponent = s.server.servedComponent) (l : List AgentAction) :
    Provenance s' { r with actions := r.actions ++ l } := by
  have hunserved : s'.unserved = s.unserved := by unfold Network.unserved; rw [hc, hserved]
  constructor
  · rw [hc]; exact h.writing
  · rw [hc, hunserved]; exact h.asked
  · rw [hc, hq]; exact h.replied
  · rw [hc]; exact h.recording
  · intro id
    have hsingle := h.single id
    unfold Network.insertions at hsingle ⊢
    rw [hc, hunserved, hq]
    exact hsingle
  · rw [hc]; exact h.recorded
  · rw [hc]; exact h.commits
  · exact h.owned
  · exact h.distinct
  · intro a st hev
    rw [hc] at hev
    obtain ⟨x, hx, hrest⟩ := h.completed a st hev
    exact ⟨x, List.mem_append_left _ hx, hrest⟩

/-- **The step lemma.** -/
theorem provenance_step {i : NetworkStep} (h : Provenance s r) (hrec : RecordInv s r)
    (hb : Balanced s.component.managerState) (hstep : networkStep s i = some s') :
    Provenance s' (i.note s s' r) := by
  cases i with
  | component i =>
      simp only [networkStep] at hstep
      split at hstep
      · next hallowed =>
          obtain ⟨c, hc, rfl⟩ := Option.map_eq_some_iff.1 hstep
          exact h.stepComponent hrec.form hb hrec.component hallowed hc
      · cases hstep
  | agent i =>
      simp only [networkStep] at hstep
      split at hstep
      · obtain ⟨a, _, rfl⟩ := Option.map_eq_some_iff.1 hstep
        exact h.frame rfl (fun _ he => he) (fun _ _ hev => hev) (fun c hc hw => ⟨c, hc, hw, rfl, rfl⟩)
          (fun _ hx => Or.inl hx) (List.Subset.refl _) (Or.inr rfl) fun _ => Nat.le_refl _
      · cases hstep
  | serve conn uuid =>
      obtain ⟨x, rid, req, server, hs⟩ := serve_inv hstep
      exact h.serve hrec hb hs
  | hearComponent => exact h.hearComponent hrec hstep
  | hearAgent ret =>
      have hkeep : s'.component = s.component ∧ s'.server.toComponent = s.server.toComponent ∧
          s'.server.servedComponent = s.server.servedComponent := by
        obtain ⟨_, _, _, _, ⟨_, rfl⟩ | ⟨_, _, rfl⟩⟩ := hearAgent_inv hrec.agent hstep
        · exact ⟨rfl, rfl, rfl⟩
        · exact ⟨rfl, rfl, rfl⟩
      exact h.acts hkeep.1 hkeep.2.1 hkeep.2.2 _

end Messages

/-- The run lemma. -/
theorem provenance_of_reach {cid agentCid : Nat} {t : Network × Record}
    (h : (recordedNetwork cid agentCid).Reachable t) : Provenance t.1 t.2 := by
  have hboth : RecordInv t.1 t.2 ∧ Provenance t.1 t.2 := by
    refine Machine.Reach.invariant_recorded (C := fun _ _ => True)
      (I := fun s r => RecordInv s r ∧ Provenance s r) ?_ ?_ h
    · intro s h0
      have h0 : s = .start cid agentCid := h0
      rw [h0]
      exact ⟨recordInv_start cid agentCid, provenance_start cid agentCid⟩
    · intro s i s' r hreach hI _ hstep
      obtain ⟨hrec, hp⟩ := hI
      have hb := balanced_of_component (component_of_network hreach)
      exact ⟨recordInv_step hrec hstep, provenance_step hp hrec hb hstep⟩
  exact hboth.2

end OvsAgent
