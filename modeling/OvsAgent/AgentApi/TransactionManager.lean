/-
  OvsAgent.AgentApi.TransactionManager — the table of pending transactions.

  Follows transaction_manager.c.  The table is an array of five pointers and a
  transaction can only stand at `hash_code(id)`, so it is a `SlotTable` and the
  placement law comes with the type.  `get_transaction` and
  `remove_transaction_table` address a SLOT: they never compare the id of the
  entry they find with the id they were asked for.

  A pointer to an entry is the number of the `malloc` that returned it.  The
  manager also keeps the log of what it did to entries and their configurations,
  which is what the laws about runs speak of.
-/
import OvsAgent.DataTypes
import OvsAgent.Lib.SlotTable
import Mathlib.Data.List.FinRange

namespace OvsAgent

open CString (strncpy strncmpEq atou)

/-! ## §1. The table. -/

/-- `MAX_TABLE_SIZE`. -/
abbrev maxTableSize : Nat := 5

/-- `hash_code(key, MAX_TABLE_SIZE)`. -/
def hashCode (key : Nat) : Fin maxTableSize := ⟨key % maxTableSize, Nat.mod_lt _ (by decide)⟩

/-- `TRANSACTION_STATE`. -/
inductive TransactionState where
  | init
  | uuidRecv
  | complete
  | timeout
  deriving Repr, DecidableEq

/-- `Transaction_Entry`; `addr` is the address `malloc` gave it. -/
structure TransactionEntry where
  addr : Nat
  id : Nat
  uuid : CString
  state : TransactionState
  callback : Option OvsInteractCb
  tableConfig : RdkbTableConfig
  status : Int
  deriving Repr, DecidableEq

/-- `Transaction_Table`. -/
abbrev TransactionTable :=
  SlotTable (Fin maxTableSize) TransactionEntry fun e => hashCode e.id

/-- What happens to an entry. -/
inductive TransactionEvent where
  /-- `insert_transaction` returned true with this entry. -/
  | inserted (e : TransactionEntry)
  /-- `update_transaction` was given this uuid for the entry. -/
  | uuidRecorded (addr : Nat) (uuid : CString)
  /-- `complete_transaction` took the entry out of the table. -/
  | completed (addr : Nat) (status : Int)
  /-- The entry's callback was called. -/
  | invoked (addr : Nat) (cb : OvsInteractCb) (status : Int) (tableConfig : RdkbTableConfig)
  /-- `free(transaction->table_config.config)`. -/
  | configFreed (addr config : Nat)
  /-- `free(transaction)`. -/
  | freed (addr : Nat)
  deriving Repr, DecidableEq

/-- The entry an event is about. -/
def TransactionEvent.addr : TransactionEvent → Nat
  | inserted e => e.addr
  | uuidRecorded a _ => a
  | completed a _ => a
  | invoked a _ _ _ => a
  | configFreed a _ => a
  | freed a => a

/-- The table behind `g_transaction_table`, the allocator and the log. -/
structure TransactionManager where
  table : TransactionTable
  mallocs : Nat
  log : List TransactionEvent

/-- An initialised manager before its first transaction. -/
def TransactionManager.start : TransactionManager := ⟨.empty, 0, []⟩

/-! ## §2. The operations. -/

/-- What `destroy_transaction` frees: the configuration, if there is one, then the entry. -/
def TransactionEntry.frees (e : TransactionEntry) : List TransactionEvent :=
  (e.tableConfig.configAddr.map (TransactionEvent.configFreed e.addr)).toList ++ [.freed e.addr]

/-- `destroy_transaction` of a non-NULL entry. -/
def destroyTransaction (e : TransactionEntry) (m : TransactionManager) : TransactionManager :=
  { m with log := m.log ++ e.frees }

/-- `destroy_transaction(remove_transaction_table(key))`; nothing when the slot is free. -/
def dropSlot (key : Fin maxTableSize) (m : TransactionManager) : TransactionManager :=
  match m.table.elements key with
  | none => m
  | some e => destroyTransaction e { m with table := m.table.clear key }

/-- `deinit_transaction_manager`: every entry is destroyed, slot by slot, and
the array goes with them. -/
def deinitTransactionManager (m : TransactionManager) : TransactionManager :=
  (List.finRange maxTableSize).foldl (fun m key => dropSlot key m) m

/-- `delete_transaction`. -/
def deleteTransaction (rid : Option CString) (m : TransactionManager) :
    Bool × TransactionManager :=
  match rid with
  | none => (false, m)
  | some rid =>
      let key := hashCode (atou rid)
      ((m.table.elements key).isSome, dropSlot key m)

/-- `create_transaction`, at the address `malloc` returns next. -/
def createTransaction (id : Nat) (callback : Option OvsInteractCb)
    (tableConfig : RdkbTableConfig) (m : TransactionManager) : TransactionEntry where
  addr := m.mallocs
  id := id
  uuid := []
  state := .init
  callback := callback
  tableConfig := tableConfig
  status := OvsStatus.unknown.toInt

/-- `insert_transaction_table`: an entry already in the slot is destroyed,
whatever its state. -/
def insertTransactionTable (e : TransactionEntry) (m : TransactionManager) :
    TransactionManager :=
  let m := dropSlot (hashCode e.id) m
  { m with table := m.table.put e }

/-- `insert_transaction`; `malloc` tells whether there is memory for the entry. -/
def insertTransaction (malloc : Bool) (rid : Option CString) (callback : Option OvsInteractCb)
    (tableConfig : Option RdkbTableConfig) (m : TransactionManager) :
    Bool × TransactionManager :=
  match rid, tableConfig with
  | some rid, some tableConfig =>
      if malloc then
        let e := createTransaction (atou rid) callback tableConfig m
        let m := insertTransactionTable e { m with mallocs := m.mallocs + 1 }
        (true, { m with log := m.log ++ [.inserted e] })
      else (false, m)
  | _, _ => (false, m)

/-- The entry after `update_transaction_uuid`. -/
def TransactionEntry.withUuid (e : TransactionEntry) (uuid : CString) : TransactionEntry :=
  { e with uuid := strncpy maxUuidLen uuid, state := .uuidRecv }

/-- `update_transaction`: the entry in the slot is updated, whatever its id. -/
def updateTransaction (rid uuid : Option CString) (m : TransactionManager) :
    Bool × TransactionManager :=
  match rid, uuid with
  | some rid, some uuid =>
      match m.table.elements (hashCode (atou rid)) with
      | none => (false, m)
      | some e =>
          (true, { m with
            table := m.table.put (e.withUuid uuid)
            log := m.log ++ [.uuidRecorded e.addr uuid] })
  | _, _ => (false, m)

/-- `!strncmp(transaction->uuid, uuid, MAX_UUID_LEN)`. -/
def TransactionEntry.hasUuid (uuid : CString) (e : TransactionEntry) : Bool :=
  strncmpEq maxUuidLen e.uuid uuid

/-- `find_transaction_key`: the first slot whose entry has the uuid. -/
def findTransactionKey (uuid : CString) (t : TransactionTable) : Option (Fin maxTableSize) :=
  (List.finRange maxTableSize).find? fun key => (t.elements key).any (·.hasUuid uuid)

/-- What `complete_transaction` does to an entry before it destroys it. -/
def TransactionEntry.completion (e : TransactionEntry) (status : Int) : List TransactionEvent :=
  .completed e.addr status ::
    (e.callback.map fun cb => TransactionEvent.invoked e.addr cb status e.tableConfig).toList

/-- `complete_transaction` up to the call of the callback: the entry has left
the table and the callback, if there is one, has been called with its own
configuration. -/
def takeTransaction (uuid : Option CString) (status : Int) (m : TransactionManager) :
    Option (TransactionEntry × TransactionManager) := do
  let uuid ← uuid
  let key ← findTransactionKey uuid m.table
  let e ← m.table.elements key
  let e := { e with status := status, state := .complete }
  return (e, { m with
    table := m.table.clear key
    log := m.log ++ e.completion status })

/-- `complete_transaction`; `body` is what the callback itself does to the manager. -/
def completeTransaction (body : TransactionManager → TransactionManager)
    (uuid : Option CString) (status : Int) (m : TransactionManager) :
    Bool × TransactionManager :=
  match takeTransaction uuid status m with
  | none => (false, m)
  | some (e, m) => (true, destroyTransaction e (if e.callback.isSome then body m else m))

/-! ## §3. What the operations do to the table. -/

@[simp] theorem withUuid_id (e : TransactionEntry) (u : CString) : (e.withUuid u).id = e.id := rfl
@[simp] theorem withUuid_uuid (e : TransactionEntry) (u : CString) :
    (e.withUuid u).uuid = strncpy maxUuidLen u := rfl

@[simp] theorem destroyTransaction_table (e : TransactionEntry) (m : TransactionManager) :
    (destroyTransaction e m).table = m.table := rfl

@[simp] theorem dropSlot_mallocs (key : Fin maxTableSize) (m : TransactionManager) :
    (dropSlot key m).mallocs = m.mallocs := by
  unfold dropSlot
  split <;> rfl

/-- Dropping a slot frees that slot and no other. -/
theorem dropSlot_elements (key i : Fin maxTableSize) (m : TransactionManager) :
    (dropSlot key m).table.elements i = if i = key then none else m.table.elements i := by
  unfold dropSlot
  split
  · next h =>
      by_cases hi : i = key
      · rw [if_pos hi, hi, h]
      · rw [if_neg hi]
  · next e h =>
      rw [destroyTransaction_table]
      exact SlotTable.clear_elements _ _ _

theorem dropSlot_with_mallocs (key : Fin maxTableSize) (m : TransactionManager) (n : Nat) :
    dropSlot key { m with mallocs := n } = { dropSlot key m with mallocs := n } := by
  unfold dropSlot
  cases m.table.elements key with
  | none => rfl
  | some e => rfl

/-- A successful insertion: the slot is dropped, the new entry put, and the event logged. -/
theorem insertTransaction_eq (rid : CString) (callback : Option OvsInteractCb)
    (tc : RdkbTableConfig) (m : TransactionManager) :
    let e := createTransaction (atou rid) callback tc m
    let m₁ := dropSlot (hashCode e.id) m
    insertTransaction true (some rid) callback (some tc) m
      = (true, { m₁ with
          table := m₁.table.put e, mallocs := m₁.mallocs + 1, log := m₁.log ++ [.inserted e] }) := by
  simp only [insertTransaction, if_true, insertTransactionTable, dropSlot_with_mallocs,
    dropSlot_mallocs]

/-- Inserting replaces what the slot held. -/
theorem insertTransactionTable_elements (e : TransactionEntry) (i : Fin maxTableSize)
    (m : TransactionManager) :
    (insertTransactionTable e m).table.elements i
      = if i = hashCode e.id then some e else m.table.elements i := by
  show ((dropSlot (hashCode e.id) m).table.put e).elements i = _
  rw [SlotTable.put_elements, dropSlot_elements]
  split <;> rfl

theorem insertTransaction_elements (rid : CString) (callback : Option OvsInteractCb)
    (tc : RdkbTableConfig) (i : Fin maxTableSize) (m : TransactionManager) :
    (insertTransaction true (some rid) callback (some tc) m).2.table.elements i
      = if i = hashCode (atou rid) then some (createTransaction (atou rid) callback tc m)
        else m.table.elements i :=
  insertTransactionTable_elements _ _ _

/-- The entry found is the one in the slot, so it carries the slot's number. -/
theorem hashCode_of_elements {t : TransactionTable} {key : Fin maxTableSize}
    {e : TransactionEntry} (h : t.elements key = some e) : hashCode e.id = key := t.slot_eq h

theorem updateTransaction_elements {rid uuid : CString} {m : TransactionManager}
    {e : TransactionEntry} (h : m.table.elements (hashCode (atou rid)) = some e)
    (i : Fin maxTableSize) :
    (updateTransaction (some rid) (some uuid) m).2.table.elements i
      = if i = hashCode (atou rid) then some (e.withUuid uuid) else m.table.elements i := by
  simp only [updateTransaction, h]
  rw [SlotTable.put_elements, withUuid_id, hashCode_of_elements h]

/-- An update that finds the slot free does nothing. -/
theorem updateTransaction_of_free {rid uuid : CString} {m : TransactionManager}
    (h : m.table.elements (hashCode (atou rid)) = none) :
    updateTransaction (some rid) (some uuid) m = (false, m) := by
  simp only [updateTransaction, h]

theorem updateTransaction_of_some {rid uuid : CString} {m : TransactionManager}
    {e : TransactionEntry} (h : m.table.elements (hashCode (atou rid)) = some e) :
    updateTransaction (some rid) (some uuid) m
      = (true, { m with
          table := m.table.put (e.withUuid uuid)
          log := m.log ++ [.uuidRecorded e.addr uuid] }) := by
  simp only [updateTransaction, h]

theorem dropSlot_of_free {key : Fin maxTableSize} {m : TransactionManager}
    (h : m.table.elements key = none) : dropSlot key m = m := by
  simp only [dropSlot, h]

theorem insertTransaction_log_of_free {rid : CString} {callback : Option OvsInteractCb}
    {tc : RdkbTableConfig} {m : TransactionManager} (h : m.table.elements (hashCode (atou rid)) = none) :
    (insertTransaction true (some rid) callback (some tc) m).2.log
      = m.log ++ [.inserted (createTransaction (atou rid) callback tc m)] := by
  rw [insertTransaction_eq]
  show (dropSlot (hashCode (atou rid)) m).log ++ _ = _
  rw [dropSlot_of_free h]

theorem dropSlot_of_some {key : Fin maxTableSize} {m : TransactionManager}
    {e : TransactionEntry} (h : m.table.elements key = some e) :
    dropSlot key m = destroyTransaction e { m with table := m.table.clear key } := by
  simp only [dropSlot, h]

/-- What a found key says, and why a key was not found. -/
theorem findTransactionKey_some {uuid : CString} {t : TransactionTable}
    {key : Fin maxTableSize} (h : findTransactionKey uuid t = some key) :
    ∃ e, t.elements key = some e ∧ e.hasUuid uuid = true := by
  unfold findTransactionKey at h
  have hk : (t.elements key).any (·.hasUuid uuid) = true := by
    simpa using List.find?_some h
  cases he : t.elements key with
  | none => rw [he] at hk; cases hk
  | some e => exact ⟨e, rfl, by simpa [he] using hk⟩

theorem findTransactionKey_none {uuid : CString} {t : TransactionTable} :
    findTransactionKey uuid t = none ↔ ∀ e, t.Mem e → e.hasUuid uuid = false := by
  unfold findTransactionKey
  rw [List.find?_eq_none]
  constructor
  · intro h e he
    have hk := h (hashCode e.id) (List.mem_finRange _)
    have he' : t.elements (hashCode e.id) = some e := he
    rw [he'] at hk
    simpa using hk
  · intro h key _
    cases hk : t.elements key with
    | none => simp
    | some e => simp [h e (SlotTable.mem_of_elements hk)]

/-- **Inversion of the first half of a completion**: it finds an entry with
the uuid, frees its slot and records the call of its callback. -/
theorem takeTransaction_some {uuid : Option CString} {status : Int}
    {m m' : TransactionManager} {e' : TransactionEntry}
    (h : takeTransaction uuid status m = some (e', m')) :
    ∃ u e, uuid = some u ∧ m.table.Mem e ∧ e.hasUuid u = true
      ∧ e' = { e with status := status, state := .complete }
      ∧ m' = { m with
          table := m.table.clear (hashCode e.id)
          log := m.log ++ e.completion status } := by
  cases uuid with
  | none => cases h
  | some u =>
      cases hk : findTransactionKey u m.table with
      | none => simp [takeTransaction, hk] at h
      | some key =>
          obtain ⟨e, he, hu⟩ := findTransactionKey_some hk
          simp only [takeTransaction, hk, he, Option.pure_def, Option.bind_eq_bind,
            Option.bind_some, Option.some.injEq, Prod.mk.injEq] at h
          obtain ⟨h1, h2⟩ := h
          refine ⟨u, e, rfl, SlotTable.mem_of_elements he, hu, h1.symm, ?_⟩
          rw [hashCode_of_elements he]
          exact h2.symm

theorem takeTransaction_none {u : CString} {status : Int} {m : TransactionManager} :
    takeTransaction (some u) status m = none ↔ ∀ e, m.table.Mem e → e.hasUuid u = false := by
  rw [← findTransactionKey_none]
  constructor
  · intro h
    cases hk : findTransactionKey u m.table with
    | none => rfl
    | some key =>
        obtain ⟨e, he, _⟩ := findTransactionKey_some hk
        simp [takeTransaction, hk, he] at h
  · intro h
    simp [takeTransaction, h]

theorem takeTransaction_log {uuid : Option CString} {status : Int} {m m' : TransactionManager}
    {e : TransactionEntry} (h : takeTransaction uuid status m = some (e, m')) :
    .completed e.addr status ∈ m'.log := by
  obtain ⟨_, _, _, _, _, rfl, rfl⟩ := takeTransaction_some h
  exact List.mem_append_right _ (List.mem_cons_self ..)

end OvsAgent
