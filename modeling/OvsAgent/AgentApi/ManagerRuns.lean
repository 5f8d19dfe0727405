/-
  OvsAgent.AgentApi.ManagerRuns — every run of the transaction manager.

  `managerMachine` takes one call of the manager's interface at a step.  A
  completion that has a callback stays open (`running`) until the callback
  returns, and any call may come in between: a callback that re-enters the
  manager, completions within completions included, is a run of the machine
  (`run_complete`).

  Main result: `isolated_iff` — along every run, an update or a delete stays
  with the transaction of its own id exactly when it never meets a slot that
  holds another id.
-/
import OvsAgent.AgentApi.TransactionManager
import OvsAgent.Lib.Machine

namespace OvsAgent

open CString (ofString atou)

/-! ## §1. The machine. -/

/-- `g_transaction_table` (NULL when not initialised) and the completions
whose callback is running, the innermost first. -/
structure ManagerState where
  initialized : Bool
  manager : TransactionManager
  running : List TransactionEntry

/-- The process before `init_transaction_manager`. -/
def ManagerState.start : ManagerState := ⟨false, .start, []⟩

/-- A call of the manager's interface, or the return of the innermost callback. -/
inductive ManagerCall where
  | initManager (malloc : Bool)
  | deinitManager
  | insert (malloc : Bool) (rid : Option CString) (callback : Option OvsInteractCb)
      (tableConfig : Option RdkbTableConfig)
  | update (rid uuid : Option CString)
  | delete (rid : Option CString)
  | complete (uuid : Option CString) (status : Int)
  | callbackReturns
  deriving Repr, DecidableEq

/-- `complete_transaction`: without a callback the entry is destroyed at once,
otherwise when the callback returns. -/
def completeStep (uuid : Option CString) (status : Int) (s : ManagerState) : ManagerState :=
  match takeTransaction uuid status s.manager with
  | none => s
  | some (e, m) =>
      match e.callback with
      | none => { s with manager := destroyTransaction e m }
      | some _ => { s with manager := m, running := e :: s.running }

/-- One call.  The operations on the table need one, and the manager is not
de-initialised from within a callback. -/
def managerStep (s : ManagerState) : ManagerCall → Option ManagerState
  | .initManager malloc =>
      if s.initialized || !malloc then some s
      else some { s with initialized := true, manager := { s.manager with table := .empty } }
  | .deinitManager =>
      if !s.initialized then some s
      else if s.running.isEmpty then
        some { s with initialized := false, manager := deinitTransactionManager s.manager }
      else none
  | .insert malloc rid callback tableConfig =>
      if s.initialized then
        some { s with manager := (insertTransaction malloc rid callback tableConfig s.manager).2 }
      else none
  | .update rid uuid =>
      if s.initialized then some { s with manager := (updateTransaction rid uuid s.manager).2 }
      else none
  | .delete rid =>
      if s.initialized then some { s with manager := (deleteTransaction rid s.manager).2 }
      else none
  | .complete uuid status => if s.initialized then some (completeStep uuid status s) else none
  | .callbackReturns =>
      match s.running with
      | [] => none
      | e :: running => some { s with manager := destroyTransaction e s.manager, running := running }

/-- The transaction manager of a process. -/
def managerMachine : Machine ManagerState ManagerCall where
  init s := s = .start
  step := managerStep

section CompleteStep

variable {uuid : Option CString} {status : Int} {s : ManagerState} {e : TransactionEntry}
  {m : TransactionManager}

theorem completeStep_of_none (ht : takeTransaction uuid status s.manager = none) :
    completeStep uuid status s = s := by
  simp only [completeStep, ht]

theorem completeStep_of_noCallback (ht : takeTransaction uuid status s.manager = some (e, m))
    (hcb : e.callback = none) :
    completeStep uuid status s = { s with manager := destroyTransaction e m } := by
  simp only [completeStep, ht, hcb]

theorem completeStep_of_callback (ht : takeTransaction uuid status s.manager = some (e, m))
    (hcb : e.callback.isSome) :
    completeStep uuid status s = { s with manager := m, running := e :: s.running } := by
  obtain ⟨cb, hcb'⟩ := Option.isSome_iff_exists.1 hcb
  simp only [completeStep, ht, hcb']

/-- A completion whose callback makes the calls `is` is that run of the machine. -/
theorem run_complete {body : TransactionManager → TransactionManager} {is : List ManagerCall}
    (hi : s.initialized = true)
    (ht : takeTransaction uuid status s.manager = some (e, m)) (hcb : e.callback.isSome)
    (hbody : managerMachine.run { s with manager := m, running := e :: s.running } is
      = some { s with manager := body m, running := e :: s.running }) :
    managerMachine.run s (.complete uuid status :: (is ++ [.callbackReturns]))
      = some { s with manager := (completeTransaction body uuid status s.manager).2 } := by
  have hstep : managerMachine.step s (.complete uuid status)
      = some { s with manager := m, running := e :: s.running } := by
    simp only [managerMachine, managerStep, hi, if_true, completeStep_of_callback ht hcb]
  have hret : managerMachine.run { s with manager := body m, running := e :: s.running }
      [.callbackReturns] = some { s with manager := destroyTransaction e (body m) } := rfl
  rw [Machine.run_cons, hstep, Option.bind_some, Machine.run_append, hbody, Option.bind_some, hret]
  simp only [completeTransaction, ht, hcb, if_true]

end CompleteStep

/-- What a call can do: nothing, or one of the operations on the manager. -/
inductive ManagerStep (s : ManagerState) (i : ManagerCall) : ManagerState → Prop where
  | same : ManagerStep s i s
  | opens (hi : s.initialized = false) :
      ManagerStep s i { s with initialized := true, manager := { s.manager with table := .empty } }
  | closes : ManagerStep s i { s with initialized := false, manager := deinitTransactionManager s.manager }
  | inserts {rid : CString} {callback : Option OvsInteractCb} {tc : RdkbTableConfig}
      (hi : s.initialized = true) (hcall : i = .insert true (some rid) callback (some tc)) :
      ManagerStep s i { s with
        manager := (insertTransaction true (some rid) callback (some tc) s.manager).2 }
  | records {rid uuid : CString} {e : TransactionEntry} (hi : s.initialized = true)
      (hcall : i = .update (some rid) (some uuid))
      (hk : s.manager.table.elements (hashCode (atou rid)) = some e) :
      ManagerStep s i { s with manager := (updateTransaction (some rid) (some uuid) s.manager).2 }
  | drops (key : Fin maxTableSize) (hi : s.initialized = true) :
      ManagerStep s i { s with manager := dropSlot key s.manager }
  | destroys {uuid : Option CString} {status : Int} {e : TransactionEntry} {m : TransactionManager}
      (hi : s.initialized = true) (ht : takeTransaction uuid status s.manager = some (e, m))
      (hcb : e.callback = none) : ManagerStep s i { s with manager := destroyTransaction e m }
  | calls {uuid : Option CString} {status : Int} {e : TransactionEntry} {m : TransactionManager}
      (hi : s.initialized = true) (ht : takeTransaction uuid status s.manager = some (e, m))
      (hcb : e.callback.isSome) : ManagerStep s i { s with manager := m, running := e :: s.running }
  | returns {e : TransactionEntry} {running : List TransactionEntry} (hr : s.running = e :: running) :
      ManagerStep s i { s with manager := destroyTransaction e s.manager, running := running }

/-- The inversion lemma of the manager. -/
theorem managerStep_cases {s s' : ManagerState} {i : ManagerCall}
    (h : managerMachine.step s i = some s') : ManagerStep s i s' := by
  have h : managerStep s i = some s' := h
  unfold managerStep at h
  cases i with
  | initManager malloc =>
      dsimp only at h
      split at h
      · cases h; exact .same
      · next hi =>
          cases h
          refine .opens ?_
          cases hini : s.initialized with
          | false => rfl
          | true => simp [hini] at hi
  | deinitManager =>
      dsimp only at h
      split at h
      · cases h; exact .same
      · split at h
        · cases h; exact .closes
        · cases h
  | insert malloc rid callback tableConfig =>
      dsimp only at h
      split at h
      · next hi =>
          cases h
          -- a NULL argument or a failed `malloc`: nothing is inserted
          cases rid with
          | none => exact .same
          | some rid =>
              cases tableConfig with
              | none => exact .same
              | some tc =>
                  cases malloc with
                  | false => exact .same
                  | true => exact .inserts hi rfl
      · cases h
  | update rid uuid =>
      dsimp only at h
      split at h
      · next hi =>
          cases h
          cases rid with
          | none => exact .same
          | some rid =>
              cases uuid with
              | none => exact .same
              | some uuid =>
                  cases hk : s.manager.table.elements (hashCode (atou rid)) with
                  | none => rw [updateTransaction_of_free hk]; exact .same
                  | some e => exact .records hi rfl hk
      · cases h
  | delete rid =>
      dsimp only at h
      split at h
      · next hi =>
          cases h
          cases rid with
          | none => exact .same
          | some rid => exact .drops _ hi
      · cases h
  | complete uuid status =>
      dsimp only at h
      split at h
      · next hi =>
          cases h
          -- an entry without a callback is destroyed at once, another one when its callback returns
          cases ht : takeTransaction uuid status s.manager with
          | none => rw [completeStep_of_none ht]; exact .same
          | some p =>
              obtain ⟨e, m⟩ := p
              cases hcb : e.callback with
              | none => rw [completeStep_of_noCallback ht hcb]; exact .destroys hi ht hcb
              | some cb =>
                  have hsome : e.callback.isSome := by rw [hcb]; rfl
                  rw [completeStep_of_callback ht hsome]
                  exact .calls hi ht hsome
      · cases h
  | callbackReturns =>
      dsimp only at h
      split at h
      · cases h
      · next hr => cases h; exact .returns hr

/-! ## §2. Isolation by request id. -/

/-- A call with request id `rid` that answered `returned` and took the table
from `t` to `t'` stayed with the transaction of that id. -/
structure IsolatedCall (rid : Option CString) (returned : Bool) (t t' : TransactionTable) : Prop where
  live : returned = true → ∃ r e, rid = some r ∧ t.Mem e ∧ e.id = atou r
  others : ∀ e, t.Mem e → (∀ r, rid = some r → e.id ≠ atou r) → t'.Mem e

/-- The law of one step of a run; it speaks of updates and deletes. -/
def Isolated (s : ManagerState) : ManagerCall → ManagerState → Prop
  | .update rid uuid, s' =>
      IsolatedCall rid (updateTransaction rid uuid s.manager).1 s.manager.table s'.manager.table
  | .delete rid, s' =>
      IsolatedCall rid (deleteTransaction rid s.manager).1 s.manager.table s'.manager.table
  | _, _ => True

/-- The slot the request id leads to is free or holds that very id. -/
def OwnSlot (rid : CString) (t : TransactionTable) : Prop :=
  ∀ e, t.elements (hashCode (atou rid)) = some e → e.id = atou rid

/-- The condition of one step: a call that gets as far as the table meets its own slot. -/
def MeetsOwnSlot (s : ManagerState) : ManagerCall → Prop
  | .update (some rid) (some _) => OwnSlot rid s.manager.table
  | .delete (some rid) => OwnSlot rid s.manager.table
  | _ => True

/-- An entry other than the slot's own stands in another slot, or the slot is not its own. -/
theorem ne_hashCode_of_mem {t : TransactionTable} {rid : CString} {e : TransactionEntry}
    (h : OwnSlot rid t) (he : t.Mem e) (hid : e.id ≠ atou rid) :
    hashCode e.id ≠ hashCode (atou rid) := by
  intro hk
  have hm : t.elements (hashCode (atou rid)) = some e := hk ▸ he
  exact hid (h e hm)

/-- A call that answers false and touches nothing is isolated. -/
theorem isolatedCall_refused (rid : Option CString) (t : TransactionTable) :
    IsolatedCall rid false t t :=
  ⟨fun h => absurd h Bool.false_ne_true, fun _ he _ => he⟩

theorem isolatedCall_update_iff (rid uuid : CString) (m : TransactionManager) :
    IsolatedCall (some rid) (updateTransaction (some rid) (some uuid) m).1 m.table
      (updateTransaction (some rid) (some uuid) m).2.table ↔ OwnSlot rid m.table := by
  cases hk : m.table.elements (hashCode (atou rid)) with
  | none =>
      rw [updateTransaction_of_free hk]
      constructor
      · intro _ e he
        rw [hk] at he; cases he
      · intro _
        exact isolatedCall_refused _ _
  | some e =>
      have hself : m.table.Mem e := SlotTable.mem_of_elements hk
      rw [updateTransaction_of_some hk]
      constructor
      · intro h e' he'
        obtain ⟨r, e₁, hr, he₁, hid⟩ := h.live rfl
        cases hr
        -- the live transaction with that id stands in this very slot
        have hm : m.table.elements (hashCode (atou rid)) = some e₁ := hid ▸ he₁
        rw [hm] at he'
        cases he'
        exact hid
      · intro h
        have hid : e.id = atou rid := h e hk
        refine ⟨fun _ => ⟨rid, e, rfl, hself, hid⟩, fun e' he' hne => ?_⟩
        show (m.table.put (e.withUuid uuid)).Mem e'
        rw [SlotTable.mem_put, withUuid_id, hid]
        exact Or.inr ⟨ne_hashCode_of_mem h he' (hne rid rfl), he'⟩

theorem isolatedCall_delete_iff (rid : CString) (m : TransactionManager) :
    IsolatedCall (some rid) (deleteTransaction (some rid) m).1 m.table
      (deleteTransaction (some rid) m).2.table ↔ OwnSlot rid m.table := by
  show IsolatedCall (some rid) (m.table.elements (hashCode (atou rid))).isSome m.table
    (dropSlot (hashCode (atou rid)) m).table ↔ _
  cases hk : m.table.elements (hashCode (atou rid)) with
  | none =>
      rw [dropSlot_of_free hk]
      constructor
      · intro _ e he
        rw [hk] at he; cases he
      · intro _
        exact isolatedCall_refused _ _
  | some e =>
      have hself : m.table.Mem e := SlotTable.mem_of_elements hk
      constructor
      · intro h e' he'
        obtain ⟨r, e₁, hr, he₁, hid⟩ := h.live rfl
        cases hr
        have hm : m.table.elements (hashCode (atou rid)) = some e₁ := hid ▸ he₁
        rw [hm] at he'
        cases he'
        exact hid
      · intro h
        refine ⟨fun _ => ⟨rid, e, rfl, hself, h e hk⟩, fun e' he' hne => ?_⟩
        unfold SlotTable.Mem
        rw [dropSlot_elements, if_neg (ne_hashCode_of_mem h he' (hne rid rfl))]
        exact he'

/-- The law and the condition agree on every single step. -/
theorem isolated_step_iff {s s' : ManagerState} {i : ManagerCall}
    (h : managerMachine.step s i = some s') : Isolated s i s' ↔ MeetsOwnSlot s i := by
  cases i with
  | update rid uuid =>
      by_cases hi : s.initialized = true
      · simp only [managerMachine, managerStep, hi, if_true, Option.some.injEq] at h
        subst h
        cases rid with
        | none => exact iff_of_true (isolatedCall_refused _ _) trivial
        | some rid =>
            cases uuid with
            | none => exact iff_of_true (isolatedCall_refused _ _) trivial
            | some uuid => exact isolatedCall_update_iff rid uuid s.manager
      · simp [managerMachine, managerStep, hi] at h
  | delete rid =>
      by_cases hi : s.initialized = true
      · simp only [managerMachine, managerStep, hi, if_true, Option.some.injEq] at h
        subst h
        cases rid with
        | none => exact iff_of_true (isolatedCall_refused _ _) trivial
        | some rid => exact isolatedCall_delete_iff rid s.manager
      · simp [managerMachine, managerStep, hi] at h
  | initManager _ => exact Iff.rfl
  | deinitManager => exact Iff.rfl
  | insert _ _ _ _ => exact Iff.rfl
  | complete _ _ => exact Iff.rfl
  | callbackReturns => exact Iff.rfl

/-- **Isolation along runs.**  From any reachable state, every update and
delete of a run stays with the transaction of its own id if and only if each
of them meets a slot that is free or holds its own id. -/
theorem isolated_iff {s : ManagerState} (h : managerMachine.Reachable s) (is : List ManagerCall) :
    managerMachine.AllSteps Isolated s is
      ↔ managerMachine.AllSteps (fun s i _ => MeetsOwnSlot s i) s is :=
  Machine.allSteps_iff (fun _ _ _ _ hstep => isolated_step_iff hstep) is s h

/-- A table that holds the transaction of request 1. -/
def insertOne : List ManagerCall :=
  [.initManager true,
   .insert true (some (ofString "1")) (some (.client 0)) (some (.gwConfig none))]

/-- The condition, evaluated. -/
def meetsOwnSlotTest (s : ManagerState) : ManagerCall → Bool
  | .update (some rid) (some _) =>
      (s.manager.table.elements (hashCode (atou rid))).all fun e => e.id == atou rid
  | .delete (some rid) => (s.manager.table.elements (hashCode (atou rid))).all fun e => e.id == atou rid
  | _ => true

theorem meetsOwnSlot_of_test (s : ManagerState) (i : ManagerCall) (h : meetsOwnSlotTest s i = true) :
    MeetsOwnSlot s i := by
  have hslot : ∀ {rid : CString},
      ((s.manager.table.elements (hashCode (atou rid))).all fun e => e.id == atou rid) =
      true → OwnSlot rid s.manager.table := by
    intro rid hall e he
    rw [he] at hall
    exact eq_of_beq hall
  cases i with
  | update rid uuid =>
      cases rid with
      | none => trivial
      | some rid => cases uuid <;> first | trivial | exact hslot h
  | delete rid =>
      cases rid with
      | none => trivial
      | some rid => exact hslot h
  | _ => trivial

/-- Request 1 gets its uuid and is deleted; request 6 comes into its slot. -/
def ownSteps : List ManagerCall :=
  insertOne ++ [.update (some (ofString "1")) (some (ofString "u")), .delete (some (ofString "1")),
    .insert true (some (ofString "6")) (some (.client 1)) (some (.gwConfig none)),
    .update (some (ofString "6")) (some (ofString "v"))]

theorem isolated_iff_start : managerMachine.AllSteps Isolated .start ownSteps := by
  have hrun : (managerMachine.checkedRun meetsOwnSlotTest .start ownSteps).isSome = true := by decide
  obtain ⟨s, hs⟩ := Option.isSome_iff_exists.1 hrun
  exact (isolated_iff (.init rfl) ownSteps).2 (Machine.run_of_checkedRun meetsOwnSlot_of_test hs).2

/-- The cleanup of request 6, which registered no transaction, and a late
receipt for it: the transaction of request 1 is deleted, or given the uuid. -/
theorem request6_reaches_request1 :
    ¬ managerMachine.AllSteps Isolated .start (insertOne ++ [.delete (some (ofString "6"))]) ∧
    ¬ managerMachine.AllSteps Isolated .start
        (insertOne ++ [.update (some (ofString "6")) (some (ofString "u"))]) := by
  have h0 : managerMachine.Reachable .start := .init rfl
  constructor
  · rw [Machine.allSteps_iff (fun _ _ _ _ hs => isolated_step_iff hs) _ _ h0]
    intro h
    exact absurd (h.2.2.1 _ rfl) (by decide)
  · rw [Machine.allSteps_iff (fun _ _ _ _ hs => isolated_step_iff hs) _ _ h0]
    intro h
    exact absurd (h.2.2.1 _ rfl) (by decide)

end OvsAgent
