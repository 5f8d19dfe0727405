/-
  OvsAgent.AgentApi.FeedbackRows — whom a Feedback row reaches.

  Every component sees all rows of the Feedback table, and a row completes the
  first transaction whose stored uuid compares equal to the row's `req_uuid`.
  A transaction without a uuid yet stores the empty string, a row without the
  column is read as the empty string, and a longer column is cut to 36 bytes.

  Main result: `feedback_addressee_iff` — along every run, a row nobody was
  given the uuid of leaves the process as it is exactly when its column is a
  proper uuid, or no stored uuid happens to equal what was read.
-/
import OvsAgent.AgentApi.ComponentSteps

namespace OvsAgent

open CString (ofString strncpy strncmpEq)
open Json (objectGet stringValue)

/-! ## §1. The column and what is read of it. -/

/-- The `req_uuid` column of a row, when it is a string. -/
def reqUuidColumn (row : Json) : Option CString := stringValue (objectGet (some row) feedbackReqUuid)

theorem feedbackConfigParser_reqUuid (row : Json) :
    (feedbackConfigParser row).reqUuid
      = match reqUuidColumn row with
        | some u => strncpy maxUuidLen u
        | none => [] := rfl

/-- The label is a row of the Feedback table for the process's Feedback monitor. -/
def FeedbackUpdate (s : Component) (i : ComponentStep) (row : Json) : Prop :=
  ∃ monId node, i = .update monId feedbackTableName row ∧
    (s.db.monitors.find? fun node => node.matches monId) = some node ∧
    node.callback = some .ovsAgentApiMonitorFeedbackCallback

/-- A live transaction has had the row's uuid recorded from an insert receipt. -/
def RecordedFor (s : Component) (row : Json) : Prop :=
  ∃ u e, reqUuidColumn row = some u ∧ s.manager.table.Mem e ∧ .uuidRecorded e.addr u ∈ s.manager.log

/-- The law of one step: a row for nobody here is handled without any effect,
and the listener is free again. -/
def AddresseeOnly (s : Component) (i : ComponentStep) (s' : Component) : Prop :=
  ∀ row, FeedbackUpdate s i row → ¬ RecordedFor s row → s' = s

/-- The column is a string of at most 36 bytes and not empty. -/
def ProperUuid (row : Json) : Prop :=
  ∃ u, reqUuidColumn row = some u ∧ u ≠ [] ∧ u.length ≤ maxUuidLen

/-- No live transaction stores the uuid that is read from the row. -/
def NoneStored (s : Component) (row : Json) : Prop :=
  ∀ e, s.manager.table.Mem e → e.hasUuid (feedbackConfigParser row).reqUuid = false

/-- The condition of one step. -/
def MeetsAddressee (s : Component) (i : ComponentStep) : Prop :=
  ∀ row, FeedbackUpdate s i row → RecordedFor s row ∨ ProperUuid row ∨ NoneStored s row

/-! ## §2. Recorded uuids. -/

/-- No uuid is longer than the field it is copied to. -/
structure UuidLengths (s : Component) : Prop where
  listener : ∀ i rid uuid, s.listener = .updateTransaction i rid uuid → uuid.length ≤ maxUuidLen
  log : ∀ a uuid, .uuidRecorded a uuid ∈ s.manager.log → uuid.length ≤ maxUuidLen

/-- The step lemma for what the listener holds. -/
theorem listener_uuid_step {cid : Nat} {s s' : Component} {i : ComponentStep}
    (h : UuidLengths s) (hstep : (componentMachine cid).step s i = some s') :
    ∀ j rid uuid, s'.listener = .updateTransaction j rid uuid → uuid.length ≤ maxUuidLen := by
  have hstep : componentStep s i = some s' := hstep
  intro j rid uuid hl'
  cases i with
  | interact request callback => cases hstep; exact h.listener j rid uuid hl'
  | call n malloc o =>
      obtain ⟨c, _, hcs⟩ := callStep_cases hstep
      have hsame : s'.listener = s.listener := by cases hcs <;> rfl
      exact h.listener j rid uuid (hsame ▸ hl')
  | wake n result =>
      obtain ⟨c, _, _, rfl⟩ := wakeStep_cases hstep
      exact h.listener j rid uuid hl'
  | interactMonitor t cb => cases hstep; exact h.listener j rid uuid hl'
  | monitorCall n o =>
      obtain ⟨db, pcs, rfl⟩ := monitorCallStep_cases hstep
      exact h.listener j rid uuid hl'
  | receipt r result =>
      obtain ⟨_, l', rfl, hq⟩ := receiptStep_cases hstep
      exact hq.uuid j rid uuid hl'
  | update monId tableName row =>
      obtain ⟨hl, rfl | ⟨u, st, e, m, _, ⟨_, l', hq, rfl⟩ | ⟨_, rfl⟩⟩⟩ :=
        updateStep_cases hstep
      · exact h.listener j rid uuid hl'
      · exact hq.uuid j rid uuid hl'
      · cases hl'
  | listener o waiter =>
      cases listenerStep_cases hstep with
      | quiet _ _ hq => exact hq.uuid j rid uuid hl'
      | updateTransaction _ hq => exact hq.uuid j rid uuid hl'
      | callbackReturns _ hq => exact hq.uuid j rid uuid hl'
      | _ => cases hl'

/-- The run lemma. -/
theorem uuidLengths_of_reachable {cid : Nat} {s : Component}
    (h : (componentMachine cid).Reachable s) : UuidLengths s := by
  refine h.invariant (I := UuidLengths) ?_ ?_
  · intro s h0
    have h0 : s = .start cid := h0
    subst h0
    exact ⟨fun _ _ _ h => (by cases h), fun _ _ h => (by cases h)⟩
  · intro s i s' hI _ hstep
    refine ⟨listener_uuid_step hI hstep, fun a uuid hev => ?_⟩
    rcases component_refines hstep with heq | ⟨call, hcall, hp⟩
    · have hlog : s'.manager.log = s.manager.log := congrArg (·.manager.log) heq
      exact hI.log a uuid (hlog ▸ hev)
    · rcases mem_log_step hcall hev with hold | ⟨rid, rfl⟩
      · exact hI.log a uuid hold
      · obtain ⟨j, r, u, hl, _, hu⟩ := hp _ _ rfl
        cases hu
        exact hI.listener j r uuid hl

/-! ## §3. One update. -/

/-- A Feedback row handled: its callback is given the parsed row. -/
theorem feedbackUpdate_step {s s' : Component} {i : ComponentStep} {row : Json}
    (hu : FeedbackUpdate s i row) (hstep : componentStep s i = some s') :
    s' = monitorFeedbackCallback (.feedback (some ⟨0, feedbackConfigParser row⟩)) s := by
  obtain ⟨monId, node, rfl, hfind, hcb⟩ := hu
  have hparse : parseTable feedbackTableName row
      = some (.feedback (some ⟨0, feedbackConfigParser row⟩)) := by
    unfold parseTable
    rw [if_neg (by decide), if_pos rfl]
  simp only [componentStep, updateStep] at hstep
  split at hstep
  · simp only [hparse, hfind, hcb, Option.some.injEq] at hstep
    exact hstep.symm
  · cases hstep

/-- The row is without effect exactly when no live transaction stores what was read. -/
theorem monitorFeedbackCallback_eq_iff {s : Component} {row : Json} :
    monitorFeedbackCallback (.feedback (some ⟨0, feedbackConfigParser row⟩)) s = s
      ↔ NoneStored s row := by
  have hnone := @takeTransaction_none (feedbackConfigParser row).reqUuid
    (feedbackConfigParser row).status s.manager
  unfold NoneStored
  rw [← hnone]
  cases ht : takeTransaction (some (feedbackConfigParser row).reqUuid)
      (feedbackConfigParser row).status s.manager with
  | none => simp only [monitorFeedbackCallback, ht]
  | some p =>
      obtain ⟨e', m⟩ := p
      obtain ⟨u, e, _, hm, _, rfl, rfl⟩ := takeTransaction_some ht
      refine iff_of_false (fun heq => ?_) (by simp)
      -- the transaction has left the table
      have htable : (monitorFeedbackCallback (.feedback (some ⟨0, feedbackConfigParser row⟩))
          s).manager.table
          = s.manager.table.clear (hashCode e.id) := by
        simp only [monitorFeedbackCallback, ht]
        cases e.callback with
        | none => rfl
        | some cb => rfl
      rw [heq] at htable
      have hm' : s.manager.table.Mem e := hm
      rw [htable, SlotTable.mem_clear] at hm'
      exact hm'.1 rfl

/-- A proper uuid that nobody was given is stored by nobody. -/
theorem noneStored_of_proper {cid : Nat} {s : Component} {row : Json}
    (h : (componentMachine cid).Reachable s) (hp : ProperUuid row) (hnot : ¬ RecordedFor s row) :
    NoneStored s row := by
  obtain ⟨u, hcol, hne, hlen⟩ := hp
  intro e he
  rw [Bool.eq_false_iff]
  intro hmatch
  have hread : (feedbackConfigParser row).reqUuid = u := by
    rw [feedbackConfigParser_reqUuid, hcol]
    exact CString.strncpy_of_length_le hlen
  unfold TransactionEntry.hasUuid at hmatch
  rw [hread] at hmatch
  rcases (balanced_of_component h).recorded e he with hnil | ⟨u', hrec, hstored⟩
  · rw [hnil, CString.strncmpEq_iff_eq (Nat.zero_le _) hlen] at hmatch
    exact hne hmatch.symm
  · have hlen' : u'.length ≤ maxUuidLen := (uuidLengths_of_reachable h).log e.addr u' hrec
    rw [hstored, CString.strncpy_of_length_le hlen', CString.strncmpEq_iff_eq hlen' hlen] at hmatch
    subst hmatch
    exact hnot ⟨u', e, hcol, he, hrec⟩

/-- The law and the condition agree on every step from a reachable state. -/
theorem addressee_step_iff {cid : Nat} {s s' : Component} {i : ComponentStep}
    (h : (componentMachine cid).Reachable s) (hstep : (componentMachine cid).step s i = some s') :
    AddresseeOnly s i s' ↔ MeetsAddressee s i := by
  constructor
  · intro hlaw row hrow
    by_cases hrec : RecordedFor s row
    · exact Or.inl hrec
    · have heq := hlaw row hrow hrec
      rw [feedbackUpdate_step hrow hstep, monitorFeedbackCallback_eq_iff] at heq
      exact Or.inr (Or.inr heq)
  · intro hcond row hrow hrec
    rw [feedbackUpdate_step hrow hstep, monitorFeedbackCallback_eq_iff]
    rcases hcond row hrow with hrec' | hproper | hnone
    · exact absurd hrec' hrec
    · exact noneStored_of_proper h hproper hrec
    · exact hnone

/-- **Whom a Feedback row reaches.**  From any reachable state, every row of a
run that nobody was given the uuid of is without effect if and only if every
row meets the condition. -/
theorem feedback_addressee_iff {cid : Nat} {s : Component}
    (h : (componentMachine cid).Reachable s) (is : List ComponentStep) :
    (componentMachine cid).AllSteps AddresseeOnly s is
      ↔ (componentMachine cid).AllSteps (fun s i _ => MeetsAddressee s i) s is :=
  Machine.allSteps_iff (fun _ _ _ hr hstep => addressee_step_iff hr hstep) is s h

/-- A row of the step has a proper uuid. -/
def properUuidTest (_ : Component) : ComponentStep → Bool
  | .update _ _ row => (reqUuidColumn row).any fun u => u != [] && u.length ≤ maxUuidLen
  | _ => true

theorem meetsAddressee_of_test (s : Component) (i : ComponentStep) (h : properUuidTest s i = true) :
    MeetsAddressee s i := by
  intro row hrow
  obtain ⟨monId, node, rfl, _⟩ := hrow
  obtain ⟨u, hcol, hu⟩ := (Option.any_eq_true _ _).1 h
  obtain ⟨hne, hlen⟩ := Bool.and_eq_true_iff.1 hu
  exact .inr (.inl ⟨u, hcol, bne_iff_ne.1 hne, of_decide_eq_true hlen⟩)

/-- Request 1001 has its uuid.  A row comes for another component, then its own. -/
def twoRowSteps : List ComponentStep :=
  requestSteps 0 (gatewayRequest .disable 100) ++
    firstReceiptSteps (ofString "1001") (ofString "5f0d2c5e-6a5a-4d8e-9d57-0f6f2a7c9b11") ++
    [.update (ofString "1002") feedbackTableName
      (feedbackRow (ofString "0c1c7d0e-52f5-4b55-8a39-7d3f6b8e2a40")),
      .update (ofString "1002") feedbackTableName
      (feedbackRow (ofString "5f0d2c5e-6a5a-4d8e-9d57-0f6f2a7c9b11"))]

theorem feedback_addressee_iff_first :
    ((componentMachine 1).run (.start 1) twoRowSteps).isSome = true ∧
      (componentMachine 1).AllSteps AddresseeOnly (.start 1) twoRowSteps := by
  have hrun : ((componentMachine 1).checkedRun properUuidTest (.start 1) twoRowSteps).isSome = true := by
    decide +kernel
  obtain ⟨s, hs⟩ := Option.isSome_iff_exists.1 hrun
  obtain ⟨htaken, hall⟩ := Machine.run_of_checkedRun meetsAddressee_of_test hs
  exact ⟨by rw [htaken]; rfl, (feedback_addressee_iff (.init rfl) twoRowSteps).2 hall⟩

/-- Request 1001 has its uuid, and its Feedback monitor is up; the receipt of
request 1004 is still to come. -/
def lateReceiptSteps : List ComponentStep :=
  requestSteps 0 (gatewayRequest .disable 100) ++
    firstReceiptSteps (ofString "1001") (ofString "5f0d2c5e-6a5a-4d8e-9d57-0f6f2a7c9b11") ++
    requestSteps 1 (gatewayRequest .disable 101)

/-- A Feedback row without a `req_uuid` column. -/
def rowWithoutUuid : ComponentStep :=
  .update (ofString "1002") feedbackTableName (.object [(ofString "status", .integer 0)])

/-- It completes request 1004. -/
theorem rowWithoutUuid_completes_1004 :
    ¬ (componentMachine 1).AllSteps AddresseeOnly (.start 1) (lateReceiptSteps ++ [rowWithoutUuid]) := by
  have hrun : ((componentMachine 1).run (.start 1) lateReceiptSteps).any (fun t =>
      (t.db.monitors.find? fun node => node.matches (ofString "1002")).any
          (·.callback = some .ovsAgentApiMonitorFeedbackCallback) &&
        (t.manager.table.elements 4).any (fun e => e.id = 1004 && e.uuid == []) &&
        (componentStep t rowWithoutUuid).isSome) = true := by
    decide +kernel
  obtain ⟨t, ht, hcheck⟩ := (Option.any_eq_true _ _).1 hrun
  simp only [Bool.and_eq_true] at hcheck
  obtain ⟨⟨hmon, hentry⟩, hstep⟩ := hcheck
  obtain ⟨node, hfind, hcb⟩ := (Option.any_eq_true _ _).1 hmon
  obtain ⟨e, he, hid⟩ := (Option.any_eq_true _ _).1 hentry
  obtain ⟨t', ht'⟩ := Option.isSome_iff_exists.1 hstep
  have ht' : (componentMachine 1).step t rowWithoutUuid = some t' := ht'
  have hr : (componentMachine 1).Reachable t := Machine.reachable_of_run (.init rfl) ht
  refine Machine.not_allSteps_of_run ht ht' ?_
  rw [addressee_step_iff hr ht']
  intro hcond
  rcases hcond _ ⟨_, node, rfl, hfind, of_decide_eq_true hcb⟩ with
      ⟨u, _, hu, _⟩ | ⟨u, hu, _⟩ | hnone
  · cases hu
  · cases hu
  · have huuid : e.uuid = [] := by simp at hid; exact hid.2
    have hno := hnone e (SlotTable.mem_of_elements he)
    unfold TransactionEntry.hasUuid at hno
    rw [huuid] at hno
    cases hno

end OvsAgent
