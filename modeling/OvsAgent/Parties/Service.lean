/-
  OvsAgent.Parties.Service — what the network is for.

  Seen from outside, a component asks for a configuration, the agent acts on
  it, and the component's callback is told what came of it.  Request ids,
  uuids, receipts, monitors, rows and deletes are how this is done; they are
  not seen.

      ask a c      a transaction is inserted at address a, for configuration c
      act a c b    the agent is called with c on the row of this transaction
      answer a b   the transaction is completed with status b

  Main results:
    * `network_refines_service` — what is seen of a run of the network is a run
      of a service that acts once on what it is asked;
    * `seen_in_order` — of each transaction is seen a beginning of: ask, act,
      answer, with one configuration and one result;
    * `seen_in_full` — after a run that was on time, at rest, all of it.
-/
import OvsAgent.Lib.Service
import OvsAgent.Parties.ExactlyOnce
import OvsAgent.Parties.CleanUp

namespace OvsAgent

open CString (ofString utoa atou strncpy)
open Json
open Machine (Steps simulates)

/-! ## §1. What is seen. -/

abbrev NetworkEvent := Service.Event Nat (Option RdkbTableConfig) Int

abbrev NetworkService := Service.State Nat (Option RdkbTableConfig) Int

/-- The configuration as it is read from the row it travels in. -/
def RdkbTableConfig.received (config : RdkbTableConfig) : Option RdkbTableConfig :=
  parseTable gatewayConfigTableName (.object config.row)

/-- What is seen of the transactions. -/
def TransactionEvent.seen : TransactionEvent → Option NetworkEvent
  | inserted e => some (.ask e.addr e.tableConfig.received)
  | completed a st => some (.answer a st)
  | _ => none

/-- The transaction whose row this is. -/
def Record.ownerOf (r : Record) (uuid : CString) : Option Nat :=
  (r.commits.find? fun c => c.row.uuid == uuid).bind Commit.owner

/-- What is seen of the agent. -/
def AgentAction.seen (r : Record) (x : AgentAction) : Option NetworkEvent :=
  (r.ownerOf x.row.uuid).map fun a => .act a (some x.row.tableConfig) (toInt x.ret)

/-- What is seen of a step: what is new in the log, and what the agent did. -/
def NetworkStep.shows (t : Network × Record) (_ : NetworkStep) (t' : Network × Record) :
    List NetworkEvent :=
  (t'.1.component.manager.log.drop t.1.component.manager.log.length).filterMap TransactionEvent.seen ++
    (t'.2.actions.drop t.2.actions.length).filterMap (AgentAction.seen t'.2)

/-- The service in this state has been asked, has done and has answered what the network has. -/
structure Shows (t : Network × Record) (v : NetworkService) : Prop where
  asked : ∀ a c, v.asked a = some c ↔
    ∃ e : TransactionEntry, .inserted e ∈ t.1.component.manager.log ∧ e.addr = a ∧
      e.tableConfig.received = c
  acted : ∀ a b, v.acted a = some b ↔ ∃ x ∈ t.2.actions, t.2.Answers x a ∧ toInt x.ret = b
  answered : ∀ a b, v.answered a = some b ↔ .completed a b ∈ t.1.component.manager.log

theorem shows_start (cid agentCid : Nat) : Shows (.start cid agentCid, ⟨[], []⟩) Service.State.start where
  asked := fun _ _ => iff_of_false (fun h => by cases h) fun h => by obtain ⟨_, h, _⟩ := h; cases h
  acted := fun _ _ => iff_of_false (fun h => by cases h) fun h => by obtain ⟨_, h, _⟩ := h; cases h
  answered := fun _ _ => iff_of_false (fun h => by cases h) fun h => by cases h

section Shows

variable {t t' : Network × Record} {v : NetworkService} {i : NetworkStep}

/-- What is seen of a step that acts on nothing. -/
theorem shows_of_log {evs : List TransactionEvent}
    (hlog : t'.1.component.manager.log = t.1.component.manager.log ++ evs)
    (hactions : t'.2.actions = t.2.actions) :
    i.shows t t' = evs.filterMap TransactionEvent.seen := by
  unfold NetworkStep.shows
  rw [hlog, hactions, List.drop_left, List.drop_length, List.filterMap_nil, List.append_nil]

theorem seen_of_quiet {evs : List TransactionEvent} (h : ∀ ev ∈ evs, ev.quiet = true) :
    evs.filterMap TransactionEvent.seen = [] := by
  refine List.filterMap_eq_nil_iff.2 fun ev hev => ?_
  have hquiet := h ev hev
  cases ev with
  | inserted e => cases hquiet
  | completed a st => cases hquiet
  | _ => rfl

theorem quiet_notMem {evs : List TransactionEvent} (h : ∀ ev ∈ evs, ev.quiet = true) :
    (∀ e : TransactionEntry, .inserted e ∉ evs) ∧ ∀ (a : Nat) (st : Int),
      .completed a st ∉ evs := by
  constructor
  · intro e hmem
    exact Bool.false_ne_true (h _ hmem)
  · intro a st hmem
    exact Bool.false_ne_true (h _ hmem)

/-- Nothing is seen, and nothing was done that could be. -/
theorem Shows.quiet (h : Shows t v) {l : List TransactionEvent}
    (hlog : t'.1.component.manager.log = t.1.component.manager.log ++ l)
    (hquiet : ∀ ev ∈ l, ev.quiet = true) (hactions : t'.2.actions = t.2.actions)
    (hanswers : ∀ x ∈ t.2.actions, ∀ a, t'.2.Answers x a ↔ t.2.Answers x a) :
    ∃ v', Steps Service.Step v (i.shows t t') v' ∧ Shows t' v' := by
  obtain ⟨hno, hnone⟩ := quiet_notMem hquiet
  refine ⟨v, ?_, ?_⟩
  · rw [shows_of_log hlog hactions, seen_of_quiet hquiet]
    exact .nil v
  · refine ⟨fun a c => ?_, fun a b => ?_, fun a b => ?_⟩
    · rw [h.asked a c, hlog]
      constructor
      · rintro ⟨e, he, hrest⟩
        exact ⟨e, List.mem_append_left _ he, hrest⟩
      · rintro ⟨e, he, hrest⟩
        exact ⟨e, (List.mem_append.1 he).resolve_right (hno e), hrest⟩
    · rw [h.acted a b, hactions]
      constructor
      · rintro ⟨x, hx, hans, hb⟩
        exact ⟨x, hx, (hanswers x hx a).2 hans, hb⟩
      · rintro ⟨x, hx, hans, hb⟩
        exact ⟨x, hx, (hanswers x hx a).1 hans, hb⟩
    · rw [h.answered a b, hlog, List.mem_append, or_iff_left (hnone a b)]

/-- The same, when the record is as it was. -/
theorem Shows.unseen (h : Shows t v) {l : List TransactionEvent}
    (hlog : t'.1.component.manager.log = t.1.component.manager.log ++ l)
    (hquiet : ∀ ev ∈ l, ev.quiet = true) (hrecord : t'.2 = t.2) :
    ∃ v', Steps Service.Step v (i.shows t t') v' ∧ Shows t' v' := by
  refine h.quiet hlog hquiet (by rw [hrecord]) fun x _ a => ?_
  rw [hrecord]

/-! ## §2. One step. -/

/-- A transaction is inserted at an address of its own. -/
theorem Shows.ask (h : Shows t v) (hb : Balanced t.1.component.managerState) {e : TransactionEntry}
    (hlog : t'.1.component.manager.log = t.1.component.manager.log ++ [.inserted e])
    (haddr : e.addr = t.1.component.manager.mallocs) (hrecord : t'.2 = t.2) :
    ∃ v', Steps Service.Step v (i.shows t t') v' ∧ Shows t' v' := by
  -- the entry's address is the next one of `malloc`, so nothing has been seen of it
  have hfresh : ∀ e', .inserted e' ∈ t.1.component.manager.log → e'.addr ≠ e.addr := by
    intro e' he' heq
    have hmem : .inserted e' ∈ life e'.addr t.1.component.manager.log :=
      KeyedLog.mem_history.2 ⟨he', rfl⟩
    have hlife : life e'.addr t.1.component.manager.log = [] :=
      (hb.ledger.account e'.addr).fresh (Nat.le_of_eq (by rw [heq, haddr]; rfl))
    rw [hlife] at hmem
    cases hmem
  have hnew : v.asked e.addr = none := by
    cases hv : v.asked e.addr with
    | none => rfl
    | some c =>
        obtain ⟨e', he', heq, _⟩ := (h.asked e.addr c).1 hv
        exact absurd heq (hfresh e' he')
  refine ⟨{ v with asked := Function.update v.asked e.addr (some e.tableConfig.received) }, ?_, ?_⟩
  · rw [shows_of_log hlog (by rw [hrecord])]
    exact .single (.ask hnew)
  · refine ⟨fun a c => ?_, fun a b => ?_, fun a b => ?_⟩
    · show Function.update v.asked e.addr (some e.tableConfig.received) a = some c ↔ _
      rw [hlog]
      by_cases ha : a = e.addr
      · subst ha
        rw [Function.update_self, Option.some.injEq]
        constructor
        · intro hc
          exact ⟨e, List.mem_append_right _ (List.mem_singleton_self _), rfl, hc⟩
        · rintro ⟨e', he', heq, hc⟩
          rcases List.mem_append.1 he' with he' | he'
          · exact absurd heq (hfresh e' he')
          · cases List.mem_singleton.1 he'
            exact hc
      · rw [Function.update_of_ne ha, h.asked a c]
        constructor
        · rintro ⟨e', he', hrest⟩
          exact ⟨e', List.mem_append_left _ he', hrest⟩
        · rintro ⟨e', he', heq, hc⟩
          rcases List.mem_append.1 he' with he' | he'
          · exact ⟨e', he', heq, hc⟩
          · cases List.mem_singleton.1 he'
            exact absurd heq.symm ha
    · rw [hrecord]
      exact h.acted a b
    · show v.answered a = some b ↔ _
      rw [hlog, h.answered a b, List.mem_append, or_iff_left]
      intro hmem
      cases List.mem_singleton.1 hmem

/-- A committed row is found by its uuid. -/
theorem RecordInv.ownerOf_eq {s : Network} {r : Record} (hrec : RecordInv s r) {c : Commit}
    (hc : c ∈ r.commits) :
    r.ownerOf c.row.uuid = c.owner := by
  unfold Record.ownerOf
  cases hfind : r.commits.find? fun k => k.row.uuid == c.row.uuid with
  | none =>
      have hnone := List.find?_eq_none.1 hfind c hc
      rw [beq_self_eq_true] at hnone
      exact absurd rfl hnone
  | some k =>
      have hk : k ∈ r.commits := List.mem_of_find?_eq_some hfind
      have huuid := List.find?_some (p := fun k : Commit => k.row.uuid == c.row.uuid) hfind
      rw [hrec.commit_unique hk hc (beq_iff_eq.1 huuid)]
      rfl

/-- The agent acts on the row of a transaction that it has not acted for. -/
theorem Shows.act (h : Shows t v) (hrec : RecordInv t'.1 t'.2) (hp : Provenance t'.1 t'.2)
    (htold : ToldOnce t'.1 t'.2) {x : AgentAction}
    (hlog : t'.1.component.manager.log = t.1.component.manager.log) (hcommits : t'.2.commits = t.2.commits)
    (hactions : t'.2.actions = t.2.actions ++ [x]) :
    ∃ v', Steps Service.Step v (i.shows t t') v' ∧ Shows t' v' := by
  have hx : x ∈ t'.2.actions := by
    rw [hactions]
    exact List.mem_append_right _ (List.mem_singleton_self _)
  have hanswers : ∀ y a, t'.2.Answers y a ↔ t.2.Answers y a := by
    intro y a
    unfold Record.Answers
    rw [hcommits]
  -- the row is that of a transaction
  obtain ⟨c, hc, htable, huuid, hparse⟩ := hrec.action x hx
  obtain ⟨e, he, howner, hname, hcolumns⟩ := hp.commits c hc htable
  have hreceived : e.tableConfig.received = some x.row.tableConfig := by
    unfold RdkbTableConfig.received
    rw [← hcolumns]
    exact hparse
  have hasked : v.asked e.addr = some (some x.row.tableConfig) := by
    rw [hlog] at he
    exact (h.asked _ _).2 ⟨e, he, rfl, hreceived⟩
  -- no other action was on it
  have hfirst : ∀ y ∈ t.2.actions, ¬ t.2.Answers y e.addr := by
    rintro y hy ⟨c', hc', huuid', howner'⟩
    rw [← hcommits] at hc'
    have hsame : c = c' := hp.distinct c hc c' hc' (howner.trans howner'.symm)
      (by rw [howner]; exact Option.some_ne_none _)
    have hnodup := htold.actions_nodup hrec.fresh
    rw [hactions, List.map_append, List.map_singleton] at hnodup
    have hdisjoint := List.disjoint_of_nodup_append hnodup
    refine hdisjoint (List.mem_map_of_mem hy) (List.mem_singleton.2 ?_)
    show y.row.uuid = x.row.uuid
    rw [← huuid', ← hsame, huuid]
  have hnew : v.acted e.addr = none := by
    cases hv : v.acted e.addr with
    | none => rfl
    | some b =>
        obtain ⟨y, hy, hans, _⟩ := (h.acted _ _).1 hv
        exact absurd hans (hfirst y hy)
  refine ⟨{ v with acted := Function.update v.acted e.addr (some (toInt x.ret)) }, ?_, ?_⟩
  · have hseen : x.seen t'.2 = some (.act e.addr (some x.row.tableConfig) (toInt x.ret)) := by
      unfold AgentAction.seen
      rw [← huuid, hrec.ownerOf_eq hc, howner]
      rfl
    have hshows : i.shows t t' = [.act e.addr (some x.row.tableConfig) (toInt x.ret)] := by
      unfold NetworkStep.shows
      rw [hlog, hactions, List.drop_length, List.drop_left, List.filterMap_cons_some hseen]
      rfl
    rw [hshows]
    exact .single (.act hasked hnew)
  · refine ⟨fun a k => ?_, fun a b => ?_, fun a b => ?_⟩
    · rw [hlog]
      exact h.asked a k
    · show Function.update v.acted e.addr (some (toInt x.ret)) a = some b ↔ _
      rw [hactions]
      by_cases ha : a = e.addr
      · subst ha
        rw [Function.update_self, Option.some.injEq]
        constructor
        · intro hb
          exact ⟨x, List.mem_append_right _ (List.mem_singleton_self _), ⟨c, hc, huuid, howner⟩, hb⟩
        · rintro ⟨y, hy, hans, hb⟩
          rcases List.mem_append.1 hy with hy | hy
          · exact absurd ((hanswers y _).1 hans) (hfirst y hy)
          · rw [List.mem_singleton.1 hy] at hb
            exact hb
      · rw [Function.update_of_ne ha, h.acted a b]
        constructor
        · rintro ⟨y, hy, hans, hb⟩
          exact ⟨y, List.mem_append_left _ hy, (hanswers y a).2 hans, hb⟩
        · rintro ⟨y, hy, hans, hb⟩
          rcases List.mem_append.1 hy with hy | hy
          · exact ⟨y, hy, (hanswers y a).1 hans, hb⟩
          · -- the action on the row of `e` is for no other transaction
            rw [List.mem_singleton.1 hy] at hans
            obtain ⟨k, hk, hku, hkowner⟩ := hans
            rw [hrec.commit_unique hk hc (hku.trans huuid.symm), howner] at hkowner
            exact absurd (Option.some.inj hkowner).symm ha
    · rw [hlog]
      exact h.answered a b

/-- A transaction is completed with the result of the action on its row. -/
theorem Shows.answer (h : Shows t v) (hb : Balanced t.1.component.managerState) {columns : Json}
    {e : TransactionEntry} {x : AgentAction} {evs : List TransactionEvent}
    (htakes : Takes t.1 t.2 columns t'.1.component e x evs) (hrecord : t'.2 = t.2) :
    ∃ v', Steps Service.Step v (i.shows t t') v' ∧ Shows t' v' := by
  obtain ⟨hno, hnone⟩ := quiet_notMem htakes.quiet
  have hacted : v.acted e.addr = some (toInt x.ret) := by
    obtain ⟨k, hk, howner, hkrow⟩ := htakes.rowOf
    exact (h.acted _ _).2 ⟨x, htakes.action, ⟨k, hk, by rw [hkrow], howner⟩, rfl⟩
  have hnew : v.answered e.addr = none := by
    cases hv : v.answered e.addr with
    | none => rfl
    | some st => exact absurd ((h.answered _ _).1 hv) (hb.not_completed htakes.mem st)
  refine ⟨{ v with answered := Function.update v.answered e.addr (some (toInt x.ret)) }, ?_, ?_⟩
  · have hseen : (TransactionEvent.completed e.addr (toInt x.ret) :: evs).filterMap TransactionEvent.seen
        = [.answer e.addr (toInt x.ret)] := congrArg (_ :: ·) (seen_of_quiet htakes.quiet)
    rw [shows_of_log htakes.log (by rw [hrecord]), hseen]
    exact .single (.answer hacted hnew)
  · refine ⟨fun a c => ?_, fun a b => ?_, fun a b => ?_⟩
    · show v.asked a = some c ↔ _
      rw [htakes.log, h.asked a c]
      constructor
      · rintro ⟨e', he', hrest⟩
        exact ⟨e', List.mem_append_left _ he', hrest⟩
      · rintro ⟨e', he', hrest⟩
        refine ⟨e', (List.mem_append.1 he').resolve_right fun hmem => ?_, hrest⟩
        exact hno e' ((List.mem_cons.1 hmem).resolve_left TransactionEvent.noConfusion)
    · rw [hrecord]
      exact h.acted a b
    · show Function.update v.answered e.addr (some (toInt x.ret)) a = some b ↔ _
      by_cases ha : a = e.addr
      · subst ha
        rw [Function.update_self, Option.some.injEq]
        constructor
        · rintro rfl
          rw [htakes.log]
          exact List.mem_append_right _ (List.mem_cons_self ..)
        · intro hmem
          rcases htakes.completed hmem with hold | ⟨_, hb'⟩
          · exact absurd hold (hb.not_completed htakes.mem b)
          · exact hb'.symm
      · rw [Function.update_of_ne ha, h.answered a b]
        constructor
        · intro hmem
          rw [htakes.log]
          exact List.mem_append_left _ hmem
        · intro hmem
          exact (htakes.completed hmem).resolve_right fun hnew => ha hnew.1

/-- A row that is committed is on nothing that was done before. -/
theorem Shows.serve (h : Shows t v) (hrec : RecordInv t.1 t.2) (hrec' : RecordInv t'.1 t'.2)
    {l : List Commit} (hlog : t'.1.component.manager.log = t.1.component.manager.log)
    (hactions : t'.2.actions = t.2.actions) (hcommits : t'.2.commits = t.2.commits ++ l) :
    ∃ v', Steps Service.Step v (i.shows t t') v' ∧ Shows t' v' := by
  refine h.quiet (hlog.trans (List.append_nil _).symm) (fun _ hev => by cases hev) hactions fun x hx a => ?_
  have hsub : t.2.commits ⊆ t'.2.commits := by
    rw [hcommits]
    exact List.subset_append_left _ _
  constructor
  · rintro ⟨c, hc, huuid, howner⟩
    -- the row the action was on is an old one, and its uuid is given once
    obtain ⟨k, hk, _, hku, _⟩ := hrec.action x hx
    rw [hrec'.commit_unique hc (hsub hk) (huuid.trans hku.symm)] at howner
    exact ⟨k, hk, hku, howner⟩
  · rintro ⟨c, hc, hrest⟩
    exact ⟨c, hsub hc, hrest⟩

end Shows

section Run

variable {cid agentCid : Nat} {t t' : Network × Record} {v : NetworkService}

/-- **The step lemma**: what is seen of a step leads the service on. -/
theorem shows_step {i : NetworkStep} (hr : (recordedNetwork cid agentCid).Reachable t) (h : Shows t v)
    (hstep : (recordedNetwork cid agentCid).step t i = some t') :
    ∃ v', Steps Service.Step v (i.shows t t') v' ∧ Shows t' v' := by
  have hr' : (recordedNetwork cid agentCid).Reachable t' := .step hr trivial hstep
  have hrec := recordInv_of_reach hr
  have hb := balanced_of_recorded hr
  obtain ⟨hnet, hnote⟩ := Machine.recording_step.1 hstep
  have hnet : networkStep t.1 i = some t'.1 := hnet
  cases i with
  | component i =>
      have hnote : t'.2 = t.2 := hnote
      simp only [networkStep] at hnet
      split at hnet
      · next hallowed =>
          obtain ⟨c, hc, heq⟩ := Option.map_eq_some_iff.1 hnet
          -- by itself the component begins a transaction, or nothing is seen
          obtain ⟨evs, hlog, hevs⟩ := (componentMove_cases hrec.component hallowed hc).log hrec.component
          have hlog : t'.1.component.manager.log = t.1.component.manager.log ++
              evs := by rw [← heq]; exact hlog
          rcases hevs with hquiet | ⟨e, rfl, haddr⟩
          · exact h.unseen hlog hquiet hnote
          · exact h.ask hb hlog haddr hnote
      · cases hnet
  | agent i =>
      have hnote : t'.2 = t.2 := hnote
      simp only [networkStep] at hnet
      split at hnet
      · obtain ⟨a, _, heq⟩ := Option.map_eq_some_iff.1 hnet
        refine h.unseen (l := []) ?_ (fun _ hev => by cases hev) hnote
        rw [← heq, List.append_nil]
      · cases hnet
  | serve conn uuid =>
      obtain ⟨x, rid, req, server, hs⟩ := serve_inv hnet
      refine h.serve (l := (t.1.commits conn uuid).toList) hrec (recordInv_of_reach hr') ?_ ?_ ?_
      · rw [hs.component]
      · rw [hnote]; rfl
      · rw [hnote]; rfl
  | hearComponent =>
      have hnote : t'.2 = t.2 := hnote
      simp only [networkStep, Network.hearComponent] at hnet
      cases hq : t.1.server.toComponent with
      | nil => rw [hq] at hnet; cases hnet
      | cons msg rest =>
          rw [hq] at hnet
          obtain ⟨comp, hear, heq⟩ := Option.map_eq_some_iff.1 hnet
          have hcomp : t'.1.component = comp := by rw [← heq]
          obtain ⟨hm, _⟩ | ⟨monId, rowUuid, columns, e, m, rfl, ht, htaken⟩ := hear_inv hear
          · refine h.unseen (l := []) ?_ (fun _ hev => by cases hev) hnote
            rw [hcomp, hm, List.append_nil]
          · -- a Feedback row that takes a transaction is its answer
            obtain ⟨e₀, x, evs, htakes⟩ :=
              (provenance_of_reach hr).takes hrec (by rw [hq]; exact List.mem_cons_self ..) ht htaken
            rw [← hcomp] at htakes
            exact h.answer hb htakes hnote
  | hearAgent ret =>
      have hkeep : t'.1.component = t.1.component := by
        obtain ⟨_, _, _, _, ⟨_, heq⟩ | ⟨_, _, heq⟩⟩ := hearAgent_inv hrec.agent hnet
        · rw [heq]
        · rw [heq]
      -- the facts about the new action are those of the state after the step
      have hactions : t'.2.actions = t.2.actions ++ (t.1.acts ret).toList := by rw [hnote]; rfl
      have hcommits : t'.2.commits = t.2.commits := by rw [hnote]; rfl
      cases hacts : t.1.acts ret with
      | none =>
          rw [hacts] at hactions
          refine h.quiet (l := []) ?_ (fun _ hev => by cases hev) (hactions.trans (List.append_nil _))
            fun x _ a => ?_
          · rw [hkeep, List.append_nil]
          · unfold Record.Answers
            rw [hcommits]
      | some x =>
          rw [hacts] at hactions
          exact h.act (recordInv_of_reach hr') (provenance_of_reach hr') (toldOnce_of_reach hr')
            (by rw [hkeep])
            hcommits hactions

/-! ## §3. Main results. -/

/-- What is seen of a run from the start. -/
def seenOf (cid agentCid : Nat) (is : List NetworkStep) : List NetworkEvent :=
  (recordedNetwork cid agentCid).trace NetworkStep.shows (.start cid agentCid, ⟨[], []⟩) is

/-- The run lemma. -/
theorem shows_run {is : List NetworkStep}
    (hrun : (recordedNetwork cid agentCid).run (.start cid agentCid, ⟨[], []⟩) is = some t) :
    ∃ v, Steps Service.Step .start (seenOf cid agentCid is) v ∧ Shows t v :=
  simulates (R := Shows) (fun _ _ _ _ hr hR hstep => shows_step hr hR hstep) (.init ⟨rfl, rfl⟩)
    (shows_start cid agentCid) hrun

end Run

section Main

variable {cid agentCid : Nat} {is : List NetworkStep} {s : Network}

/-- **The network refines the service.**  What is seen of a run of the network
is a run of the service, and where it ends the service has been asked, has done
and has answered what the network has. -/
theorem network_refines_service (hrun : (networkMachine cid agentCid).run (.start cid agentCid) is = some s) :
    ∃ r v, (recordedNetwork cid agentCid).run (.start cid agentCid, ⟨[], []⟩) is = some (s, r) ∧
      Steps Service.Step .start (seenOf cid agentCid is) v ∧ Shows (s, r) v := by
  obtain ⟨r, hr⟩ := Machine.run_recorded NetworkStep.note hrun ⟨[], []⟩
  obtain ⟨v, hv⟩ := shows_run hr
  exact ⟨r, v, hr, hv⟩

theorem onTime_run : ∃ s, (networkMachine 1 2).run (.start 1 2) onTimeSteps = some s ∧
    (networkMachine 1 2).AllSteps (fun s i _ => OnTime s i) (.start 1 2) onTimeSteps ∧ s.Quiescent ∧
      ∃ e, .inserted e ∈ s.component.manager.log := by
  have hrun : ((networkMachine 1 2).checkedRun onTimeTest (.start 1 2) onTimeSteps).any (fun s =>
      s.quiescentTest && s.component.manager.log.any (TransactionEvent.invokes 0)) = true := by
    decide +kernel
  obtain ⟨s, hs, hcheck⟩ := (Option.any_eq_true _ _).1 hrun
  rw [Bool.and_eq_true] at hcheck
  obtain ⟨hrun, hall⟩ := Machine.run_of_checkedRun onTime_of_test hs
  have hr : (networkMachine 1 2).Reachable s := Machine.reachable_of_run (.init rfl) hrun
  refine ⟨s, hrun, hall, Network.quiescent_of_test hcheck.1, ?_⟩
  obtain ⟨ev, hev, hinv⟩ := List.any_eq_true.1 hcheck.2
  cases ev with
  | invoked a cb st tc =>
      obtain ⟨e, he, _⟩ := (balanced_of_component (component_of_network hr)).invoked_inserted hev
      exact ⟨e, he⟩
  | _ => cases hinv

theorem network_refines_service_onTime :
    ∃ t v, Steps Service.Step .start (seenOf 1 2 onTimeSteps) v ∧ Shows t v := by
  obtain ⟨s, hrun, _⟩ := onTime_run
  obtain ⟨r, v, _, hsteps, hshows⟩ := network_refines_service hrun
  exact ⟨(s, r), v, hsteps, hshows⟩

/-- **The order of things.**  In every run, of the transaction at an address is
seen a beginning of: it is asked for, acted on and answered, with the
configuration it was asked for with and the result of the action. -/
theorem seen_in_order (hrun : (networkMachine cid agentCid).run (.start cid agentCid) is = some s) (a : Nat) :
    ∃ config b, (seenOf cid agentCid is).filter (fun ev => ev.key = a) <+:
      [.ask a config, .act a config b, .answer a b] := by
  obtain ⟨r, hr⟩ := Machine.run_recorded NetworkStep.note hrun ⟨[], []⟩
  obtain ⟨v, hsteps, _⟩ := shows_run hr
  exact Service.Steps.in_order hsteps a

theorem seen_in_order_onTime : ∃ config b, (seenOf 1 2 onTimeSteps).filter (fun ev => ev.key = 0) <+:
    [.ask 0 config, .act 0 config b, .answer 0 b] := by
  obtain ⟨s, hrun, _⟩ := onTime_run
  exact seen_in_order hrun 0

/-- **And all of it**: after a run that was on time, at rest, every transaction
has been asked for, acted on once and answered, in this order. -/
theorem seen_in_full (hrun : (networkMachine cid agentCid).run (.start cid agentCid) is = some s)
    (hall : (networkMachine cid agentCid).AllSteps (fun s i _ => OnTime s i) (.start cid agentCid) is)
    (hq : s.Quiescent) {e : TransactionEntry} (he : .inserted e ∈ s.component.manager.log) :
    ∃ b, (seenOf cid agentCid is).filter (fun ev => ev.key = e.addr) =
      [.ask e.addr e.tableConfig.received, .act e.addr e.tableConfig.received b, .answer e.addr b] := by
  obtain ⟨r, hr⟩ := Machine.run_recorded NetworkStep.note hrun ⟨[], []⟩
  obtain ⟨v, hsteps, hshows⟩ := shows_run hr
  obtain ⟨hwf, hpast⟩ := Service.Steps.past hsteps
  obtain ⟨st, hdone⟩ := completed_of_quiescent (Machine.reach_of_run (.init rfl) hall hrun) hq he
  have hasked : v.asked e.addr = some e.tableConfig.received := (hshows.asked _ _).2 ⟨e, he, rfl, rfl⟩
  have hanswered : v.answered e.addr = some st := (hshows.answered _ _).2 hdone
  have hacted : v.acted e.addr = some st := hwf.answered _ _ hanswered
  refine ⟨st, ?_⟩
  rw [hpast e.addr]
  unfold Service.State.past
  rw [hasked, hacted, hanswered]
  rfl

theorem seen_in_full_onTime : ∃ a config b, (seenOf 1 2 onTimeSteps).filter (fun ev => ev.key = a) =
    [.ask a config, .act a config b, .answer a b] := by
  obtain ⟨s, hrun, hall, hq, e, he⟩ := onTime_run
  obtain ⟨b, hseen⟩ := seen_in_full hrun hall hq he
  exact ⟨e.addr, e.tableConfig.received, b, hseen⟩

end Main

end OvsAgent
