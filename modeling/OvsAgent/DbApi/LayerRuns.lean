/-
  OvsAgent.DbApi.LayerRuns — the OVSDB layer while it runs.

  Follows OvsDbApi.c as a whole: `ovsdb_init` and the listener it starts, any
  number of requests under way in any threads, and what the listener does with
  a reply or an update.  Every access to the id counter, to one of the lists or
  to the socket is a step of its own, and the listener unlinks the entry of a
  reply in a later step than it calls its callback.

  Main results:
    * `dbStep_effect` — what one access of a request can do;
    * `layer_callable_iff` — every entry of the two lists can be called, and no NULL
      function pointer is called, exactly as long as no `ovsdb_monitor_cancel`
      registers a NULL callback.
-/
import OvsAgent.DbApi.Steps
import OvsAgent.DbApi.ReceiptList
import OvsAgent.DbApi.ReceiptSafety
import OvsAgent.Lib.Machine

namespace OvsAgent

open CString (ofString utoa strncpy strncmpEq)

/-! ## §1. The layer. -/

/-- A request under way. -/
inductive LayerPc where
  /-- A client prints an id it is about to draw, for an `ovsdb_write`. -/
  | idGenerate (config : Option RdkbTableConfig) (receiptCb : Option OvsdbReceiptCb)
  | request (pc : DbPc)

/-- The static state of the layer, the requests under way and the listener:
`replying` is the place of the entry whose callback is running, and `fault`
says what the process has died of. -/
structure DbLayer where
  connected : Bool
  db : OvsDbApi
  calls : List LayerPc
  replying : Option Nat
  fault : Option Fault

namespace DbLayer

/-- Before `ovsdb_init`. -/
def start : DbLayer := ⟨false, .start 0, [], none, none⟩

end DbLayer

/-- `ovsdb_init`.  The counter is set before the descriptor is looked at. -/
def ovsdbInit (startingId : Nat) (connects : Bool) (s : DbLayer) : OvsStatus × DbLayer :=
  let s := { s with db := { s.db with id := startingId % 2 ^ 32 } }
  if s.connected then (.success, s)
  else if connects then (.success, { s with connected := true })
  else (.failed, s)

/-- The next access of a request; `send` fails without a connection. -/
def layerAccess (connected : Bool) (o : Outcome) : LayerPc → OvsDbApi → LayerPc × OvsDbApi
  | .idGenerate config receiptCb, db =>
      let (id, db) := idGenerate db
      (.request (DbCall.write (some (utoa id)) config receiptCb).start, db)
  | .request pc, db =>
      let (pc, db) := dbStep { o with send := if connected then o.send else .error } pc db
      (.request pc, db)

/-- `receipt_list_process` up to the call of the callback. -/
def replyStep (s : DbLayer) (rid : Option CString) (result : Option Json) : DbLayer :=
  match rid with
  | none => s
  | some rid =>
      match s.db.receipts.findIdx? fun node => strncmpEq (maxUuidLen + 1) rid node.rid with
      | none => s
      | some i =>
          match s.db.receipts[i]? with
          | none => s
          | some node =>
              match node.answer rid result with
              | .error fault => { s with fault := some fault }
              | .ok none => s
              | .ok (some _) => { s with replying := some i }

/-- `mon_list_process`. -/
def updateMonitors (s : DbLayer) (uuid : CString) : DbLayer :=
  match s.db.monitors.find? fun node => node.matches uuid with
  | none => s
  | some node => if node.callback.isSome then s else { s with fault := some .nullCall }

/-- A step, with the choices of the environment. -/
inductive LayerStep where
  | init (startingId : Nat) (connects : Bool)
  /-- `ovsdb_listen` ends. -/
  | disconnect
  | call (call : DbCall)
  /-- A client calls `ovsdb_write` with an id of its own. -/
  | writeFresh (config : Option RdkbTableConfig) (receiptCb : Option OvsdbReceiptCb)
  | access (n : Nat) (o : Outcome)
  | reply (rid : Option CString) (result : Option Json)
  /-- The callback of a reply returns. -/
  | unlink
  | update (uuid : CString)

/-- The listener is there and not in a callback. -/
def DbLayer.listening (s : DbLayer) : Bool := s.connected && s.replying.isNone

/-- One step of the layer; there is none any more after a fault. -/
def layerStep (s : DbLayer) (l : LayerStep) : Option DbLayer :=
  if s.fault.isSome then none
  else
    match l with
    | .init startingId connects => some (ovsdbInit startingId connects s).2
    | .disconnect => if s.listening then some { s with connected := false } else none
    | .call call => some { s with calls := s.calls ++ [.request call.start] }
    | .writeFresh config receiptCb => some { s with calls := s.calls ++ [.idGenerate config receiptCb] }
    | .access n o =>
        match s.calls[n]? with
        | none => none
        | some pc =>
            let (pc, db) := layerAccess s.connected o pc s.db
            some { s with db := db, calls := s.calls.set n pc }
    | .reply rid result => if s.listening then some (replyStep s rid result) else none
    | .unlink =>
        match s.replying with
        | none => none
        | some i => some { s with db := { s.db with receipts := s.db.receipts.eraseIdx i }, replying := none }
    | .update uuid => if s.listening then some (updateMonitors s uuid) else none

/-- The layer of one process. -/
def layerMachine : Machine DbLayer LayerStep where
  init s := s = .start
  step := layerStep

/-- The step that was made. -/
inductive LayerEffect (s : DbLayer) : LayerStep → DbLayer → Prop where
  | init (startingId : Nat) (connects : Bool) :
      LayerEffect s (.init startingId connects) (ovsdbInit startingId connects s).2
  | disconnect : LayerEffect s .disconnect { s with connected := false }
  | call (call : DbCall) : LayerEffect s (.call call) { s with calls := s.calls ++ [.request call.start] }
  | writeFresh (config : Option RdkbTableConfig) (receiptCb : Option OvsdbReceiptCb) :
      LayerEffect s (.writeFresh config receiptCb)
      { s with calls := s.calls ++ [.idGenerate config receiptCb] }
  | access (n : Nat) (o : Outcome) (pc : LayerPc) (hget : s.calls[n]? = some pc) :
      LayerEffect s (.access n o)
        { s with
          db := (layerAccess s.connected o pc s.db).2
          calls := s.calls.set n (layerAccess s.connected o pc s.db).1 }
  | reply (rid : Option CString) (result : Option Json) : LayerEffect s (.reply rid result)
      (replyStep s rid result)
  | unlink (i : Nat) (hreplying : s.replying = some i) :
      LayerEffect s .unlink
      { s with db := { s.db with receipts := s.db.receipts.eraseIdx i }, replying := none }
  | update (uuid : CString) : LayerEffect s (.update uuid) (updateMonitors s uuid)

theorem layerStep_effect {s s' : DbLayer} {l : LayerStep} (h : layerStep s l = some s') :
    LayerEffect s l s' := by
  unfold layerStep at h
  split at h
  · cases h
  · split at h
    · cases h
      exact .init _ _
    · split at h
      · cases h
        exact .disconnect
      · cases h
    · cases h
      exact .call _
    · cases h
      exact .writeFresh _ _
    · split at h
      · cases h
      · next pc hget =>
          cases h
          exact .access _ _ pc hget
    · split at h
      · cases h
        exact .reply _ _
      · cases h
    · split at h
      · cases h
      · next i hreplying =>
          cases h
          exact .unlink i hreplying
    · split at h
      · cases h
        exact .update _
      · cases h

/-- `ovsdb_init` sets the count of the ids and may connect; the rest of the layer stays as it is. -/
theorem ovsdbInit_eq (startingId : Nat) (connects : Bool) (s : DbLayer) :
    (ovsdbInit startingId connects s).2 =
      { s with connected := s.connected || connects, db := { s.db with id := startingId % 2 ^ 32 } } := by
  unfold ovsdbInit
  dsimp only
  cases hconnected : s.connected with
  | true => rw [if_pos rfl, Bool.true_or]
  | false =>
      rw [if_neg Bool.false_ne_true, Bool.false_or]
      cases connects with
      | true => rfl
      | false => rw [if_neg Bool.false_ne_true]

/-- The lists and the requests are not touched by a reply or an update. -/
theorem replyStep_db (s : DbLayer) (rid : Option CString) (result : Option Json) :
    (replyStep s rid result).db = s.db ∧ (replyStep s rid result).calls = s.calls := by
  unfold replyStep
  split
  · exact ⟨rfl, rfl⟩
  · split
    · exact ⟨rfl, rfl⟩
    · split
      · exact ⟨rfl, rfl⟩
      · split <;> exact ⟨rfl, rfl⟩

theorem updateMonitors_db (s : DbLayer) (uuid : CString) :
    (updateMonitors s uuid).db = s.db ∧ (updateMonitors s uuid).calls = s.calls := by
  unfold updateMonitors
  split
  · exact ⟨rfl, rfl⟩
  · split <;> exact ⟨rfl, rfl⟩

/-! ## §2. A reply, in one step and in two. -/

/-- The search, by the place of the entry. -/
theorem receiptListSearch_eq (adds : CallbackAdds) (rid : CString) (result : Option Json)
    (nodes : List ReceiptNode) :
    receiptListSearch adds rid result nodes =
      match nodes.findIdx? fun node => strncmpEq (maxUuidLen + 1) rid node.rid with
      | none => .ok ⟨.failed, [], nodes⟩
      | some i =>
          match nodes[i]? with
          | none => .ok ⟨.failed, [], nodes⟩
          | some node =>
              match node.answer rid result with
              | .error fault => .error fault
              | .ok none => .ok ⟨.failed, [], nodes⟩
              | .ok (some call) => .ok ⟨.success, [call], nodes.eraseIdx i ++ adds call⟩ := by
  -- the search goes along the list as `findIdx?` does
  induction nodes with
  | nil => rfl
  | cons node nodes ih =>
      rw [receiptListSearch, List.findIdx?_cons]
      by_cases hmatch : strncmpEq (maxUuidLen + 1) rid node.rid = true
      · rw [if_pos hmatch, if_pos hmatch]
        cases hans : node.answer rid result with
        | error fault => simp only [List.getElem?_cons_zero, hans]
        | ok call =>
            cases call with
            | none => simp only [List.getElem?_cons_zero, hans]
            | some call => simp only [List.getElem?_cons_zero, List.eraseIdx_cons_zero, hans]
      · rw [if_neg hmatch, if_neg hmatch, ih]
        cases nodes.findIdx? fun node => strncmpEq (maxUuidLen + 1) rid node.rid with
        | none => rfl
        | some i =>
            dsimp only [Option.map_some, List.getElem?_cons_succ, List.eraseIdx_cons_succ]
            cases nodes[i]? with
            | none => rfl
            | some n =>
                dsimp only
                cases n.answer rid result with
                | error fault => rfl
                | ok call => cases call <;> rfl

/-- The list once the entry of a reply is unlinked, whatever came to its end
since: it is what `receipt_list_process` leaves of it in one step. -/
theorem unlinked_eq (s : DbLayer) (hidle : s.replying = none) (hfault : s.fault = none)
    (added : List ReceiptNode) (rid : Option CString) (result : Option Json) :
    (receiptListProcess (fun _ => added) rid result s.db.receipts).map ReceiptListResult.receipts =
      match (replyStep s rid result).fault, (replyStep s rid result).replying with
      | some fault, _ => .error fault
      | none, none => .ok s.db.receipts
      | none, some i => .ok ((s.db.receipts ++ added).eraseIdx i) := by
  have hsame : (.ok s.db.receipts : Except Fault (List ReceiptNode)) =
      match s.fault, s.replying with
      | some fault, _ => .error fault
      | none, none => .ok s.db.receipts
      | none, some i => .ok ((s.db.receipts ++ added).eraseIdx i) := by
    rw [hfault, hidle]
  unfold replyStep receiptListProcess
  cases rid with
  | none => exact hsame
  | some rid =>
      dsimp only
      rw [receiptListSearch_eq]
      cases hfind : s.db.receipts.findIdx? fun node => strncmpEq (maxUuidLen + 1) rid node.rid with
      | none => exact hsame
      | some i =>
          dsimp only
          cases hget : s.db.receipts[i]? with
          | none => exact hsame
          | some node =>
              dsimp only
              cases node.answer rid result with
              | error fault => rfl
              | ok call =>
                  cases call with
                  | none => exact hsame
                  | some call =>
                      -- the entry stands before what the callback added
                      have hlt := (List.getElem?_eq_some_iff.1 hget).1
                      show Except.ok (s.db.receipts.eraseIdx i ++ added) = _
                      rw [← List.eraseIdx_append_of_lt_length hlt, hfault]

/-! ## §3. One access. -/

/-- The entry the prepared request registers. -/
def Prepared.receiptNode (p : Prepared) : ReceiptNode :=
  ⟨strncpy maxUuidLen p.rid, p.receiptCb, p.receiptType⟩

/-- An access after which nothing is left to register. -/
def DbPc.Settled : DbPc → Prop
  | .socketWrite _ => True
  | .monListRemove _ _ => True
  | .returned _ => True
  | _ => False

/-- What one access of a request can do to the layer. -/
inductive DbEffect (o : Outcome) (db : OvsDbApi) : DbPc → DbPc → OvsDbApi → Prop where
  | draw (call : DbCall) (ids : List Nat) :
      DbEffect o db (.idGenerate call ids) (call.ready (ids ++ [(idGenerate db).1])) (idGenerate db).2
  /-- The entry is added; a monitor's own node comes next. -/
  | register (p : Prepared) (pc' : DbPc) (hmem : o.receiptNode = true)
      (hpc : (p.mon = none ∧ pc'.Settled) ∨ ∃ uniqueId monCb, p.mon = some (uniqueId, monCb) ∧
        pc' = .monListAdd p uniqueId monCb) :
      DbEffect o db (.receiptListAdd p) pc' { db with receipts := db.receipts ++ [p.receiptNode] }
  | addMonitor (p : Prepared) (uniqueId : CString) (monCb : OvsInteractCb) (pc' : DbPc)
      (hmem : o.monNode = true)
      (hpc : pc'.Settled) :
      DbEffect o db (.monListAdd p uniqueId monCb) pc'
        { db with monitors := db.monitors ++ [⟨strncpy maxUuidLen uniqueId, some monCb⟩] }
  /-- Nothing is added to the lists. -/
  | quiet (pc pc' : DbPc) (db' : OvsDbApi) (hpc : pc'.Settled) (hid : db'.id = db.id)
      (hreceipts : db'.receipts = db.receipts) (hmonitors : db'.monitors.Sublist db.monitors)
      (hmem : ∀ p, pc = .receiptListAdd p → o.receiptNode = false)
      (hmon : ∀ p uniqueId monCb, pc = .monListAdd p uniqueId monCb → o.monNode = false) :
      DbEffect o db pc pc' db'

theorem monListRemove_sublist {uuid : CString} {nodes nodes' : List MonNode}
    (h : monListRemove uuid nodes = some nodes') : nodes'.Sublist nodes := by
  unfold monListRemove at h
  split at h
  · cases h
  · split at h
    · cases h
      exact List.sublist_cons_self _ _
    · cases h

/-- **The step lemma of the requests.** -/
theorem dbStep_effect (o : Outcome) (pc : DbPc) (db : OvsDbApi) :
    DbEffect o db pc (dbStep o pc db).1 (dbStep o pc db).2 := by
  cases pc with
  | idGenerate call ids => exact .draw call ids
  | receiptListAdd p =>
      cases hmem : o.receiptNode with
      | false =>
          simp only [dbStep, receiptListAdd, hmem, Bool.false_eq_true, if_false]
          exact .quiet _ _ _ trivial rfl rfl (List.Sublist.refl _) (fun _ _ => hmem) (by rintro _ _ _ ⟨⟩)
      | true =>
          simp only [dbStep, receiptListAdd, hmem, if_true]
          cases hmon : p.mon with
          | none => exact .register p (.socketWrite p) hmem (.inl ⟨hmon, trivial⟩)
          | some mon =>
              exact .register p (.monListAdd p mon.1 mon.2) hmem (.inr ⟨mon.1, mon.2, hmon, rfl⟩)
  | monListAdd p uniqueId monCb =>
      unfold dbStep monListAdd
      cases hmon : o.monNode with
      | false =>
          exact .quiet _ _ _ trivial rfl rfl (List.Sublist.refl _) (by rintro _ ⟨⟩) fun _ _ _ _ => hmon
      | true => exact .addMonitor p uniqueId monCb _ hmon trivial
  | socketWrite p =>
      have hquiet : ∀ (pc' : DbPc) (sent : List Sent), pc'.Settled →
          DbEffect o db (.socketWrite p) pc' { db with sent := sent } :=
        fun pc' _ hpc => .quiet _ pc' _ hpc rfl rfl (List.Sublist.refl _) (by rintro _ ⟨⟩)
          (by rintro _ _ _ ⟨⟩)
      -- a failed write of a monitor goes on to undo it, a cancel that was sent to remove its node
      cases hsend : o.send with
      | error =>
          simp only [dbStep, ovsdbSocketWrite, hsend]
          cases p.mon with
          | none => exact hquiet (.returned .failed) _ trivial
          | some mon => exact hquiet (.monListRemove mon.1 false) _ trivial
      | short n =>
          simp only [dbStep, ovsdbSocketWrite, hsend]
          cases p.cancel with
          | none => exact hquiet (.returned .success) _ trivial
          | some rID => exact hquiet (.monListRemove rID true) _ trivial
      | whole =>
          simp only [dbStep, ovsdbSocketWrite, hsend]
          cases p.cancel with
          | none => exact hquiet (.returned .success) _ trivial
          | some rID => exact hquiet (.monListRemove rID true) _ trivial
  | monListRemove uuid sent =>
      cases hrem : monListRemove uuid db.monitors with
      | none =>
          simp only [dbStep, hrem]
          exact .quiet _ _ _ trivial rfl rfl (List.Sublist.refl _) (by rintro _ ⟨⟩)
            (by rintro _ _ _ ⟨⟩)
      | some monitors =>
          simp only [dbStep, hrem]
          exact .quiet _ _ _ trivial rfl rfl (monListRemove_sublist hrem) (by rintro _ ⟨⟩)
            (by rintro _ _ _ ⟨⟩)
  | returned status =>
      exact .quiet _ _ _ trivial rfl rfl (List.Sublist.refl _) (by rintro _ ⟨⟩) (by rintro _ _ _ ⟨⟩)

/-! ## §4. Callbacks and parsers. -/

/-- The function pointers `receipt_list_process` goes through are there. -/
def ReceiptNode.Callable (node : ReceiptNode) : Prop :=
  node.callback.isSome ∧ (parserLkupTbl node.receiptType).isSome

/-- Every entry of the two lists can be called. -/
def OvsDbApi.Callable (db : OvsDbApi) : Prop :=
  (∀ node ∈ db.receipts, node.Callable) ∧ ∀ node ∈ db.monitors, node.callback.isSome

/-- What the request functions prepare: a type with a parser, and a callback
unless the request is a cancel. -/
structure Prepared.Sound (p : Prepared) : Prop where
  parser : (parserLkupTbl p.receiptType).isSome
  callback : p.receiptCb = none → p.receiptType = .monitorCancel

/-- The entry about to be registered is sound. -/
def DbPc.Sound : DbPc → Prop
  | .receiptListAdd p => p.Sound
  | _ => True

def LayerPc.Sound : LayerPc → Prop
  | .idGenerate _ _ => True
  | .request pc => pc.Sound

/-- The step registers the entry of a cancel whose `receipt_cb` is NULL. -/
def DbLayer.RegistersNull (s : DbLayer) : LayerStep → Prop
  | .access n o => ∃ p, s.calls[n]? = some (.request (.receiptListAdd p)) ∧
      p.receiptType = .monitorCancel ∧ p.receiptCb = none ∧ o.receiptNode = true
  | _ => False

theorem DbCall.prepare_sound {call : DbCall} {ids : List Nat} {p : Prepared} (h : call.prepare ids = some p) :
    p.Sound := by
  unfold DbCall.prepare at h
  split at h
  · obtain ⟨_, _, rfl⟩ := Option.map_eq_some_iff.1 h
    exact ⟨rfl, nofun⟩
  · obtain ⟨_, _, rfl⟩ := Option.map_eq_some_iff.1 h
    exact ⟨rfl, nofun⟩
  · -- the cancel passes its callback on as it is
    obtain ⟨_, _, rfl⟩ := Option.map_eq_some_iff.1 h
    exact ⟨rfl, fun _ => rfl⟩
  · obtain ⟨_, _, rfl⟩ := Option.map_eq_some_iff.1 h
    exact ⟨rfl, nofun⟩
  · cases h

theorem DbCall.ready_sound (call : DbCall) (ids : List Nat) : (call.ready ids).Sound := by
  unfold DbCall.ready
  split
  · trivial
  · cases h : call.prepare ids with
    | none => trivial
    | some p => exact DbCall.prepare_sound h

theorem DbPc.Settled.sound {pc : DbPc} (h : pc.Settled) : pc.Sound := by
  cases pc with
  | receiptListAdd p => exact h.elim
  | _ => trivial

theorem DbEffect.sound {o : Outcome} {db db' : OvsDbApi} {pc pc' : DbPc} (h : DbEffect o db pc pc' db') :
    pc'.Sound := by
  cases h with
  | draw call ids => exact DbCall.ready_sound _ _
  | register p _ _ hpc =>
      obtain ⟨_, hsettled⟩ | ⟨_, _, _, rfl⟩ := hpc
      · exact hsettled.sound
      · trivial
  | addMonitor p _ _ _ _ hpc => exact hpc.sound
  | quiet _ _ _ hpc => exact hpc.sound

/-- **One access**: the lists stay callable unless a NULL callback is registered. -/
theorem DbEffect.callable_iff {o : Outcome} {db db' : OvsDbApi} {pc pc' : DbPc} (h : DbEffect o db pc pc' db')
    (hpc : pc.Sound) (hdb : db.Callable) :
    db'.Callable ↔ ¬ ∃ p, pc = .receiptListAdd p ∧ p.receiptType = .monitorCancel ∧
      p.receiptCb = none ∧
      o.receiptNode = true := by
  cases h with
  | draw call ids => exact iff_of_true hdb fun ⟨_, heq, _⟩ => by cases heq
  | register p _ hmem _ =>
      have hnode : p.receiptNode.Callable ↔ ¬ p.receiptCb = none := by
        rw [← Ne, Option.ne_none_iff_isSome]
        exact and_iff_left hpc.parser
      constructor
      · intro hdb' ⟨_, heq, _, hnull, _⟩
        cases heq
        exact hnode.1 (hdb'.1 _ (List.mem_append_right _ (List.mem_singleton_self _))) hnull
      · intro hno
        -- of the requests under way only a cancel may hold a NULL callback
        have hcb : ¬ p.receiptCb = none := fun hnull => hno ⟨p, rfl, hpc.callback hnull, hnull, hmem⟩
        refine ⟨fun node hmemnode => ?_, hdb.2⟩
        rcases List.mem_append.1 hmemnode with hold | hnew
        · exact hdb.1 node hold
        · rw [List.mem_singleton.1 hnew]
          exact hnode.2 hcb
  | addMonitor p uniqueId monCb =>
      refine iff_of_true ⟨hdb.1, fun node hmemnode => ?_⟩ fun ⟨_, heq, _⟩ => by cases heq
      rcases List.mem_append.1 hmemnode with hold | hnew
      · exact hdb.2 node hold
      · rw [List.mem_singleton.1 hnew]
        rfl
  | quiet _ _ _ _ _ hreceipts hmonitors hmem =>
      refine iff_of_true ⟨?_, fun node hnode => hdb.2 node (hmonitors.subset hnode)⟩ ?_
      · rw [hreceipts]
        exact hdb.1
      · intro ⟨p, heq, _, _, hmem'⟩
        rw [hmem p heq] at hmem'
        cases hmem'

/-- A parser that is there is no NULL call. -/
theorem ovsdbParseResult_ne_nullCall {type : OvsdbReceiptId} (h : (parserLkupTbl type).isSome)
    (result : Option Json) : ovsdbParseResult type result ≠ .error .nullCall := by
  have htype : type.Registered := by
    rintro rfl
    cases h
  intro heq
  cases result with
  | none => cases heq
  | some result =>
      obtain ⟨rfl, htag, _⟩ := (ovsdbParseResult_error_iff htype result).1 ⟨_, heq⟩
      have heq : insertReceiptParser result = .error .nullCall := heq
      rw [insertReceiptParser_of_tagged htag] at heq
      split at heq
      · cases heq
      · split at heq <;> cases heq

theorem ReceiptNode.Callable.answer_ne {node : ReceiptNode} (h : node.Callable) (rid : CString)
    (result : Option Json) : node.answer rid result ≠ .error .nullCall := by
  intro heq
  obtain ⟨cb, hcb⟩ := Option.isSome_iff_exists.1 h.1
  unfold ReceiptNode.answer at heq
  split at heq
  · next fault hparse =>
      cases heq
      exact ovsdbParseResult_ne_nullCall h.2 result hparse
  · cases heq
  · rw [hcb] at heq
    cases heq

/-- A reply calls no NULL pointer when the lists are callable. -/
theorem replyStep_fault {s : DbLayer} (hdb : s.db.Callable) (hfault : s.fault ≠ some .nullCall)
    (rid : Option CString) (result : Option Json) : (replyStep s rid result).fault ≠ some .nullCall := by
  unfold replyStep
  split
  · exact hfault
  · split
    · exact hfault
    · split
      · exact hfault
      · next node hget =>
          split
          · next fault hans =>
              intro heq
              cases heq
              exact (hdb.1 node (List.mem_of_getElem? hget)).answer_ne _ _ hans
          · exact hfault
          · exact hfault

theorem updateMonitors_fault {s : DbLayer} (hdb : s.db.Callable) (hfault : s.fault ≠ some .nullCall)
    (uuid : CString) : (updateMonitors s uuid).fault ≠ some .nullCall := by
  unfold updateMonitors
  split
  · exact hfault
  · next node hfind =>
      rw [if_pos (hdb.2 node (List.mem_of_find?_eq_some hfind))]
      exact hfault

theorem layerAccess_sound {connected : Bool} {o : Outcome} (pc : LayerPc) (db : OvsDbApi) :
    (layerAccess connected o pc db).1.Sound := by
  cases pc with
  | idGenerate config receiptCb => exact DbCall.ready_sound _ _
  | request pc => exact (dbStep_effect _ pc db).sound

/-- What is under way is sound. -/
def DbLayer.Sound (s : DbLayer) : Prop := ∀ pc ∈ s.calls, pc.Sound

theorem LayerEffect.sound {s s' : DbLayer} {l : LayerStep} (h : LayerEffect s l s') (hs : s.Sound) :
    s'.Sound := by
  have hsnoc : ∀ pc : LayerPc, pc.Sound → ∀ pc' ∈ s.calls ++ [pc], pc'.Sound := by
    intro pc hpc pc' hmem
    rcases List.mem_append.1 hmem with hold | hnew
    · exact hs pc' hold
    · exact List.mem_singleton.1 hnew ▸ hpc
  cases h with
  | init startingId connects =>
      intro pc hpc
      rw [ovsdbInit_eq] at hpc
      exact hs pc hpc
  | disconnect => exact hs
  | call call => exact hsnoc _ (DbCall.ready_sound _ _)
  | writeFresh config receiptCb => exact hsnoc _ trivial
  | access n o pc hget =>
      intro pc' hmem
      rcases List.mem_or_eq_of_mem_set hmem with hold | rfl
      · exact hs pc' hold
      · exact layerAccess_sound pc s.db
  | reply rid result =>
      intro pc hpc
      rw [(replyStep_db s rid result).2] at hpc
      exact hs pc hpc
  | unlink i _ => exact hs
  | update uuid =>
      intro pc hpc
      rw [(updateMonitors_db s uuid).2] at hpc
      exact hs pc hpc

/-- The lists are callable, and the process has not died of a NULL call. -/
def DbLayer.Callable (s : DbLayer) : Prop := s.db.Callable ∧ s.fault ≠ some .nullCall

/-- **What breaks it**: the registration of a NULL callback, and nothing else. -/
theorem LayerEffect.callable_iff {s s' : DbLayer} {l : LayerStep} (h : LayerEffect s l s') (hs : s.Sound)
    (hc : s.Callable) : s'.Callable ↔ ¬ s.RegistersNull l := by
  obtain ⟨hdb, hfault⟩ := hc
  cases h with
  | init startingId connects =>
      refine iff_of_true ?_ fun hno => hno
      rw [ovsdbInit_eq]
      exact ⟨hdb, hfault⟩
  | disconnect => exact iff_of_true ⟨hdb, hfault⟩ fun hno => hno
  | call call => exact iff_of_true ⟨hdb, hfault⟩ fun hno => hno
  | writeFresh config receiptCb => exact iff_of_true ⟨hdb, hfault⟩ fun hno => hno
  | access n o pc hget =>
      have hpc := hs pc (List.mem_of_getElem? hget)
      refine (and_iff_left hfault).trans ?_
      unfold DbLayer.RegistersNull
      cases pc with
      | idGenerate config receiptCb =>
          refine iff_of_true hdb fun ⟨p, heq, _⟩ => ?_
          rw [hget] at heq
          cases heq
      | request pc =>
          -- the only step that adds an entry
          refine ((dbStep_effect _ pc s.db).callable_iff hpc hdb).trans (not_congr ?_)
          constructor
          · intro ⟨p, heq, htype, hcb, hmem⟩
            exact ⟨p, by rw [hget, heq], htype, hcb, hmem⟩
          · intro ⟨p, heq, htype, hcb, hmem⟩
            rw [hget] at heq
            cases heq
            exact ⟨p, rfl, htype, hcb, hmem⟩
  | reply rid result =>
      refine iff_of_true ⟨?_, replyStep_fault hdb hfault rid result⟩ fun hno => hno
      rw [(replyStep_db s rid result).1]
      exact hdb
  | unlink i _ =>
      exact iff_of_true ⟨⟨fun node hnode => hdb.1 node (List.mem_of_mem_eraseIdx hnode), hdb.2⟩,
        hfault⟩
        fun hno => hno
  | update uuid =>
      refine iff_of_true ⟨?_, updateMonitors_fault hdb hfault uuid⟩ fun hno => hno
      rw [(updateMonitors_db s uuid).1]
      exact hdb

/-- **Only real function pointers are called.**  In every run of the layer:
after every step each receipt entry has a callback and a type with a parser,
each monitor entry has a callback, and no NULL pointer has been called, exactly
when no step registers the entry of an `ovsdb_monitor_cancel` without callback. -/
theorem layer_callable_iff (steps : List LayerStep) :
    layerMachine.AllSteps (fun _ _ s' => s'.Callable) .start steps
      ↔ layerMachine.AllSteps (fun s l _ => ¬ s.RegistersNull l) .start steps := by
  refine Machine.allSteps_invariant_iff (J := DbLayer.Sound) ?_ ?_ steps .start ?_ ?_
  · intro s l s' hs hstep
    exact (layerStep_effect hstep).sound hs
  · intro s l s' hs hc hstep
    exact (layerStep_effect hstep).callable_iff hs hc
  · intro pc hpc
    cases hpc
  · exact ⟨⟨fun _ h => (by cases h), fun _ h => (by cases h)⟩, nofun⟩

/-- A cancel without callback, and the reply to it. -/
def nullCancelSteps : List LayerStep :=
  [.init 1000 true, .call (.monitorCancel (some (ofString "5")) none), .access 0 .ok, .access 0 .ok,
    .access 0 .ok, .reply (some (ofString "1001")) (some (.object []))]

/-- The process dies of a call through NULL. -/
theorem null_cancel_called :
    ∃ s, layerMachine.Reachable s ∧ s.fault = some .nullCall ∧ ¬ s.Callable := by
  have hfault : (layerMachine.run .start nullCancelSteps).map DbLayer.fault = some (some .nullCall) := by
    decide +kernel
  obtain ⟨s, hrun, hs⟩ := Option.map_eq_some_iff.1 hfault
  exact ⟨s, Machine.reachable_of_run (.init rfl) hrun, hs, fun h => h.2 hs⟩

end OvsAgent
