/-
  OvsAgent.DbApi.RequestIds — which request a reply belongs to.

  A reply is matched to the first entry with its id, an update to the first
  monitor with its.  The ids are numbers drawn from one counter, which
  `ovsdb_init` sets, also when the connection is there already and entries
  with higher numbers are waiting.

  The ids of both lists are followed from the draw to the end of the entry
  (Lib/IdLedger.lean), through any interleaving of the requests.

  Main result: `ids_distinct_iff` — along every run the ids of each list are
  distinct, and every reply finds its own entry, exactly as long as no id in
  use when `ovsdb_init` was called last is entered again.
-/
import OvsAgent.DbApi.LayerRuns
import OvsAgent.Lib.IdLedger
import Mathlib.Data.List.Nodup

namespace OvsAgent

open CString (ofString utoa strncpy strncmpEq)

/-! ## §1. Ids in use. -/

/-- A list of entries, with the ids that requests under way are yet to enter
into it, and the id an access enters. -/
structure Registry where
  listed : OvsDbApi → List CString
  held : DbPc → List CString
  enters : Outcome → DbPc → Option CString

/-- The ids of the receipt list, as they are stored. -/
def receiptIds : Registry where
  listed db := db.receipts.map ReceiptNode.rid
  held
    | .receiptListAdd p => [strncpy maxUuidLen p.rid]
    | _ => []
  enters o
    | .receiptListAdd p => if o.receiptNode then some (strncpy maxUuidLen p.rid) else none
    | _ => none

/-- The ids of the monitor list.  A monitor's id is drawn before its request's. -/
def monitorIds : Registry where
  listed db := db.monitors.map MonNode.uuid
  held
    | .idGenerate (.monitor ..) ids => ids.map fun id => strncpy maxUuidLen (utoa id)
    | .receiptListAdd p => p.mon.toList.map fun mon => strncpy maxUuidLen mon.1
    | .monListAdd _ uniqueId _ => [strncpy maxUuidLen uniqueId]
    | _ => []
  enters o
    | .monListAdd _ uniqueId _ => if o.monNode then some (strncpy maxUuidLen uniqueId) else none
    | _ => none

/-- What a client holds that has not called `ovsdb_write` yet: nothing. -/
def Registry.heldBy (k : Registry) : LayerPc → List CString
  | .idGenerate _ _ => []
  | .request pc => k.held pc

def Registry.entersBy (k : Registry) (o : Outcome) : LayerPc → Option CString
  | .idGenerate _ _ => none
  | .request pc => k.enters o pc

/-- All ids in use for the list. -/
def Registry.inUse (k : Registry) (s : DbLayer) : List CString := k.listed s.db ++ s.calls.flatMap k.heldBy

/-- The access enters an id that is in the list, and that was in use (`kept`)
when the counter was set. -/
def Registry.Reenters (k : Registry) (kept : List CString) (o : Outcome) (pc : LayerPc) (db : OvsDbApi) :
    Prop :=
  ∃ x, k.entersBy o pc = some x ∧ x ∈ kept ∧ x ∈ k.listed db

def DbCall.isWrite : DbCall → Bool
  | .write .. => true
  | _ => false

/-- The access draws an id. -/
def LayerPc.draws : LayerPc → Bool
  | .idGenerate _ _ => true
  | .request (.idGenerate _ _) => true
  | _ => false

/-- A request draws no more ids than it needs. -/
def LayerPc.Drawing : LayerPc → Prop
  | .request (.idGenerate call ids) => ids.length < call.draws
  | _ => True

/-! ## §2. One access. -/

/-- The id as it is printed next. -/
def OvsDbApi.nextId (db : OvsDbApi) : CString := utoa (idGenerate db).1

/-- How often an access brings the id `x` into use. -/
def LayerPc.drawn (pc : LayerPc) (db : OvsDbApi) (x : CString) : Nat :=
  if pc.draws then if x = db.nextId then 1 else 0 else 0

/-- A drawn id is stored whole. -/
theorem strncpy_utoa {id : Nat} (h : id < 2 ^ 32) : strncpy maxUuidLen (utoa id) = utoa id :=
  CString.strncpy_of_length_le (Nat.le_trans (CString.utoa_length_le h) (by decide))

/-- What an access does to the ids of a list: those in the list and with the
request are the same as before or fewer, one more when it draws, and the list
grows by what the access enters. -/
structure Registry.Passes (k : Registry) (o : Outcome) (pc : LayerPc) (db : OvsDbApi) (pc' : LayerPc)
    (db' : OvsDbApi) : Prop where
  uses : ∀ x, (k.listed db').count x + (k.heldBy pc').count x
    ≤ (k.listed db).count x + (k.heldBy pc).count x + pc.drawn db x
  enters : ∀ x, k.entersBy o pc = some x → x ∈ k.heldBy pc ∧ k.listed db' = k.listed db ++ [x]
  others : k.entersBy o pc = none → (k.listed db').Sublist (k.listed db)

section Passes

variable {k : Registry} {o : Outcome} {pc pc' : LayerPc} {db db' : OvsDbApi}

/-- An access that enters the one id the request held. -/
theorem Registry.Passes.of_enters {a : CString} (henters : k.entersBy o pc = some a)
    (hheld : k.heldBy pc = [a]) (hheld' : k.heldBy pc' = []) (hlisted : k.listed db' = k.listed db ++ [a]) :
    k.Passes o pc db pc' db' := by
  refine ⟨fun x => ?_, fun x hx => ?_, fun hnone => ?_⟩
  · rw [hlisted, List.count_append, hheld, hheld', List.count_nil]
    omega
  · cases henters.symm.trans hx
    exact ⟨hheld ▸ List.mem_singleton_self a, hlisted⟩
  · cases henters.symm.trans hnone

/-- An access that enters nothing, behind which nothing is held. -/
theorem Registry.Passes.of_settled (henters : k.entersBy o pc = none)
    (hlisted : (k.listed db').Sublist (k.listed db)) (hheld' : k.heldBy pc' = []) :
    k.Passes o pc db pc' db' := by
  refine ⟨fun x => ?_, fun x hx => ?_, fun _ => hlisted⟩
  · have hle := hlisted.count_le x
    rw [hheld', List.count_nil]
    omega
  · cases henters.symm.trans hx

end Passes

/-- What is asked of a list for its ids to be accounted for. -/
structure Registry.Lawful (k : Registry) : Prop where
  lists : ∀ {db db' : OvsDbApi}, db'.receipts.Sublist db.receipts → db'.monitors.Sublist db.monitors →
    (k.listed db').Sublist (k.listed db)
  access : ∀ {o : Outcome} {pc pc' : DbPc} {db db' : OvsDbApi}, DbEffect o db pc pc' db' →
    (LayerPc.request pc).Drawing → k.Passes o (.request pc) db (.request pc') db'
  start : ∀ call : DbCall, call.isWrite = false → k.held call.start = []
  write : ∀ {id : Nat}, id < 2 ^ 32 → ∀ config cb x,
    (k.held (DbCall.write (some (utoa id)) config cb).start).count x ≤ if x = utoa id then 1 else 0
  /-- Ids are held the way they will be stored. -/
  fits : ∀ pc, ∀ x ∈ k.held pc, x.length ≤ maxUuidLen
  send : ∀ o send pc, k.enters { o with send := send } pc = k.enters o pc

theorem count_singleton_le (a x : CString) : [a].count x ≤ if x = a then 1 else 0 := by
  by_cases h : x = a
  · rw [if_pos h, h, List.count_singleton_self]
  · rw [if_neg h, List.count_singleton, if_neg (by simpa using Ne.symm h)]

section Ready

variable {call : DbCall} {ids : List Nat} {id : Nat} {p : Prepared}

/-- The last id drawn is the request's own, and a monitor's is the one before. -/
theorem DbCall.prepare_snoc (h : ids.length < call.draws) (hp : call.prepare (ids ++ [id]) = some p) :
    p.rid = utoa id ∧ ((p.mon = none) ∨ ∃ t monCb cb u,
      call = .monitor t (some monCb) cb ∧ ids = [u] ∧ p.mon = some (utoa u, monCb)) := by
  cases call with
  | write rID config cb => exact absurd h (Nat.not_lt_zero _)
  | monitor t monCb cb =>
      cases monCb with
      | none => exact absurd h (Nat.not_lt_zero _)
      | some monCb =>
          -- the first id is the monitor's, the second the request's
          match ids with
          | [] => cases hp
          | [u] =>
              obtain ⟨_, _, rfl⟩ := Option.map_eq_some_iff.1 hp
              exact ⟨rfl, Or.inr ⟨t, monCb, cb, u, rfl, rfl, rfl⟩⟩
          | _ :: _ :: ids =>
              have h : ids.length + 1 + 1 < 2 := h
              omega
  | monitorCancel rID cb =>
      cases rID with
      | none => exact absurd h (Nat.not_lt_zero _)
      | some rID =>
          match ids with
          | [] =>
              obtain ⟨_, _, rfl⟩ := Option.map_eq_some_iff.1 hp
              exact ⟨rfl, Or.inl rfl⟩
          | _ :: ids =>
              have h : ids.length + 1 < 1 := h
              omega
  | delete t key value =>
      cases key with
      | none => exact absurd h (Nat.not_lt_zero _)
      | some key =>
          cases value with
          | none => exact absurd h (Nat.not_lt_zero _)
          | some value =>
              match ids with
              | [] =>
                  obtain ⟨_, _, rfl⟩ := Option.map_eq_some_iff.1 hp
                  exact ⟨rfl, Or.inl rfl⟩
              | _ :: ids =>
                  have h : ids.length + 1 < 1 := h
                  omega

theorem heldRids_ready (h : ids.length < call.draws) (hid : id < 2 ^ 32) (x : CString) :
    (receiptIds.held (call.ready (ids ++ [id]))).count x ≤ if x = utoa id then 1 else 0 := by
  unfold DbCall.ready
  split
  · exact Nat.zero_le _
  · cases hp : call.prepare (ids ++ [id]) with
    | none => exact Nat.zero_le _
    | some p =>
        show [strncpy maxUuidLen p.rid].count x ≤ _
        rw [(DbCall.prepare_snoc h hp).1, strncpy_utoa hid]
        exact count_singleton_le _ x

theorem heldMons_ready (h : ids.length < call.draws) (hid : id < 2 ^ 32) (x : CString) :
    (monitorIds.held (call.ready (ids ++ [id]))).count x
      ≤ (monitorIds.held (.idGenerate call ids)).count x + if x = utoa id then 1 else 0 := by
  unfold DbCall.ready
  split
  · -- a monitor that has drawn the first of its ids
    cases call with
    | monitor t monCb cb =>
        show ((ids ++ [id]).map fun id => strncpy maxUuidLen (utoa id)).count x ≤ _
        rw [List.map_append, List.count_append]
        refine Nat.add_le_add_left ?_ _
        show [strncpy maxUuidLen (utoa id)].count x ≤ _
        rw [strncpy_utoa hid]
        exact count_singleton_le _ x
    | _ => exact Nat.zero_le _
  · cases hp : call.prepare (ids ++ [id]) with
    | none => exact Nat.zero_le _
    | some p =>
        show (p.mon.toList.map fun mon => strncpy maxUuidLen mon.1).count x ≤ _
        obtain ⟨_, hmon | ⟨t, monCb, cb, u, rfl, rfl, hmon⟩⟩ := DbCall.prepare_snoc h hp
        · rw [hmon]
          exact Nat.zero_le _
        · rw [hmon]
          exact Nat.le_add_right _ _

end Ready

/-- The other requests begin with a draw, or end at once. -/
theorem DbCall.start_of_not_write {call : DbCall} (h : call.isWrite = false) :
    call.start = .idGenerate call [] ∨ call.start = .returned .failed := by
  cases call with
  | write => cases h
  | monitor t monCb cb => cases monCb <;> first | exact Or.inl rfl | exact Or.inr rfl
  | monitorCancel rID cb => cases rID <;> first | exact Or.inl rfl | exact Or.inr rfl
  | delete t key value => cases key <;> cases value <;> first | exact Or.inl rfl | exact Or.inr rfl

theorem DbCall.start_write (rid : CString) (config : Option RdkbTableConfig) (cb : Option OvsdbReceiptCb) :
    (DbCall.write (some rid) config cb).start = .returned .failed ∨
      ∃ strJson cb', (DbCall.write (some rid) config cb).start
        = .receiptListAdd ⟨strJson, rid, .insert, cb', none, none⟩ := by
  cases config with
  | none => exact Or.inl rfl
  | some config =>
      -- the caller has the id, none is drawn
      have hdraws : ¬ ([] : List Nat).length < (DbCall.write (some rid) (some config) cb).draws :=
        Nat.lt_irrefl 0
      unfold DbCall.start DbCall.ready
      rw [if_neg hdraws]
      cases hp : (DbCall.write (some rid) (some config) cb).prepare [] with
      | none => exact Or.inl rfl
      | some p =>
          obtain ⟨strJson, _, rfl⟩ := Option.map_eq_some_iff.1 hp
          exact Or.inr ⟨strJson, _, rfl⟩

/-- Nothing is held at the end of the registration. -/
theorem DbPc.Settled.held {pc : DbPc} (h : pc.Settled) :
    receiptIds.held pc = [] ∧ monitorIds.held pc = [] := by
  cases pc with
  | idGenerate => exact h.elim
  | receiptListAdd => exact h.elim
  | monListAdd => exact h.elim
  | _ => exact ⟨rfl, rfl⟩

/-- The receipt list: an id is held from the encoding on, and entered by `receipt_list_add`. -/
theorem receiptIds_lawful : receiptIds.Lawful where
  lists hreceipts _ := hreceipts.map _
  start call hcall := by
    rcases DbCall.start_of_not_write hcall with h | h <;> rw [h] <;> rfl
  write {id} hid config cb x := by
    obtain h | ⟨strJson, cb', h⟩ := DbCall.start_write (utoa id) config cb
    · rw [h]
      exact Nat.zero_le _
    · rw [h]
      show [strncpy maxUuidLen (utoa id)].count x ≤ _
      rw [strncpy_utoa hid]
      exact count_singleton_le _ x
  fits pc x hx := by
    cases pc with
    | receiptListAdd p =>
        rw [List.mem_singleton.1 hx]
        exact CString.strncpy_length_le _ _
    | _ => cases hx
  send o send pc := by cases pc <;> rfl
  access {o pc pc' db db'} h hpc := by
    cases h with
    | draw call ids =>
        refine ⟨fun x => ?_, nofun, fun _ => List.Sublist.refl _⟩
        exact Nat.add_le_add_left (heldRids_ready hpc (idGenerate_lt db) x) _
    | register p pc' hmem hsettled =>
        have henters : receiptIds.enters o (.receiptListAdd p) = some (strncpy maxUuidLen p.rid) :=
          if_pos hmem
        have hlisted : receiptIds.listed { db with receipts := db.receipts ++ [p.receiptNode] }
            = receiptIds.listed db ++ [strncpy maxUuidLen p.rid] := List.map_append ..
        have hheld : receiptIds.held pc' = [] := by
          obtain ⟨_, h⟩ | ⟨_, _, _, rfl⟩ := hsettled
          · exact h.held.1
          · rfl
        exact .of_enters henters rfl hheld hlisted
    | addMonitor p u cb pc' _ hsettled => exact .of_settled rfl (List.Sublist.refl _) hsettled.held.1
    | quiet _ _ _ hsettled hid hreceipts hmonitors hmem _ =>
        have hlisted : receiptIds.listed db' = receiptIds.listed db :=
          congrArg (List.map ReceiptNode.rid) hreceipts
        refine .of_settled ?_ (hlisted ▸ List.Sublist.refl _) hsettled.held.1
        cases pc with
        | receiptListAdd p =>
            show (if o.receiptNode then some (strncpy maxUuidLen p.rid) else none) = none
            rw [hmem p rfl]
            rfl
        | _ => rfl

/-- The monitor list: an id is held from its draw on, and entered by `mon_list_add`. -/
theorem monitorIds_lawful : monitorIds.Lawful where
  lists _ hmonitors := hmonitors.map _
  start call hcall := by
    obtain h | h := DbCall.start_of_not_write hcall
    · rw [h]
      cases call <;> rfl
    · rw [h]
      rfl
  write {id} hid config cb x := by
    obtain h | ⟨strJson, cb', h⟩ := DbCall.start_write (utoa id) config cb
    · rw [h]
      exact Nat.zero_le _
    · rw [h]
      exact Nat.zero_le _
  fits pc x hx := by
    cases pc with
    | idGenerate call ids =>
        cases call with
        | monitor t monCb cb =>
            obtain ⟨id, _, rfl⟩ := List.mem_map.1 hx
            exact CString.strncpy_length_le _ _
        | _ => cases hx
    | receiptListAdd p =>
        obtain ⟨mon, _, rfl⟩ := List.mem_map.1 hx
        exact CString.strncpy_length_le _ _
    | monListAdd p u cb =>
        rw [List.mem_singleton.1 hx]
        exact CString.strncpy_length_le _ _
    | _ => cases hx
  send o send pc := by cases pc <;> rfl
  access {o pc pc' db db'} h hpc := by
    cases h with
    | draw call ids =>
        -- the new id counts as drawn, and is held if it is a monitor's
        refine ⟨fun x => ?_, nofun, fun _ => List.Sublist.refl _⟩
        rw [Nat.add_assoc]
        exact Nat.add_le_add_left (heldMons_ready hpc (idGenerate_lt db) x) _
    | register p pc' hmem hsettled =>
        -- a monitor keeps its id for `mon_list_add`, the others hold none
        refine ⟨fun x => ?_, nofun, fun _ => List.Sublist.refl _⟩
        show _ + (monitorIds.held pc').count x
          ≤ _ + (p.mon.toList.map fun mon => strncpy maxUuidLen mon.1).count x + 0
        obtain ⟨_, h⟩ | ⟨u, cb, hmon, rfl⟩ := hsettled
        · rw [h.held.2]
          exact Nat.add_le_add_left (Nat.zero_le _) _
        · rw [hmon]
          exact Nat.le_refl _
    | addMonitor p u cb pc' hmem hsettled =>
        have henters : monitorIds.enters o (.monListAdd p u cb) = some (strncpy maxUuidLen u) := if_pos hmem
        have hlisted :
            monitorIds.listed { db with monitors := db.monitors ++ [⟨strncpy maxUuidLen u, some cb⟩] }
            = monitorIds.listed db ++ [strncpy maxUuidLen u] := List.map_append ..
        exact .of_enters henters rfl hsettled.held.2 hlisted
    | quiet _ _ _ hsettled hid hreceipts hmonitors _ hmon =>
        refine .of_settled ?_ (hmonitors.map _) hsettled.held.2
        -- the access was quiet, so there was no memory for the node
        cases pc with
        | monListAdd p u cb =>
            show (if o.monNode then some (strncpy maxUuidLen u) else none) = none
            rw [hmon p u cb rfl]
            rfl
        | _ => rfl

/-! ## §3. Runs. -/

/-- A run of the layer, with its history: the ids drawn in all, the value
`ovsdb_init` last set the counter to, the ids drawn since, and those in use
for each list at that moment. -/
structure IdRun where
  layer : DbLayer
  drawn : Nat
  base : Nat
  since : Nat
  keptRids : List CString
  keptMons : List CString

namespace IdRun

/-- Before `ovsdb_init`. -/
def start : IdRun := ⟨.start, 0, 0, 0, [], []⟩

/-- The access draws an id. -/
def drawsAt (r : IdRun) (n : Nat) : Bool := (r.layer.calls[n]?).any LayerPc.draws

/-- The runs looked at: ids for `ovsdb_write` are fresh from the counter, and
fewer than 2^32 are drawn in all. -/
def within (r : IdRun) : LayerStep → Bool
  | .call call => !call.isWrite
  | .access n _ => !r.drawsAt n || r.drawn + 1 < 2 ^ 32
  | _ => true

/-- The run after the step. -/
def note (r : IdRun) (l : LayerStep) (s' : DbLayer) : IdRun :=
  match l with
  | .init startingId _ =>
      { r with
        layer := s'
        base := startingId % 2 ^ 32
        since := 0
        keptRids := receiptIds.inUse r.layer
        keptMons := monitorIds.inUse r.layer }
  | .access n _ =>
      if r.drawsAt n then { r with layer := s', drawn := r.drawn + 1, since := r.since + 1 }
      else { r with layer := s' }
  | _ => { r with layer := s' }

/-- One step. -/
def step (r : IdRun) (l : LayerStep) : Option IdRun :=
  if r.within l then (layerStep r.layer l).map (r.note l) else none

end IdRun

/-- The layer with its history. -/
def idMachine : Machine IdRun LayerStep where
  init r := r = .start
  step := IdRun.step

/-- The step enters an id that is in its list already, and was in use when
`ovsdb_init` was called last. -/
def IdRun.Reuses (r : IdRun) : LayerStep → Prop
  | .access n o => ∃ pc, r.layer.calls[n]? = some pc ∧
      (receiptIds.Reenters r.keptRids o pc r.layer.db ∨ monitorIds.Reenters r.keptMons o pc r.layer.db)
  | _ => False

theorem IdRun.note_layer (r : IdRun) (l : LayerStep) (s' : DbLayer) : (r.note l s').layer = s' := by
  cases l with
  | access n o =>
      unfold IdRun.note
      dsimp only
      split <;> rfl
  | _ => rfl

theorem IdRun.step_effect {r r' : IdRun} {l : LayerStep} (h : r.step l = some r') :
    r.within l = true ∧ ∃ s', LayerEffect r.layer l s' ∧ r' = r.note l s' := by
  unfold IdRun.step at h
  split at h
  · next hwithin =>
      obtain ⟨s', hs', rfl⟩ := Option.map_eq_some_iff.1 h
      exact ⟨hwithin, s', layerStep_effect hs', rfl⟩
  · cases h

/-- An access of the layer passes ids on. -/
theorem Registry.Lawful.passes {k : Registry} (hk : k.Lawful) (connected : Bool) (o : Outcome) {pc : LayerPc}
    (hpc : pc.Drawing) (db : OvsDbApi) :
    k.Passes o pc db (layerAccess connected o pc db).1 (layerAccess connected o pc db).2 := by
  cases pc with
  | idGenerate config cb =>
      have hlisted : (k.listed (idGenerate db).2).Sublist (k.listed db) :=
        hk.lists (List.Sublist.refl _) (List.Sublist.refl _)
      refine ⟨fun x => ?_, nofun, fun _ => hlisted⟩
      have hheld := hk.write (idGenerate_lt db) config cb x
      exact Nat.add_le_add (hlisted.count_le x) hheld
  | request pc =>
      have h := hk.access (dbStep_effect { o with send := if connected then o.send else .error } pc db) hpc
      refine ⟨h.uses, fun x hx => h.enters x ?_, fun hnone => h.others ?_⟩
      · show k.enters _ pc = some x
        rw [hk.send]
        exact hx
      · show k.enters _ pc = none
        rw [hk.send]
        exact hnone

theorem DbCall.ready_drawing (call : DbCall) (ids : List Nat) :
    (LayerPc.request (call.ready ids)).Drawing := by
  unfold DbCall.ready
  split
  · assumption
  · split <;> trivial

theorem DbPc.Settled.drawing {pc : DbPc} (h : pc.Settled) : (LayerPc.request pc).Drawing := by
  cases pc with
  | idGenerate => exact h.elim
  | _ => trivial

theorem DbEffect.drawing {o : Outcome} {db db' : OvsDbApi} {pc pc' : DbPc} (h : DbEffect o db pc pc' db') :
    (LayerPc.request pc').Drawing := by
  cases h with
  | draw call ids => exact DbCall.ready_drawing _ _
  | register p _ _ hsettled =>
      obtain ⟨_, h⟩ | ⟨_, _, _, rfl⟩ := hsettled
      · exact h.drawing
      · trivial
  | addMonitor _ _ _ _ _ hsettled => exact hsettled.drawing
  | quiet _ _ _ hsettled => exact hsettled.drawing

theorem layerAccess_drawing (connected : Bool) (o : Outcome) (pc : LayerPc) (db : OvsDbApi) :
    (layerAccess connected o pc db).1.Drawing := by
  cases pc with
  | idGenerate config cb => exact DbCall.ready_drawing _ _
  | request pc => exact (dbStep_effect _ pc db).drawing

/-- The counter goes on with a draw, and with nothing else. -/
theorem layerAccess_id (connected : Bool) (o : Outcome) (pc : LayerPc) (db : OvsDbApi) :
    (layerAccess connected o pc db).2.id = if pc.draws then (idGenerate db).1 else db.id := by
  -- only `id_generate` writes the counter
  have hquiet : ∀ {o pc pc' db'}, DbEffect o db pc pc' db' → (LayerPc.request pc).draws = false →
      db'.id = db.id := by
    intro o pc pc' db' h hdraws
    cases h with
    | draw call ids => cases hdraws
    | register => rfl
    | addMonitor => rfl
    | quiet _ _ _ _ hid => exact hid
  cases pc with
  | idGenerate config cb => rfl
  | request pc =>
      have h := dbStep_effect { o with send := if connected then o.send else .error } pc db
      cases pc with
      | idGenerate call ids => rfl
      | _ => exact hquiet h rfl

/-- A list and its ids in a run. -/
structure Registry.Accounted (k : Registry) (kept : List CString) (r : IdRun) : Prop where
  ledger : IdLedger (fun j => utoa ((r.base + j) % 2 ^ 32)) r.since kept (k.inUse r.layer)
  fits : ∀ x ∈ k.listed r.layer.db, x.length ≤ maxUuidLen

/-- **The invariant of every run.** -/
structure IdRun.Sound (r : IdRun) : Prop where
  counter : r.layer.db.id = (r.base + r.since) % 2 ^ 32
  since : r.since ≤ r.drawn
  drawn : r.drawn < 2 ^ 32
  drawing : ∀ pc ∈ r.layer.calls, pc.Drawing
  rids : receiptIds.Accounted r.keptRids r
  mons : monitorIds.Accounted r.keptMons r

theorem utoa_injective : Function.Injective utoa := by
  intro m n h
  have hread := congrArg (CString.readDigits 0) h
  rwa [CString.readDigits_utoa, CString.readDigits_utoa] at hread

/-- Fewer than 2^32 ids are all different. -/
theorem issued_ne {base since : Nat} (h : since + 1 < 2 ^ 32) :
    ∀ j, 1 ≤ j → j ≤ since → utoa ((base + j) % 2 ^ 32) ≠
    utoa ((base + (since + 1)) % 2 ^ 32) := by
  intro j _ hj heq
  have := utoa_injective heq
  omega

section Step

variable {k : Registry} {r : IdRun} {kept : List CString}

/-- Steps other than an access and `ovsdb_init` bring no id into use. -/
theorem Registry.Lawful.inUse_le (hk : k.Lawful) {s s' : DbLayer} {l : LayerStep} (h : LayerEffect s l s')
    (hcall : ∀ call, l = .call call → call.isWrite = false) (haccess : ∀ n o, l ≠ .access n o) :
    (k.listed s'.db).Sublist (k.listed s.db) ∧ ∀ x, (k.inUse s').count x ≤ (k.inUse s).count x := by
  -- the lists lose at most, and the requests hold what they held
  have hof : ∀ {s' : DbLayer}, s'.db.receipts.Sublist s.db.receipts →
      s'.db.monitors.Sublist s.db.monitors →
      s'.calls.flatMap k.heldBy = s.calls.flatMap k.heldBy →
      (k.listed s'.db).Sublist (k.listed s.db) ∧ ∀ x, (k.inUse s').count x ≤ (k.inUse s).count x := by
    intro s' hreceipts hmonitors hcalls
    have hlisted := hk.lists hreceipts hmonitors
    refine ⟨hlisted, fun x => ?_⟩
    unfold Registry.inUse
    rw [hcalls]
    exact (hlisted.append_right _).count_le x
  have hsnoc : ∀ pc : LayerPc, k.heldBy pc = [] →
      (s.calls ++ [pc]).flatMap k.heldBy = s.calls.flatMap k.heldBy := by
    intro pc hpc
    rw [List.flatMap_append, List.flatMap_singleton, hpc, List.append_nil]
  cases h with
  | init startingId connects =>
      rw [ovsdbInit_eq]
      exact hof (List.Sublist.refl _) (List.Sublist.refl _) rfl
  | disconnect => exact hof (List.Sublist.refl _) (List.Sublist.refl _) rfl
  | call call =>
      exact hof (List.Sublist.refl _) (List.Sublist.refl _) (hsnoc _ (hk.start call (hcall call rfl)))
  | writeFresh config receiptCb => exact hof (List.Sublist.refl _) (List.Sublist.refl _) (hsnoc _ rfl)
  | access n o => exact absurd rfl (haccess n o)
  | reply rid result =>
      obtain ⟨hdb, hcalls⟩ := replyStep_db s rid result
      refine hof ?_ ?_ ?_
      · rw [hdb]
      · rw [hdb]
      · rw [hcalls]
  | unlink i _ => exact hof (List.eraseIdx_sublist _ _) (List.Sublist.refl _) rfl
  | update uuid =>
      obtain ⟨hdb, hcalls⟩ := updateMonitors_db s uuid
      refine hof ?_ ?_ ?_
      · rw [hdb]
      · rw [hdb]
      · rw [hcalls]

/-- An access brings the id it draws into use. -/
theorem Registry.Passes.inUse_le {s : DbLayer} {n : Nat} {o : Outcome} {pc pc' : LayerPc} {db' : OvsDbApi}
    (hget : s.calls[n]? = some pc) (h : k.Passes o pc s.db pc' db') (x : CString) :
    (k.inUse { s with db := db', calls := s.calls.set n pc' }).count x
      ≤ (k.inUse s).count x + pc.drawn s.db x := by
  -- one request goes on, the others hold what they held
  have hset := List.count_flatMap_set k.heldBy x pc' hget
  have huses := h.uses x
  unfold Registry.inUse
  rw [List.count_append, List.count_append]
  dsimp only
  omega

/-- The list after an access: an id that was held is new in it, if any. -/
theorem Registry.Passes.fits (hk : k.Lawful) {o : Outcome} {pc pc' : LayerPc} {db db' : OvsDbApi}
    (h : k.Passes o pc db pc' db') (hdb : ∀ x ∈ k.listed db, x.length ≤ maxUuidLen) :
    ∀ x ∈ k.listed db', x.length ≤ maxUuidLen := by
  intro x hx
  cases henters : k.entersBy o pc with
  | none => exact hdb x ((h.others henters).subset hx)
  | some y =>
      obtain ⟨hheld, hlisted⟩ := h.enters y henters
      rw [hlisted, List.mem_append, List.mem_singleton] at hx
      rcases hx with hold | rfl
      · exact hdb x hold
      · cases pc with
        | idGenerate => cases hheld
        | request pc => exact hk.fits pc x hheld

theorem IdRun.drawsAt_eq {n : Nat} {pc : LayerPc} (hget : r.layer.calls[n]? = some pc) :
    r.drawsAt n = pc.draws := by
  unfold IdRun.drawsAt
  rw [hget]
  rfl

/-- The number drawn next is the next in the count. -/
theorem IdRun.Sound.nextId_eq (hs : r.Sound) :
    r.layer.db.nextId = utoa ((r.base + (r.since + 1)) % 2 ^ 32) := by
  show utoa ((r.layer.db.id + 1) % 2 ^ 32) = _
  rw [hs.counter, Nat.mod_add_mod, Nat.add_assoc]

/-- The ids kept from before the last `ovsdb_init`. -/
def Registry.keptBehind (k : Registry) (r : IdRun) (kept : List CString) : LayerStep → List CString
  | .init _ _ => k.inUse r.layer
  | _ => kept

/-- **The ids of a list, step by step.** -/
theorem Registry.Accounted.step (hk : k.Lawful) (hs : r.Sound) (hacc : k.Accounted kept r) {l : LayerStep}
    {s' : DbLayer} (hwithin : r.within l = true) (h : LayerEffect r.layer l s') :
    k.Accounted (k.keptBehind r kept l) (r.note l s') := by
  have hcall : ∀ call, l = .call call → call.isWrite = false := by
    rintro call rfl
    simpa [IdRun.within] using hwithin
  -- the steps that leave the counter alone
  have hother : (∀ n o, l ≠ .access n o) → (∀ x ∈ k.listed s'.db, x.length ≤ maxUuidLen) ∧
      ∀ x, (k.inUse s').count x ≤ (k.inUse r.layer).count x := by
    intro haccess
    obtain ⟨hlisted, huse⟩ := hk.inUse_le h hcall haccess
    exact ⟨fun x hx => hacc.fits x (hlisted.subset hx), huse⟩
  cases h with
  | init startingId connects =>
      obtain ⟨hfits, huse⟩ := hother nofun
      exact ⟨(IdLedger.restart _ _).keep huse, hfits⟩
  | access n o pc hget =>
      have hpc := hs.drawing pc (List.mem_of_getElem? hget)
      have hpasses := hk.passes r.layer.connected o hpc r.layer.db
      have hfits := hpasses.fits hk hacc.fits
      have huse := hpasses.inUse_le hget
      have hdraws := IdRun.drawsAt_eq hget
      show k.Accounted kept (if r.drawsAt n then _ else _)
      -- a draw is the next id of the count, any other access passes ids on
      cases hd : pc.draws with
      | false =>
          rw [hdraws, hd, if_neg Bool.false_ne_true]
          refine ⟨hacc.ledger.keep fun x => ?_, hfits⟩
          have hx := huse x
          unfold LayerPc.drawn at hx
          rwa [hd, if_neg Bool.false_ne_true, Nat.add_zero] at hx
      | true =>
          rw [hdraws, hd, if_pos rfl]
          have hbound : r.drawn + 1 < 2 ^ 32 := by
            unfold IdRun.within at hwithin
            simpa [hdraws, hd] using hwithin
          refine ⟨hacc.ledger.issue (issued_ne (Nat.lt_of_le_of_lt (Nat.succ_le_succ hs.since) hbound))
            fun x => ?_, hfits⟩
          have hx := huse x
          unfold LayerPc.drawn at hx
          rwa [hd, if_pos rfl, hs.nextId_eq] at hx
  | disconnect => exact ⟨hacc.ledger.keep (hother nofun).2, (hother nofun).1⟩
  | call call => exact ⟨hacc.ledger.keep (hother nofun).2, (hother nofun).1⟩
  | writeFresh config cb => exact ⟨hacc.ledger.keep (hother nofun).2, (hother nofun).1⟩
  | reply rid result => exact ⟨hacc.ledger.keep (hother nofun).2, (hother nofun).1⟩
  | unlink i hreplying => exact ⟨hacc.ledger.keep (hother nofun).2, (hother nofun).1⟩
  | update uuid => exact ⟨hacc.ledger.keep (hother nofun).2, (hother nofun).1⟩

/-- **What a step does to the list**: its ids stay distinct unless one of those
kept is entered again. -/
theorem Registry.Accounted.nodup_iff (hk : k.Lawful) (hs : r.Sound) (hacc : k.Accounted kept r)
    {l : LayerStep} {s' : DbLayer} (hwithin : r.within l = true) (h : LayerEffect r.layer l s')
    (hnodup : (k.listed r.layer.db).Nodup) :
    (k.listed s'.db).Nodup ↔ ¬ ∃ n o pc, l = .access n o ∧ r.layer.calls[n]? = some pc ∧
      k.Reenters kept o pc r.layer.db := by
  by_cases haccess : ∃ n o, l = .access n o
  · obtain ⟨n, o, rfl⟩ := haccess
    cases h with
    | access _ _ pc hget =>
        have hpc := hs.drawing pc (List.mem_of_getElem? hget)
        have hpasses := hk.passes r.layer.connected o hpc r.layer.db
        cases henters : k.entersBy o pc with
        | none =>
            refine iff_of_true ((hpasses.others henters).nodup hnodup) ?_
            intro ⟨_, _, _, heq, hget', x, hx, _⟩
            cases heq
            rw [hget] at hget'
            cases hget'
            rw [henters] at hx
            cases hx
        | some x =>
            obtain ⟨hheld, hlisted⟩ := hpasses.enters x henters
            have hnew : (k.listed r.layer.db ++ [x]).Nodup ↔ x ∉ k.listed r.layer.db := by
              rw [← List.concat_eq_append, List.nodup_concat]
              exact and_iff_left hnodup
            show (k.listed (layerAccess r.layer.connected o pc r.layer.db).2).Nodup ↔ _
            rw [hlisted, hnew]
            constructor
            · intro hno ⟨_, _, _, heq, hget', y, hy, _, hmem⟩
              cases heq
              rw [hget] at hget'
              cases hget'
              rw [henters] at hy
              cases hy
              exact hno hmem
            · intro hno hmem
              -- an id that was not kept is in use once, and the request holds it
              by_cases hkept : x ∈ kept
              · exact hno ⟨n, o, pc, rfl, hget, x, henters, hkept, hmem⟩
              · have hpending : x ∈ r.layer.calls.flatMap k.heldBy :=
                  List.mem_flatMap.2 ⟨pc, List.mem_of_getElem? hget, hheld⟩
                exact hacc.ledger.not_listed hpending hkept hmem
  · have hcall : ∀ call, l = .call call → call.isWrite = false := by
      rintro call rfl
      simpa [IdRun.within] using hwithin
    have hlisted := (hk.inUse_le h hcall fun n o heq => haccess ⟨n, o, heq⟩).1
    exact iff_of_true (hlisted.nodup hnodup) fun ⟨n, o, _, heq, _⟩ => haccess ⟨n, o, heq⟩

end Step

/-- **The invariant along a run.** -/
theorem IdRun.Sound.step {r r' : IdRun} {l : LayerStep} (hs : r.Sound) (h : r.step l = some r') :
    r'.Sound := by
  obtain ⟨hwithin, s', heffect, rfl⟩ := IdRun.step_effect h
  have hrids := hs.rids.step receiptIds_lawful hs hwithin heffect
  have hmons := hs.mons.step monitorIds_lawful hs hwithin heffect
  have hsnoc : ∀ pc : LayerPc, pc.Drawing → ∀ pc' ∈ r.layer.calls ++ [pc], pc'.Drawing := by
    intro pc hpc pc' hmem
    rcases List.mem_append.1 hmem with hold | hnew
    · exact hs.drawing pc' hold
    · exact List.mem_singleton.1 hnew ▸ hpc
  cases heffect with
  | init startingId connects =>
      -- the count starts again, the number of draws in all does not
      refine ⟨?_, Nat.zero_le _, hs.drawn, ?_, hrids, hmons⟩
      · show (ovsdbInit startingId connects r.layer).2.db.id = (startingId % 2 ^ 32 + 0) % 2 ^ 32
        rw [ovsdbInit_eq, Nat.add_zero, Nat.mod_mod]
      · show ∀ pc ∈ (ovsdbInit startingId connects r.layer).2.calls, pc.Drawing
        rw [ovsdbInit_eq]
        exact hs.drawing
  | access n o pc hget =>
      have hdraws := IdRun.drawsAt_eq hget
      have hid := layerAccess_id r.layer.connected o pc r.layer.db
      have hdrawing : ∀ pc' ∈ r.layer.calls.set n (layerAccess r.layer.connected o pc r.layer.db).1,
          pc'.Drawing := by
        intro pc' hmem
        rcases List.mem_or_eq_of_mem_set hmem with hold | rfl
        · exact hs.drawing pc' hold
        · exact layerAccess_drawing _ _ _ _
      cases hd : pc.draws with
      | false =>
          rw [hd, if_neg Bool.false_ne_true] at hid
          have hnote : ∀ s', r.note (.access n o) s' = { r with layer := s' } := by
            intro s'
            exact if_neg (by rw [hdraws, hd]; exact Bool.false_ne_true)
          rw [hnote] at hrids hmons ⊢
          exact ⟨hid.trans hs.counter, hs.since, hs.drawn, hdrawing, hrids, hmons⟩
      | true =>
          rw [hd, if_pos rfl] at hid
          have hnote : ∀ s', r.note (.access n o) s'
              = { r with layer := s', drawn := r.drawn + 1, since := r.since + 1 } := by
            intro s'
            exact if_pos (hdraws.trans hd)
          have hbound : r.drawn + 1 < 2 ^ 32 := by
            unfold IdRun.within at hwithin
            simpa [hdraws, hd] using hwithin
          rw [hnote] at hrids hmons ⊢
          refine ⟨hid.trans ?_, Nat.succ_le_succ hs.since, hbound, hdrawing, hrids, hmons⟩
          show (r.layer.db.id + 1) % 2 ^ 32 = (r.base + (r.since + 1)) % 2 ^ 32
          rw [hs.counter, Nat.mod_add_mod, Nat.add_assoc]
  | disconnect => exact ⟨hs.counter, hs.since, hs.drawn, hs.drawing, hrids, hmons⟩
  | call call => exact ⟨hs.counter, hs.since, hs.drawn, hsnoc _ (DbCall.ready_drawing _ _), hrids, hmons⟩
  | writeFresh config cb => exact ⟨hs.counter, hs.since, hs.drawn, hsnoc _ trivial, hrids, hmons⟩
  | reply rid result =>
      obtain ⟨hdb, hcalls⟩ := replyStep_db r.layer rid result
      refine ⟨(congrArg OvsDbApi.id hdb).trans hs.counter, hs.since, hs.drawn, ?_, hrids, hmons⟩
      show ∀ pc ∈ (replyStep r.layer rid result).calls, pc.Drawing
      rw [hcalls]
      exact hs.drawing
  | unlink i _ => exact ⟨hs.counter, hs.since, hs.drawn, hs.drawing, hrids, hmons⟩
  | update uuid =>
      obtain ⟨hdb, hcalls⟩ := updateMonitors_db r.layer uuid
      refine ⟨(congrArg OvsDbApi.id hdb).trans hs.counter, hs.since, hs.drawn, ?_, hrids, hmons⟩
      show ∀ pc ∈ (updateMonitors r.layer uuid).calls, pc.Drawing
      rw [hcalls]
      exact hs.drawing

theorem IdRun.sound_start : IdRun.start.Sound where
  counter := rfl
  since := Nat.le_refl _
  drawn := by decide
  drawing := nofun
  rids := ⟨IdLedger.restart _ _, nofun⟩
  mons := ⟨IdLedger.restart _ _, nofun⟩

/-! ## §4. Distinct ids. -/

/-- The ids of each list are distinct, and the first entry with the id of an
entry is the entry itself. -/
structure DbLayer.Distinct (s : DbLayer) : Prop where
  rids : (s.db.receipts.map ReceiptNode.rid).Nodup
  monitors : (s.db.monitors.map MonNode.uuid).Nodup
  replies : ∀ node ∈ s.db.receipts,
    s.db.receipts.find? (fun n => strncmpEq (maxUuidLen + 1) node.rid n.rid) = some node
  updates : ∀ node ∈ s.db.monitors, s.db.monitors.find? (fun n => n.matches node.uuid) = some node

/-- With distinct ids, an entry is the first with its id. -/
theorem find?_own {ν : Type} (id : ν → CString) {nodes : List ν} (hnodup : (nodes.map id).Nodup)
    (hfits : ∀ x ∈ nodes.map id, x.length ≤ maxUuidLen) {node : ν} (hnode : node ∈ nodes) :
    nodes.find? (fun n => strncmpEq (maxUuidLen + 1) (id node) (id n)) = some node := by
  have hsame : ∀ n ∈ nodes, strncmpEq (maxUuidLen + 1) (id node) (id n) = true ↔ id node = id n := by
    intro n hn
    exact CString.strncmpEq_iff_eq (Nat.le_succ_of_le (hfits _ (List.mem_map_of_mem hnode)))
      (Nat.le_succ_of_le (hfits _ (List.mem_map_of_mem hn)))
  obtain ⟨pre, post, hsplit⟩ := List.append_of_mem hnode
  refine List.find?_eq_some_iff_append.2 ⟨(hsame node hnode).2 rfl, pre, post, hsplit, fun n hn => ?_⟩
  have hmem : n ∈ nodes := by
    rw [hsplit]
    exact List.mem_append_left _ hn
  have hne : id node ≠ id n := by
    rw [hsplit, List.map_append, List.map_cons, List.nodup_append] at hnodup
    exact fun heq => hnodup.2.2 (id n) (List.mem_map_of_mem hn) (id node) (List.mem_cons_self ..) heq.symm
  rw [Bool.not_eq_true', ← Bool.not_eq_true, hsame n hmem]
  exact hne

/-- In a run that is all there is to it. -/
theorem IdRun.Sound.distinct_iff {r : IdRun} (hs : r.Sound) : r.layer.Distinct
    ↔ (receiptIds.listed r.layer.db).Nodup ∧ (monitorIds.listed r.layer.db).Nodup :=
  ⟨fun h => ⟨h.rids, h.monitors⟩, fun ⟨hrids, hmonitors⟩ => ⟨hrids, hmonitors,
    fun _ hnode => find?_own ReceiptNode.rid hrids hs.rids.fits hnode,
    fun _ hnode => find?_own MonNode.uuid hmonitors hs.mons.fits hnode⟩⟩

/-- **Outstanding request ids.**  In every run (`idMachine`: any calls, any
interleaving, `ovsdb_init` at any time with any value, fewer than 2^32 ids): after
every step the ids of each list are distinct and each entry is found by its id,
exactly when no step enters an id that its list has and that was in use when
`ovsdb_init` last set the counter. -/
theorem ids_distinct_iff (steps : List LayerStep) :
    idMachine.AllSteps (fun _ _ r' => r'.layer.Distinct) .start steps
      ↔ idMachine.AllSteps (fun r l _ => ¬ r.Reuses l) .start steps := by
  refine Machine.allSteps_invariant_iff (J := IdRun.Sound) (fun _ _ _ hs h => hs.step h) ?_ steps .start
    IdRun.sound_start ?_
  · intro r l r' hs hdistinct h
    rw [(hs.step h).distinct_iff]
    obtain ⟨hwithin, s', heffect, rfl⟩ := IdRun.step_effect h
    have hrids := hs.rids.nodup_iff receiptIds_lawful hs hwithin heffect hdistinct.rids
    have hmons := hs.mons.nodup_iff monitorIds_lawful hs hwithin heffect hdistinct.monitors
    rw [IdRun.note_layer, hrids, hmons, ← not_or]
    refine not_congr ⟨?_, fun hreuses => ?_⟩
    · rintro (⟨n, o, pc, rfl, hget, hre⟩ | ⟨n, o, pc, rfl, hget, hre⟩)
      · exact ⟨pc, hget, Or.inl hre⟩
      · exact ⟨pc, hget, Or.inr hre⟩
    · cases l with
      | access n o =>
          obtain ⟨pc, hget, hre⟩ := hreuses
          exact hre.imp (fun h => ⟨n, o, pc, rfl, hget, h⟩) fun h => ⟨n, o, pc, rfl, hget, h⟩
      | _ => exact hreuses.elim
  · exact IdRun.sound_start.distinct_iff.2 ⟨List.nodup_nil, List.nodup_nil⟩

/-- Two monitors, and between them a second `ovsdb_init` with the same starting
id, which reports success. -/
def initTwiceSteps : List LayerStep :=
  [.init 1000 true, .call (.monitor .gwConfig (some .ovsAgentApiMonitorFeedbackCallback) none)]
    ++ List.replicate 5 (.access 0 .ok)
    ++ [.init 1000 true, .call (.monitor .feedback (some .ovsAgentApiMonitorFeedbackCallback) none)]
    ++ List.replicate 5 (.access 1 .ok)

/-- Both are waiting for the reply 1002, and both are the monitor 1001. -/
theorem init_twice_same_ids : ∃ r, idMachine.Reachable r ∧
    r.layer.db.receipts.map ReceiptNode.rid = [ofString "1002", ofString "1002"] ∧
    r.layer.db.monitors.map MonNode.uuid = [ofString "1001", ofString "1001"] ∧ ¬ r.layer.Distinct := by
  have hids : (idMachine.run .start initTwiceSteps).map
      (fun r => (r.layer.db.receipts.map ReceiptNode.rid, r.layer.db.monitors.map MonNode.uuid))
        = some ([ofString "1002", ofString "1002"], [ofString "1001", ofString "1001"]) := by
    decide +kernel
  obtain ⟨r, hrun, hr⟩ := Option.map_eq_some_iff.1 hids
  obtain ⟨hrids, hmons⟩ := Prod.mk.inj hr
  refine ⟨r, Machine.reachable_of_run (.init rfl) hrun, hrids, hmons, fun h => ?_⟩
  have hnodup := h.rids
  rw [hrids] at hnodup
  exact absurd hnodup (by decide)

end OvsAgent
