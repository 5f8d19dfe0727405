/-
  OvsAgent.DbApi.MessageLoop — the statuses of `ovsdb_parse_msg`.

  OvsdbParser.lean says which calls the parser makes.  Here the same functions
  of ovsdb_parser.c are followed with what those calls answer: the loop runs in
  any monad, so that `receipt_list_process` and `mon_list_process` may do what
  they like, fail, and see what was done before.

  Main results:
    * `batch_dispatched` — a buffer of replies and notifications is dispatched
      message by message, whatever the dispatches return;
    * `trace_ovsdbParseMsg` — the calls are those of OvsdbParser.lean,
      whatever is answered.
-/
import OvsAgent.DbApi.OvsdbParser
import OvsAgent.Lib.Traced

namespace OvsAgent

open CString (ofString strncpy)
open Json

/-! ## §1. The parser and its callees. -/

section Callees

variable {m : Type → Type} [Monad m]

/-- What `ovsdb_parse_msg` calls for a message. -/
structure MsgCallees (m : Type → Type) where
  receiptListProcess : Option CString → Option Json → m OvsStatus
  ovsdbParseParams : List Json → m OvsStatus

/-- `mon_list_process`, as `ovsdb_parse_monitor_update` calls it. -/
abbrev MonListProcess (m : Type → Type) : Type := CString → OvsAgentTableConfig → m OvsStatus

/-- The loop over the rows of an update; `status` is what the row before left. -/
def rowsStatus (process : MonListProcess m) (uuid tableName : CString) :
    OvsStatus → List (CString × Json) → m OvsStatus
  | status, [] => pure status
  | _, (updateUuid, value) :: rows =>
      match objectGet (some value) (ofString "new") with
      | none => rowsStatus process uuid tableName .success rows
      | some newUpdate =>
          match parseTable tableName newUpdate with
          | none => pure .failed
          | some tableConfig => do
              let status ← process uuid ⟨tableConfig, strncpy maxUuidLen updateUuid⟩
              rowsStatus process uuid tableName status rows

/-- `ovsdb_parse_monitor_update`. -/
def monitorUpdateStatus (process : MonListProcess m) (uuid : CString) (update : Json) : m OvsStatus :=
  match members? (some update) with
  | [(tableName, tableValue)] => rowsStatus process uuid tableName .failed (members? (some tableValue))
  | _ => pure .failed

/-- The loop of `ovsdb_parse_params` behind the first element. -/
def paramsStatus (process : MonListProcess m) (uuid : CString) : OvsStatus → List Json → m OvsStatus
  | status, [] => pure status
  | _, value :: params =>
      if isObject (some value) then do
        let status ← monitorUpdateStatus process uuid value
        paramsStatus process uuid status params
      else pure .failed

/-- `ovsdb_parse_params`. -/
def parseParams (process : MonListProcess m) : List Json → m OvsStatus
  | [] => pure .success
  | value :: params =>
      match stringValue (some value) with
      | none => pure .failed
      | some uuid => paramsStatus process uuid .success params

/-- The body of the loop of `ovsdb_parse_msg` behind `json_loads`: the call it
makes, `none` when it returns from the function. -/
def MsgCallees.handleMsg (callees : MsgCallees m) (msg : Json) : Option (m OvsStatus) :=
  match objectGet (some msg) (ofString "id") with
  | none => none
  | some .null =>
      if isString (objectGet (some msg) (ofString "method")) then
        match objectGet (some msg) (ofString "params") with
        | some (.array params) => some (callees.ovsdbParseParams params)
        | _ => none
      else none
  | some id =>
      some (callees.receiptListProcess (stringValue (some id)) (objectGet (some msg) (ofString "result")))

/-- The `do … while (bytes_read != size)` loop. -/
def MsgCallees.loop (callees : MsgCallees m) (j : JsonLoads) (size : Nat) :
    Nat → Nat → CString → m OvsStatus
  | 0, _, _ => pure .failed
  | fuel + 1, bytesRead, jsonStr =>
      match j.loads jsonStr with
      | none => pure .failed
      | some (msg, position) =>
          match callees.handleMsg msg with
          | none => pure .failed
          | some call => do
              let status ← call
              if bytesRead + position = size then pure status
              else callees.loop j size fuel (bytesRead + position) (jsonStr.drop position)

/-- `ovsdb_parse_msg(json_str, size)`.  There are no more rounds than bytes
(`MsgCallees.loop_fuel`), and no value in the empty text. -/
def MsgCallees.ovsdbParseMsg (callees : MsgCallees m) (j : JsonLoads) (jsonStr : CString) (size : Nat) :
    m OvsStatus :=
  callees.loop j size jsonStr.length 0 jsonStr

/-- More fuel than bytes changes nothing. -/
theorem MsgCallees.loop_fuel (callees : MsgCallees m) (j : JsonLoads) (size fuel : Nat) :
    ∀ (bytesRead : Nat) (s : CString), s.length ≤ fuel →
      callees.loop j size fuel bytesRead s = callees.loop j size s.length bytesRead s := by
  refine Chunks.loop_fuel (fun fuel bytesRead => ?_) (fun fuel fuel' bytesRead s h => ?_) fuel
  · cases fuel with
    | zero => rfl
    | succ fuel => simp only [MsgCallees.loop, j.loads_nil]
  · unfold MsgCallees.loop
    cases hl : j.loads s with
    | none => rfl
    | some r =>
        obtain ⟨msg, n⟩ := r
        have hlt : (s.drop n).length < s.length := by
          obtain ⟨hpos, hle⟩ := j.position hl
          rw [List.length_drop]
          omega
        simp only [h (bytesRead + n) (s.drop n) hlt]

/-! ## §2. Batches. -/

/-- What a message of a batch says. -/
inductive Rpc where
  | reply (id : CString) (result : Option Json)
  | notification (method : CString) (params : List Json)

/-- The members of the message that say it. -/
def Rpc.SaidBy (msg : Json) : Rpc → Prop
  | .reply id result =>
      objectGet (some msg) (ofString "id") = some (.string id) ∧
        objectGet (some msg) (ofString "result") = result
  | .notification method params =>
      objectGet (some msg) (ofString "id") = some .null ∧
        objectGet (some msg) (ofString "method") = some (.string method) ∧
        objectGet (some msg) (ofString "params") = some (.array params)

/-- What is to be done for it. -/
def Rpc.dispatch (callees : MsgCallees m) : Rpc → m OvsStatus
  | .reply id result => callees.receiptListProcess (some id) result
  | .notification _ params => callees.ovsdbParseParams params

/-- One after the other; the last one's status is left. -/
def dispatchAll (callees : MsgCallees m) : OvsStatus → List Rpc → m OvsStatus
  | status, [] => pure status
  | _, rpc :: rpcs => do
      let status ← rpc.dispatch callees
      dispatchAll callees status rpcs

/-- JSON's white space. -/
def isBlank (b : UInt8) : Bool := b = 0x20 || b = 0x09 || b = 0x0A || b = 0x0D

/-- `json_loads` passes over white space, and counts it. -/
def JsonLoads.SkipsBlanks (j : JsonLoads) : Prop :=
  ∀ blanks s msg n, (∀ b ∈ blanks, isBlank b) → j.loads s = some (msg, n) →
    j.loads (blanks ++ s) = some (msg, blanks.length + n)

/-- A message as it lies in the buffer. -/
structure Batched (j : JsonLoads) where
  blanks : CString
  blank : ∀ b ∈ blanks, isBlank b
  text : CString
  msg : Json
  loads : j.loads text = some (msg, text.length)
  rpc : Rpc
  said : rpc.SaidBy msg

/-- Its bytes. -/
def Batched.bytes {j : JsonLoads} (b : Batched j) : CString := b.blanks ++ b.text

omit [Monad m] in
theorem Rpc.SaidBy.handleMsg (callees : MsgCallees m) {msg : Json} {rpc : Rpc} (h : rpc.SaidBy msg) :
    callees.handleMsg msg = some (rpc.dispatch callees) := by
  unfold MsgCallees.handleMsg
  cases rpc with
  | reply id result =>
      obtain ⟨hid, hresult⟩ := h
      rw [hid, hresult]
      rfl
  | notification method params =>
      obtain ⟨hid, hmethod, hparams⟩ := h
      rw [hid, hmethod, hparams]
      rfl

/-- A message is read whatever follows it. -/
theorem Batched.loads_append {j : JsonLoads} (hj : j.SkipsBlanks) (b : Batched j) (t : CString) :
    j.loads (b.bytes ++ t) = some (b.msg, b.bytes.length) := by
  have htext := j.first b.loads t
  rw [List.take_length] at htext
  have h := hj b.blanks (b.text ++ t) b.msg b.text.length b.blank htext
  unfold Batched.bytes
  rwa [List.append_assoc, List.length_append]

theorem Batched.bytes_ne_nil {j : JsonLoads} (b : Batched j) : b.bytes ≠ [] := by
  intro h
  have hpos := (j.position b.loads).1
  rw [(List.append_eq_nil_iff.1 h).2] at hpos
  exact absurd hpos (Nat.lt_irrefl _)

/-- The loop, at the beginning of a message. -/
theorem loop_batch {j : JsonLoads} (hj : j.SkipsBlanks) (callees : MsgCallees m) (size : Nat)
    (bs : List (Batched j)) : ∀ (b : Batched j) (fuel bytesRead : Nat) (last : OvsStatus),
      (Chunks.stream Batched.bytes (b :: bs)).length ≤ fuel →
      bytesRead + (Chunks.stream Batched.bytes (b :: bs)).length = size →
      callees.loop j size fuel bytesRead (Chunks.stream Batched.bytes (b :: bs))
        = dispatchAll callees last ((b :: bs).map Batched.rpc) := by
  induction bs with
  | nil =>
      intro b fuel bytesRead last hfuel hsize
      have hstream : Chunks.stream Batched.bytes [b] = b.bytes ++ [] := rfl
      rw [hstream] at hfuel hsize ⊢
      rw [List.append_nil] at hfuel hsize
      obtain ⟨fuel, rfl⟩ := Nat.exists_eq_add_one_of_ne_zero
        (Nat.ne_of_gt (Nat.lt_of_lt_of_le (List.length_pos_iff.2 b.bytes_ne_nil) hfuel))
      unfold MsgCallees.loop
      simp only [b.loads_append hj [], b.said.handleMsg callees, hsize, if_true]
      rfl
  | cons b' bs ih =>
      intro b fuel bytesRead last hfuel hsize
      have hstream : Chunks.stream Batched.bytes (b :: b' :: bs)
          = b.bytes ++ Chunks.stream Batched.bytes (b' :: bs) := rfl
      rw [hstream] at hfuel hsize ⊢
      rw [List.length_append] at hfuel hsize
      have hpos := List.length_pos_iff.2 b.bytes_ne_nil
      -- there is a further message, so the count is not the size yet
      have hmore : 0 < (Chunks.stream Batched.bytes (b' :: bs)).length := by
        have h' : Chunks.stream Batched.bytes (b' :: bs) = b'.bytes ++ Chunks.stream Batched.bytes bs := rfl
        have := List.length_pos_iff.2 b'.bytes_ne_nil
        rw [h', List.length_append]
        omega
      obtain ⟨fuel, rfl⟩ := Nat.exists_eq_add_one_of_ne_zero (show fuel ≠ 0 by omega)
      have hgo : ¬ bytesRead + b.bytes.length = size := by omega
      unfold MsgCallees.loop
      simp only [b.loads_append hj, b.said.handleMsg callees, hgo, if_false, List.drop_left]
      show _ = (do let status ← b.rpc.dispatch callees
                   dispatchAll callees status ((b' :: bs).map Batched.rpc))
      congr 1
      funext status
      exact ih b' fuel (bytesRead + b.bytes.length) status (by omega) (by omega)

/-- **Batched messages are all dispatched.**  A buffer of messages, each behind
some white space, is worked off message by message: each is dispatched once,
in order, whatever the dispatches before it did and returned. -/
theorem batch_dispatched {j : JsonLoads} (hj : j.SkipsBlanks) (callees : MsgCallees m)
    {bs : List (Batched j)} (hne : bs ≠ []) :
    callees.ovsdbParseMsg j (Chunks.stream Batched.bytes bs) (Chunks.stream Batched.bytes bs).length
      = dispatchAll callees .failed (bs.map Batched.rpc) := by
  cases bs with
  | nil => exact absurd rfl hne
  | cons b bs => exact loop_batch hj callees _ bs b _ 0 .failed (Nat.le_refl _) (Nat.zero_add _)

end Callees

/-! ## §3. A buffer of two messages. -/

/-- A `json_loads` for these texts: none begins with white space or with
another. -/
def JsonLoads.ofTexts (texts : List (CString × Json))
    (hstart : ∀ e ∈ texts, ∃ b s, e.1 = b :: s ∧ ¬ isBlank b)
    (hfree : ∀ e ∈ texts, ∀ e' ∈ texts, e.1 <+: e'.1 → e.1 = e'.1) : JsonLoads where
  loads s :=
    (texts.find? fun e => e.1.isPrefixOf (s.dropWhile isBlank)).map fun e =>
      (e.2, (s.takeWhile isBlank).length + e.1.length)
  position := by
    intro s msg n hs
    obtain ⟨e, hfind, heq⟩ := Option.map_eq_some_iff.1 hs
    cases heq
    obtain ⟨b, t, htext, _⟩ := hstart e (List.mem_of_find?_eq_some hfind)
    have hprefix := List.isPrefixOf_iff_prefix.1 (List.find?_eq_some_iff_append.1 hfind).1
    have hle := hprefix.length_le
    have hsplit := congrArg List.length (List.takeWhile_append_dropWhile (p := isBlank) (l := s))
    rw [List.length_append] at hsplit
    refine ⟨?_, by omega⟩
    rw [htext, List.length_cons]
    omega
  first := by
    intro s msg n hs t
    obtain ⟨e, hfind, heq⟩ := Option.map_eq_some_iff.1 hs
    cases heq
    have hmem := List.mem_of_find?_eq_some hfind
    obtain ⟨hstarts, pre, post, htexts, hpre⟩ := List.find?_eq_some_iff_append.1 hfind
    obtain ⟨u, hu⟩ := List.isPrefixOf_iff_prefix.1 hstarts
    obtain ⟨b, w, htext, hb⟩ := hstart e hmem
    -- what was read is the white space and the text
    have htake : s.take ((s.takeWhile isBlank).length + e.1.length) = s.takeWhile isBlank ++ e.1 := by
      have hs : s.takeWhile isBlank ++ (e.1 ++ u) = s := by rw [hu, List.takeWhile_append_dropWhile]
      have h : (s.takeWhile isBlank ++ (e.1 ++ u)).take ((s.takeWhile isBlank).length + e.1.length)
          = s.takeWhile isBlank ++ e.1 := by
        rw [List.take_length_add_append, List.take_left]
      rwa [hs] at h
    have hall : ∀ c ∈ s.takeWhile isBlank, isBlank c = true := List.all_eq_true.1 List.all_takeWhile
    rw [htake, List.append_assoc, List.dropWhile_append_of_pos hall, List.takeWhile_append_of_pos hall]
    have hdrop : (e.1 ++ t).dropWhile isBlank = e.1 ++ t := by
      rw [htext, List.cons_append, List.dropWhile_cons_of_neg hb]
    have hstop : (e.1 ++ t).takeWhile isBlank = [] := by
      rw [htext, List.cons_append, List.takeWhile_cons_of_neg hb]
    rw [hdrop, hstop, List.append_nil]
    refine Option.map_eq_some_iff.2 ⟨e, ?_, rfl⟩
    refine List.find?_eq_some_iff_append.2
      ⟨List.isPrefixOf_iff_prefix.2 (List.prefix_append _ _), pre, post, htexts, ?_⟩
    intro e' he'
    have hmem' : e' ∈ texts := by
      rw [htexts]
      exact List.mem_append_left _ he'
    have hno := hpre e' he'
    rw [Bool.not_eq_true', ← Bool.not_eq_true, List.isPrefixOf_iff_prefix] at hno ⊢
    intro h'
    -- else one of the two texts begins with the other
    have hsame : e'.1 = e.1 := by
      rcases List.prefix_or_prefix_of_prefix h' (List.prefix_append e.1 t) with h | h
      · exact hfree e' hmem' e hmem h
      · exact (hfree e hmem e' hmem' h).symm
    rw [hsame] at hno
    exact hno ⟨u, hu⟩

theorem JsonLoads.ofTexts_skipsBlanks (texts : List (CString × Json)) (hstart hfree) :
    (JsonLoads.ofTexts texts hstart hfree).SkipsBlanks := by
  intro blanks s msg n hblanks hs
  obtain ⟨e, hfind, heq⟩ := Option.map_eq_some_iff.1 hs
  cases heq
  refine Option.map_eq_some_iff.2 ⟨e, ?_, ?_⟩
  · rwa [List.dropWhile_append_of_pos hblanks]
  · rw [List.takeWhile_append_of_pos hblanks, List.length_append, Nat.add_assoc]

/-- An update of the monitor 1 that says nothing. -/
def updateText : CString := ofString "\x7b\"id\":null,\"method\":\"update\",\"params\":[\"1\",\x7b\x7d]\x7d"

def updateMsg : Json :=
  .object [(ofString "id", .null), (ofString "method", .string (ofString "update")),
    (ofString "params", .array [.string (ofString "1"), .object []])]

def batchLoads : JsonLoads :=
  .ofTexts [(replyText, reply.msg), (updateText, updateMsg)]
    (by
      intro e he
      rcases List.mem_pair.1 he with rfl | rfl
      · exact ⟨_, _, rfl, by decide⟩
      · exact ⟨_, _, rfl, by decide⟩)
    (by
      have hdiffer : ¬ replyText <+: updateText ∧ ¬ updateText <+: replyText := by decide +kernel
      intro e he e' he'
      rcases List.mem_pair.1 he with rfl | rfl <;> rcases List.mem_pair.1 he' with rfl | rfl
      · intro _; rfl
      · exact fun h => absurd h hdiffer.1
      · exact fun h => absurd h hdiffer.2
      · intro _; rfl)

set_option maxRecDepth 2000 in
/-- The reply, and on a line of its own the update. -/
def batch : List (Batched batchLoads) :=
  [{ blanks := [], blank := by decide, text := replyText, msg := reply.msg, loads := rfl,
     rpc := .reply (ofString "1") (some (.object [])), said := ⟨rfl, rfl⟩ },
   { blanks := ofString "\n", blank := by decide, text := updateText, msg := updateMsg, loads := rfl,
     rpc := .notification (ofString "update") [.string (ofString "1"), .object []],
     said := ⟨rfl, rfl, rfl⟩ }]

/-! ## §4. The calls. -/

section Recorded

variable (answer : Dispatch → OvsStatus)

/-- A call is noted and answered. -/
def recorded (call : Dispatch) : Traced Dispatch OvsStatus := do
  Traced.emit call
  return answer call

def recordedMonitors : MonListProcess (Traced Dispatch) :=
  fun uuid tableConfig => recorded answer (.update uuid tableConfig)

def recordedCallees : MsgCallees (Traced Dispatch) where
  receiptListProcess rid result := recorded answer (.receipt rid result)
  ovsdbParseParams := parseParams (recordedMonitors answer)

theorem trace_rowsStatus (uuid tableName : CString) (rows : List (CString × Json)) :
    ∀ status, (rowsStatus (recordedMonitors answer) uuid tableName status rows).trace
      = updateRows uuid tableName rows := by
  induction rows with
  | nil => intro status; rfl
  | cons row rows ih =>
      intro status
      obtain ⟨updateUuid, value⟩ := row
      unfold rowsStatus updateRows
      cases objectGet (some value) (ofString "new") with
      | none => exact ih .success
      | some newUpdate =>
          dsimp only
          cases parseTable tableName newUpdate with
          | none => rfl
          | some tableConfig => exact congrArg (List.cons _) (ih _)

theorem trace_monitorUpdateStatus (uuid : CString) (update : Json) :
    (monitorUpdateStatus (recordedMonitors answer) uuid update).trace =
      ovsdbParseMonitorUpdate uuid update := by
  unfold monitorUpdateStatus ovsdbParseMonitorUpdate
  cases members? (some update) with
  | nil => rfl
  | cons table tables =>
      cases tables with
      | nil => exact trace_rowsStatus answer uuid table.1 (members? (some table.2)) .failed
      | cons _ _ => rfl

theorem trace_paramsStatus (uuid : CString) (params : List Json) :
    ∀ status, (paramsStatus (recordedMonitors answer) uuid status params).trace =
      paramsUpdates uuid params := by
  induction params with
  | nil => intro status; rfl
  | cons value params ih =>
      intro status
      unfold paramsStatus paramsUpdates
      split
      · rw [Traced.bind_trace, trace_monitorUpdateStatus, ih]
      · rfl

theorem trace_parseParams (params : List Json) :
    (parseParams (recordedMonitors answer) params).trace = ovsdbParseParams params := by
  cases params with
  | nil => rfl
  | cons value params =>
      unfold parseParams ovsdbParseParams
      dsimp only
      cases stringValue (some value) with
      | none => rfl
      | some uuid => exact trace_paramsStatus answer uuid params .success

/-- The calls for one message. -/
theorem trace_handleMsg (msg : Json) :
    ((recordedCallees answer).handleMsg msg).map Traced.trace = ovsdbHandleMsg msg := by
  unfold MsgCallees.handleMsg ovsdbHandleMsg
  cases objectGet (some msg) (ofString "id") with
  | none => rfl
  | some id =>
      cases id with
      | null =>
          dsimp only
          split
          · cases objectGet (some msg) (ofString "params") with
            | none => rfl
            | some params =>
                cases params with
                | array params => exact congrArg some (trace_parseParams answer params)
                | _ => rfl
          · rfl
      | _ => rfl

/-- Whatever is answered, the calls are the same. -/
theorem trace_ovsdbParseMsg (j : JsonLoads) (s : CString) (size : Nat) :
    ((recordedCallees answer).ovsdbParseMsg j s size).trace = ovsdbParseMsg j s size := by
  have hloop : ∀ fuel bytesRead s,
      ((recordedCallees answer).loop j size fuel bytesRead s).trace = parseLoop j size fuel bytesRead s := by
    intro fuel
    induction fuel with
    | zero => intro bytesRead s; rfl
    | succ fuel ih =>
        intro bytesRead s
        unfold MsgCallees.loop parseLoop
        cases j.loads s with
        | none => rfl
        | some r =>
            obtain ⟨msg, position⟩ := r
            dsimp only
            rw [← trace_handleMsg answer msg]
            cases (recordedCallees answer).handleMsg msg with
            | none => rfl
            | some call =>
                show (call >>= _).trace = _
                rw [Traced.bind_trace]
                dsimp only [Option.map_some]
                split
                · exact List.append_nil _
                · rw [ih]
  exact hloop _ 0 s

/-- Both are worked off, though both fail. -/
theorem batch_dispatched_failing :
    let callees := recordedCallees fun _ => .failed
    let text := replyText ++ ofString "\n" ++ updateText
    callees.ovsdbParseMsg batchLoads text text.length
      = dispatchAll callees .failed
          [.reply (ofString "1") (some (.object [])),
            .notification (ofString "update") [.string (ofString "1"), .object []]] :=
  batch_dispatched (JsonLoads.ofTexts_skipsBlanks _ _ _) _ (show batch ≠ [] from List.cons_ne_nil _ _)

end Recorded
end OvsAgent
