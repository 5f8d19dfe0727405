/-
  OvsAgent.DbApi.OvsdbParser — from the socket to the handlers.

  Follows `ovsdb_parse_msg` and what it calls in ovsdb_parser.c, and the
  listener loop of OvsDbApi.c and ovsdb_socket.c.  `recv` is asked for what
  there is, and each answer is parsed by itself; nothing is kept for the next.

  jansson's `json_loads` is a parameter: with JSON_DISABLE_EOF_CHECK it reads
  the first complete value and reports how far it has read.

  Main result: `listen_eq_iff` — the listener hands on what the messages say
  exactly when every message that says anything lies whole in the answer of
  one `recv` that begins where a message begins.
-/
import OvsAgent.DbApi.JsonParser
import OvsAgent.Lib.Chunks

namespace OvsAgent

open CString (ofString strncpy)
open Json

/-! ## §1. One message. -/

/-- A call out of the parser: `receipt_list_process` or `mon_list_process`. -/
inductive Dispatch where
  | receipt (rid : Option CString) (result : Option Json)
  | update (uuid : CString) (tableConfig : OvsAgentTableConfig)

/-- The loop over the rows of an update.  A row without a `new` member is
passed over; one of an unknown table ends the function. -/
def updateRows (uuid tableName : CString) : List (CString × Json) → List Dispatch
  | [] => []
  | (updateUuid, value) :: rows =>
      match objectGet (some value) (ofString "new") with
      | none => updateRows uuid tableName rows
      | some newUpdate =>
          match parseTable tableName newUpdate with
          | none => []
          | some tableConfig =>
              .update uuid ⟨tableConfig, strncpy maxUuidLen updateUuid⟩ :: updateRows uuid tableName rows

/-- `ovsdb_parse_monitor_update`: the update of one table. -/
def ovsdbParseMonitorUpdate (uuid : CString) (update : Json) : List Dispatch :=
  match members? (some update) with
  | [(tableName, tableValue)] => updateRows uuid tableName (members? (some tableValue))
  | _ => []

/-- The loop of `ovsdb_parse_params` behind the first element. -/
def paramsUpdates (uuid : CString) : List Json → List Dispatch
  | [] => []
  | value :: params =>
      if isObject (some value) then ovsdbParseMonitorUpdate uuid value ++ paramsUpdates uuid params
      else []

/-- `ovsdb_parse_params`. -/
def ovsdbParseParams : List Json → List Dispatch
  | [] => []
  | value :: params =>
      match stringValue (some value) with
      | none => []
      | some uuid => paramsUpdates uuid params

/-- The body of the loop of `ovsdb_parse_msg`: the calls it makes for one
message, `none` when it returns from the function. -/
def ovsdbHandleMsg (msg : Json) : Option (List Dispatch) :=
  match objectGet (some msg) (ofString "id") with
  | none => none
  | some .null =>
      if isString (objectGet (some msg) (ofString "method")) then
        match objectGet (some msg) (ofString "params") with
        | some (.array params) => some (ovsdbParseParams params)
        | _ => none
      else none
  | some id => some [.receipt (stringValue (some id)) (objectGet (some msg) (ofString "result"))]

/-! ## §2. The loops. -/

/-- `json_loads(text, JSON_DISABLE_EOF_CHECK, &error)`: the value, and
`error.position`.  It reads at least a byte and no more than there are, and
what it reads does not depend on what follows. -/
structure JsonLoads where
  loads : CString → Option (Json × Nat)
  position : ∀ {s msg n}, loads s = some (msg, n) → 0 < n ∧ n ≤ s.length
  first : ∀ {s msg n}, loads s = some (msg, n) → ∀ t, loads (s.take n ++ t) = some (msg, n)

/-- The `do … while (bytes_read != size)` loop of `ovsdb_parse_msg`. -/
def parseLoop (j : JsonLoads) (size : Nat) : Nat → Nat → CString → List Dispatch
  | 0, _, _ => []
  | fuel + 1, bytesRead, jsonStr =>
      match j.loads jsonStr with
      | none => []
      | some (msg, position) =>
          match ovsdbHandleMsg msg with
          | none => []
          | some calls =>
              if bytesRead + position = size then calls
              else calls ++ parseLoop j size fuel (bytesRead + position) (jsonStr.drop position)

/-- `ovsdb_parse_msg(json_str, size)`.  Every round of the loop reads a byte at
least, so there are no more rounds than bytes (`parseLoop_fuel`). -/
def ovsdbParseMsg (j : JsonLoads) (jsonStr : CString) (size : Nat) : List Dispatch :=
  parseLoop j size jsonStr.length 0 jsonStr

/-- `sizeof(recv_buffer)` in `ovsdb_listen`. -/
def recvBufferSize : Nat := 128 * 1024

/-- The bytes one `recv` returns: some, and room is left for the NUL. -/
structure Chunk where
  bytes : CString
  nonempty : bytes ≠ []
  fits : bytes.length ≤ recvBufferSize - 1

/-- What `ovsdb_socket_listen` comes back with: nothing yet, bytes, or a failure. -/
inductive SocketRead where
  | nothing
  | received (chunk : Chunk)
  | failed

/-- The loop of `ovsdb_listen`. -/
def ovsdbListen (j : JsonLoads) : List SocketRead → List Dispatch
  | [] => []
  | .nothing :: reads => ovsdbListen j reads
  | .received chunk :: reads => ovsdbParseMsg j chunk.bytes chunk.bytes.length ++ ovsdbListen j reads
  | .failed :: _ => []

/-- The chunks of a list of reads. -/
def receivedChunks : List SocketRead → List CString
  | [] => []
  | .received chunk :: reads => chunk.bytes :: receivedChunks reads
  | _ :: reads => receivedChunks reads

/-! ## §3. Messages. -/

/-- A well-formed message: a request or notification, or a reply to a request
(whose id is not null). -/
def RpcWellFormed (msg : Json) : Prop :=
  ∃ id, objectGet (some msg) (ofString "id") = some id ∧
    ((isString (objectGet (some msg) (ofString "method")) = true ∧
        isArray (objectGet (some msg) (ofString "params")) = true)
      ∨ (isNull (some id) = false ∧ (objectGet (some msg) (ofString "result")).isSome ∧
        (objectGet (some msg) (ofString "error")).isSome))

/-- A message and its text. -/
structure RpcMessage (j : JsonLoads) where
  text : CString
  msg : Json
  loads : j.loads text = some (msg, text.length)
  wellFormed : RpcWellFormed msg

/-- The calls the message is good for. -/
def RpcMessage.calls {j : JsonLoads} (m : RpcMessage j) : List Dispatch :=
  (ovsdbHandleMsg m.msg).getD []

theorem ovsdbHandleMsg_wellFormed {msg : Json} (h : RpcWellFormed msg) :
    ∃ calls, ovsdbHandleMsg msg = some calls := by
  obtain ⟨id, hid, hor⟩ := h
  unfold ovsdbHandleMsg
  rw [hid]
  cases id with
  | null =>
      rcases hor with ⟨hmethod, hparams⟩ | ⟨hnull, _⟩
      · simp only [hmethod, if_true]
        cases hp : objectGet (some msg) (ofString "params") with
        | none => rw [hp] at hparams; cases hparams
        | some params =>
            rw [hp] at hparams
            cases params with
            | array params => exact ⟨_, rfl⟩
            | _ => cases hparams
      · cases hnull
  | _ => exact ⟨_, rfl⟩

/-- The message says something: it is a reply, or an update with a new row of
a table that is parsed. -/
def SaysSomething (msg : Json) : Prop :=
  isNull (objectGet (some msg) (ofString "id")) = false ∨
    ∃ uuid params, objectGet (some msg) (ofString "params") = some (.array (.string uuid :: params)) ∧
      ∃ update ∈ params.takeWhile (fun value => isObject (some value)), ∃ tableName tableValue,
        members? (some update) = [(tableName, tableValue)] ∧
        (tableName = gatewayConfigTableName ∨ tableName = feedbackTableName) ∧
        ∃ row ∈ members? (some tableValue), (objectGet (some row.2) (ofString "new")).isSome

theorem parseTable_isSome (tableName : CString) (update : Json) :
    (parseTable tableName update).isSome
      ↔ tableName = gatewayConfigTableName ∨ tableName = feedbackTableName := by
  unfold parseTable
  split
  · next h => simp [h]
  · next h =>
      split
      · next h' => simp [h']
      · next h' => simp [h, h']

theorem updateRows_ne_nil (uuid tableName : CString) (rows : List (CString × Json)) :
    updateRows uuid tableName rows ≠ []
      ↔ (tableName = gatewayConfigTableName ∨ tableName = feedbackTableName) ∧
        ∃ row ∈ rows, (objectGet (some row.2) (ofString "new")).isSome := by
  induction rows with
  | nil => simp [updateRows]
  | cons row rows ih =>
      obtain ⟨updateUuid, value⟩ := row
      unfold updateRows
      cases hnew : objectGet (some value) (ofString "new") with
      | none => simp [ih, hnew]
      | some newUpdate =>
          have htable := parseTable_isSome tableName newUpdate
          cases hp : parseTable tableName newUpdate with
          | none => rw [hp] at htable; simp_all
          | some tableConfig => rw [hp] at htable; simp_all

theorem ovsdbParseMonitorUpdate_ne_nil (uuid : CString) (update : Json) :
    ovsdbParseMonitorUpdate uuid update ≠ []
      ↔ ∃ tableName tableValue, members? (some update) = [(tableName, tableValue)] ∧
        (tableName = gatewayConfigTableName ∨ tableName = feedbackTableName) ∧
        ∃ row ∈ members? (some tableValue), (objectGet (some row.2) (ofString "new")).isSome := by
  unfold ovsdbParseMonitorUpdate
  split
  · next tableName tableValue hms =>
      rw [updateRows_ne_nil]
      constructor
      · intro h
        exact ⟨tableName, tableValue, hms, h⟩
      · intro ⟨tableName', tableValue', hms', h⟩
        rw [hms] at hms'
        cases hms'
        exact h
  · next hms =>
      refine iff_of_false (fun h => h rfl) ?_
      intro ⟨tableName, tableValue, hms', _⟩
      exact hms tableName tableValue hms'

theorem paramsUpdates_ne_nil (uuid : CString) (params : List Json) :
    paramsUpdates uuid params ≠ []
      ↔ ∃ update ∈ params.takeWhile (fun value => isObject (some value)),
        ovsdbParseMonitorUpdate uuid update ≠ [] := by
  induction params with
  | nil => simp [paramsUpdates]
  | cons value params ih =>
      unfold paramsUpdates
      by_cases hobj : isObject (some value) = true
      · rw [if_pos hobj, List.takeWhile_cons, if_pos hobj]
        simp only [List.mem_cons, exists_eq_or_imp, ← ih]
        rw [Ne, List.append_eq_nil_iff, not_and_or]
      · rw [if_neg hobj, List.takeWhile_cons, if_neg hobj]
        simp

/-- The calls of a well-formed message, from its text. -/
theorem calls_ne_nil_iff {j : JsonLoads} (m : RpcMessage j) : m.calls ≠ [] ↔ SaysSomething m.msg := by
  obtain ⟨calls, hcalls⟩ := ovsdbHandleMsg_wellFormed m.wellFormed
  have hm : m.calls = calls := by
    unfold RpcMessage.calls
    rw [hcalls]; rfl
  rw [hm]
  obtain ⟨id, hid, _⟩ := m.wellFormed
  unfold SaysSomething
  rw [hid]
  unfold ovsdbHandleMsg at hcalls
  rw [hid] at hcalls
  cases id with
  | null =>
      -- a notification: its params decide
      rw [or_iff_right (by simp [isNull])]
      simp only at hcalls
      split at hcalls
      · cases hp : objectGet (some m.msg) (ofString "params") with
        | none => rw [hp] at hcalls; cases hcalls
        | some params =>
            rw [hp] at hcalls
            cases params with
            | array params =>
                cases hcalls
                cases params with
                | nil => simp [ovsdbParseParams]
                | cons value params =>
                    cases value with
                    | string uuid =>
                        show paramsUpdates uuid params ≠ [] ↔ _
                        rw [paramsUpdates_ne_nil]
                        simp only [ovsdbParseMonitorUpdate_ne_nil]
                        constructor
                        · intro h
                          exact ⟨uuid, params, rfl, h⟩
                        · intro ⟨_, _, heq, h⟩
                          cases heq
                          exact h
                    | _ => simp [ovsdbParseParams, stringValue]
            | _ => cases hcalls
      · cases hcalls
  | _ =>
      -- a reply is always one call
      simp only [Option.some.injEq] at hcalls
      rw [← hcalls]
      simp [isNull]

/-! ## §4. A chunk. -/

section Loops

variable {j : JsonLoads}

theorem JsonLoads.loads_nil (j : JsonLoads) : j.loads [] = none := by
  cases h : j.loads [] with
  | none => rfl
  | some r =>
      obtain ⟨hpos, hle⟩ := j.position h
      rw [List.length_nil] at hle
      omega

/-- The text of a message is read whatever follows it. -/
theorem RpcMessage.loads_append (m : RpcMessage j) (t : CString) :
    j.loads (m.text ++ t) = some (m.msg, m.text.length) := by
  have h := j.first m.loads t
  rwa [List.take_length] at h

theorem RpcMessage.text_ne_nil (m : RpcMessage j) : m.text ≠ [] := by
  intro h
  have hpos := (j.position m.loads).1
  rw [h] at hpos
  exact absurd hpos (Nat.lt_irrefl _)

/-- The beginning of a message is no value. -/
theorem RpcMessage.loads_part (m : RpcMessage j) {p u : CString} (h : m.text = p ++ u) (hu : u ≠ []) :
    j.loads p = none := by
  cases hl : j.loads p with
  | none => rfl
  | some r =>
      obtain ⟨msg, n⟩ := r
      obtain ⟨_, hle⟩ := j.position hl
      -- else the message itself would end there
      have hm := j.first hl (p.drop n ++ u)
      rw [← List.append_assoc, List.take_append_drop, ← h, m.loads] at hm
      cases hm
      have hlen := congrArg List.length h
      rw [List.length_append] at hlen
      have := List.length_pos_iff.2 hu
      omega

/-- More fuel than bytes changes nothing. -/
theorem parseLoop_fuel (size : Nat) (fuel : Nat) :
    ∀ (bytesRead : Nat) (s : CString), s.length ≤ fuel →
      parseLoop j size fuel bytesRead s = parseLoop j size s.length bytesRead s := by
  refine Chunks.loop_fuel (fun fuel bytesRead => ?_) (fun fuel fuel' bytesRead s h => ?_) fuel
  · cases fuel with
    | zero => rfl
    | succ fuel => simp only [parseLoop, j.loads_nil]
  · unfold parseLoop
    cases hl : j.loads s with
    | none => rfl
    | some r =>
        obtain ⟨msg, n⟩ := r
        have hlt : (s.drop n).length < s.length := by
          obtain ⟨hpos, hle⟩ := j.position hl
          rw [List.length_drop]
          omega
        simp only [h (bytesRead + n) (s.drop n) hlt]

/-- The loop over whole messages and the beginning of a further one. -/
theorem parseLoop_stream {p : CString} (hp : j.loads p = none) (ms : List (RpcMessage j)) :
    ∀ bytesRead size, bytesRead + (Chunks.stream RpcMessage.text ms ++ p).length = size →
      parseLoop j size (Chunks.stream RpcMessage.text ms ++ p).length bytesRead
        (Chunks.stream RpcMessage.text ms ++ p) = ms.flatMap RpcMessage.calls := by
  induction ms with
  | nil =>
      intro bytesRead size _
      show parseLoop j size p.length bytesRead p = []
      cases hl : p.length with
      | zero => rfl
      | succ n => unfold parseLoop; rw [hp]
  | cons m ms ih =>
      intro bytesRead size hsize
      have htext : Chunks.stream RpcMessage.text (m :: ms) ++ p
          = m.text ++ (Chunks.stream RpcMessage.text ms ++ p) := by
        unfold Chunks.stream
        rw [List.flatMap_cons, List.append_assoc]
      rw [htext] at hsize ⊢
      obtain ⟨calls, hcalls⟩ := ovsdbHandleMsg_wellFormed m.wellFormed
      have hm : m.calls = calls := by
        unfold RpcMessage.calls
        rw [hcalls]; rfl
      have hfuel : (m.text ++ (Chunks.stream RpcMessage.text ms ++ p)).length
          = m.text.length - 1 + (Chunks.stream RpcMessage.text ms ++ p).length + 1 := by
        have := List.length_pos_iff.2 m.text_ne_nil
        rw [List.length_append]
        omega
      rw [hfuel]
      unfold parseLoop
      simp only [m.loads_append, hcalls, List.drop_left]
      rw [List.flatMap_cons, hm]
      split
      · next hend =>
          -- the size is reached: nothing follows
          rw [List.length_append] at hsize
          have hnil : Chunks.stream RpcMessage.text ms ++ p = [] :=
            List.eq_nil_of_length_eq_zero (by omega)
          have hms : ms = [] := by
            cases ms with
            | nil => rfl
            | cons m' ms =>
                have hboth := (List.append_eq_nil_iff.1 hnil).1
                exact absurd (List.append_eq_nil_iff.1 hboth).1 m'.text_ne_nil
          rw [hms, List.flatMap_nil, List.append_nil]
      · rw [parseLoop_fuel _ _ _ _ (Nat.le_add_left _ _), ih (bytesRead + m.text.length) size]
        simp only [List.length_append] at hsize ⊢
        omega

/-- A chunk is decoded message by message. -/
theorem decodes_ovsdbParseMsg (j : JsonLoads) :
    Chunks.Decodes (RpcMessage.text (j := j)) (fun s => ovsdbParseMsg j s s.length) RpcMessage.calls := by
  constructor
  · exact RpcMessage.text_ne_nil
  · intro ms p hp
    refine parseLoop_stream ?_ ms 0 _ (Nat.zero_add _)
    rcases hp with rfl | ⟨m, u, htext, hu⟩
    · exact j.loads_nil
    · exact m.loads_part htext hu

/-- A text that is one message. -/
theorem ovsdbParseMsg_single {text : CString} {msg : Json} {calls : List Dispatch}
    (hloads : j.loads text = some (msg, text.length)) (hmsg : ovsdbHandleMsg msg = some calls) :
    ovsdbParseMsg j text text.length = calls := by
  have hpos := (j.position hloads).1
  unfold ovsdbParseMsg
  obtain ⟨n, hn⟩ := Nat.exists_eq_succ_of_ne_zero (Nat.pos_iff_ne_zero.1 hpos)
  rw [hn]
  unfold parseLoop
  simp only [hloads, hmsg, Nat.zero_add, hn, Nat.succ_eq_add_one, if_true]

/-- A chunk that begins with no value, or with one that has no id, is dropped. -/
theorem ovsdbParseMsg_eq_nil {s : CString} {size : Nat}
    (h : ∀ msg n, j.loads s = some (msg, n) → objectGet (some msg) (ofString "id") = none) :
    ovsdbParseMsg j s size = [] := by
  unfold ovsdbParseMsg
  cases s.length with
  | zero => rfl
  | succ n =>
      unfold parseLoop
      cases hl : j.loads s with
      | none => rfl
      | some r =>
          obtain ⟨msg, n⟩ := r
          have hnone : ovsdbHandleMsg msg = none := by
            unfold ovsdbHandleMsg
            rw [h msg n hl]
          simp only [hnone]

end Loops

/-! ## §5. The listener. -/

/-- The listener parses every chunk by itself. -/
theorem ovsdbListen_eq (j : JsonLoads) {reads : List SocketRead} (h : .failed ∉ reads) :
    ovsdbListen j reads = (receivedChunks reads).flatMap fun s => ovsdbParseMsg j s s.length := by
  induction reads with
  | nil => rfl
  | cons r reads ih =>
      have hrest : .failed ∉ reads := fun hmem => h (List.mem_cons_of_mem _ hmem)
      cases r with
      | nothing => exact ih hrest
      | received chunk =>
          show ovsdbParseMsg j chunk.bytes chunk.bytes.length ++ ovsdbListen j reads = _
          rw [ih hrest]
          rfl
      | failed => exact absurd (List.mem_cons_self ..) h

theorem receivedChunks_ne_nil (reads : List SocketRead) : ∀ c ∈ receivedChunks reads, c ≠ [] := by
  induction reads with
  | nil => intro c hc; cases hc
  | cons r reads ih =>
      cases r with
      | nothing => exact ih
      | received chunk =>
          intro c hc
          rcases List.mem_cons.1 hc with rfl | hc
          · exact chunk.nonempty
          · exact ih c hc
      | failed => exact ih

/-- No chunk that starts inside a message starts with a value that has an id. -/
def NoStrayId (j : JsonLoads) (chunks : List CString) (ms : List (RpcMessage j)) : Prop :=
  ∀ before c after, chunks = before ++ c :: after → ¬ Chunks.AtBoundary RpcMessage.text ms before →
    ∀ msg n, j.loads c = some (msg, n) → objectGet (some msg) (ofString "id") = none

/-- **Stream framing.**  The messages are sent one after the other and the
listener reads the stream in chunks.  It makes the calls it would make with
each message in a chunk of its own if and only if every message that says
something lies whole in one chunk that begins where a message begins. -/
theorem listen_eq_iff {j : JsonLoads} {reads : List SocketRead} {ms : List (RpcMessage j)}
    (hcut : (receivedChunks reads).flatten = Chunks.stream RpcMessage.text ms)
    (hok : .failed ∉ reads) (hstray : NoStrayId j (receivedChunks reads) ms) :
    ovsdbListen j reads = ms.flatMap (fun m => ovsdbParseMsg j m.text m.text.length)
      ↔ ∀ pre m post, ms = pre ++ m :: post → SaysSomething m.msg →
        Chunks.ArrivesWhole RpcMessage.text (receivedChunks reads) pre m := by
  have hd := decodes_ovsdbParseMsg j
  have hone : ∀ m : RpcMessage j, ovsdbParseMsg j m.text m.text.length = m.calls := by
    intro m
    have h := hd.whole [m] [] (Or.inl rfl)
    simpa [Chunks.stream] using h
  simp only [hone]
  rw [ovsdbListen_eq j hok, Chunks.deliver_eq_iff hd hcut (receivedChunks_ne_nil reads)]
  · unfold Chunks.Everywhere
    simp only [calls_ne_nil_iff]
  · intro before c after hc hnot
    exact ovsdbParseMsg_eq_nil (hstray before c after hc hnot)

/-- A `json_loads` for streams in which one text comes again and again. -/
def JsonLoads.single (text : CString) (msg : Json) (h : text ≠ []) : JsonLoads where
  loads s := if s.take text.length = text then some (msg, text.length) else none
  position := by
    intro s m n hs
    split at hs
    · next htake =>
        cases hs
        refine ⟨List.length_pos_iff.2 h, ?_⟩
        have hlen := congrArg List.length htake
        rw [List.length_take] at hlen
        omega
    · cases hs
  first := by
    intro s m n hs t
    split at hs
    · next htake =>
        cases hs
        rw [htake, List.take_left, if_pos rfl]
    · cases hs

theorem JsonLoads.single_loads (text : CString) (msg : Json) (h : text ≠ []) :
    (JsonLoads.single text msg h).loads text = some (msg, text.length) := by
  show (if text.take text.length = text then _ else none) = _
  rw [List.take_length, if_pos rfl]

/-- The reply to request 1. -/
def replyText : CString := ofString "\x7b\"id\":\"1\",\"result\":\x7b\x7d,\"error\":null\x7d"

def replyLoads : JsonLoads :=
  .single replyText
    (.object [(ofString "id", .string (ofString "1")), (ofString "result", .object []),
      (ofString "error", .null)]) (by decide)

def reply : RpcMessage replyLoads where
  text := replyText
  msg := .object [(ofString "id", .string (ofString "1")), (ofString "result", .object []),
    (ofString "error", .null)]
  loads := rfl
  wellFormed := ⟨_, rfl, Or.inr ⟨rfl, rfl, rfl⟩⟩

/-- Two replies in one chunk. -/
def joinedReplies : Chunk := ⟨replyText ++ replyText, by decide, by decide⟩

theorem listen_eq_iff_joined :
    ovsdbListen replyLoads [.nothing, .received joinedReplies]
      = [reply, reply].flatMap fun m => ovsdbParseMsg replyLoads m.text m.text.length := by
  refine (listen_eq_iff rfl (by simp) ?_).2 ?_
  · -- the one chunk begins at a boundary
    intro before c after hc hnot
    cases before with
    | nil => exact absurd ⟨[], [reply, reply], rfl, rfl⟩ hnot
    | cons d before => simp [receivedChunks] at hc
  · intro pre m post hms _
    refine ⟨[], joinedReplies.bytes, [], [], pre, rfl, rfl, rfl, ?_⟩
    have hsize := congrArg (Chunks.size RpcMessage.text) hms
    rw [Chunks.size_append, Chunks.size_cons RpcMessage.text m post] at hsize
    have hlen : Chunks.size RpcMessage.text [reply, reply] = joinedReplies.bytes.length := rfl
    omega

/-- The reply cut in two: nothing is left of it. -/
def firstHalf : Chunk := ⟨replyText.take 10, by decide, by decide⟩

def secondHalf : Chunk := ⟨replyText.drop 10, by decide, by decide⟩

theorem reply_cut_lost :
    (receivedChunks [.received firstHalf, .received secondHalf]).flatten
        = Chunks.stream RpcMessage.text [reply] ∧
      ¬ ovsdbListen replyLoads [.received firstHalf, .received secondHalf]
        = [reply].flatMap fun m => ovsdbParseMsg replyLoads m.text m.text.length := by
  refine ⟨rfl, fun h => ?_⟩
  have hlen := congrArg List.length h
  have hlost : (ovsdbListen replyLoads [.received firstHalf, .received secondHalf]).length = 0 := by
    decide +kernel
  have hwhole : ([reply].flatMap fun m =>
      ovsdbParseMsg replyLoads m.text m.text.length).length = 1 := by
    decide +kernel
  rw [hlost, hwhole] at hlen
  cases hlen

end OvsAgent
