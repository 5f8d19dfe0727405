/-
  OvsAgent.DbApi.InsertColumns — whether an insert request says everything.

  `gc_insert_to_json` and `fb_insert_to_json` set the columns of the row and
  the members of the envelope one after the other.  jansson refuses a string
  that is not valid UTF-8: `json_string` answers NULL and `json_object_set_new`
  then -1.  The encoders test `0 < …`, which is never so, and go on.

      row of the request = the columns whose values were encoded

  Main result: `inserts_complete_iff` — the request has its id and all its
  columns exactly when the id and every string of the row are valid UTF-8.
-/
import OvsAgent.DbApi.RoundTrip

namespace OvsAgent

open CString (ofString)
open Json

/-! ## §1. What a request should say. -/

/-- The operation inside a transact request. -/
def requestOperation (msg : Json) : Option Json := arrayGet (objectGet (some msg) (ofString "params")) 1

/-- The transact request with this id that inserts a row with these columns. -/
structure CompleteInsert (table : CString) (columns : List (CString × Json)) (uniqueId : CString)
    (msg : Json) : Prop where
  method : objectGet (some msg) (ofString "method") = some (.string (ofString "transact"))
  id : objectGet (some msg) (ofString "id") = some (.string uniqueId)
  db : arrayGet (objectGet (some msg) (ofString "params")) 0 = some (.string ovsdbDefDb)
  op : objectGet (requestOperation msg) (ofString "op") = some (.string (ofString "insert"))
  table : objectGet (requestOperation msg) (ofString "table") = some (.string table)
  columns : ∀ column ∈ columns, objectGet (requestRow msg) column.1 = some column.2

/-- The encoder refuses, or its request is complete. -/
def CompleteOrRefused (table : CString) (columns : List (CString × Json)) (uniqueId : CString)
    (strJson : Option Json) : Prop :=
  ∀ msg, strJson = some msg → CompleteInsert table columns uniqueId msg

/-! ## §2. The row and its envelope. -/

/-- A row as an encoder builds it. -/
def encodedRow (columns : List (CString × Json)) : List (CString × Json) :=
  setMembers [] (columns.map fun column => (column.1, column.2.encoded))

/-- The encoder's row is its columns, those that cannot be encoded left out. -/
theorem gcRow_eq_encodedRow (config : GatewayConfig) : gcRow config = encodedRow config.columns := rfl

/-- The same for a Feedback. -/
theorem fbRow_eq_encodedRow (feedback : Feedback) : fbRow feedback = encodedRow feedback.columns := rfl

/-- A column of the row is there exactly when its value is encodable. -/
theorem lookup_encodedRow_iff {columns : List (CString × Json)} (hkeys : (columns.map Prod.fst).Nodup)
    {column : CString × Json} (hmem : column ∈ columns) :
    (encodedRow columns).lookup column.1 = some column.2 ↔ column.2.Encodable := by
  have hkeys' : ((columns.map fun column => (column.1, column.2.encoded)).map Prod.fst).Nodup := by
    rw [List.map_map]
    exact hkeys
  have hmem' : (column.1, column.2.encoded) ∈ columns.map fun column => (column.1, column.2.encoded) :=
    List.mem_map_of_mem (f := fun column : CString × Json => (column.1, column.2.encoded)) hmem
  unfold encodedRow
  rw [lookup_setMembers hkeys' hmem' rfl]
  exact encoded_eq_some_iff column.2

/-- **The envelope** around any row. -/
theorem completeInsert_transactInsert_iff {table : CString} (htable : utf8Valid table = true)
    {columns : List (CString × Json)} (hkeys : (columns.map Prod.fst).Nodup) (uniqueId : CString) :
    CompleteInsert table columns uniqueId (transactInsert table (encodedRow columns) uniqueId)
      ↔ utf8Valid uniqueId = true ∧ ∀ column ∈ columns, column.2.Encodable := by
  have hop : jsonString table = some (.string table) := jsonString_of_valid htable
  -- the members of the envelope but the id are constants of the code
  have hid : objectGet (some (transactInsert table (encodedRow columns) uniqueId)) (ofString "id")
      = jsonString uniqueId := by
    unfold transactInsert
    cases jsonString uniqueId <;> rfl
  have hparams : objectGet (some (transactInsert table (encodedRow columns) uniqueId)) (ofString "params")
      = some (.array [.string ovsdbDefDb, .object
        [(ofString "op", .string (ofString "insert")), (ofString "table", .string table),
         (ofString "row", .object (encodedRow columns))]]) := by
    unfold transactInsert
    rw [hop]
    cases jsonString uniqueId <;> rfl
  have hmethod : objectGet (some (transactInsert table (encodedRow columns) uniqueId)) (ofString "method")
      = some (.string (ofString "transact")) := by
    unfold transactInsert
    cases jsonString uniqueId <;> rfl
  have hrow : requestRow (transactInsert table (encodedRow columns) uniqueId)
      = some (.object (encodedRow columns)) := by
    unfold requestRow
    rw [hparams]
    rfl
  constructor
  · intro h
    refine ⟨?_, fun column hmem => (lookup_encodedRow_iff hkeys hmem).1 ?_⟩
    · exact (encoded_eq_some_iff (.string uniqueId)).1 (hid.symm.trans h.id)
    · have hcolumn := h.columns column hmem
      rw [hrow] at hcolumn
      exact hcolumn
  · intro ⟨huniqueId, hcolumns⟩
    refine ⟨hmethod, hid.trans (jsonString_of_valid huniqueId), ?_, ?_, ?_, fun column hmem => ?_⟩
    · rw [hparams]
      rfl
    · unfold requestOperation
      rw [hparams]
      rfl
    · unfold requestOperation
      rw [hparams]
      rfl
    · rw [hrow]
      exact (lookup_encodedRow_iff hkeys hmem).2 (hcolumns column hmem)

/-! ## §3. The two encoders. -/

/-- Every string of the configuration is valid UTF-8. -/
def GatewayConfig.Encodable (config : GatewayConfig) : Prop :=
  ∀ s ∈ [config.ifName, config.inetAddr, config.netmask, config.greRemoteInetAddr,
    config.greLocalInetAddr, config.parentIfname, config.parentBridge], utf8Valid s = true

/-- A configuration can be encoded when each of its columns can. -/
theorem GatewayConfig.encodable_iff (config : GatewayConfig) :
    config.Encodable ↔ ∀ column ∈ config.columns, column.2.Encodable := by
  have hnull : utf8Valid (ofString "null") = true := by decide
  unfold GatewayConfig.Encodable GatewayConfig.columns
  simp only [List.forall_mem_cons, List.not_mem_nil, false_imp_iff, implies_true, Json.Encodable,
    hnull, true_and]

/-- A Feedback has one column that may not be encoded. -/
theorem Feedback.encodable_iff (feedback : Feedback) :
    utf8Valid feedback.reqUuid = true ↔ ∀ column ∈ feedback.columns, column.2.Encodable := by
  unfold Feedback.columns
  simp only [List.forall_mem_cons, List.not_mem_nil, false_imp_iff, implies_true, Json.Encodable, and_true]

/-- A request that is made has to be complete. -/
theorem completeOrRefused_some {table : CString} {columns : List (CString × Json)} {uniqueId : CString}
    {msg : Json} :
    CompleteOrRefused table columns uniqueId (some msg) ↔ CompleteInsert table columns uniqueId msg := by
  constructor
  · intro h
    exact h msg rfl
  · intro h _ heq
    cases heq
    exact h

/-- The insert of a configuration. -/
theorem gcInsert_complete_iff (config : GatewayConfig) (uniqueId : CString) :
    CompleteOrRefused gatewayConfigTableName config.columns uniqueId
    (gcInsertToJson (some config) (some uniqueId))
      ↔ utf8Valid uniqueId = true ∧ config.Encodable := by
  unfold gcInsertToJson
  dsimp only
  rw [completeOrRefused_some, gcRow_eq_encodedRow, config.encodable_iff]
  exact completeInsert_transactInsert_iff text_gatewayConfigTableName.1 (gcColumns_nodup config) uniqueId

/-- The insert of a Feedback. -/
theorem fbInsert_complete_iff (feedback : Feedback) (uniqueId : CString) :
    CompleteOrRefused feedbackTableName feedback.columns uniqueId
    (fbInsertToJson (some feedback) (some uniqueId))
      ↔ utf8Valid uniqueId = true ∧ utf8Valid feedback.reqUuid = true := by
  unfold fbInsertToJson
  dsimp only
  rw [completeOrRefused_some, fbRow_eq_encodedRow, feedback.encodable_iff]
  exact completeInsert_transactInsert_iff text_feedbackTableName.1 (fbColumns_nodup feedback) uniqueId

/-- **Inserts are complete or refused** exactly when there is nothing to
refuse: the encoders return a request in any case. -/
theorem inserts_complete_iff (config : GatewayConfig) (feedback : Feedback) (uniqueId : CString) :
    (CompleteOrRefused gatewayConfigTableName config.columns uniqueId
      (gcInsertToJson (some config) (some uniqueId))
        ↔ utf8Valid uniqueId = true ∧ config.Encodable) ∧
    (CompleteOrRefused feedbackTableName feedback.columns uniqueId
      (fbInsertToJson (some feedback) (some uniqueId))
        ↔ utf8Valid uniqueId = true ∧ utf8Valid feedback.reqUuid = true) :=
  ⟨gcInsert_complete_iff config uniqueId, fbInsert_complete_iff feedback uniqueId⟩

/-- A port name with a byte that is no UTF-8: the row goes out without `if_name`. -/
theorem if_name_left_out :
    ¬ CompleteOrRefused gatewayConfigTableName (GatewayConfig.columns ⟨[0xFF], [], [], [], [], [], [],
      0, 0, 0, 0⟩)
      (ofString "1") (gcInsertToJson (some ⟨[0xFF], [], [], [], [], [], [], 0, 0, 0, 0⟩)
        (some (ofString "1"))) := by
  rw [gcInsert_complete_iff]
  intro ⟨_, h⟩
  exact absurd (h [0xFF] (List.mem_cons_self ..)) (by decide)

end OvsAgent
