/-
  OvsAgent.DbApi.RoundTrip — a configuration over the wire and back.

  The encoders of gateway_config.c and feedback.c write one column after the
  other, the parsers of table_parser.c read them back by name into fixed-size
  arrays and `int`s.

      parse_table name (row of the request) = the configuration written

  also when the server has added columns of its own to the row.

  Main result: `wire_round_trip`.
-/
import OvsAgent.DbApi.Encoders
import OvsAgent.DbApi.OvsdbParser

namespace OvsAgent

open CString (ofString strncpy)
open Json

/-! ## §1. What can be written. -/

/-- A NUL-terminated valid UTF-8 string in an array of `n + 1` bytes. -/
structure CText (n : Nat) (s : CString) : Prop where
  length : s.length ≤ n
  text : Json.Text s

/-- A value of the C type `int`. -/
def CInt (i : Int) : Prop := -(2 ^ 31) ≤ i ∧ i < 2 ^ 31

/-- A `Gateway_Config` whose strings are valid UTF-8. -/
structure GatewayConfig.WellFormed (config : GatewayConfig) : Prop where
  ifName : CText 15 config.ifName
  inetAddr : CText 15 config.inetAddr
  netmask : CText 15 config.netmask
  greRemoteInetAddr : CText 15 config.greRemoteInetAddr
  greLocalInetAddr : CText 15 config.greLocalInetAddr
  parentIfname : CText 15 config.parentIfname
  parentBridge : CText 15 config.parentBridge
  mtu : CInt config.mtu
  vlanId : CInt config.vlanId
  ifType : CInt config.ifType
  ifCmd : CInt config.ifCmd

/-- A `Feedback` whose string is valid UTF-8. -/
structure Feedback.WellFormed (feedback : Feedback) : Prop where
  reqUuid : CText maxUuidLen feedback.reqUuid
  status : CInt feedback.status

/-- A table configuration that has a row on the wire. -/
def RdkbTableConfig.WellFormed : RdkbTableConfig → Prop
  | .gwConfig (some config) => config.val.WellFormed
  | .feedback (some config) => config.val.WellFormed
  | _ => False

/-- The same table and, field by field, the same structure there. -/
def RdkbTableConfig.SameConfig : RdkbTableConfig → RdkbTableConfig → Prop
  | .gwConfig (some config), .gwConfig (some config') => config.val = config'.val
  | .feedback (some config), .feedback (some config') => config.val = config'.val
  | _, _ => False

/-- The same configuration is for the same table. -/
theorem RdkbTableConfig.SameConfig.tableId {c c' : RdkbTableConfig} (h : c.SameConfig c') :
    c.tableId = c'.tableId := by
  cases c with
  | gwConfig p => cases c' <;> cases p <;> first | rfl | exact h.elim
  | feedback p => cases c' <;> cases p <;> first | rfl | exact h.elim
  | notify p => exact h.elim
  | logbook p => exact h.elim

/-! ## §2. The row written. -/

/-- The columns of the Gateway_Config table, with the values they should have. -/
def GatewayConfig.columns (config : GatewayConfig) : List (CString × Json) :=
  [(ofString "gre_ifname", .string (ofString "null")),
   (ofString "if_name", .string config.ifName),
   (ofString "if_type", .integer (enumValue config.ifType)),
   (ofString "if_cmd", .integer (enumValue config.ifCmd)),
   (ofString "inet_addr", .string config.inetAddr),
   (ofString "netmask", .string config.netmask),
   (ofString "gre_remote_inet_addr", .string config.greRemoteInetAddr),
   (ofString "gre_local_inet_addr", .string config.greLocalInetAddr),
   (ofString "parent_ifname", .string config.parentIfname),
   (ofString "mtu", .integer config.mtu),
   (ofString "parent_bridge", .string config.parentBridge),
   (ofString "vlan_id", .integer config.vlanId)]

/-- The columns of the Feedback table. -/
def Feedback.columns (feedback : Feedback) : List (CString × Json) :=
  [(ofString "req_uuid", .string feedback.reqUuid), (ofString "status", .integer (enumValue feedback.status))]

section Row

variable {s : CString} {n : Nat} {i : Int}

/-- A field's text is made into a JSON string. -/
theorem jsonString_of_text (h : CText n s) : jsonString s = some (.string s) :=
  jsonString_of_valid h.text.1

/-- All twelve columns are there: no string was refused. -/
theorem gcRow_eq {config : GatewayConfig} (h : config.WellFormed) : gcRow config = config.columns := by
  unfold gcRow
  rw [jsonString_of_text h.ifName, jsonString_of_text h.inetAddr, jsonString_of_text h.netmask,
    jsonString_of_text h.greRemoteInetAddr, jsonString_of_text h.greLocalInetAddr,
    jsonString_of_text h.parentIfname, jsonString_of_text h.parentBridge]
  rfl

/-- The encoder's row has all the columns of the schema: no string is left out. -/
theorem fbRow_eq {feedback : Feedback} (h : feedback.WellFormed) : fbRow feedback = feedback.columns := by
  unfold fbRow
  rw [jsonString_of_text h.reqUuid]
  rfl

/-- The columns `gc_insert_to_json` writes. -/
def gcColumns : List String :=
  ["gre_ifname", "if_name", "if_type", "if_cmd", "inet_addr", "netmask", "gre_remote_inet_addr",
    "gre_local_inet_addr", "parent_ifname", "mtu", "parent_bridge", "vlan_id"]

/-- No column is written twice. -/
theorem gcColumns_nodup (config : GatewayConfig) : (config.columns.map Prod.fst).Nodup := by
  show (gcColumns.map ofString).Nodup
  decide

/-- Nor in the other table. -/
theorem fbColumns_nodup (feedback : Feedback) : (feedback.columns.map Prod.fst).Nodup := by
  show (["req_uuid", "status"].map ofString).Nodup
  decide

/-! ## §3. The row read. -/

/-- `(int)` leaves an `int` as it is. -/
theorem toInt_of_cInt (h : CInt i) : toInt i = i := by
  unfold CInt at h
  exact Int.bmod_eq_of_le (by norm_num; omega) (by norm_num; omega)

/-- A text column is read back whole. -/
theorem fetchInto_of_lookup {row : List (CString × Json)} {key : CString}
    (hrow : row.lookup key = some (.string s)) (h : CText n s) :
    fetchInto (n + 1) (some (.object row)) key = s := by
  have hget : jsonFetchString (some (.object row)) key = some s := by
    show stringValue (row.lookup key) = some s
    rw [hrow]
    rfl
  unfold fetchInto
  rw [hget]
  exact CString.strncpy_of_length_le h.length

/-- An enumeration is sent as 32 bits without a sign and read back as it was. -/
theorem fetchInt_of_lookup_enum {row : List (CString × Json)} {key : CString}
    (hrow : row.lookup key = some (.integer (enumValue i))) (h : CInt i) :
    fetchInt (some (.object row)) key = i := by
  show toInt (integerValue (row.lookup key)) = i
  rw [hrow]
  exact (toInt_enumValue i).trans (toInt_of_cInt h)

/-- A number is sent and read back with its sign. -/
theorem fetchInt_of_lookup {row : List (CString × Json)} {key : CString}
    (hrow : row.lookup key = some (.integer i)) (h : CInt i) :
    fetchInt (some (.object row)) key = i := by
  show toInt (integerValue (row.lookup key)) = i
  rw [hrow]
  exact toInt_of_cInt h

/-- **The Gateway_Config columns** read back from any row that has them. -/
theorem gatewayConfigParser_gcRow {config : GatewayConfig} (h : config.WellFormed)
    {row : List (CString × Json)} (hext : Extends (gcRow config) row) :
    gatewayConfigParser (.object row) = config := by
  rw [gcRow_eq h] at hext
  unfold gatewayConfigParser
  rw [fetchInto_of_lookup (hext _ _ rfl) h.ifName, fetchInto_of_lookup (hext _ _ rfl) h.inetAddr,
    fetchInto_of_lookup (hext _ _ rfl) h.netmask, fetchInto_of_lookup (hext _ _ rfl) h.greRemoteInetAddr,
    fetchInto_of_lookup (hext _ _ rfl) h.greLocalInetAddr,
    fetchInto_of_lookup (hext _ _ rfl) h.parentIfname, fetchInto_of_lookup (hext _ _ rfl) h.parentBridge,
    fetchInt_of_lookup (hext _ _ rfl) h.mtu, fetchInt_of_lookup (hext _ _ rfl) h.vlanId,
    fetchInt_of_lookup_enum (hext _ _ rfl) h.ifType, fetchInt_of_lookup_enum (hext _ _ rfl) h.ifCmd]

/-- The same for a Feedback row. -/
theorem feedbackConfigParser_fbRow {feedback : Feedback} (h : feedback.WellFormed)
    {row : List (CString × Json)} (hext : Extends (fbRow feedback) row) :
    feedbackConfigParser (.object row) = feedback := by
  rw [fbRow_eq h] at hext
  unfold feedbackConfigParser
  rw [fetchInto_of_lookup (hext _ _ rfl) h.reqUuid, fetchInt_of_lookup_enum (hext _ _ rfl) h.status]

end Row

/-! ## §4. The request on the wire. -/

/-- The row object inside a transact request. -/
def requestRow (msg : Json) : Option Json :=
  objectGet (arrayGet (objectGet (some msg) (ofString "params")) 1) (ofString "row")

/-- The request for an id that is text. -/
theorem transactInsert_eq {rid table : CString} (hrid : Text rid) (htable : Text table)
    (row : List (CString × Json)) :
    transactInsert table row rid = .object
      [(ofString "method", .string (ofString "transact")), (ofString "id", .string rid),
       (ofString "params", .array [.string ovsdbDefDb, .object
        [(ofString "op", .string (ofString "insert")), (ofString "table", .string table),
         (ofString "row", .object row)]])] := by
  unfold transactInsert
  rw [jsonString_of_valid hrid.1, jsonString_of_valid htable.1]
  rfl

theorem text_gatewayConfigTableName : Text gatewayConfigTableName := ⟨by decide, by decide⟩

theorem text_feedbackTableName : Text feedbackTableName := ⟨by decide, by decide⟩

/-- A request around a valid row is valid JSON. -/
theorem transactInsert_valid {rid table : CString} (hrid : Text rid) (htable : Text table)
    {row : List (CString × Json)} (hrow : (Json.object row).Valid) :
    (transactInsert table row rid).Valid := by
  rw [transactInsert_eq hrid htable]
  have hkey : ∀ s ∈ ["method", "id", "params", "op", "table", "row", "transact", "insert"],
      Text (ofString s) := by
    unfold Text
    decide
  have hkeys : (["method", "id", "params"].map ofString).Nodup := by decide
  have hparamKeys : (["op", "table", "row"].map ofString).Nodup := by decide
  have hparams :
      (Json.object [(ofString "op", .string (ofString "insert")), (ofString "table", .string table),
      (ofString "row", .object row)]).Valid :=
    ⟨hparamKeys, hkey _ (by simp), hkey _ (by simp), hkey _ (by simp), htable, hkey _ (by simp),
      hrow, trivial⟩
  exact ⟨hkeys, hkey _ (by simp), hkey _ (by simp), hkey _ (by simp), hrid, hkey _ (by simp),
    ⟨⟨by decide, by decide⟩, hparams, trivial⟩, trivial⟩

/-- An `int` fits jansson's integers. -/
theorem CInt.fits {i : Int} (h : CInt i) : (Json.integer i).Valid := by
  unfold CInt at h
  unfold Json.Valid
  omega

/-- So does an enumeration. -/
theorem enumValue_fits (i : Int) : (Json.integer (enumValue i)).Valid := by
  have hlo := Int.emod_nonneg i (b := 2 ^ 32) (by decide)
  have hhi := Int.emod_lt_of_pos i (b := 2 ^ 32) (by decide)
  unfold enumValue Json.Valid
  omega

/-- The row of a well-formed configuration is valid JSON. -/
theorem gcRow_valid {config : GatewayConfig} (h : config.WellFormed) :
    (Json.object (gcRow config)).Valid := by
  rw [gcRow_eq h]
  have hkey : ∀ s ∈ "null" :: gcColumns, Text (ofString s) := by
    unfold Text
    decide
  unfold gcColumns at hkey
  exact ⟨gcColumns_nodup config, hkey _ (by simp), hkey _ (by simp), hkey _ (by simp), h.ifName.text,
    hkey _ (by simp), enumValue_fits _, hkey _ (by simp), enumValue_fits _, hkey _ (by simp), h.inetAddr.text,
    hkey _ (by simp), h.netmask.text, hkey _ (by simp), h.greRemoteInetAddr.text,
    hkey _ (by simp), h.greLocalInetAddr.text, hkey _ (by simp), h.parentIfname.text,
    hkey _ (by simp), h.mtu.fits, hkey _ (by simp), h.parentBridge.text,
    hkey _ (by simp), h.vlanId.fits, trivial⟩

/-- So is that of a well-formed Feedback. -/
theorem fbRow_valid {feedback : Feedback} (h : feedback.WellFormed) :
    (Json.object (fbRow feedback)).Valid := by
  rw [fbRow_eq h]
  exact ⟨fbColumns_nodup feedback, ⟨by decide, by decide⟩, h.reqUuid.text, ⟨by decide, by decide⟩,
    enumValue_fits _,
    trivial⟩

/-- The members of the row a configuration is written to. -/
def RdkbTableConfig.row : RdkbTableConfig → List (CString × Json)
  | .gwConfig (some config) => gcRow config.val
  | .feedback (some config) => fbRow config.val
  | _ => []

/-- The request for a well-formed configuration. -/
theorem insertToJson_wellFormed {config : RdkbTableConfig} (h : config.WellFormed) {rid : CString}
    (hrid : Text rid) :
    ∃ table, config.tableId.name = some table ∧
      ovsdbInsertToJson config rid = some (transactInsert table config.row rid) ∧
      requestRow (transactInsert table config.row rid) = some (.object config.row) ∧
      (transactInsert table config.row rid).Valid := by
  have hrow : ∀ {table}, Text table →
      requestRow (transactInsert table config.row rid) = some (.object config.row) := by
    intro table htable
    rw [transactInsert_eq hrid htable]
    rfl
  match config with
  | .gwConfig (some config) =>
      exact ⟨gatewayConfigTableName, rfl, rfl, hrow text_gatewayConfigTableName,
        transactInsert_valid hrid text_gatewayConfigTableName (gcRow_valid h)⟩
  | .feedback (some config) =>
      exact ⟨feedbackTableName, rfl, rfl, hrow text_feedbackTableName,
        transactInsert_valid hrid text_feedbackTableName (fbRow_valid h)⟩
  | .gwConfig none | .feedback none | .notify _ | .logbook _ => exact h.elim

/-- `parse_table` on any row with the columns written. -/
theorem parseTable_row {config : RdkbTableConfig} (h : config.WellFormed) {table : CString}
    (htable : config.tableId.name = some table) {row : List (CString × Json)}
    (hext : Extends config.row row) :
    ∃ parsed, parseTable table (.object row) = some parsed ∧ parsed.SameConfig config := by
  match config with
  | .gwConfig (some config) =>
      cases htable
      exact ⟨_, if_pos rfl, gatewayConfigParser_gcRow h hext⟩
  | .feedback (some config) =>
      cases htable
      exact ⟨_, (if_neg (by decide)).trans (if_pos rfl), feedbackConfigParser_fbRow h hext⟩
  | .gwConfig none | .feedback none | .notify _ | .logbook _ => exact h.elim

/-- **Wire round trip.**  The request's text is read back (`dumps` and `loads`
being inverse on it, a valid value); its row, with whatever columns the server
adds, is parsed to the table and the structure it was written from. -/
theorem wire_round_trip (j : JsonLoads) (dumps : Json → CString) {config : RdkbTableConfig}
    (h : config.WellFormed) {rid : CString} (hrid : Text rid)
    (hinverse : ∀ msg, ovsdbInsertToJson config rid = some msg → msg.Valid →
      j.loads (dumps msg) = some (msg, (dumps msg).length)) :
    ∃ table msg msg' position row, config.tableId.name = some table ∧
      ovsdbInsertToJson config rid = some msg ∧ j.loads (dumps msg) = some (msg', position) ∧
      requestRow msg' = some (.object row) ∧
      ∀ row', Extends row row' → ∃ parsed, parseTable table (.object row') = some parsed ∧
        parsed.tableId = config.tableId ∧ parsed.SameConfig config := by
  obtain ⟨table, htable, hmsg, hrow, hvalid⟩ := insertToJson_wellFormed h hrid
  refine ⟨table, _, _, _, _, htable, hmsg, hinverse _ hmsg hvalid, hrow, fun row' hext => ?_⟩
  obtain ⟨parsed, hparse, hsame⟩ := parseTable_row h htable hext
  exact ⟨parsed, hparse, hsame.tableId, hsame⟩

/-- Strings that fill their arrays, with a quote in one, and the ends of the range of `int`. -/
def sampleConfig : GatewayConfig where
  ifName := ofString "nsgmii1.1001001"
  inetAddr := ofString "192.168.100.100"
  netmask := ofString "255.255.255.255"
  greRemoteInetAddr := ofString "172.160.100.100"
  greLocalInetAddr := ofString "172.160.100.101"
  parentIfname := ofString "a\"b\\c wireless0"
  parentBridge := ofString "brlan0.brlan0.b"
  mtu := -(2 ^ 31)
  vlanId := 2 ^ 31 - 1
  ifType := -(2 ^ 31)
  ifCmd := -1

def sampleTable : RdkbTableConfig := .gwConfig (some ⟨0, sampleConfig⟩)

/-- What `json_dumps` prints for its insert: the two enumerations are unsigned. -/
def sampleText : CString :=
  ofString "\x7b\"method\":\"transact\",\"id\":\"1\",\"params\":[\"Open_vSwitch\",\x7b\"op\":\"insert\"," ++
    ofString "\"table\":\"Gateway_Config\",\"row\":\x7b\"gre_ifname\":\"null\"," ++
    ofString "\"if_name\":\"nsgmii1.1001001\"," ++
    ofString "\"if_type\":2147483648,\"if_cmd\":4294967295,\"inet_addr\":\"192.168.100.100\"," ++
    ofString "\"netmask\":\"255.255.255.255\",\"gre_remote_inet_addr\":\"172.160.100.100\"," ++
    ofString "\"gre_local_inet_addr\":\"172.160.100.101\",\"parent_ifname\":\"a\\\"b\\\\c wireless0\"," ++
    ofString "\"mtu\":-2147483648,\"parent_bridge\":\"brlan0.brlan0.b\",\"vlan_id\":2147483647\x7d\x7d]\x7d"

def sampleLoads : JsonLoads :=
  .single sampleText (transactInsert gatewayConfigTableName sampleTable.row (ofString "1"))
    (by decide +kernel)

/-- The row has the unsigned values. -/
example : integerValue ((gcRow sampleConfig).lookup (ofString "if_cmd")) = 4294967295 := by decide

/-- All of its fields can be written. -/
theorem sampleConfig_wellFormed : sampleConfig.WellFormed := by
  have hstrings : ∀ s ∈ [sampleConfig.ifName, sampleConfig.inetAddr, sampleConfig.netmask,
      sampleConfig.greRemoteInetAddr, sampleConfig.greLocalInetAddr, sampleConfig.parentIfname,
      sampleConfig.parentBridge], s.length ≤ 15 ∧ Json.Text s := by
    unfold Json.Text
    decide
  have htext : ∀ s ∈ [sampleConfig.ifName, sampleConfig.inetAddr, sampleConfig.netmask,
      sampleConfig.greRemoteInetAddr, sampleConfig.greLocalInetAddr, sampleConfig.parentIfname,
      sampleConfig.parentBridge], CText 15 s := fun s hs => ⟨(hstrings s hs).1, (hstrings s hs).2⟩
  have hints : ∀ i ∈ [sampleConfig.mtu, sampleConfig.vlanId, sampleConfig.ifType, sampleConfig.ifCmd],
      CInt i := by
    unfold CInt
    decide
  constructor
  · exact htext _ (by simp)
  · exact htext _ (by simp)
  · exact htext _ (by simp)
  · exact htext _ (by simp)
  · exact htext _ (by simp)
  · exact htext _ (by simp)
  · exact htext _ (by simp)
  · exact hints _ (by simp)
  · exact hints _ (by simp)
  · exact hints _ (by simp)
  · exact hints _ (by simp)

theorem wire_round_trip_sample :
    ∃ table msg msg' position row, sampleTable.tableId.name = some table ∧
      ovsdbInsertToJson sampleTable (ofString "1") = some msg ∧
      sampleLoads.loads ((fun _ => sampleText) msg) = some (msg', position) ∧
      requestRow msg' = some (.object row) ∧
      ∀ row', Extends row row' → ∃ parsed, parseTable table (.object row') = some parsed ∧
        parsed.tableId = sampleTable.tableId ∧ parsed.SameConfig sampleTable := by
  have hwf : sampleTable.WellFormed := sampleConfig_wellFormed
  refine wire_round_trip sampleLoads (fun _ => sampleText) hwf ⟨by decide, by decide⟩ ?_
  intro msg hmsg _
  cases hmsg
  exact JsonLoads.single_loads ..

end OvsAgent
