/-
  OvsAgent.DbApi.Encoders — the JSON-RPC requests of ovsdb_parser.c.

  `none` is the NULL the encoders return; the text itself is what jansson's
  `json_dumps` prints for the value built here.
-/
import OvsAgent.DbApi.JsonParser

namespace OvsAgent

open CString (ofString)
open Json

/-- `ovsdb_insert_to_json`: tables without an encoder are refused. -/
def ovsdbInsertToJson (tableConfig : RdkbTableConfig) (uniqueId : CString) : Option Json :=
  match tableConfig with
  | .gwConfig config => gcInsertToJson (config.map Ptr.val) (some uniqueId)
  | .feedback config => fbInsertToJson (config.map Ptr.val) (some uniqueId)
  | .notify _ => none
  | .logbook _ => none

/-- `ovsdb_monitor_to_json`: all columns of one table. -/
def ovsdbMonitorToJson (ovsdbTable : OvsTable) (rID uniqueId : CString) : Option Json := do
  let table ← ovsdbTable.name
  let params := arrayAppendNew [] (jsonString ovsdbDefDb)
  let params := arrayAppendNew params (jsonString uniqueId)
  let params := arrayAppendNew params (some (.object (objectSetNew! [] table (some (.object [])))))
  let js ← objectSetNew [] (ofString "method") (jsonString (ofString "monitor"))
  let js ← objectSetNew js (ofString "params") (some (.array params))
  let js ← objectSetNew js (ofString "id") (jsonString rID)
  return .object js

/-- `ovsdb_monitor_cancel_to_json`. -/
def ovsdbMonitorCancelToJson (oldId rID : CString) : Option Json := do
  let params := arrayAppendNew [] (jsonString oldId)
  let js ← objectSetNew [] (ofString "method") (jsonString (ofString "monitor_cancel"))
  let js ← objectSetNew js (ofString "params") (some (.array params))
  let js ← objectSetNew js (ofString "id") (jsonString rID)
  return .object js

/-- The `where` clause of a delete request.  A row UUID is compared as the
pair `["uuid", value]`, any other column as the plain string. -/
def whereJson (key value : CString) : Option Json := do
  if key = ovsdbTableUuid ∨ key = ovsdbTableUuidAlt then
    let v ← jsonString value
    return .array [.array [.string ovsdbTableUuidAlt, .string (ofString "=="),
      .array [.string ovsdbTableUuid, v]]]
  else
    let k ← jsonString key
    let v ← jsonString value
    return .array [.array [k, .string (ofString "=="), v]]

/-- `ovsdb_delete_to_json`. -/
def ovsdbDeleteToJson (ovsdbTable : OvsTable) (rID key value : CString) : Option Json := do
  let table ← ovsdbTable.name
  let json ← objectSetNew [] (ofString "op") (jsonString (ofString "delete"))
  let json ← objectSetNew json (ofString "table") (jsonString table)
  let json ← objectSetNew json (ofString "where") (whereJson key value)
  let params := arrayAppendNew [] (jsonString ovsdbDefDb)
  let params := arrayAppendNew params (some (.object json))
  let js ← objectSetNew [] (ofString "method") (jsonString (ofString "transact"))
  let js ← objectSetNew js (ofString "params") (some (.array params))
  let js ← objectSetNew js (ofString "id") (jsonString rID)
  return .object js

end OvsAgent
