/-
  OvsAgent.Lib.Json — JSON values as the jansson library represents and reads them.

  Strings and keys are byte strings; object members keep their insertion
  order and a key occurs once.  The accessors take `Option Json` because the
  library's take NULL: a missing member, a wrong type and a NULL argument all
  give the same "nothing".

  `jsonString` is partial (`json_string` answers NULL for text that is not
  valid UTF-8), and so is everything built from it: `objectSetNew` answers
  `none` where `json_object_set_new` answers -1.
-/
import OvsAgent.Lib.CString

/-- A JSON value. -/
inductive Json where
  | null
  | bool (b : Bool)
  | integer (i : Int)
  /-- A real number, by its literal text: no code here looks at its value. -/
  | real (text : CString)
  | string (s : CString)
  | array (elements : List Json)
  | object (members : List (CString × Json))

namespace Json

/-! ## §1. Reading. -/

/-- The members of an object; nothing for any other value and for NULL. -/
def members? : Option Json → List (CString × Json)
  | some (.object ms) => ms
  | _ => []

/-- `json_object_get(json, key)`. -/
def objectGet (json : Option Json) (key : CString) : Option Json :=
  (members? json).lookup key

/-- `json_array_get(json, index)`. -/
def arrayGet (json : Option Json) (index : Nat) : Option Json :=
  match json with
  | some (.array xs) => xs[index]?
  | _ => none

/-- `json_string_value(json)`: NULL unless `json` is a string. -/
def stringValue : Option Json → Option CString
  | some (.string s) => some s
  | _ => none

/-- `json_integer_value(json)`: 0 unless `json` is an integer. -/
def integerValue : Option Json → Int
  | some (.integer i) => i
  | _ => 0

/-- `json_is_null(json)`. -/
def isNull : Option Json → Bool
  | some .null => true
  | _ => false

/-- `json_is_string(json)`. -/
def isString : Option Json → Bool
  | some (.string _) => true
  | _ => false

/-- `json_is_integer(json)`. -/
def isInteger : Option Json → Bool
  | some (.integer _) => true
  | _ => false

/-- `json_is_array(json)`. -/
def isArray : Option Json → Bool
  | some (.array _) => true
  | _ => false

/-- `json_is_object(json)`. -/
def isObject : Option Json → Bool
  | some (.object _) => true
  | _ => false

/-! ## §2. Building. -/

/-- Skip `n` UTF-8 continuation bytes. -/
def skipCont : Nat → CString → Option CString
  | 0, s => some s
  | _ + 1, [] => none
  | n + 1, b :: s => if 0x80 ≤ b.toNat && b.toNat ≤ 0xBF then skipCont n s else none

/-- Skip a second byte between `lo` and `hi`, then `n` continuation bytes. -/
def skipTail (lo hi n : Nat) : CString → Option CString
  | [] => none
  | b :: s => if lo ≤ b.toNat && b.toNat ≤ hi then skipCont n s else none

/-- The text after the character that the byte `a` starts, if `a :: s` starts
with a well-formed one: no overlong form, no surrogate, nothing above U+10FFFF. -/
def utf8Rest (a : UInt8) (s : CString) : Option CString :=
  let a := a.toNat
  if a < 0x80 then some s
  else if a < 0xC2 then none
  else if a ≤ 0xDF then skipTail 0x80 0xBF 0 s
  else if a = 0xE0 then skipTail 0xA0 0xBF 1 s
  else if a = 0xED then skipTail 0x80 0x9F 1 s
  else if a ≤ 0xEF then skipTail 0x80 0xBF 1 s
  else if a = 0xF0 then skipTail 0x90 0xBF 2 s
  else if a ≤ 0xF3 then skipTail 0x80 0xBF 2 s
  else if a = 0xF4 then skipTail 0x80 0x8F 2 s
  else none

/-- Read characters until the text ends; every character takes a byte, so the
length of the text is fuel enough. -/
def utf8Scan : Nat → CString → Bool
  | _, [] => true
  | 0, _ :: _ => false
  | n + 1, a :: s =>
      match utf8Rest a s with
      | some rest => utf8Scan n rest
      | none => false

/-- `utf8_check_string`. -/
def utf8Valid (s : CString) : Bool := utf8Scan s.length s

/-- `json_string(s)`. -/
def jsonString (s : CString) : Option Json :=
  if utf8Valid s then some (.string s) else none

/-- Members with `key` set: replaced in place, or added at the end. -/
def setMember (key : CString) (v : Json) : List (CString × Json) → List (CString × Json)
  | [] => [(key, v)]
  | m :: ms => if m.1 = key then (key, v) :: ms else m :: setMember key v ms

/-- `json_object_set_new(object, key, value)`: `none` stands for the return
value -1, which a NULL `value` gives; the object is then unchanged. -/
def objectSetNew (ms : List (CString × Json)) (key : CString) :
    Option Json → Option (List (CString × Json))
  | none => none
  | some v => some (setMember key v ms)

/-- `json_object_set_new` where the caller goes on whatever it returns. -/
def objectSetNew! (ms : List (CString × Json)) (key : CString) (v : Option Json) :
    List (CString × Json) :=
  (objectSetNew ms key v).getD ms

/-- `json_array_append_new(array, value)` with its result ignored: a NULL
`value` appends nothing. -/
def arrayAppendNew (xs : List Json) (v : Option Json) : List Json := xs ++ v.toList

/-- Text that JSON can carry in a string of C: valid UTF-8 without a NUL. -/
def Text (s : CString) : Prop := utf8Valid s = true ∧ 0 ∉ s

mutual

/-- The values whose text reads back as the value: every string and key is
text, integers fit 64 bits, the keys of an object are distinct.  Reals, whose
text is rounded, are not among them. -/
def Valid : Json → Prop
  | .null => True
  | .bool _ => True
  | .integer i => -(2 ^ 63) ≤ i ∧ i < 2 ^ 63
  | .real _ => False
  | .string s => Text s
  | .array elements => ValidElements elements
  | .object members => (members.map Prod.fst).Nodup ∧ ValidMembers members

def ValidElements : List Json → Prop
  | [] => True
  | value :: elements => value.Valid ∧ ValidElements elements

def ValidMembers : List (CString × Json) → Prop
  | [] => True
  | (key, value) :: members => Text key ∧ value.Valid ∧ ValidMembers members

end

/-- Members with everything these have, and maybe more. -/
def Extends (row row' : List (CString × Json)) : Prop :=
  ∀ key value, row.lookup key = some value → row'.lookup key = some value

/-! ## §3. ASCII text is always encodable. -/

theorem utf8Valid_of_ascii (s : CString) (h : ∀ b ∈ s, b.toNat < 0x80) :
    utf8Valid s = true := by
  unfold utf8Valid
  induction s with
  | nil => rfl
  | cons a s ih =>
      have ha : utf8Rest a s = some s := if_pos (h a (by simp))
      rw [List.length_cons, utf8Scan, ha]
      exact ih fun b hb => h b (by simp [hb])

theorem utf8Valid_utoa (n : Nat) : utf8Valid (CString.utoa n) = true := by
  refine utf8Valid_of_ascii _ fun b hb => ?_
  have hd : 48 ≤ b.toNat ∧ b.toNat ≤ 57 := by
    simpa [CString.isDigit] using CString.isDigit_of_mem_utoa hb
  omega

theorem jsonString_of_valid {s : CString} (h : utf8Valid s = true) :
    jsonString s = some (.string s) := by
  rw [jsonString, if_pos h]

@[simp] theorem jsonString_utoa (n : Nat) :
    jsonString (CString.utoa n) = some (.string (CString.utoa n)) :=
  jsonString_of_valid (utf8Valid_utoa n)

/-! ## §4. Members set one after the other. -/

/-- The members set in turn, whatever `json_object_set_new` answers. -/
def setMembers (ms : List (CString × Json)) : List (CString × Option Json) → List (CString × Json)
  | [] => ms
  | (key, v) :: columns => setMembers (objectSetNew! ms key v) columns

theorem lookup_setMember_self (key : CString) (v : Json) (ms : List (CString × Json)) :
    (setMember key v ms).lookup key = some v := by
  induction ms with
  | nil => exact List.lookup_cons_self
  | cons m ms ih =>
      unfold setMember
      by_cases h : m.1 = key
      · rw [if_pos h]
        exact List.lookup_cons_self
      · have hne : (key == m.1) = false := beq_eq_false_iff_ne.2 (Ne.symm h)
        rw [if_neg h, List.lookup_cons, hne]
        exact ih

theorem lookup_setMember_of_ne {key key' : CString} (hne : key' ≠ key) (v : Json)
    (ms : List (CString × Json)) :
    (setMember key v ms).lookup key' = ms.lookup key' := by
  have hkey : (key' == key) = false := beq_eq_false_iff_ne.2 hne
  induction ms with
  | nil =>
      show [(key, v)].lookup key' = none
      rw [List.lookup_cons, hkey]
      rfl
  | cons m ms ih =>
      unfold setMember
      by_cases h : m.1 = key
      · rw [if_pos h, List.lookup_cons, List.lookup_cons, h, hkey]
      · rw [if_neg h, List.lookup_cons, List.lookup_cons, ih]

/-- A member that is not set stays, and so it does when its value is NULL. -/
theorem lookup_objectSetNew!_of_ne {key key' : CString} (hne : key' ≠ key) (v : Option Json)
    (ms : List (CString × Json)) : (objectSetNew! ms key v).lookup key' = ms.lookup key' := by
  cases v with
  | none => rfl
  | some v => exact lookup_setMember_of_ne hne v ms

theorem lookup_setMembers_of_not_mem {key : CString} {columns : List (CString × Option Json)} :
    ∀ ms, key ∉ columns.map Prod.fst → (setMembers ms columns).lookup key = ms.lookup key := by
  induction columns with
  | nil => intro ms _; rfl
  | cons column columns ih =>
      intro ms hkey
      obtain ⟨hne, hrest⟩ := not_or.1 fun h => hkey (List.mem_cons.2 h)
      show (setMembers (objectSetNew! ms column.1 column.2) columns).lookup key = _
      rw [ih _ hrest, lookup_objectSetNew!_of_ne hne]

/-- **What a member reads as** once all are set: its value, or nothing when
that is NULL. -/
theorem lookup_setMembers {key : CString} {v : Option Json} {columns : List (CString × Option Json)} :
    ∀ {ms}, (columns.map Prod.fst).Nodup → (key, v) ∈ columns → ms.lookup key = none →
      (setMembers ms columns).lookup key = v := by
  induction columns with
  | nil => intro ms _ hmem; cases hmem
  | cons column columns ih =>
      intro ms hkeys hmem hnew
      obtain ⟨hfresh, hkeys⟩ := List.nodup_cons.1 hkeys
      show (setMembers (objectSetNew! ms column.1 column.2) columns).lookup key = v
      rcases List.mem_cons.1 hmem with rfl | hmem
      · rw [lookup_setMembers_of_not_mem _ hfresh]
        cases v with
        | none => exact hnew
        | some v => exact lookup_setMember_self key v ms
      · have hne : key ≠ column.1 := by
          intro heq
          exact hfresh (heq ▸ List.mem_map_of_mem (f := Prod.fst) hmem)
        exact ih hkeys hmem (by rw [lookup_objectSetNew!_of_ne hne, hnew])

/-- The value as the library makes it: a string may be refused. -/
def encoded : Json → Option Json
  | .string s => jsonString s
  | v => some v

/-- A value that is not refused. -/
def Encodable : Json → Prop
  | .string s => utf8Valid s = true
  | _ => True

theorem encoded_eq_some_iff (v : Json) : v.encoded = some v ↔ v.Encodable := by
  cases v with
  | string s =>
      show jsonString s = some (.string s) ↔ utf8Valid s = true
      unfold jsonString
      by_cases h : utf8Valid s = true
      · rw [if_pos h]
        exact iff_of_true rfl h
      · rw [if_neg h]
        exact iff_of_false nofun h
  | _ => exact iff_of_true rfl trivial

end Json
