/-
  OvsAgent.DbApi.ReceiptSafety — the receipt parsers on any result.

  Follows receipt_parser.c.  The result of a reply is whatever another process
  sent.  Three of the four parsers check every element they use; the parser of
  insert receipts checks its way down to the `"uuid"` tag and then copies the
  element behind it, which may be missing, no string, or too long.

  Main result: `receipt_parsing_safe_iff` — parsing a result is safe exactly
  when it is not an insert's result with a tag and no uuid that fits behind it.
-/
import OvsAgent.DbApi.JsonParser

namespace OvsAgent

open CString (ofString)
open Json

/-! ## §1. Safe parsing. -/

/-- The value `insert_receipt_parser` takes for the uuid pair of the result. -/
def uuidPair (result : Json) : Option Json := objectGet (arrayGet (some result) 0) ovsdbTableUuid

/-- What is asked of the parsing of `result` for a request of type `type`. -/
structure SafeParse (type : OvsdbReceiptId) (result : Json) (r : Except Fault (Option OvsDbReceipt)) :
    Prop where
  /-- No read through NULL, no call through NULL. -/
  noNull : r ≠ .error .nullRead ∧ r ≠ .error .nullCall
  /-- No copy past the end of `uuid`. -/
  noOverflow : r ≠ .error .overflow
  typed : ∀ receipt, r = .ok (some receipt) → receipt.receiptId = type
  /-- The uuid is the string at position 1 of the pair, and fits. -/
  uuid : ∀ error u, r = .ok (some (.insert error u)) →
    arrayGet (uuidPair result) 1 = some (.string u) ∧ u.length ≤ maxUuidLen

/-- The result has the `"uuid"` tag where the parser looks for it. -/
def Tagged (result : Json) : Prop := arrayGet (uuidPair result) 0 = some (.string ovsdbTableUuid)

/-- Behind the tag there is no string that fits a uuid. -/
def BadUuid (result : Json) : Prop :=
  Tagged result ∧ ∀ u, arrayGet (uuidPair result) 1 = some (.string u) → maxUuidLen < u.length

/-- Behind the tag there is a string, and it is too long for a uuid. -/
def LongUuid (result : Json) : Prop :=
  Tagged result ∧ ∃ u, arrayGet (uuidPair result) 1 = some (.string u) ∧ maxUuidLen < u.length

/-- Parsing the result copies past the end of a uuid. -/
def Overflows (type : OvsdbReceiptId) : Option Json → Prop
  | none => False
  | some result => type = .insert ∧ LongUuid result

/-! ## §2. The insert parser. -/

theorem isArray_of_arrayGet {json : Option Json} {i : Nat} {value : Json} (h : arrayGet json i = some value) :
    isArray json = true := by
  unfold arrayGet at h
  split at h
  · rfl
  · cases h

theorem stringValue_eq_some {json : Option Json} {s : CString} (h : stringValue json = some s) :
    json = some (.string s) := by
  unfold stringValue at h
  split at h
  · cases h; rfl
  · cases h

/-- A pair that is there was found in the first element of an array. -/
theorem isArray_of_tagged {result : Json} (h : Tagged result) : isArray (some result) = true := by
  cases hfirst : arrayGet (some result) 0 with
  | some first => exact isArray_of_arrayGet hfirst
  | none =>
      unfold Tagged uuidPair at h
      rw [hfirst] at h
      cases h

/-- **The insert parser with a tag**: the element behind it is copied. -/
theorem insertReceiptParser_of_tagged {result : Json} (h : Tagged result) :
    insertReceiptParser result = match stringValue (arrayGet (uuidPair result) 1) with
      | none => .error .nullRead
      | some u => if u.length ≤ maxUuidLen then .ok (some (.insert [] u)) else .error .overflow := by
  have hpair : isArray (objectGet (arrayGet (some result) 0) ovsdbTableUuid) = true := isArray_of_arrayGet h
  have htag : stringValue (arrayGet (objectGet (arrayGet (some result) 0) ovsdbTableUuid) 0)
      = some ovsdbTableUuid := by
    show stringValue (arrayGet (uuidPair result) 0) = _
    unfold Tagged at h
    rw [h]
    rfl
  unfold insertReceiptParser
  simp only [isArray_of_tagged h, hpair, htag, Bool.not_true, Bool.false_eq_true, if_false, ne_eq,
    not_true_eq_false]
  rfl

/-- Without the tag a check answers NULL. -/
theorem insertReceiptParser_of_not_tagged {result : Json} (h : ¬ Tagged result) :
    insertReceiptParser result = .ok none := by
  unfold insertReceiptParser
  split
  · rfl
  · dsimp only
    split
    · rfl
    · split
      · rfl
      · next tag htag =>
          have hne : tag ≠ ovsdbTableUuid := by
            rintro rfl
            exact h (stringValue_eq_some htag)
          rw [if_pos hne]

/-- A receipt comes from a tagged pair, with the string behind the tag. -/
theorem insertReceiptParser_uuid {result : Json} {error u : CString}
    (h : insertReceiptParser result = .ok (some (.insert error u))) :
    arrayGet (uuidPair result) 1 = some (.string u) ∧ u.length ≤ maxUuidLen := by
  by_cases ht : Tagged result
  · rw [insertReceiptParser_of_tagged ht] at h
    split at h
    · cases h
    · next hu =>
        split at h
        · next hlen => cases h; exact ⟨stringValue_eq_some hu, hlen⟩
        · cases h
  · rw [insertReceiptParser_of_not_tagged ht] at h
    cases h

/-- The insert parser goes wrong on a bad uuid only. -/
theorem insertReceiptParser_error_iff (result : Json) :
    (∃ fault, insertReceiptParser result = .error fault) ↔ BadUuid result := by
  by_cases ht : Tagged result
  · rw [insertReceiptParser_of_tagged ht]
    cases hu : stringValue (arrayGet (uuidPair result) 1) with
    | none =>
        refine iff_of_true ⟨_, rfl⟩ ⟨ht, fun u hget => ?_⟩
        rw [hget] at hu
        cases hu
    | some u =>
        have hget := stringValue_eq_some hu
        by_cases hlen : u.length ≤ maxUuidLen
        · -- the string fits, so neither side holds
          refine iff_of_false (fun ⟨_, heq⟩ => ?_) fun hbad => ?_
          · dsimp only at heq
            rw [if_pos hlen] at heq
            cases heq
          · exact absurd hlen (Nat.not_le.2 (hbad.2 u hget))
        · refine iff_of_true ⟨.overflow, ?_⟩ ⟨ht, fun u' hget' => ?_⟩
          · dsimp only
            rw [if_neg hlen]
          · rw [hget] at hget'
            cases hget'
            exact Nat.not_le.1 hlen
  · refine iff_of_false (fun ⟨_, heq⟩ => ?_) fun hbad => ht hbad.1
    rw [insertReceiptParser_of_not_tagged ht] at heq
    cases heq

/-- It overflows on a string alone. -/
theorem insertReceiptParser_overflow_iff (result : Json) :
    insertReceiptParser result = .error .overflow ↔ LongUuid result := by
  by_cases ht : Tagged result
  · rw [insertReceiptParser_of_tagged ht]
    cases hu : stringValue (arrayGet (uuidPair result) 1) with
    | none =>
        refine iff_of_false (fun h => by cases h) fun hlong => ?_
        obtain ⟨u, hget, _⟩ := hlong.2
        rw [hget] at hu
        cases hu
    | some u =>
        have hget := stringValue_eq_some hu
        dsimp only
        by_cases hlen : u.length ≤ maxUuidLen
        · rw [if_pos hlen]
          refine iff_of_false (fun h => by cases h) fun hlong => ?_
          obtain ⟨u', hget', hlen'⟩ := hlong.2
          rw [hget] at hget'
          cases hget'
          omega
        · rw [if_neg hlen]
          exact iff_of_true rfl ⟨ht, u, hget, Nat.not_le.1 hlen⟩
  · rw [insertReceiptParser_of_not_tagged ht]
    exact iff_of_false (fun h => by cases h) fun hlong => ht hlong.1

/-! ## §3. All parsers. -/

/-- The types the code registers requests with. -/
def OvsdbReceiptId.Registered (type : OvsdbReceiptId) : Prop := type ≠ .unknown

/-- The other parsers always return. -/
theorem ovsdbParseResult_error_iff {type : OvsdbReceiptId} (htype : type.Registered) (result : Json) :
    (∃ fault, ovsdbParseResult type (some result) = .error fault) ↔ type = .insert ∧
      BadUuid result := by
  cases type with
  | unknown => exact absurd rfl htype
  | insert => exact (insertReceiptParser_error_iff result).trans (and_iff_right rfl).symm
  | monitor => exact iff_of_false (fun ⟨_, h⟩ => by cases h) fun h => by cases h.1
  | monitorCancel => exact iff_of_false (fun ⟨_, h⟩ => by cases h) fun h => by cases h.1
  | delete =>
      refine iff_of_false (fun ⟨_, h⟩ => ?_) fun h => by cases h.1
      have h : deleteReceiptParser result = _ := h
      unfold deleteReceiptParser at h
      split at h
      · cases h
      · dsimp only at h
        split at h <;> cases h

/-- Only an insert's result overflows. -/
theorem ovsdbParseResult_overflow_iff (type : OvsdbReceiptId) (result : Option Json) :
    ovsdbParseResult type result = .error .overflow ↔ Overflows type result := by
  cases result with
  | none => exact iff_of_false (fun h => by cases h) id
  | some value =>
      by_cases htype : type.Registered
      · constructor
        · intro h
          obtain ⟨rfl, _⟩ := (ovsdbParseResult_error_iff htype value).1 ⟨_, h⟩
          exact ⟨rfl, (insertReceiptParser_overflow_iff value).1 h⟩
        · intro ⟨htype, hlong⟩
          rw [htype]
          exact (insertReceiptParser_overflow_iff value).2 hlong
      · obtain rfl : type = .unknown := not_not.1 htype
        exact iff_of_false (fun h => by cases h) fun h => by cases h.1

theorem ovsdbParseResult_uuid {type : OvsdbReceiptId} {result : Json} {error u : CString}
    (h : ovsdbParseResult type (some result) = .ok (some (.insert error u))) :
    arrayGet (uuidPair result) 1 = some (.string u) ∧ u.length ≤ maxUuidLen := by
  obtain rfl : OvsdbReceiptId.insert = type := ovsdbParseResult_receiptId h
  exact insertReceiptParser_uuid h

/-- **Receipt parsing.**  Parsing the result of a reply to a registered request
is safe exactly when it is not the result of an insert in which the `"uuid"`
tag is followed by no string of at most `MAX_UUID_LEN` bytes. -/
theorem receipt_parsing_safe_iff {type : OvsdbReceiptId} (htype : type.Registered) (result : Json) :
    SafeParse type result (ovsdbParseResult type (some result)) ↔
    ¬ (type = .insert ∧ BadUuid result) := by
  rw [← ovsdbParseResult_error_iff htype]
  constructor
  · intro h ⟨fault, heq⟩
    cases fault with
    | nullRead => exact h.noNull.1 heq
    | nullCall => exact h.noNull.2 heq
    | overflow => exact h.noOverflow heq
  · intro h
    refine ⟨⟨fun heq => h ⟨_, heq⟩, fun heq => h ⟨_, heq⟩⟩, fun heq => h ⟨_, heq⟩, ?_, ?_⟩
    · intro receipt heq
      exact ovsdbParseResult_receiptId heq
    · intro error u heq
      exact ovsdbParseResult_uuid heq

/-- The result of an insert: one object, with this value for its uuid. -/
def insertedAs (pair : Json) : Json := .array [.object [(ovsdbTableUuid, pair)]]

theorem receipt_parsing_safe_iff_insert :
    SafeParse .insert (insertedAs (.array [.string ovsdbTableUuid, .string (ofString "u")]))
      (ovsdbParseResult .insert
        (some (insertedAs (.array [.string ovsdbTableUuid, .string (ofString "u")])))) := by
  have htype : OvsdbReceiptId.insert.Registered := by
    intro h
    cases h
  refine (receipt_parsing_safe_iff htype _).2 fun ⟨_, _, hbad⟩ => ?_
  exact absurd (hbad (ofString "u") rfl) (by decide)

/-- A pair that ends behind its tag, and one with 37 bytes behind it. -/
theorem receipt_parsing_unsafe :
    ¬ SafeParse .insert (insertedAs (.array [.string ovsdbTableUuid]))
        (ovsdbParseResult .insert (some (insertedAs (.array [.string ovsdbTableUuid])))) ∧
      ¬ SafeParse .insert (insertedAs (.array [.string ovsdbTableUuid, .string (List.replicate 37 97)]))
        (ovsdbParseResult .insert
          (some (insertedAs (.array [.string ovsdbTableUuid, .string (List.replicate 37 97)])))) :=
  ⟨fun h => h.noNull.1 rfl, fun h => h.noOverflow rfl⟩

end OvsAgent
