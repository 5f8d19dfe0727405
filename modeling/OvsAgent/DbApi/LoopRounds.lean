/-
  OvsAgent.DbApi.LoopRounds — why the loop of `ovsdb_parse_msg` ends.

  The loop asks for `bytes_read == size` and may step over it: the text may end
  before `size` or go on behind it.  What ends the loop then is `json_loads`,
  which finds no value in what is left of the text.

  OvsdbParser.lean gives the loop a number of rounds that is large enough.
  Here it has none, and `json_str` is a pointer into memory in which other
  bytes follow the NUL.

  Main results:
    * `message_loop_ends` — whatever the text and `size`, the loop is left, with
      at most half as many messages read as the text has bytes, and `json_str`
      is never behind the NUL;
    * `leaves_ovsdbParseMsg` — the calls made on the way are those of
      OvsdbParser.lean.
-/
import OvsAgent.DbApi.MessageLoop
import OvsAgent.Lib.CMemory
import OvsAgent.Lib.Loop

namespace OvsAgent

open CString (ofString stringAt)
open Loop (Next Rounds Leaves)

/-! ## §1. A round. -/

/-- The local variables of `ovsdb_parse_msg`, and as history the values
`json_loads` has returned. -/
structure LoopState where
  jsonStr : Nat
  /-- A `size_t`. -/
  bytesRead : UInt64
  parsed : List Json

/-- Before the loop. -/
def LoopState.start : LoopState := ⟨0, 0, []⟩

/-- Behind a successful `json_loads`: both are moved by `error.position`. -/
def LoopState.advance (s : LoopState) (msg : Json) (position : Nat) : LoopState where
  jsonStr := s.jsonStr + position
  bytesRead := s.bytesRead + UInt64.ofNat position
  parsed := s.parsed ++ [msg]

section Round

variable (loads : CString → Option (Json × Nat)) (memory : List UInt8) (size : UInt64)

/-- The body of the loop and its test.  The calls for the message change none
of the variables but `status`, which nothing tests. -/
def parseRound (s : LoopState) : Next LoopState LoopState :=
  match loads (stringAt memory s.jsonStr) with
  -- no value in what is left of the text: `return OVS_FAILED_STATUS`
  | none => .done s
  | some (msg, position) =>
      match ovsdbHandleMsg msg with
      -- a malformed message, and the same return
      | none => .done (s.advance msg position)
      | some _ =>
          if (s.advance msg position).bytesRead ≠ size then .again (s.advance msg position)
          else .done (s.advance msg position)

/-- The round, whatever the message says. -/
theorem parseRound_cases (s : LoopState) :
    (loads (stringAt memory s.jsonStr) = none ∧ parseRound loads memory size s = .done s) ∨
    ∃ msg position, loads (stringAt memory s.jsonStr) = some (msg, position) ∧
      ((ovsdbHandleMsg msg = none ∧ parseRound loads memory size s = .done (s.advance msg position)) ∨
      ∃ calls, ovsdbHandleMsg msg = some calls ∧
        (((s.advance msg position).bytesRead ≠ size ∧
            parseRound loads memory size s = .again (s.advance msg position)) ∨
        ((s.advance msg position).bytesRead = size ∧
            parseRound loads memory size s = .done (s.advance msg position)))) := by
  unfold parseRound
  cases hl : loads (stringAt memory s.jsonStr) with
  | none => exact Or.inl ⟨rfl, rfl⟩
  | some r =>
      obtain ⟨msg, position⟩ := r
      refine Or.inr ⟨msg, position, rfl, ?_⟩
      dsimp only
      cases hh : ovsdbHandleMsg msg with
      | none => exact Or.inl ⟨rfl, rfl⟩
      | some calls =>
          refine Or.inr ⟨calls, rfl, ?_⟩
          by_cases hb : (s.advance msg position).bytesRead ≠ size
          · exact Or.inl ⟨hb, if_pos hb⟩
          · exact Or.inr ⟨not_not.1 hb, if_neg hb⟩

variable {loads memory size}

/-- A round goes on behind a value. -/
theorem parseRound_again {s s' : LoopState} (h : parseRound loads memory size s = .again s') :
    ∃ msg position, loads (stringAt memory s.jsonStr) = some (msg, position) ∧
      s' = s.advance msg position := by
  rcases parseRound_cases loads memory size s with
    ⟨_, heq⟩ | ⟨msg, position, hl, ⟨_, heq⟩ | ⟨_, _, ⟨_, heq⟩ | ⟨_, heq⟩⟩⟩
  all_goals
    rw [heq] at h
    cases h
  exact ⟨msg, position, hl, rfl⟩

/-- It leaves where it is or behind a value. -/
theorem parseRound_done {s s' : LoopState} (h : parseRound loads memory size s = .done s') :
    s' = s ∨ ∃ msg position, loads (stringAt memory s.jsonStr) = some (msg, position) ∧
      s' = s.advance msg position := by
  rcases parseRound_cases loads memory size s with
    ⟨_, heq⟩ | ⟨msg, position, hl, ⟨_, heq⟩ | ⟨_, _, ⟨_, heq⟩ | ⟨_, heq⟩⟩⟩
  all_goals
    rw [heq] at h
    cases h
  · exact Or.inl rfl
  · exact Or.inr ⟨msg, position, hl, rfl⟩
  · exact Or.inr ⟨msg, position, hl, rfl⟩

end Round

/-! ## §2. The loop ends. -/

/-- What every round keeps: two bytes were read for each message, and none
behind the text. -/
structure LoopState.Within (text : CString) (s : LoopState) : Prop where
  read : 2 * s.parsed.length ≤ s.jsonStr
  inText : s.jsonStr ≤ text.length

theorem within_start (text : CString) : LoopState.start.Within text := ⟨Nat.le_refl 0, Nat.zero_le _⟩

theorem LoopState.Within.parsed_le {text : CString} {s : LoopState} (h : s.Within text) :
    s.parsed.length ≤ text.length / 2 := by
  have hread := h.read
  have hin := h.inText
  omega

section Ends

variable {loads : CString → Option (Json × Nat)}
  (hloads : ∀ {s msg n}, loads s = some (msg, n) → 2 ≤ n ∧ n ≤ s.length)
  {text : CString} (htext : 0 ∉ text) (rest : List UInt8) (size : UInt64)
include hloads htext

/-- A value is read off the rest of the text, and moves the pointer by two bytes. -/
theorem LoopState.Within.advance {s : LoopState} (h : s.Within text) {msg : Json} {position : Nat}
    (hl : loads (stringAt (text ++ 0 :: rest) s.jsonStr) = some (msg, position)) :
    (s.advance msg position).Within text ∧ s.jsonStr < (s.advance msg position).jsonStr := by
  rw [CString.stringAt_text htext rest h.inText] at hl
  obtain ⟨htwo, hle⟩ := hloads hl
  rw [List.length_drop] at hle
  have hread := h.read
  have hin := h.inText
  refine ⟨⟨?_, ?_⟩, ?_⟩
  · show 2 * (s.parsed ++ [msg]).length ≤ s.jsonStr + position
    rw [List.length_append, List.length_singleton]
    omega
  · show s.jsonStr + position ≤ text.length
    omega
  · show s.jsonStr < s.jsonStr + position
    omega

/-- **A round** stays in the text, whether it goes on or not. -/
theorem keeps_parseRound {s : LoopState} (h : s.Within text) :
    (parseRound loads (text ++ 0 :: rest) size s).Keeps (LoopState.Within text) (LoopState.Within text) := by
  cases hb : parseRound loads (text ++ 0 :: rest) size s with
  | again s' =>
      obtain ⟨msg, position, hl, rfl⟩ := parseRound_again hb
      exact (h.advance hloads htext rest hl).1
  | done s' =>
      rcases parseRound_done hb with rfl | ⟨msg, position, hl, rfl⟩
      · exact h
      · exact (h.advance hloads htext rest hl).1

/-- A round that goes on leaves less of the text. -/
theorem again_parseRound {s s' : LoopState} (h : s.Within text)
    (hb : parseRound loads (text ++ 0 :: rest) size s = .again s') :
    s'.Within text ∧ text.length - s'.jsonStr < text.length - s.jsonStr := by
  obtain ⟨msg, position, hl, rfl⟩ := parseRound_again hb
  obtain ⟨hwithin, hlt⟩ := h.advance hloads htext rest hl
  have hin := hwithin.inText
  exact ⟨hwithin, by omega⟩

omit hloads htext in
/-- Every round that goes on has read a value. -/
theorem rounds_le_parsed {n : Nat} {s : LoopState}
    (h : Rounds (parseRound loads (text ++ 0 :: rest) size) .start n s ∨
      Leaves (parseRound loads (text ++ 0 :: rest) size) .start n s) : n ≤ s.parsed.length := by
  have hadvance : ∀ (s : LoopState) msg position,
      s.parsed.length < (s.advance msg position).parsed.length := by
    intro s msg position
    show _ < (s.parsed ++ [msg]).length
    rw [List.length_append]
    exact Nat.lt_succ_self _
  have hrounds : ∀ {n s}, Rounds (parseRound loads (text ++ 0 :: rest) size) .start n s →
      n ≤ s.parsed.length := by
    intro n s h
    have hle := h.add_le (fun s => s.parsed.length) (fun s s' hb => ?_)
    · exact Nat.le_trans (Nat.le_add_left n _) hle
    · obtain ⟨msg, position, _, rfl⟩ := parseRound_again hb
      exact hadvance s msg position
  rcases h with h | ⟨s₁, h, hdone⟩
  · exact hrounds h
  · have hle := hrounds h
    rcases parseRound_done hdone with rfl | ⟨msg, position, _, rfl⟩
    · exact hle
    · exact Nat.le_of_lt (Nat.lt_of_le_of_lt hle (hadvance s₁ msg position))

end Ends

/-- **The message loop ends.**  Whatever the text, the bytes behind it and
`size`, the loop is left; and on the way and on leaving no more rounds were
made than values read, at most half as many values as the text has bytes, and
`json_str` is not behind the terminating NUL. -/
theorem message_loop_ends (loads : CString → Option (Json × Nat))
    (hloads : ∀ {s msg n}, loads s = some (msg, n) → 2 ≤ n ∧ n ≤ s.length)
    (text : CString) (htext : 0 ∉ text) (rest : List UInt8) (size : UInt64) :
    (∃ n s, Leaves (parseRound loads (text ++ 0 :: rest) size) .start n s) ∧
    ∀ n s, Rounds (parseRound loads (text ++ 0 :: rest) size) .start n s ∨
        Leaves (parseRound loads (text ++ 0 :: rest) size) .start n s →
      n ≤ s.parsed.length ∧ s.parsed.length ≤ text.length / 2 ∧ s.jsonStr ≤ text.length := by
  constructor
  -- not `bytes_read` is what decreases, but the text behind `json_str`
  · exact Loop.exists_leaves (I := LoopState.Within text) (fun s => text.length - s.jsonStr)
      (fun s s' h hb => again_parseRound hloads htext rest size h hb) .start (within_start text)
  · intro n s h
    have hwithin : s.Within text := by
      rcases h with hrounds | hleaves
      · exact hrounds.invariant (fun s s' h hb => (again_parseRound hloads htext rest size h hb).1)
          (within_start text)
      · exact hleaves.rule (fun s h => keeps_parseRound hloads htext rest size h) (within_start text)
    exact ⟨rounds_le_parsed rest size h, hwithin.parsed_le, hwithin.inText⟩

/-- No text of the list is a single byte. -/
theorem JsonLoads.ofTexts_two_le {texts : List (CString × Json)} {hstart hfree}
    (hlong : ∀ e ∈ texts, 2 ≤ e.1.length) {s : CString} {msg : Json} {n : Nat}
    (h : (JsonLoads.ofTexts texts hstart hfree).loads s = some (msg, n)) : 2 ≤ n := by
  obtain ⟨e, hfind, heq⟩ := Option.map_eq_some_iff.1 h
  cases heq
  have htwo := hlong e (List.mem_of_find?_eq_some hfind)
  omega

/-- A reply and an update, with a `size` that is passed in the first of them
and a further update behind the NUL. -/
theorem message_loop_ends_batch :
    let text := replyText ++ ofString "\n" ++ updateText
    let round := parseRound batchLoads.loads (text ++ 0 :: updateText) 5
    (∃ n s, Leaves round .start n s) ∧
      ∀ n s, Rounds round .start n s ∨ Leaves round .start n s →
        n ≤ s.parsed.length ∧ s.parsed.length ≤ text.length / 2 ∧ s.jsonStr ≤ text.length :=
  message_loop_ends batchLoads.loads
    (fun h => ⟨JsonLoads.ofTexts_two_le (by decide) h, (batchLoads.position h).2⟩) _
    (by decide +kernel) _ _

/-! ## §3. The calls on the way. -/

/-- The calls for the messages read so far. -/
def LoopState.calls (s : LoopState) : List Dispatch :=
  s.parsed.flatMap fun msg => (ovsdbHandleMsg msg).getD []

theorem calls_advance (s : LoopState) (msg : Json) (position : Nat) :
    (s.advance msg position).calls = s.calls ++ (ovsdbHandleMsg msg).getD [] := by
  show (s.parsed ++ [msg]).flatMap _ = _
  rw [List.flatMap_append, List.flatMap_singleton]
  rfl

/-- What is still to be called for is in the rest of the text. -/
structure LoopState.Follows (j : JsonLoads) (text : CString) (size : UInt64) (s : LoopState) : Prop where
  inText : s.jsonStr ≤ text.length
  bytesRead : s.bytesRead.toNat = s.jsonStr
  calls : ovsdbParseMsg j text size.toNat = s.calls
    ++ parseLoop j size.toNat (text.drop s.jsonStr).length s.jsonStr (text.drop s.jsonStr)

theorem follows_start (j : JsonLoads) (text : CString) (size : UInt64) :
    LoopState.start.Follows j text size :=
  ⟨Nat.zero_le _, rfl, rfl⟩

section Follows

variable {j : JsonLoads} {text : CString} (htext : 0 ∉ text) (hlen : text.length < 2 ^ 64)
  (rest : List UInt8) (size : UInt64)
include htext hlen

/-- `bytes_read` is the offset of `json_str`: it does not wrap. -/
theorem LoopState.Follows.advance {s : LoopState} (h : s.Follows j text size) {msg : Json} {position : Nat}
    (hl : j.loads (stringAt (text ++ 0 :: rest) s.jsonStr) = some (msg, position)) :
    s.jsonStr + position ≤ text.length ∧ (s.advance msg position).bytesRead.toNat =
      s.jsonStr + position := by
  rw [CString.stringAt_text htext rest h.inText] at hl
  have hle := (j.position hl).2
  rw [List.length_drop] at hle
  have hin := h.inText
  refine ⟨by omega, ?_⟩
  show (s.bytesRead + UInt64.ofNat position).toNat = _
  rw [UInt64.toNat_add, h.bytesRead, UInt64.toNat_ofNat']
  omega

/-- A round does what `parseLoop` does. -/
theorem keeps_follows {s : LoopState} (h : s.Follows j text size) :
    (parseRound j.loads (text ++ 0 :: rest) size s).Keeps (LoopState.Follows j text size)
      (fun s => ovsdbParseMsg j text size.toNat = s.calls) := by
  have hcalls := h.calls
  -- one round of `parseLoop`
  rw [← parseLoop_fuel _ _ _ _ (Nat.le_succ _)] at hcalls
  unfold parseLoop at hcalls
  rw [← CString.stringAt_text htext rest h.inText] at hcalls
  rcases parseRound_cases j.loads (text ++ 0 :: rest) size s with
    ⟨hl, heq⟩ | ⟨msg, position, hl,
      ⟨hh, heq⟩ | ⟨calls, hh, ⟨hsize, heq⟩ | ⟨hsize, heq⟩⟩⟩
  · rw [heq]
    rw [hl, List.append_nil] at hcalls
    exact hcalls
  all_goals
    obtain ⟨hin, hread⟩ := h.advance htext hlen rest size hl
    rw [heq]
    simp only [hl, hh] at hcalls
  · show _ = (s.advance msg position).calls
    rw [hcalls, calls_advance, hh]
    rfl
  -- another round: the rest of the text is fuel enough for it
  · have hne : s.jsonStr + position ≠ size.toNat := by
      rw [← hread]
      exact fun heq => hsize (UInt64.toNat_inj.1 heq)
    refine ⟨hin, hread, ?_⟩
    rw [if_neg hne, CString.stringAt_text htext rest h.inText, List.drop_drop,
      parseLoop_fuel _ _ _ _ (by rw [List.length_drop, List.length_drop]; omega),
      ← List.append_assoc] at hcalls
    rw [calls_advance, hh]
    exact hcalls
  · have heq' : s.jsonStr + position = size.toNat := by rw [← hread, hsize]
    show _ = (s.advance msg position).calls
    rw [if_pos heq'] at hcalls
    rw [hcalls, calls_advance, hh]
    rfl

/-- **The calls of OvsdbParser.lean** are those of the loop. -/
theorem leaves_ovsdbParseMsg {n : Nat} {s : LoopState}
    (h : Leaves (parseRound j.loads (text ++ 0 :: rest) size) .start n s) :
    ovsdbParseMsg j text size.toNat = s.calls :=
  h.rule (I := LoopState.Follows j text size) (Q := fun s => ovsdbParseMsg j text size.toNat = s.calls)
    (fun _ h => keeps_follows htext hlen rest size h) (follows_start j text size)

end Follows

end OvsAgent
