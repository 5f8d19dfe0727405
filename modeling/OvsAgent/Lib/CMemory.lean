/-
  OvsAgent.Lib.CMemory — strings in memory, and arrays that hold them.

  CString.lean takes a C string to be its bytes before the NUL.  Here the NUL
  and what lies behind it are there as well: a pointer into a text names the
  bytes up to the next NUL, and an array of `char` holds a string only if there
  is a NUL in it.

  Main results:
    * `stringAt_text` — a pointer that stays within its text names the rest of it;
    * `CharArray.read_copied` — a bounded copy with a NUL at the end of the
      array is read as the bounded prefix;
    * `CharArray.terminated_strncpy_iff` — without one, the source must be
      shorter than the array.
-/
import OvsAgent.Lib.CString
import Mathlib.Data.List.TakeWhile

namespace CString

/-! ## §1. Pointers into a text. -/

/-- The bytes before the first NUL. -/
def untilNul (bytes : List UInt8) : CString := bytes.takeWhile fun b => b ≠ 0

/-- The C string a pointer `offset` bytes into `memory` names. -/
def stringAt (memory : List UInt8) (offset : Nat) : CString := untilNul (memory.drop offset)

theorem untilNul_append_nul {s : CString} (h : 0 ∉ s) (rest : List UInt8) :
    untilNul (s ++ 0 :: rest) = s := by
  have hs : ∀ b ∈ s, decide (b ≠ 0) = true := by
    intro b hb
    exact decide_eq_true (fun heq => h (heq ▸ hb))
  unfold untilNul
  rw [List.takeWhile_append_of_pos hs, List.takeWhile_cons_of_neg (by decide), List.append_nil]

theorem untilNul_of_not_mem {s : CString} (h : 0 ∉ s) : untilNul s = s := by
  unfold untilNul
  rw [List.takeWhile_eq_self_iff]
  intro b hb
  exact decide_eq_true (fun heq => h (heq ▸ hb))

theorem nul_not_mem_untilNul (bytes : List UInt8) : 0 ∉ untilNul bytes := by
  intro h
  exact absurd (List.mem_takeWhile_imp h) (by decide)

/-- **A pointer within its text** names the rest of the text. -/
theorem stringAt_text {text : CString} (h : 0 ∉ text) (rest : List UInt8) {offset : Nat}
    (ho : offset ≤ text.length) : stringAt (text ++ 0 :: rest) offset = text.drop offset := by
  unfold stringAt
  rw [List.drop_append_of_le_length ho]
  exact untilNul_append_nul (fun hmem => h (List.mem_of_mem_drop hmem)) rest

theorem untilNul_length_le (bytes : List UInt8) : (untilNul bytes).length ≤ bytes.length :=
  (List.takeWhile_prefix _).length_le

/-- A string that ends inside the bytes is shorter than they are. -/
theorem untilNul_length_lt {bytes : List UInt8} (h : 0 ∈ bytes) :
    (untilNul bytes).length < bytes.length := by
  have hprefix : untilNul bytes <+: bytes := List.takeWhile_prefix _
  refine Nat.lt_of_le_of_ne hprefix.length_le fun heq => ?_
  rw [← hprefix.eq_of_length heq] at h
  exact nul_not_mem_untilNul bytes h

/-! ## §2. Arrays. -/

/-- `char a[size]`. -/
structure CharArray (size : Nat) where
  bytes : List UInt8
  length : bytes.length = size
  deriving Repr, DecidableEq

namespace CharArray

variable {size n : Nat}

/-- After `memset(a, 0, size)`. -/
def zeroed (size : Nat) : CharArray size := ⟨List.replicate size 0, List.length_replicate⟩

/-- What `strncpy(a, src, n)` writes: the string, and NULs up to `n`. -/
def strncpyBytes (n : Nat) (src : CString) : List UInt8 :=
  (untilNul src).take n ++ List.replicate (n - (untilNul src).length) 0

theorem length_strncpyBytes (n : Nat) (src : CString) : (strncpyBytes n src).length = n := by
  unfold strncpyBytes
  rw [List.length_append, List.length_take, List.length_replicate]
  omega

/-- `strncpy(a, src, n)`. -/
def strncpy (a : CharArray size) (n : Nat) (hn : n ≤ size) (src : CString) : CharArray size where
  bytes := strncpyBytes n src ++ a.bytes.drop n
  length := by
    rw [List.length_append, length_strncpyBytes, List.length_drop, a.length]
    omega

/-- `a[i] = b`. -/
def set (a : CharArray size) (i : Nat) (b : UInt8) : CharArray size :=
  ⟨a.bytes.set i b, by rw [List.length_set, a.length]⟩

/-- There is a NUL within the array. -/
def Terminated (a : CharArray size) : Prop := 0 ∈ a.bytes

instance (a : CharArray size) : Decidable a.Terminated := inferInstanceAs (Decidable (_ ∈ _))

/-- The string in it. -/
def read (a : CharArray size) : CString := untilNul a.bytes

theorem terminated_zeroed (h : 0 < size) : (zeroed size).Terminated :=
  List.mem_replicate.2 ⟨Nat.ne_of_gt h, rfl⟩

theorem read_length_lt {a : CharArray size} (h : a.Terminated) : a.read.length < size := by
  have hlt := untilNul_length_lt h
  rwa [a.length] at hlt

theorem nul_not_mem_read (a : CharArray size) : 0 ∉ a.read := nul_not_mem_untilNul a.bytes

/-- A bounded copy into a zeroed array, with a NUL put at its end:
`strncpy(a, src, sizeof(a) - 1); a[sizeof(a) - 1] = '\0'`. -/
def copied (n : Nat) (src : CString) : CharArray (n + 1) :=
  ((zeroed (n + 1)).strncpy n (Nat.le_succ n) src).set n 0

theorem terminated_copied (n : Nat) (src : CString) : (copied n src).Terminated := by
  refine List.mem_iff_getElem.2 ⟨n, ?_, ?_⟩
  · rw [(copied n src).length]
    exact Nat.lt_succ_self n
  · exact List.getElem_set_self _

/-- **The bounded copy** is read as the bounded prefix. -/
theorem read_copied (n : Nat) (src : CString) : (copied n src).read = (untilNul src).take n := by
  have hbytes : (copied n src).bytes = (untilNul src).take n
      ++ 0 :: List.replicate (n - (untilNul src).length) 0 := by
    -- the byte `strncpy` does not reach is set to NUL
    have hend : (List.replicate (n + 1) (0 : UInt8)).drop n = [0] := by
      rw [List.drop_replicate, Nat.add_sub_cancel_left]
      rfl
    show (strncpyBytes n src ++ (List.replicate (n + 1) 0).drop n).set n 0 = _
    rw [hend, List.set_append_right _ _ (Nat.le_of_eq (length_strncpyBytes n src)), length_strncpyBytes,
      Nat.sub_self]
    show strncpyBytes n src ++ [0] = _
    unfold strncpyBytes
    rw [List.append_assoc, ← List.replicate_succ', List.replicate_succ]
  unfold read
  rw [hbytes]
  exact untilNul_append_nul (fun h => nul_not_mem_untilNul src (List.mem_of_mem_take h)) _

/-- A copy as long as the array leaves room for a NUL only if the source does. -/
theorem terminated_strncpy_iff (a : CharArray size) (src : CString) :
    (a.strncpy size (Nat.le_refl size) src).Terminated ↔ (untilNul src).length < size := by
  have hdrop : a.bytes.drop size = [] := List.drop_eq_nil_of_le (Nat.le_of_eq a.length)
  have htake : 0 ∉ (untilNul src).take size := fun h => nul_not_mem_untilNul src (List.mem_of_mem_take h)
  show 0 ∈ strncpyBytes size src ++ a.bytes.drop size ↔ _
  rw [hdrop, List.append_nil]
  unfold strncpyBytes
  rw [List.mem_append, or_iff_right htake, List.mem_replicate, and_iff_left rfl]
  omega

/-- It then holds the source. -/
theorem read_strncpy (a : CharArray size) {src : CString} (h : (untilNul src).length < size) :
    (a.strncpy size (Nat.le_refl size) src).read = untilNul src := by
  -- there is a NUL at least in the padding
  obtain ⟨k, hk⟩ : ∃ k, size - (untilNul src).length = k + 1 :=
    ⟨size - (untilNul src).length - 1, by omega⟩
  show untilNul (strncpyBytes size src ++ a.bytes.drop size) = _
  unfold strncpyBytes
  rw [List.take_of_length_le (Nat.le_of_lt h), hk, List.replicate_succ, List.append_assoc, List.cons_append]
  exact untilNul_append_nul (nul_not_mem_untilNul src) _

end CharArray

end CString
