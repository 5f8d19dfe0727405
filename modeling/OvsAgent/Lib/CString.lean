/-
  OvsAgent.Lib.CString — C strings and the string functions of the C library.

  A C string is the list of its bytes before the terminating NUL.  Bounded
  copies and comparisons then act on prefixes: `strncpy` into a zeroed buffer
  with room for `n` bytes keeps the first `n`, and `strncmp(a, b, n) == 0`
  says that the first `n` bytes agree, terminators included.

  `atoi` follows `strtol` with a 64-bit `long` (clamped there) and is then cut
  to a 32-bit `int`; `utoa` is what `snprintf("%u")` prints.  Main result:

      atou (utoa n) = n      for every n below 2 ^ 32
-/
import Mathlib.Data.Nat.Digits.Defs
import Mathlib.Data.List.TakeDrop

/-- The bytes of a C string, without the terminator. -/
abbrev CString := List UInt8

namespace CString

instance : LawfulBEq CString := inferInstance

/-- The bytes of an ASCII literal. -/
def ofString (s : String) : CString := s.toList.map fun c => c.toNat.toUInt8

/-- `strncpy` into a zeroed buffer that holds `n` bytes and a terminator. -/
def strncpy (n : Nat) (src : CString) : CString := src.take n

/-- `strncmp(a, b, n) == 0`. -/
def strncmpEq (n : Nat) (a b : CString) : Bool := a.take n == b.take n

@[simp] theorem strncmpEq_self (n : Nat) (a : CString) : strncmpEq n a a = true := by
  simp [strncmpEq]

theorem strncmpEq_iff {n : Nat} {a b : CString} :
    strncmpEq n a b = true ↔ a.take n = b.take n := by
  simp [strncmpEq]

/-- Below the bound, the bounded comparison is equality. -/
theorem strncmpEq_iff_eq {n : Nat} {a b : CString} (ha : a.length ≤ n) (hb : b.length ≤ n) :
    strncmpEq n a b = true ↔ a = b := by
  rw [strncmpEq_iff, List.take_of_length_le ha, List.take_of_length_le hb]

/-- A comparison of more bytes than the second string has sees its end. -/
theorem eq_of_strncmpEq_succ {n : Nat} {a b : CString} (hb : b.length ≤ n)
    (h : strncmpEq (n + 1) a b = true) : a = b := by
  rw [strncmpEq_iff, List.take_of_length_le (Nat.le_succ_of_le hb)] at h
  have hlen := congrArg List.length h
  rw [List.length_take] at hlen
  rw [List.take_of_length_le (by omega)] at h
  exact h

theorem strncpy_length_le (n : Nat) (a : CString) : (strncpy n a).length ≤ n := by
  simp [strncpy]

theorem strncpy_of_length_le {n : Nat} {a : CString} (h : a.length ≤ n) : strncpy n a = a :=
  List.take_of_length_le h

/-! ## §1. Reading numbers. -/

/-- `isspace` in the C locale. -/
def isSpace (b : UInt8) : Bool := b == 32 || (9 ≤ b.toNat && b.toNat ≤ 13)

/-- `isdigit`. -/
def isDigit (b : UInt8) : Bool := 48 ≤ b.toNat && b.toNat ≤ 57

/-- The decimal digits at the front of `s`, read onto `acc`. -/
def readDigits (acc : Nat) : CString → Nat
  | [] => acc
  | b :: bs => if isDigit b then readDigits (10 * acc + (b.toNat - 48)) bs else acc

/-- `strtol(s, NULL, 10)` before clamping: blanks, an optional sign, digits. -/
def readSigned (s : CString) : Int :=
  match s.dropWhile isSpace with
  | 45 :: bs => -(readDigits 0 bs : Int)
  | 43 :: bs => (readDigits 0 bs : Int)
  | bs => (readDigits 0 bs : Int)

/-- `strtol(s, NULL, 10)`: out-of-range values clamp to the ends of a 64-bit `long`. -/
def strtol (s : CString) : Int :=
  max (-(2 ^ 63)) (min (2 ^ 63 - 1) (readSigned s))

/-- `atoi(s)`: `strtol` cut to a 32-bit `int`. -/
def atoi (s : CString) : Int := (strtol s).bmod (2 ^ 32)

/-- `atoi(s)` stored in an `unsigned int`. -/
def atou (s : CString) : Nat := ((atoi s) % (2 ^ 32)).toNat

/-! ## §2. Printing numbers. -/

/-- What `snprintf("%u")` prints for `n`. -/
def utoa (n : Nat) : CString := (Nat.toDigits 10 n).map fun c => c.toNat.toUInt8

/-- A decimal digit as a byte. -/
theorem digit_toNat {c : Char} (h : c.isDigit = true) :
    (c.toNat.toUInt8).toNat = c.toNat ∧ 48 ≤ c.toNat ∧ c.toNat ≤ 57 := by
  simp only [Char.isDigit, Bool.and_eq_true, decide_eq_true_eq, UInt32.le_iff_toNat_le] at h
  have hlo : 48 ≤ c.toNat := h.1
  have hhi : c.toNat ≤ 57 := h.2
  refine ⟨?_, hlo, hhi⟩
  show c.toNat % 2 ^ 8 = c.toNat
  omega

theorem isDigit_toUInt8 {c : Char} (h : c.isDigit = true) :
    isDigit c.toNat.toUInt8 = true := by
  obtain ⟨he, hlo, hhi⟩ := digit_toNat h
  simp [isDigit, he, hlo, hhi]

theorem isDigit_of_mem_utoa {n : Nat} {b : UInt8} (h : b ∈ utoa n) : isDigit b = true := by
  obtain ⟨c, hc, rfl⟩ := List.mem_map.1 h
  exact isDigit_toUInt8 (Nat.isDigit_of_mem_toDigits (by omega) (by omega) hc)

theorem utoa_ne_nil (n : Nat) : utoa n ≠ [] := by
  simp [utoa, Nat.toDigits_ne_nil]

theorem utoa_length_le {n : Nat} (h : n < 2 ^ 32) : (utoa n).length ≤ 10 := by
  rw [utoa, List.length_map, Nat.length_toDigits_le_iff (by omega) (by omega)]
  exact Nat.lt_of_lt_of_le h (by norm_num)

theorem readDigits_map (cs : List Char) (h : ∀ c ∈ cs, c.isDigit = true) :
    ∀ acc, readDigits acc (cs.map fun c => c.toNat.toUInt8) = Nat.ofDigitChars 10 cs acc := by
  induction cs with
  | nil => intro acc; simp [readDigits]
  | cons c cs ih =>
      intro acc
      obtain ⟨he, _, _⟩ := digit_toNat (h c (by simp))
      rw [List.map_cons, readDigits, if_pos (isDigit_toUInt8 (h c (by simp))), he,
          ih (fun d hd => h d (by simp [hd])), Nat.ofDigitChars_cons]
      rfl

theorem readDigits_utoa (n : Nat) : readDigits 0 (utoa n) = n := by
  rw [utoa, readDigits_map _ fun c hc => Nat.isDigit_of_mem_toDigits (by omega) (by omega) hc]
  exact Nat.ofDigitChars_toDigits (by omega) (by omega)

/-- Printed numbers start with a digit: no blank to skip and no sign to read. -/
theorem readSigned_utoa (n : Nat) : readSigned (utoa n) = n := by
  cases h : utoa n with
  | nil => exact absurd h (utoa_ne_nil n)
  | cons b bs =>
      have hd : isDigit b = true := isDigit_of_mem_utoa (n := n) (by rw [h]; simp)
      have hb : 48 ≤ b.toNat ∧ b.toNat ≤ 57 := by simpa [isDigit] using hd
      have hs : isSpace b = false := by
        have h32 : b ≠ 32 := by rintro rfl; exact absurd hb.1 (by decide)
        simp only [isSpace, Bool.or_eq_false_iff, beq_eq_false_iff_ne, ne_eq, h32,
          not_false_eq_true, Bool.and_eq_false_iff, decide_eq_false_iff_not, true_and]
        omega
      have h45 : b ≠ 45 := by rintro rfl; exact absurd hb.1 (by decide)
      have h43 : b ≠ 43 := by rintro rfl; exact absurd hb.1 (by decide)
      have hdrop : List.dropWhile isSpace (b :: bs) = b :: bs := by
        simp [hs]
      have hval : readDigits 0 (b :: bs) = n := by rw [← h]; exact readDigits_utoa n
      unfold readSigned
      rw [hdrop]
      split
      · next heq => exact absurd (List.cons.inj heq).1 h45
      · next heq => exact absurd (List.cons.inj heq).1 h43
      · rw [hval]

/-- **Printing then reading is the identity** on 32-bit unsigned numbers. -/
theorem atou_utoa {n : Nat} (h : n < 2 ^ 32) : atou (utoa n) = n := by
  have hst : strtol (utoa n) = n := by
    rw [strtol, readSigned_utoa]
    omega
  unfold atou atoi
  rw [hst, show ((2 : Int) ^ 32) = ((2 ^ 32 : Nat) : Int) from by norm_num, Int.bmod_emod,
      Int.emod_eq_of_lt (by omega) (by exact_mod_cast h)]
  exact Int.toNat_natCast n

example : atou (utoa 4294967295) = 4294967295 := by decide

/-! ## §3. Reading lines. -/

/-- What is left of the calls of `fgets` with a buffer for `n` bytes, `line`
being read already. -/
def fgetsFrom (n : Nat) (line : CString) : CString → List CString
  | [] => if line = [] then [] else [line]
  | b :: s =>
      if b = 10 ∨ line.length + 1 = n then (line ++ [b]) :: fgetsFrom n [] s
      else fgetsFrom n (line ++ [b]) s

/-- What successive calls of `fgets` with a buffer for `n` bytes return. -/
def fgets (n : Nat) (s : CString) : List CString := fgetsFrom n [] s

/-- A line that has room is read whole. -/
theorem fgetsFrom_line {n : Nat} {s w : CString} (hnl : 10 ∉ w) : ∀ {line : CString},
    line.length + w.length < n →
    fgetsFrom n line (w ++ 10 :: s) = (line ++ w ++ [10]) :: fgetsFrom n [] s := by
  induction w with
  | nil =>
      intro line _
      rw [List.nil_append, fgetsFrom, if_pos (Or.inl rfl), List.append_nil]
  | cons b w ih =>
      intro line hlen
      have hb : b ≠ 10 := fun h => hnl (h ▸ List.mem_cons_self ..)
      have hroom : (line ++ [b]).length + w.length < n := by
        rw [List.length_cons] at hlen
        rw [List.length_append, List.length_singleton]
        omega
      rw [List.length_cons] at hlen
      rw [List.cons_append, fgetsFrom, if_neg (not_or.2 ⟨hb, by omega⟩),
        ih (fun h => hnl (List.mem_cons_of_mem _ h)) hroom,
        List.append_assoc line]
      rfl

theorem fgets_line {n : Nat} {s w : CString} (hnl : 10 ∉ w) (hlen : w.length < n) :
    fgets n (w ++ 10 :: s) = (w ++ [10]) :: fgets n s := by
  unfold fgets
  rw [fgetsFrom_line hnl (by rwa [List.length_nil, Nat.zero_add])]
  rfl

/-- The buffer bounds every line. -/
theorem length_of_mem_fgetsFrom {n : Nat} {s : CString} : ∀ {line : CString}, line.length < n →
    ∀ w ∈ fgetsFrom n line s, w.length ≤ n := by
  induction s with
  | nil =>
      intro line hline w hw
      unfold fgetsFrom at hw
      split at hw
      · cases hw
      · rw [List.mem_singleton.1 hw]
        exact Nat.le_of_lt hline
  | cons b s ih =>
      intro line hline w hw
      have hlen : (line ++ [b]).length = line.length + 1 := List.length_append
      unfold fgetsFrom at hw
      split at hw
      · rcases List.mem_cons.1 hw with rfl | hw
        · omega
        · exact ih (Nat.lt_of_le_of_lt (Nat.zero_le _) hline) w hw
      · next hne => exact ih (by omega) w hw

theorem length_of_mem_fgets {n : Nat} {s w : CString} (hn : 0 < n) (h : w ∈ fgets n s) : w.length ≤ n :=
  length_of_mem_fgetsFrom hn w h

/-- The string without a newline at its end. -/
def chomp (s : CString) : CString := if s.getLast? = some 10 then s.dropLast else s

@[simp] theorem chomp_line (s : CString) : chomp (s ++ [10]) = s := by
  unfold chomp
  rw [List.getLast?_concat, if_pos rfl, List.dropLast_concat]

theorem chomp_length_le (s : CString) : (chomp s).length ≤ s.length := by
  unfold chomp
  split
  · rw [List.length_dropLast]
    exact Nat.sub_le _ _
  · exact Nat.le_refl _

/-- `strstr(s, needle)`. -/
def strstr (needle : CString) : CString → Option CString
  | [] => if needle = [] then some [] else none
  | b :: s => if needle.isPrefixOf (b :: s) then some (b :: s) else strstr needle s

/-- `strncmp(needle, s, strlen(needle)) == 0`. -/
def startsWith (needle s : CString) : Bool := needle.isPrefixOf s

end CString
