/-
  OvsAgent.Lib.Shell — how a POSIX shell splits a command line into words.

  `read` follows the token recognition and quoting rules (XCU 2.2, 2.3) for
  lists of simple commands: blanks end words, `;` and newlines end commands,
  quotes and backslashes are removed.  It answers `none` where the shell would
  do more than split: an expansion, a pipe, a redirection, a pattern.  Reserved
  words and assignments, which matter for the first word of a command only,
  are not looked for.

  A format is a list of parts, its own text and the fields substituted in it.
  The main result says when substitution is harmless:

      read (text of the format) = the format's own words
        ↔  every field is a word, or a part of one, at its place

  Whatever the fields, the text in front of them stays in front (`read_front`).
-/
import OvsAgent.Lib.CString
import Mathlib.Data.List.Infix

namespace Shell

/-! ## §1. The reader. -/

/-- What a byte is to the shell, outside quotes. -/
inductive ByteClass where
  | plain
  | blank
  | newline
  | semicolon
  | singleQuote
  | doubleQuote
  | backslash
  /-- A comment at the beginning of a word, plain elsewhere. -/
  | hash
  /-- A home directory at the beginning of a word, plain elsewhere. -/
  | tilde
  /-- `$` and the backquote. -/
  | expansion
  /-- `& | < > ( )`. -/
  | operator
  /-- `* ? [`. -/
  | pattern
  deriving Repr, DecidableEq

/-- The class of a byte. -/
def classify (b : UInt8) : ByteClass :=
  if b = 32 ∨ b = 9 then .blank
  else if b = 10 then .newline
  else if b = 59 then .semicolon
  else if b = 39 then .singleQuote
  else if b = 34 then .doubleQuote
  else if b = 92 then .backslash
  else if b = 35 then .hash
  else if b = 126 then .tilde
  else if b = 36 ∨ b = 96 then .expansion
  else if b = 38 ∨ b = 124 ∨ b = 60 ∨ b = 62 ∨ b = 40 ∨ b = 41 then .operator
  else if b = 42 ∨ b = 63 ∨ b = 91 then .pattern
  else .plain

/-- Where the reader stands. -/
inductive Mode where
  | unquoted
  | single
  | double
  | escaped
  /-- Behind a backslash in double quotes. -/
  | doubleEscaped
  | comment
  deriving Repr, DecidableEq

/-- The word that has begun, the words of the command and the commands so far. -/
structure State where
  mode : Mode
  word : Option CString
  words : List CString
  commands : List (List CString)
  deriving Repr, DecidableEq

/-- Before the first byte. -/
def start : State := ⟨.unquoted, none, [], []⟩

namespace State

/-- Bytes taken as they are into the word. -/
def take (s : State) (bytes : CString) : State := { s with word := some (s.word.getD [] ++ bytes) }

/-- The state in another mode. -/
def goto (s : State) (mode : Mode) : State := { s with mode := mode }

/-- The word under way, if there is one, is complete. -/
def endWord (s : State) : State :=
  match s.word with
  | none => s
  | some w => { s with word := none, words := s.words ++ [w] }

/-- The command ends, if there is one. -/
def endCommand (s : State) : State :=
  match s.endWord.words with
  | [] => s.endWord
  | w :: words => { s.endWord with words := [], commands := s.endWord.commands ++ [w :: words] }

end State

/-- One byte outside quotes. -/
def stepUnquoted (s : State) (b : UInt8) : Option State :=
  match classify b with
  | .plain => some (s.take [b])
  | .blank => some s.endWord
  | .newline => some s.endCommand
  | .semicolon => if s.endWord.words = [] then none else some s.endCommand
  | .singleQuote => some ((s.take []).goto .single)
  | .doubleQuote => some ((s.take []).goto .double)
  | .backslash => some (s.goto .escaped)
  | .hash => if s.word = none then some (s.goto .comment) else some (s.take [b])
  | .tilde => if s.word = none then none else some (s.take [b])
  | .expansion => none
  | .operator => none
  | .pattern => none

/-- One byte in double quotes. -/
def stepDouble (s : State) (b : UInt8) : Option State :=
  match classify b with
  | .doubleQuote => some (s.goto .unquoted)
  | .backslash => some (s.goto .doubleEscaped)
  | .expansion => none
  | _ => some (s.take [b])

/-- The byte after a backslash in double quotes; the backslash stays unless it
quotes something. -/
def stepDoubleEscaped (s : State) (b : UInt8) : State :=
  match classify b with
  | .doubleQuote => (s.take [b]).goto .double
  | .backslash => (s.take [b]).goto .double
  | .expansion => (s.take [b]).goto .double
  | .newline => s.goto .double
  | _ => (s.take [92, b]).goto .double

/-- One byte, by the mode. -/
def step (s : State) (b : UInt8) : Option State :=
  match s.mode with
  | .unquoted => stepUnquoted s b
  | .single => if b = 39 then some (s.goto .unquoted) else some (s.take [b])
  | .double => stepDouble s b
  -- an escaped newline is nothing at all
  | .escaped => some (if b = 10 then s.goto .unquoted else (s.take [b]).goto .unquoted)
  | .doubleEscaped => some (stepDoubleEscaped s b)
  | .comment => some (if b = 10 then s.endCommand.goto .unquoted else s)

/-- The bytes of a text, one after the other. -/
def run (s : State) : CString → Option State
  | [] => some s
  | b :: text => (step s b).bind fun s => run s text

/-- The commands at the end of the text; no quote may be open. -/
def finish (s : State) : Option (List (List CString)) :=
  match s.mode with
  | .unquoted => some s.endCommand.commands
  | .comment => some s.endCommand.commands
  | _ => none

/-- The commands of the text from a state on. -/
def readFrom (s : State) (text : CString) : Option (List (List CString)) := (run s text).bind finish

/-- The simple commands of a text, as lists of words. -/
def read (text : CString) : Option (List (List CString)) := readFrom start text

example : read (CString.ofString "a 'b c'; d\"e\"") =
    some [[CString.ofString "a", CString.ofString "b c"], [CString.ofString "de"]] := by decide

@[simp] theorem run_nil (s : State) : run s [] = some s := rfl

theorem run_cons (s : State) (b : UInt8) (text : CString) :
    run s (b :: text) = (step s b).bind fun s => run s text := rfl

/-- A text is read as its two halves. -/
theorem run_append (s : State) (t u : CString) : run s (t ++ u) = (run s t).bind fun s => run s u := by
  induction t generalizing s with
  | nil => rfl
  | cons b t ih =>
      rw [List.cons_append, run_cons, run_cons, Option.bind_assoc]
      cases step s b with
      | none => rfl
      | some s' => exact ih s'

/-- The same with the end of the text. -/
theorem readFrom_append (s : State) (t u : CString) :
    readFrom s (t ++ u) = (run s t).bind fun s => readFrom s u := by
  unfold readFrom
  rw [run_append, Option.bind_assoc]

/-- One byte on. -/
theorem readFrom_cons {s s' : State} {b : UInt8} (h : step s b = some s') (text : CString) :
    readFrom s (b :: text) = readFrom s' text := by
  unfold readFrom
  rw [run_cons, h]
  rfl

/-! ## §2. Formats. -/

/-- A part of a format: its own text, or a field. -/
inductive Part where
  | text (bytes : CString)
  | field (bytes : CString)
  deriving Repr, DecidableEq

/-- The bytes of a part. -/
def Part.bytes : Part → CString
  | .text bytes => bytes
  | .field bytes => bytes

/-- The text of the format with its fields in place. -/
def textOf (parts : List Part) : CString := parts.flatMap Part.bytes

/-- The format is read with every field taken as it stands into one word. -/
def runParts (s : State) : List Part → Option State
  | [] => some s
  | .text bytes :: parts => (run s bytes).bind fun s => runParts s parts
  | .field bytes :: parts => runParts (s.take bytes) parts

/-- The simple commands of the format itself. -/
def wordsFrom (s : State) (parts : List Part) : Option (List (List CString)) := (runParts s parts).bind finish

/-- The words of a format. -/
def wordsOf (parts : List Part) : Option (List (List CString)) := wordsFrom start parts

/-! ## §3. Completed words. -/

namespace State

/-- The words that are complete. -/
def done (s : State) : List CString := s.commands.flatten ++ s.words

/-- These and the word that has begun. -/
def all (s : State) : List CString := s.done ++ s.word.toList

@[simp] theorem take_done (s : State) (bytes : CString) : (s.take bytes).done = s.done := rfl
@[simp] theorem take_word (s : State) (bytes : CString) :
    (s.take bytes).word = some (s.word.getD [] ++ bytes) := rfl
@[simp] theorem take_mode (s : State) (bytes : CString) : (s.take bytes).mode = s.mode := rfl
@[simp] theorem goto_done (s : State) (mode : Mode) : (s.goto mode).done = s.done := rfl
@[simp] theorem goto_word (s : State) (mode : Mode) : (s.goto mode).word = s.word := rfl
@[simp] theorem goto_mode (s : State) (mode : Mode) : (s.goto mode).mode = mode := rfl

/-- Bytes taken together. -/
theorem take_take (s : State) (t u : CString) : (s.take t).take u = s.take (t ++ u) := by
  unfold take
  simp [List.append_assoc]

@[simp] theorem endWord_word (s : State) : s.endWord.word = none := by
  unfold endWord
  cases h : s.word <;> simp [h]

@[simp] theorem endWord_mode (s : State) : s.endWord.mode = s.mode := by
  unfold endWord
  cases s.word <;> rfl

/-- The word under way counts among those read. -/
@[simp] theorem endWord_done (s : State) : s.endWord.done = s.all := by
  unfold endWord all done
  cases s.word <;> simp

@[simp] theorem endCommand_word (s : State) : s.endCommand.word = none := by
  unfold endCommand
  split
  · exact endWord_word s
  · exact endWord_word s

@[simp] theorem endCommand_mode (s : State) : s.endCommand.mode = s.mode := by
  unfold endCommand
  split
  · exact endWord_mode s
  · exact endWord_mode s

@[simp] theorem endCommand_done (s : State) : s.endCommand.done = s.all := by
  rw [← endWord_done]
  unfold endCommand
  split
  · rfl
  · next w words h =>
      show (s.endWord.commands ++ [w :: words]).flatten ++ [] = s.endWord.commands.flatten ++ s.endWord.words
      rw [h, List.flatten_append, List.append_nil, List.flatten_singleton]

/-- Behind the end of a command no words are left over. -/
theorem endCommand_words (s : State) : s.endCommand.words = [] := by
  unfold endCommand
  split
  · next h => exact h
  · rfl

end State

/-- What is finished is all that was read. -/
theorem finish_flatten {s : State} {out : List (List CString)} (h : finish s = some out) :
    out.flatten = s.all ∧ (s.mode = .unquoted ∨ s.mode = .comment) := by
  have hall : s.endCommand.commands.flatten = s.all := by
    rw [← State.endCommand_done]
    unfold State.done
    rw [State.endCommand_words, List.append_nil]
  unfold finish at h
  split at h
  · next hm => cases h; exact ⟨hall, Or.inl hm⟩
  · next hm => cases h; exact ⟨hall, Or.inr hm⟩
  · cases h

/-- The ways a step can end: bytes are taken, a word or a command ends, or
nothing but the mode changes. -/
inductive Moves (s : State) : State → Prop where
  | take (bytes : CString) (mode : Mode) : Moves s ((s.take bytes).goto mode)
  | endWord : Moves s s.endWord
  | endCommand (mode : Mode) : Moves s (s.endCommand.goto mode)
  | goto (mode : Mode) : Moves s (s.goto mode)

/-- Taking bytes moves the word. -/
theorem moves_take (s : State) (bytes : CString) : Moves s (s.take bytes) := .take bytes s.mode

/-- Ending a command ends its word. -/
theorem moves_endCommand (s : State) : Moves s s.endCommand := by
  have h : s.endCommand.goto s.mode = s.endCommand := by
    rw [← State.endCommand_mode s]
    rfl
  rw [← h]
  exact .endCommand s.mode

/-- **Inversion of a step.** -/
theorem step_moves {s s' : State} {b : UInt8} (h : step s b = some s') : Moves s s' := by
  unfold step at h
  split at h
  · unfold stepUnquoted at h
    split at h
    · cases h; exact moves_take _ _
    · cases h; exact .endWord
    · cases h; exact moves_endCommand s
    · split at h
      · cases h
      · cases h; exact moves_endCommand s
    · cases h; exact .take _ _
    · cases h; exact .take _ _
    · cases h; exact .goto _
    · split at h
      · cases h; exact .goto _
      · cases h; exact moves_take _ _
    · split at h
      · cases h
      · cases h; exact moves_take _ _
    · cases h
    · cases h
    · cases h
  · split at h
    · cases h; exact .goto _
    · cases h; exact moves_take _ _
  · unfold stepDouble at h
    split at h
    · cases h; exact .goto _
    · cases h; exact .goto _
    · cases h
    · cases h; exact moves_take _ _
  · cases h
    split
    · exact .goto _
    · exact .take _ _
  · cases h
    unfold stepDoubleEscaped
    split
    · exact .take _ _
    · exact .take _ _
    · exact .take _ _
    · exact .goto _
    · exact .take _ _
  · cases h
    split
    · exact .endCommand _
    · exact .goto s.mode

/-- A list in which `w` was begun behind `ws`. -/
def Begun (ws : List CString) (w : CString) (all : List CString) : Prop :=
  ∃ w' rest, all = ws ++ w' :: rest ∧ w <+: w'

/-- Completed words stay. -/
theorem moves_done {s s' : State} (h : Moves s s') : s.done <+: s'.done := by
  cases h with
  | take bytes mode => exact List.prefix_refl _
  | endWord => rw [State.endWord_done]; exact List.prefix_append _ _
  | endCommand mode => rw [State.goto_done, State.endCommand_done]; exact List.prefix_append _ _
  | goto mode => exact List.prefix_refl _

/-- A word that was begun goes on. -/
theorem moves_begun {s s' : State} {ws : List CString} {w : CString} (h : Moves s s')
    (hb : Begun ws w s.all) :
    Begun ws w s'.all := by
  cases h with
  | goto mode => exact hb
  | endWord =>
      show Begun ws w (s.endWord.done ++ s.endWord.word.toList)
      rw [State.endWord_done, State.endWord_word]
      simpa using hb
  | endCommand mode =>
      show Begun ws w (s.endCommand.done ++ s.endCommand.word.toList)
      rw [State.endCommand_done, State.endCommand_word]
      simpa using hb
  | take bytes mode =>
      obtain ⟨w', rest, hall, hw⟩ := hb
      show Begun ws w (s.done ++ [s.word.getD [] ++ bytes])
      unfold State.all at hall
      cases hword : s.word with
      | none =>
          rw [hword] at hall
          refine ⟨w', rest ++ [[] ++ bytes], ?_, hw⟩
          have hall : s.done = ws ++ w' :: rest := by simpa using hall
          rw [hall]
          simp
      | some v =>
          rw [hword] at hall
          have hall : s.done ++ [v] = ws ++ w' :: rest := hall
          -- the word taken into is the last one
          rcases List.eq_nil_or_concat rest with rfl | ⟨rest', v', rfl⟩
          · obtain ⟨hd, hv⟩ := List.append_inj' hall rfl
            have hv : v = w' := List.singleton_inj.1 hv
            exact ⟨v ++ bytes, [], by rw [hd]; rfl, (hv ▸ hw).trans (List.prefix_append _ _)⟩
          · have hall : s.done ++ [v] = (ws ++ w' :: rest') ++ [v'] := by simpa using hall
            obtain ⟨hd, _⟩ := List.append_inj' hall rfl
            exact ⟨w', rest' ++ [v ++ bytes], by rw [hd]; simp, hw⟩

/-- What every step keeps, a text keeps. -/
theorem run_keeps {P : State → Prop} (hP : ∀ s s', Moves s s' → P s → P s') {t : CString} :
    ∀ {s s' : State}, run s t = some s' → P s → P s' := by
  induction t with
  | nil => intro s s' h hs; cases h; exact hs
  | cons b t ih =>
      intro s s' h hs
      obtain ⟨s₁, hstep, hrun⟩ := Option.bind_eq_some_iff.1 h
      exact ih hrun (hP s s₁ (step_moves hstep) hs)

/-- And so does a format. -/
theorem runParts_keeps {P : State → Prop} (hP : ∀ s s', Moves s s' → P s → P s') {parts : List Part} :
    ∀ {s s' : State}, runParts s parts = some s' → P s → P s' := by
  induction parts with
  | nil => intro s s' h hs; cases h; exact hs
  | cons part parts ih =>
      intro s s' h hs
      cases part with
      | text bytes =>
          obtain ⟨s₁, hrun₁, hrun⟩ := Option.bind_eq_some_iff.1 h
          exact ih hrun (run_keeps hP hrun₁ hs)
      | field bytes => exact ih h (hP s _ (moves_take s bytes) hs)

/-- Words that are complete stay as they are. -/
theorem run_done {t : CString} {s s' : State} (h : run s t = some s') : s.done <+: s'.done :=
  run_keeps (P := fun r => s.done <+: r.done) (fun _ _ hmoves hs => hs.trans (moves_done hmoves)) h
    (List.prefix_refl _)

/-! ## §4. No byte makes more than itself. -/

/-- The bytes of a word, double quotes not counted. -/
def weight (w : CString) : Nat := w.countP (· ≠ 34)

/-- The bytes of the words and one for the end of each. -/
def size (ws : List CString) : Nat := (ws.map fun w => weight w + 1).sum

/-- The double quotes in the words. -/
def quotes (ws : List CString) : Nat := (ws.map fun w => w.count 34).sum

@[simp] theorem weight_nil : weight [] = 0 := rfl
@[simp] theorem weight_append (t u : CString) : weight (t ++ u) = weight t + weight u := List.countP_append ..

/-- The weight of a text is that of its bytes. -/
theorem weight_cons (b : UInt8) (t : CString) : weight (b :: t) = weight [b] + weight t :=
  weight_append [b] t

/-- A byte that is no quote weighs one. -/
theorem weight_byte {b : UInt8} (h : b ≠ 34) : weight [b] = 1 := by
  unfold weight
  rw [List.countP_singleton, if_pos (by simpa using h)]

@[simp] theorem size_nil : size [] = 0 := rfl
@[simp] theorem size_append (ws vs : List CString) : size (ws ++ vs) = size ws + size vs := by
  unfold size
  rw [List.map_append, List.sum_append]
@[simp] theorem size_singleton (w : CString) : size [w] = weight w + 1 := rfl

@[simp] theorem quotes_nil : quotes [] = 0 := rfl
@[simp] theorem quotes_append (ws vs : List CString) : quotes (ws ++ vs) = quotes ws + quotes vs := by
  unfold quotes
  rw [List.map_append, List.sum_append]
@[simp] theorem quotes_singleton (w : CString) : quotes [w] = w.count 34 := rfl

namespace State

/-- The size of what is read, with a backslash in double quotes that may yet stay. -/
def size (s : State) : Nat :=
  Shell.size s.done + weight (s.word.getD []) + if s.mode = .doubleEscaped then 1 else 0

/-- The double quotes in what is read. -/
def quotes (s : State) : Nat := Shell.quotes s.done + (s.word.getD []).count 34

@[simp] theorem take_quotes (s : State) (bytes : CString) :
    (s.take bytes).quotes = s.quotes + bytes.count 34 := by
  unfold quotes
  rw [take_done, take_word, Option.getD_some, List.count_append, Nat.add_assoc]

@[simp] theorem goto_quotes (s : State) (mode : Mode) : (s.goto mode).quotes = s.quotes := rfl

/-- Ending a word moves its quotes. -/
theorem quotes_of_ended {s s' : State} (hw : s'.word = none) (hd : s'.done = s.all) :
    s'.quotes = s.quotes := by
  unfold quotes all at *
  rw [hw, hd, quotes_append]
  cases s.word with
  | none => rfl
  | some w => rfl

@[simp] theorem endWord_quotes (s : State) : s.endWord.quotes = s.quotes :=
  quotes_of_ended (endWord_word s) (endWord_done s)

@[simp] theorem endCommand_quotes (s : State) : s.endCommand.quotes = s.quotes :=
  quotes_of_ended (endCommand_word s) (endCommand_done s)

/-- The size outside an escape. -/
theorem size_of_mode {s : State} (h : s.mode ≠ .doubleEscaped) :
    s.size = Shell.size s.done + weight (s.word.getD []) := by
  unfold size
  rw [if_neg h, Nat.add_zero]

/-- Taking bytes grows the size by their weight. -/
theorem size_take {s : State} (h : s.mode ≠ .doubleEscaped) (bytes : CString) :
    (s.take bytes).size = s.size + weight bytes := by
  rw [size_of_mode h, size_of_mode (s := s.take bytes) h, take_done, take_word, Option.getD_some,
    weight_append, Nat.add_assoc]

/-- Another mode, no other size: outside the escape in double quotes. -/
theorem size_goto {s : State} {mode : Mode} (h : s.mode ≠ .doubleEscaped) (h' : mode ≠ .doubleEscaped) :
    (s.goto mode).size = s.size := by
  rw [size_of_mode h, size_of_mode (s := s.goto mode) h']
  rfl

/-- The end of a word is one more, if there is a word. -/
theorem size_of_ended {s s' : State} (hm : s.mode ≠ .doubleEscaped) (hm' : s'.mode ≠ .doubleEscaped)
    (hw : s'.word = none) (hd : s'.done = s.all) : s'.size = s.size + if s.word = none then 0 else 1 := by
  rw [size_of_mode hm, size_of_mode hm', hw, hd]
  unfold all
  rw [size_append]
  cases s.word with
  | none => simp
  | some w => simp; omega

end State

/-- The modes in which a double quote is taken into a word only with a loss. -/
def Mode.Keeps (mode : Mode) : Prop := mode = .unquoted ∨ mode = .double ∨ mode = .doubleEscaped

/-- The quote is the only byte of its class. -/
theorem classify_doubleQuote {b : UInt8} : classify b = .doubleQuote ↔ b = 34 := by
  constructor
  · intro h
    by_contra hne
    unfold classify at h
    rw [if_neg hne] at h
    split_ifs at h
  · rintro rfl
    rfl

/-- A byte of another class is no quote. -/
theorem ne_of_classify {b : UInt8} {c : ByteClass} (h : classify b = c) (hc : c ≠ .doubleQuote) :
    b ≠ 34 :=
  fun hb => hc (h ▸ classify_doubleQuote.2 hb)

theorem count_byte {b : UInt8} (h : b ≠ 34) : List.count 34 [b] = 0 := by
  rw [List.count_singleton, if_neg (by simpa using h)]

/-- What a step may do with a byte: no more than keep it, and double quotes
appear with a loss only. -/
def Accounts (s : State) (b : UInt8) (s' : State) : Prop :=
  s'.size < s.size + weight [b] ∨
    (s'.size ≤ s.size + weight [b] ∧ (s.mode.Keeps → s'.quotes = s.quotes ∧ s'.mode.Keeps))

/-- A byte that is taken as it is. -/
theorem accounts_take {s : State} {b : UInt8} (h : b ≠ 34) (hm : s.mode ≠ .doubleEscaped) :
    Accounts s b (s.take [b]) := by
  refine Or.inr ⟨Nat.le_of_eq (State.size_take hm [b]), fun hk => ⟨?_, hk⟩⟩
  rw [State.take_quotes, count_byte h, Nat.add_zero]

/-- A byte that ends a word. -/
theorem accounts_ended {s s' : State} {b : UInt8} (h : b ≠ 34) (hm : s.mode ≠ .doubleEscaped)
    (hm' : s'.mode = .unquoted) (hw : s'.word = none) (hd : s'.done = s.all) : Accounts s b s' := by
  refine Or.inr ⟨?_, fun _ => ⟨State.quotes_of_ended hw hd, Or.inl hm'⟩⟩
  rw [State.size_of_ended hm (by rw [hm']; decide) hw hd, weight_byte h]
  split <;> omega

/-- Outside quotes a byte makes no more than itself. -/
theorem stepUnquoted_accounts {s s' : State} {b : UInt8} (hm : s.mode = .unquoted)
    (h : stepUnquoted s b = some s') : Accounts s b s' := by
  have hm' : s.mode ≠ .doubleEscaped := by rw [hm]; decide
  unfold stepUnquoted at h
  split at h
  · next hb => cases h; exact accounts_take (ne_of_classify hb (by decide)) hm'
  · next hb =>
      cases h
      exact accounts_ended (ne_of_classify hb (by decide)) hm' (s.endWord_mode.trans hm) s.endWord_word
        s.endWord_done
  · next hb =>
      cases h
      exact accounts_ended (ne_of_classify hb (by decide)) hm' (s.endCommand_mode.trans hm) s.endCommand_word
        s.endCommand_done
  · next hb =>
      split at h
      · cases h
      · cases h
        exact accounts_ended (ne_of_classify hb (by decide)) hm' (s.endCommand_mode.trans hm)
          s.endCommand_word s.endCommand_done
  · next hb =>
      -- a single quote is lost
      cases h
      refine Or.inl ?_
      rw [State.size_goto (s := s.take []) hm' (by decide), State.size_take hm', weight_nil,
        weight_byte (ne_of_classify hb (by decide))]
      omega
  · next hb =>
      cases h
      refine Or.inr ⟨?_, fun _ => ⟨by simp, Or.inr (Or.inl rfl)⟩⟩
      rw [State.size_goto (s := s.take []) hm' (by decide), State.size_take hm', weight_nil]
      omega
  · next hb =>
      cases h
      refine Or.inl ?_
      rw [State.size_goto hm' (by decide), weight_byte (ne_of_classify hb (by decide))]
      omega
  · next hb =>
      split at h
      · cases h
        refine Or.inl ?_
        rw [State.size_goto hm' (by decide), weight_byte (ne_of_classify hb (by decide))]
        omega
      · cases h; exact accounts_take (ne_of_classify hb (by decide)) hm'
  · next hb =>
      split at h
      · cases h
      · cases h; exact accounts_take (ne_of_classify hb (by decide)) hm'
  · cases h
  · cases h
  · cases h

/-- Nor inside them. -/
theorem stepDouble_accounts {s s' : State} {b : UInt8} (hm : s.mode = .double)
    (h : stepDouble s b = some s') : Accounts s b s' := by
  have hm' : s.mode ≠ .doubleEscaped := by rw [hm]; decide
  unfold stepDouble at h
  split at h
  · cases h
    refine Or.inr ⟨?_, fun _ => ⟨by simp, Or.inl rfl⟩⟩
    rw [State.size_goto hm' (by decide)]
    exact Nat.le_add_right _ _
  · next hb =>
      -- the backslash may yet stay
      cases h
      refine Or.inr ⟨?_, fun _ => ⟨by simp, Or.inr (Or.inr rfl)⟩⟩
      rw [State.size_of_mode hm', weight_byte (ne_of_classify hb (by decide))]
      exact Nat.le_refl _
  · cases h
  · next hb _ _ =>
      cases h
      exact accounts_take (fun h34 => hb (classify_doubleQuote.2 h34)) hm'

/-- Behind a backslash the byte has that one to spend as well. -/
theorem stepDoubleEscaped_accounts {s : State} (b : UInt8) (hm : s.mode = .doubleEscaped) :
    Accounts s b (stepDoubleEscaped s b) := by
  have hs : s.size = size s.done + weight (s.word.getD []) + 1 := by
    unfold State.size
    rw [if_pos hm]
  have hgoto : ∀ bytes, ((s.take bytes).goto .double).size = size s.done + weight (s.word.getD []) +
      weight bytes := by
    intro bytes
    rw [State.size_of_mode (s := (s.take bytes).goto .double) (by simp)]
    simp [Nat.add_assoc]
  -- behind a backslash that is lost
  have hlost : Accounts s b ((s.take [b]).goto .double) := by
    refine Or.inl ?_
    rw [hgoto, hs]
    omega
  unfold stepDoubleEscaped
  split
  · exact hlost
  · exact hlost
  · exact hlost
  · refine Or.inl ?_
    rw [State.size_of_mode (s := s.goto .double) (by simp), hs]
    simp
    omega
  · next hb _ _ _ =>
      have hne : b ≠ 34 := fun h34 => hb (classify_doubleQuote.2 h34)
      refine Or.inr ⟨?_, fun _ => ⟨?_, Or.inr (Or.inl rfl)⟩⟩
      · exact Nat.le_of_eq (by rw [hgoto, hs, weight_cons, weight_byte hne, weight_byte (by decide)])
      · rw [State.goto_quotes, State.take_quotes, List.count_cons, count_byte hne]
        rfl

/-- **No byte makes more than itself**: each is kept, or lost, or ends a word. -/
theorem step_accounts {s s' : State} {b : UInt8} (h : step s b = some s') : Accounts s b s' := by
  unfold step at h
  split at h
  · next hm => exact stepUnquoted_accounts hm h
  · next hm =>
      have hm' : s.mode ≠ .doubleEscaped := by rw [hm]; decide
      have hk : ¬ s.mode.Keeps := by rw [hm]; unfold Mode.Keeps; decide
      split at h
      · cases h
        refine Or.inr ⟨?_, fun hkeeps => absurd hkeeps hk⟩
        rw [State.size_goto hm' (by decide)]
        omega
      · cases h
        exact Or.inr ⟨Nat.le_of_eq (State.size_take hm' _), fun hkeeps => absurd hkeeps hk⟩
  · next hm => exact stepDouble_accounts hm h
  · next hm =>
      have hm' : s.mode ≠ .doubleEscaped := by rw [hm]; decide
      have hk : ¬ s.mode.Keeps := by rw [hm]; unfold Mode.Keeps; decide
      cases h
      refine Or.inr ⟨?_, fun hkeeps => absurd hkeeps hk⟩
      split
      · rw [State.size_goto hm' (by decide)]
        omega
      · rw [State.size_goto (s := s.take [b]) hm' (by decide), State.size_take hm']
  · next hm => cases h; exact stepDoubleEscaped_accounts b hm
  · next hm =>
      have hm' : s.mode ≠ .doubleEscaped := by rw [hm]; decide
      have hk : ¬ s.mode.Keeps := by rw [hm]; unfold Mode.Keeps; decide
      cases h
      refine Or.inr ⟨?_, fun hkeeps => absurd hkeeps hk⟩
      split
      · next hb =>
          -- a newline ends the command that the comment stands in
          have hsize := @State.size_of_ended s (s.endCommand.goto .unquoted) hm' (by simp) (by simp) (by simp)
          rw [hsize, weight_byte (by rw [hb]; decide)]
          split <;> omega
      · omega

/-- A text makes no more than itself and the end of its last word. -/
theorem readFrom_size {t : CString} : ∀ {s : State} {out : List (List CString)}, readFrom s t = some out →
    size out.flatten ≤ s.size + weight t + 1 := by
  induction t with
  | nil =>
      intro s out h
      obtain ⟨hall, hm⟩ := finish_flatten h
      have hm' : s.mode ≠ .doubleEscaped := by rcases hm with hm | hm <;> rw [hm] <;> decide
      rw [hall, State.size_of_mode hm']
      unfold State.all
      cases s.word with
      | none => simp
      | some w => simp [Nat.add_assoc]
  | cons b t ih =>
      intro s out h
      obtain ⟨s', hrun, hfin⟩ := Option.bind_eq_some_iff.1 h
      obtain ⟨s₁, hs, hrun⟩ := Option.bind_eq_some_iff.1 hrun
      have hle : s₁.size ≤ s.size + weight [b] := (step_accounts hs).elim Nat.le_of_lt And.left
      have hrest : readFrom s₁ t = some out := Option.bind_eq_some_iff.2 ⟨s', hrun, hfin⟩
      have hout := ih hrest
      rw [weight_cons]
      omega

/-- Without a word that has begun there is none to end. -/
theorem finish_size {s : State} {out : List (List CString)} (hw : s.word = none) (h : finish s = some out) :
    size out.flatten ≤ s.size := by
  obtain ⟨hall, hm⟩ := finish_flatten h
  have hm' : s.mode ≠ .doubleEscaped := by rcases hm with hm | hm <;> rw [hm] <;> decide
  rw [hall, State.size_of_mode hm']
  unfold State.all
  rw [hw]
  simp

/-- **Double quotes are never made.**  Outside single quotes, a text that
loses nothing has as many of them at its end as before. -/
theorem readFrom_quotes {t : CString} : ∀ {s : State} {out : List (List CString)}, s.mode.Keeps →
    readFrom s t = some out → size out.flatten ≤ s.size + weight t ∨ quotes out.flatten = s.quotes := by
  induction t with
  | nil =>
      intro s out _ h
      obtain ⟨hall, _⟩ := finish_flatten h
      refine Or.inr ?_
      rw [hall]
      unfold State.all State.quotes
      cases s.word with
      | none => simp
      | some w => simp
  | cons b t ih =>
      intro s out hk h
      obtain ⟨s', hrun, hfin⟩ := Option.bind_eq_some_iff.1 h
      obtain ⟨s₁, hs, hrun⟩ := Option.bind_eq_some_iff.1 hrun
      have hrest : readFrom s₁ t = some out := Option.bind_eq_some_iff.2 ⟨s', hrun, hfin⟩
      rw [weight_cons]
      rcases step_accounts hs with hlt | ⟨hle, hkeep⟩
      · have hout := readFrom_size hrest
        exact Or.inl (by omega)
      · obtain ⟨hq, hk₁⟩ := hkeep hk
        rcases ih hk₁ hrest with hout | hout
        · exact Or.inl (by omega)
        · exact Or.inr (hout.trans hq)

/-! ## §5. Words and tight formats. -/

/-- The byte belongs to a word, if it is not the first. -/
def InsideByte (b : UInt8) : Prop := classify b = .plain ∨ classify b = .hash ∨ classify b = .tilde

instance (b : UInt8) : Decidable (InsideByte b) := inferInstanceAs (Decidable (_ ∨ _ ∨ _))

/-- The bytes are a part of a word, behind its beginning. -/
def InWord (w : CString) : Prop := ∀ b ∈ w, InsideByte b

instance (w : CString) : Decidable (InWord w) := List.decidableBAll InsideByte w

/-- The bytes are a word. -/
def IsWord : CString → Prop
  | [] => False
  | b :: w => classify b = .plain ∧ InWord w

instance : (w : CString) → Decidable (IsWord w)
  | [] => inferInstanceAs (Decidable False)
  | b :: w => inferInstanceAs (Decidable (classify b = .plain ∧ InWord w))

/-- A word may stand inside a word. -/
theorem IsWord.inWord {w : CString} (h : IsWord w) : InWord w := by
  cases w with
  | nil => cases h
  | cons b w =>
      intro x hx
      rcases List.mem_cons.1 hx with rfl | hx
      · exact Or.inl h.1
      · exact h.2 x hx

/-- What may stand inside a word, byte by byte. -/
theorem inWord_append {v w : CString} : InWord (v ++ w) ↔ InWord v ∧ InWord w := List.forall_mem_append

/-- Only the front of a word is special. -/
theorem isWord_append {v w : CString} (h : IsWord v) : IsWord (v ++ w) ↔ InWord w := by
  cases v with
  | nil => cases h
  | cons b v =>
      show classify b = .plain ∧ InWord (v ++ w) ↔ _
      rw [inWord_append]
      exact ⟨fun hw => hw.2.2, fun hw => ⟨h.1, h.2, hw⟩⟩

/-- A place in the text of a format. -/
inductive Place where
  | start
  /-- Behind a field at the beginning of a word. -/
  | behind
  | inside
  | quoted
  deriving Repr, DecidableEq

/-- The place behind a byte of a tight format: single blanks, no quotes but
double ones around a word. -/
def scanByte (p : Place) (b : UInt8) : Option Place :=
  match p with
  | .start =>
      match classify b with
      | .plain => some .inside
      | .doubleQuote => some .quoted
      | _ => none
  | .behind => if classify b = .blank then some .start else none
  | .inside => if InsideByte b then some .inside else if classify b = .blank then some .start else none
  | .quoted =>
      match classify b with
      | .doubleQuote => some .inside
      | .backslash => none
      | .expansion => none
      | _ => some .quoted

/-- The place behind a text. -/
def scanText (p : Place) : CString → Option Place
  | [] => some p
  | b :: t => (scanByte p b).bind fun p => scanText p t

/-- The format keeps its words apart, and a field in quotes is one of `words`,
which are, or have been, words of their own. -/
def Tight : Place → List CString → List Part → Prop
  | p, _, [] => p = .behind ∨ p = .inside
  | p, words, .text bytes :: parts =>
      match scanText p bytes with
      | some p => Tight p words parts
      | none => False
  | .start, words, .field w :: parts => Tight .behind (w :: words) parts
  | .behind, _, .field _ :: _ => False
  | .inside, words, .field _ :: parts => Tight .inside words parts
  | .quoted, words, .field w :: parts => w ∈ words ∧ Tight .quoted words parts

/-- Every field is a word, or a part of one, at its place. -/
def FieldsFit : Place → List Part → Prop
  | _, [] => True
  | p, .text bytes :: parts =>
      match scanText p bytes with
      | some p => FieldsFit p parts
      | none => False
  | .start, .field w :: parts => IsWord w ∧ FieldsFit .behind parts
  | .behind, .field _ :: _ => False
  | .inside, .field w :: parts => InWord w ∧ FieldsFit .inside parts
  | .quoted, .field _ :: parts => FieldsFit .quoted parts

/-- The reader stands at the place. -/
def State.At (s : State) : Place → Prop
  | .start => s.mode = .unquoted ∧ s.word = none
  | .behind => s.mode = .unquoted ∧ s.word ≠ none
  | .inside => s.mode = .unquoted ∧ s.word ≠ none
  | .quoted => s.mode = .double ∧ s.word ≠ none

/-- The reader starts at the start of a word. -/
theorem start_at : start.At .start := ⟨rfl, rfl⟩

/-- No place is in an escape. -/
theorem State.At.mode_ne {s : State} {p : Place} (h : s.At p) : s.mode ≠ .doubleEscaped := by
  cases p <;> rw [h.1] <;> decide

/-- Behind a taken byte the reader is inside a word. -/
theorem State.At.take {s : State} (h : s.mode = .unquoted) (bytes : CString) : (s.take bytes).At .inside :=
  ⟨h, by simp⟩

/-- Inside a word an ordinary byte is taken. -/
theorem step_inside {s : State} {b : UInt8} (hs : s.At .inside) (hb : InsideByte b) :
    step s b = some (s.take [b]) := by
  unfold step stepUnquoted
  rw [hs.1]
  rcases hb with hb | hb | hb
  · simp [hb]
  · simp [hb, hs.2]
  · simp [hb, hs.2]

/-- A blank ends the word. -/
theorem step_blank {s : State} {b : UInt8} (hm : s.mode = .unquoted) (hb : classify b = .blank) :
    step s b = some s.endWord := by
  unfold step stepUnquoted
  rw [hm]
  simp [hb]

/-- A byte of a tight format is kept, blanks by the word they end. -/
theorem scanByte_step {p p' : Place} {s : State} {b : UInt8} (h : scanByte p b = some p') (hs : s.At p) :
    ∃ s', step s b = some s' ∧ s'.At p' ∧ s'.size = s.size + weight [b] := by
  have hm := hs.mode_ne
  -- a blank behind a word
  have hblank : s.At .inside → classify b = .blank →
      ∃ s', step s b = some s' ∧ s'.At .start ∧ s'.size = s.size + weight [b] := by
    intro hin hb
    refine ⟨s.endWord, step_blank hin.1 hb, ⟨s.endWord_mode.trans hin.1, s.endWord_word⟩, ?_⟩
    rw [State.size_of_ended hm (by rw [s.endWord_mode]; exact hm) s.endWord_word s.endWord_done,
      if_neg hin.2, weight_byte (ne_of_classify hb (by decide))]
  cases p with
  | start =>
      unfold scanByte at h
      dsimp only at h
      split at h
      · next hb =>
          cases h
          refine ⟨s.take [b], ?_, State.At.take hs.1 [b], State.size_take hm [b]⟩
          unfold step stepUnquoted
          rw [hs.1]
          simp [hb]
      · next hb =>
          cases h
          refine ⟨(s.take []).goto .double, ?_, ⟨rfl, by simp⟩, ?_⟩
          · unfold step stepUnquoted
            rw [hs.1]
            simp [hb]
          · rw [State.size_goto (s := s.take []) hm (by decide), State.size_take hm,
              classify_doubleQuote.1 hb]
            rfl
      · cases h
  | behind =>
      unfold scanByte at h
      dsimp only at h
      split at h
      · next hb => cases h; exact hblank hs hb
      · cases h
  | inside =>
      unfold scanByte at h
      dsimp only at h
      split at h
      · next hb =>
          cases h
          exact ⟨s.take [b], step_inside hs hb, State.At.take hs.1 [b], State.size_take hm [b]⟩
      · split at h
        · next hb => cases h; exact hblank hs hb
        · cases h
  | quoted =>
      unfold scanByte at h
      dsimp only at h
      split at h
      · next hb =>
          cases h
          refine ⟨s.goto .unquoted, ?_, ⟨rfl, hs.2⟩, ?_⟩
          · unfold step stepDouble
            rw [hs.1]
            simp [hb]
          · rw [State.size_goto hm (by decide), classify_doubleQuote.1 hb]
            rfl
      · cases h
      · cases h
      · next hq hbs hex =>
          cases h
          refine ⟨s.take [b], ?_, ⟨hs.1, by simp⟩, State.size_take hm [b]⟩
          unfold step stepDouble
          rw [hs.1]
          dsimp only
          split
          · next hb => exact absurd hb hq
          · next hb => exact absurd hb hbs
          · next hb => exact absurd hb hex
          · rfl

/-- The reader goes where the scan does, and reads all of the text. -/
theorem scanText_run {t : CString} : ∀ {p p' : Place} {s : State}, scanText p t = some p' → s.At p →
    ∃ s', run s t = some s' ∧ s'.At p' ∧ s'.size = s.size + weight t := by
  induction t with
  | nil => intro p p' s h hs; cases h; exact ⟨s, rfl, hs, rfl⟩
  | cons b t ih =>
      intro p p' s h hs
      obtain ⟨p₁, hb, ht⟩ := Option.bind_eq_some_iff.1 h
      obtain ⟨s₁, hstep, hs₁, hsize₁⟩ := scanByte_step hb hs
      obtain ⟨s', hrun, hs', hsize'⟩ := ih ht hs₁
      refine ⟨s', ?_, hs', ?_⟩
      · rw [run_cons, hstep]
        exact hrun
      · rw [hsize', hsize₁, weight_cons b t]
        omega

/-- **A tight format makes all of itself.** -/
theorem runParts_tight {parts : List Part} : ∀ {p : Place} {words : List CString} {s : State},
    Tight p words parts → s.At p →
    ∃ s', runParts s parts = some s' ∧ s'.At .inside ∧ s'.size = s.size + weight (textOf parts) := by
  induction parts with
  | nil =>
      intro p words s h hs
      refine ⟨s, rfl, ?_, rfl⟩
      rcases h with rfl | rfl
      · exact hs
      · exact hs
  | cons part parts ih =>
      intro p words s h hs
      cases part with
      | text bytes =>
          unfold Tight at h
          split at h
          · next p₁ hscan =>
              obtain ⟨s₁, hrun₁, hs₁, hsize₁⟩ := scanText_run hscan hs
              obtain ⟨s', hrun, hs', hsize'⟩ := ih h hs₁
              refine ⟨s', ?_, hs', ?_⟩
              · show (run s bytes).bind _ = _
                rw [hrun₁]
                exact hrun
              · show _ = s.size + weight (bytes ++ textOf parts)
                rw [hsize', hsize₁, weight_append, Nat.add_assoc]
          · cases h
      | field w =>
          -- the same at every place
          have hfield : ∀ {q : Place} {vs : List CString}, Tight q vs parts → (s.take w).At q →
              ∃ s', runParts s (.field w :: parts) = some s' ∧ s'.At .inside ∧
                s'.size = s.size + weight (textOf (.field w :: parts)) := by
            intro q vs hq hsq
            obtain ⟨s', hrun, hs', hsize'⟩ := ih hq hsq
            refine ⟨s', hrun, hs', ?_⟩
            show _ = s.size + weight (w ++ textOf parts)
            rw [hsize', State.size_take hs.mode_ne, weight_append, Nat.add_assoc]
          cases p with
          | start => exact hfield h (State.At.take hs.1 w)
          | behind => cases h
          | inside => exact hfield h (State.At.take hs.1 w)
          | quoted => exact hfield h.2 ⟨hs.1, by simp⟩

/-! ## §6. Substitution. -/

/-- A field inside a word is taken whole. -/
theorem run_inWord {w : CString} :
    ∀ {s : State}, s.At .inside → InWord w → run s w = some (s.take w) := by
  induction w with
  | nil =>
      intro s hs _
      obtain ⟨v, hv⟩ := Option.ne_none_iff_exists'.1 hs.2
      unfold State.take
      rw [hv, Option.getD_some, List.append_nil, ← hv]
      rfl
  | cons b w ih =>
      intro s hs hw
      rw [run_cons, step_inside hs (hw b (List.mem_cons_self ..)), Option.bind_some,
        ih (State.At.take hs.1 [b]) (fun x hx => hw x (List.mem_cons_of_mem _ hx)), State.take_take]
      rfl

/-- A field at the start of a word is taken whole. -/
theorem run_isWord {w : CString} {s : State} (hs : s.At .start) (hw : IsWord w) :
    run s w = some (s.take w) := by
  cases w with
  | nil => cases hw
  | cons b w =>
      have hstep : step s b = some (s.take [b]) := by
        unfold step stepUnquoted
        rw [hs.1]
        simp [hw.1]
      rw [run_cons, hstep, Option.bind_some, run_inWord (State.At.take hs.1 [b]) hw.2, State.take_take]
      rfl

/-- A field in quotes is taken whole. -/
theorem run_quoted {w : CString} :
    ∀ {s : State}, s.At .quoted → InWord w → run s w = some (s.take w) := by
  induction w with
  | nil =>
      intro s hs _
      obtain ⟨v, hv⟩ := Option.ne_none_iff_exists'.1 hs.2
      unfold State.take
      rw [hv, Option.getD_some, List.append_nil, ← hv]
      rfl
  | cons b w ih =>
      intro s hs hw
      have hstep : step s b = some (s.take [b]) := by
        unfold step stepDouble
        rw [hs.1]
        rcases hw b (List.mem_cons_self ..) with hb | hb | hb
        · simp [hb]
        · simp [hb]
        · simp [hb]
      have hat : (s.take [b]).At .quoted := ⟨hs.1, by simp⟩
      rw [run_cons, hstep, Option.bind_some, ih hat (fun x hx => hw x (List.mem_cons_of_mem _ hx)),
        State.take_take]
      rfl

/-- What a reading owes to a field `w` with the text `t` behind it, when it is
to be the reading of the format. -/
structure Owes (s : State) (w t : CString) (out : List (List CString)) : Prop where
  size_eq : size out.flatten = s.size + weight (w ++ t) + 1
  quotes_le : s.quotes + w.count 34 ≤ quotes out.flatten
  begun : Begun s.done (s.word.getD [] ++ w) out.flatten

/-- A byte that is taken leaves the rest of the field owed. -/
theorem Owes.take {s : State} {b : UInt8} {w t : CString} {out : List (List CString)}
    (h : Owes s (b :: w) t out) (hm : s.mode ≠ .doubleEscaped) : Owes (s.take [b]) w t out := by
  refine ⟨?_, ?_, ?_⟩
  · rw [h.size_eq, State.size_take hm, List.cons_append, weight_cons]
    omega
  · have hq := h.quotes_le
    have hcount : List.count 34 (b :: w) = List.count 34 [b] + List.count 34 w := by
      rw [← List.count_append]
      rfl
    rw [State.take_quotes]
    omega
  · have hb := h.begun
    rw [State.take_done, State.take_word, Option.getD_some, List.append_assoc]
    exact hb

/-- Double quotes stay. -/
theorem moves_quotes {s s' : State} (h : Moves s s') : s.quotes ≤ s'.quotes := by
  cases h with
  | take bytes mode => rw [State.goto_quotes, State.take_quotes]; exact Nat.le_add_right _ _
  | endWord => rw [State.endWord_quotes]
  | endCommand mode => rw [State.goto_quotes, State.endCommand_quotes]
  | goto mode => exact Nat.le_refl _

/-- A text may end inside a word. -/
theorem finish_at {s : State} (h : s.At .inside) :
    ∃ out, finish s = some out ∧ out.flatten = s.all ∧ size out.flatten = s.size + 1 ∧
      quotes out.flatten = s.quotes := by
  obtain ⟨out, hout⟩ : ∃ out, finish s = some out := by
    unfold finish
    rw [h.1]
    exact ⟨_, rfl⟩
  obtain ⟨w, hw⟩ := Option.ne_none_iff_exists'.1 h.2
  have hall := (finish_flatten hout).1
  refine ⟨out, hout, hall, ?_, ?_⟩
  · rw [hall, State.size_of_mode h.mode_ne]
    unfold State.all
    rw [hw, size_append]
    rfl
  · rw [hall]
    unfold State.all State.quotes
    rw [hw, quotes_append]
    rfl

/-- The reading of a tight format, and what it owes to a field at its front. -/
theorem wordsFrom_owes {p : Place} {words : List CString} {s : State} {w : CString} {parts : List Part}
    (h : Tight p words parts) (hs : (s.take w).At p) (hm : s.mode ≠ .doubleEscaped) :
    ∃ out, wordsFrom s (.field w :: parts) = some out ∧ Owes s w (textOf parts) out := by
  obtain ⟨s', hrun, hs', hsize⟩ := runParts_tight h hs
  obtain ⟨out, hout, hall, hsz, hq⟩ := finish_at hs'
  refine ⟨out, ?_, ?_, ?_, ?_⟩
  · show (runParts (s.take w) parts).bind finish = _
    rw [hrun]
    exact hout
  · rw [hsz, hsize, State.size_take hm, weight_append]
    omega
  · rw [hq, ← State.take_quotes]
    exact runParts_keeps (P := fun r => (s.take w).quotes ≤ r.quotes)
      (fun _ _ hmoves hle => Nat.le_trans hle (moves_quotes hmoves)) hrun (Nat.le_refl _)
  · rw [hall]
    exact runParts_keeps (fun _ _ hmoves => moves_begun hmoves) hrun ⟨_, [], rfl, List.prefix_refl _⟩

/-- A step may not lose a byte of the field. -/
theorem Owes.not_lost {s s' : State} {b : UInt8} {w t : CString} {out : List (List CString)}
    (h : Owes s (b :: w) t out) (hb : b ≠ 34) (hsize : s'.size ≤ s.size)
    (hread : readFrom s' (w ++ t) = some out) : False := by
  have hout := readFrom_size hread
  have heq := h.size_eq
  rw [List.cons_append, weight_cons, weight_byte hb] at heq
  omega

/-- Nor end a word in it. -/
theorem Owes.not_ended {s s' : State} {b : UInt8} {w t : CString} {out : List (List CString)}
    (h : Owes s (b :: w) t out) (hb : b ≠ 34) (hm : s.mode ≠ .doubleEscaped) (hm' : s'.mode = .unquoted)
    (hw : s'.word = none) (hd : s'.done = s.all) (hread : readFrom s' (w ++ t) = some out) : False := by
  cases hword : s.word with
  | none =>
      refine h.not_lost hb (Nat.le_of_eq ?_) hread
      rw [State.size_of_ended hm (by rw [hm']; decide) hw hd, hword]
      rfl
  | some v =>
      -- the word ends with `v`, in the reading of the format it goes on with `b`
      obtain ⟨r, hrun, hfin⟩ := Option.bind_eq_some_iff.1 hread
      obtain ⟨u, hu⟩ : s.done ++ [v] <+: out.flatten := by
        rw [(finish_flatten hfin).1]
        refine List.IsPrefix.trans ?_ ((run_done hrun).trans (List.prefix_append _ _))
        rw [hd]
        unfold State.all
        rw [hword]
        exact List.prefix_refl _
      obtain ⟨v', rest, heq, hv⟩ := h.begun
      rw [← hu, List.append_assoc] at heq
      have hvv : v = v' := (List.cons.inj (List.append_cancel_left heq)).1
      have hlen := hv.length_le
      rw [hword, ← hvv, Option.getD_some, List.length_append, List.length_cons] at hlen
      omega

/-- **A byte that is not part of the word shows.** -/
theorem Owes.byte {s : State} {b : UInt8} {w t : CString} {out : List (List CString)}
    (h : Owes s (b :: w) t out) (hm : s.mode = .unquoted) (hread : readFrom s (b :: w ++ t) = some out) :
    classify b = .plain ∨ (s.word ≠ none ∧ InsideByte b) := by
  have hm' : s.mode ≠ .doubleEscaped := by rw [hm]; decide
  obtain ⟨r, hrun, hfin⟩ := Option.bind_eq_some_iff.1 hread
  obtain ⟨s', hstep, hrun⟩ := Option.bind_eq_some_iff.1 hrun
  have hrest : readFrom s' (w ++ t) = some out := Option.bind_eq_some_iff.2 ⟨r, hrun, hfin⟩
  unfold step stepUnquoted at hstep
  rw [hm] at hstep
  dsimp only at hstep
  split at hstep
  · next hb => exact Or.inl hb
  · next hb =>
      cases hstep
      exact (h.not_ended (ne_of_classify hb (by decide)) hm' (s.endWord_mode.trans hm) s.endWord_word
        s.endWord_done hrest).elim
  · next hb =>
      cases hstep
      exact (h.not_ended (ne_of_classify hb (by decide)) hm' (s.endCommand_mode.trans hm) s.endCommand_word
        s.endCommand_done hrest).elim
  · next hb =>
      split at hstep
      · cases hstep
      · cases hstep
        exact (h.not_ended (ne_of_classify hb (by decide)) hm' (s.endCommand_mode.trans hm) s.endCommand_word
          s.endCommand_done hrest).elim
  · next hb =>
      cases hstep
      refine (h.not_lost (ne_of_classify hb (by decide)) (Nat.le_of_eq ?_) hrest).elim
      rw [State.size_goto (s := s.take []) hm' (by decide), State.size_take hm']
      rfl
  · next hb =>
      -- the quote opens, and none is left for the word
      cases hstep
      have hb34 := classify_doubleQuote.1 hb
      have hsize := h.size_eq
      have hquotes := h.quotes_le
      have hcount : 0 < List.count 34 (b :: w) :=
        List.count_pos_iff.2 (by rw [hb34]; exact List.mem_cons_self ..)
      rw [List.cons_append, weight_cons] at hsize
      rcases readFrom_quotes (Or.inr (Or.inl rfl)) hrest with hout | hout
      · rw [State.size_goto (s := s.take []) hm' (by decide), State.size_take hm', weight_nil] at hout
        omega
      · rw [State.goto_quotes, State.take_quotes, List.count_nil] at hout
        omega
  · next hb =>
      cases hstep
      exact (h.not_lost (ne_of_classify hb (by decide)) (Nat.le_of_eq (State.size_goto hm' (by decide)))
        hrest).elim
  · next hb =>
      split at hstep
      · cases hstep
        exact (h.not_lost (ne_of_classify hb (by decide)) (Nat.le_of_eq (State.size_goto hm' (by decide)))
          hrest).elim
      · next hword => exact Or.inr ⟨hword, Or.inr (Or.inl hb)⟩
  · next hb =>
      split at hstep
      · cases hstep
      · next hword => exact Or.inr ⟨hword, Or.inr (Or.inr hb)⟩
  · cases hstep
  · cases hstep
  · cases hstep

/-- A field that is owed inside a word is the inside of one. -/
theorem Owes.inWord {w : CString} :
    ∀ {s : State} {t : CString} {out : List (List CString)}, Owes s w t out →
    s.At .inside → readFrom s (w ++ t) = some out → InWord w := by
  induction w with
  | nil => intro s t out _ _ _ b hb; cases hb
  | cons b w ih =>
      intro s t out h hs hread
      have hb : InsideByte b := (h.byte hs.1 hread).elim Or.inl And.right
      rw [List.cons_append, readFrom_cons (step_inside hs hb)] at hread
      have hw := ih (h.take hs.mode_ne) (State.At.take hs.1 [b]) hread
      intro x hx
      rcases List.mem_cons.1 hx with rfl | hx
      · exact hb
      · exact hw x hx

/-- Behind a field at the beginning of a word comes a blank, or nothing. -/
theorem textOf_behind {parts : List Part} : ∀ {words : List CString}, Tight .behind words parts →
    textOf parts = [] ∨ ∃ b t, textOf parts = b :: t ∧ classify b = .blank := by
  induction parts with
  | nil => intro _ _; exact Or.inl rfl
  | cons part parts ih =>
      intro words h
      cases part with
      | field w => cases h
      | text bytes =>
          cases bytes with
          | nil => exact ih h
          | cons b bytes =>
              refine Or.inr ⟨b, bytes ++ textOf parts, rfl, ?_⟩
              by_contra hb
              have hscan : scanText .behind (b :: bytes) = none := by
                unfold scanText scanByte
                rw [if_neg hb]
                rfl
              unfold Tight at h
              rw [hscan] at h
              exact h

/-- A field that is owed at the start of a word is one. -/
theorem Owes.isWord {w t : CString} {s : State} {out : List (List CString)} (h : Owes s w t out)
    (hs : s.At .start) (ht : t = [] ∨ ∃ b u, t = b :: u ∧ classify b = .blank)
    (hread : readFrom s (w ++ t) = some out) : IsWord w := by
  cases w with
  | nil =>
      -- an empty field leaves no word behind
      have hsize := h.size_eq
      rw [List.nil_append] at hread hsize
      rcases ht with rfl | ⟨b, u, rfl, hb⟩
      · have hout := finish_size hs.2 hread
        rw [weight_nil] at hsize
        omega
      · rw [readFrom_cons (step_blank hs.1 hb)] at hread
        have hout := readFrom_size hread
        rw [State.size_of_ended hs.mode_ne (by rw [s.endWord_mode]; exact hs.mode_ne) s.endWord_word
          s.endWord_done,
          if_pos hs.2] at hout
        rw [weight_cons, weight_byte (ne_of_classify hb (by decide))] at hsize
        omega
  | cons b w =>
      have hb : classify b = .plain := (h.byte hs.1 hread).resolve_right fun hne => hne.1 hs.2
      have hstep : step s b = some (s.take [b]) := by
        unfold step stepUnquoted
        rw [hs.1]
        simp [hb]
      rw [List.cons_append, readFrom_cons hstep] at hread
      exact ⟨hb, (h.take hs.mode_ne).inWord (State.At.take hs.1 [b]) hread⟩

/-- The text of a format is read as the format's own words exactly when its
fields fit. -/
theorem readFrom_iff {parts : List Part} : ∀ {p : Place} {words : List CString} {s : State},
    Tight p words parts → (∀ w ∈ words, InWord w) → s.At p →
    (readFrom s (textOf parts) = wordsFrom s parts ↔ FieldsFit p parts) := by
  induction parts with
  | nil => intro p words s _ _ _; exact iff_of_true rfl trivial
  | cons part parts ih =>
      intro p words s h hwords hs
      cases part with
      | text bytes =>
          unfold Tight at h
          unfold FieldsFit
          split at h
          · next p₁ hscan =>
              obtain ⟨s₁, hrun, hs₁, _⟩ := scanText_run hscan hs
              show readFrom s (bytes ++ textOf parts)
                = ((run s bytes).bind fun s => runParts s parts).bind finish ↔ _
              rw [readFrom_append, hrun]
              exact ih h hwords hs₁
          · cases h
      | field w =>
          have hm := hs.mode_ne
          -- a field that fits is taken as it is
          have hrest : ∀ {q : Place} {vs : List CString}, run s w = some (s.take w) → Tight q vs parts →
              (∀ v ∈ vs, InWord v) → (s.take w).At q →
              (readFrom s (textOf (.field w :: parts)) = wordsFrom s (.field w :: parts) ↔
                FieldsFit q parts) := by
            intro q vs hrun hq hvs hsq
            show readFrom s (w ++ textOf parts) = _ ↔ _
            rw [readFrom_append, hrun]
            exact ih hq hvs hsq
          cases p with
          | start =>
              have hp : Tight .behind (w :: words) parts := h
              have hat : (s.take w).At .behind := State.At.take hs.1 w
              obtain ⟨out, hout, howes⟩ := wordsFrom_owes hp hat hm
              have hfits : IsWord w → _ := fun hw =>
                hrest (run_isWord hs hw) hp (List.forall_mem_cons.2 ⟨hw.inWord, hwords⟩) hat
              constructor
              · intro heq
                have hw := howes.isWord hs (textOf_behind hp) (heq.trans hout)
                exact ⟨hw, (hfits hw).1 heq⟩
              · intro ⟨hw, hf⟩
                exact (hfits hw).2 hf
          | behind => cases h
          | inside =>
              have hp : Tight .inside words parts := h
              have hat : (s.take w).At .inside := State.At.take hs.1 w
              obtain ⟨out, hout, howes⟩ := wordsFrom_owes hp hat hm
              have hfits : InWord w → _ := fun hw => hrest (run_inWord hs hw) hp hwords hat
              constructor
              · intro heq
                have hw := howes.inWord hs (heq.trans hout)
                exact ⟨hw, (hfits hw).1 heq⟩
              · intro ⟨hw, hf⟩
                exact (hfits hw).2 hf
          | quoted =>
              -- it has been a word outside quotes, which is more
              exact hrest (run_quoted hs (hwords w h.1)) h.2 hwords ⟨hs.1, by simp⟩

/-! ## §7. Formats that split. -/

/-- The shell splits the text into the simple commands of the format, each
field being taken as it stands into one word. -/
def Splits (text : CString) (parts : List Part) : Prop :=
  ∃ commands, read text = some commands ∧ wordsOf parts = some commands

instance (text : CString) (parts : List Part) : Decidable (Splits text parts) :=
  decidable_of_iff ((read text).isSome = true ∧ read text = wordsOf parts) <| by
    unfold Splits
    constructor
    · intro ⟨hsome, heq⟩
      obtain ⟨commands, hread⟩ := Option.isSome_iff_exists.1 hsome
      exact ⟨commands, hread, heq ▸ hread⟩
    · intro ⟨commands, hread, hwords⟩
      rw [hread, hwords]
      exact ⟨rfl, rfl⟩

/-- A tight format has simple commands of its own. -/
theorem wordsOf_tight {parts : List Part} (h : Tight .start [] parts) :
    ∃ commands, wordsOf parts = some commands ∧ size commands.flatten = weight (textOf parts) + 1 := by
  obtain ⟨s', hrun, hs', hsize⟩ := runParts_tight h start_at
  obtain ⟨out, hout, _, hsz, _⟩ := finish_at hs'
  refine ⟨out, ?_, ?_⟩
  · unfold wordsOf wordsFrom
    rw [hrun]
    exact hout
  · rw [hsz, hsize]
    show 0 + weight _ + 1 = _
    rw [Nat.zero_add]

/-- **Substitution.**  The text of a tight format is split into the format's
own commands exactly when every field fits its place. -/
theorem splits_iff {parts : List Part} (h : Tight .start [] parts) :
    Splits (textOf parts) parts ↔ FieldsFit .start parts := by
  obtain ⟨commands, hwords, _⟩ := wordsOf_tight h
  rw [← readFrom_iff h (List.forall_mem_nil _) start_at]
  constructor
  · intro ⟨_, hread, hwords⟩
    exact hread.trans hwords.symm
  · intro heq
    exact ⟨commands, heq.trans hwords, hwords⟩

/-- A text that is cut does not split. -/
theorem not_splits_of_cut {parts : List Part} {text : CString} (h : Tight .start [] parts)
    (hcut : weight text < weight (textOf parts)) : ¬ Splits text parts := by
  intro ⟨commands, hread, hwords⟩
  obtain ⟨commands', hwords', hsize⟩ := wordsOf_tight h
  rw [hwords] at hwords'
  cases hwords'
  have hle := readFrom_size hread
  rw [hsize] at hle
  have hstart : start.size = 0 := rfl
  omega

/-- So a buffer has to hold all of the text; its last byte tells, unless it is
a double quote. -/
theorem not_splits_take {parts : List Part} {n : Nat} {b : UInt8} (h : Tight .start [] parts)
    (hlast : (textOf parts).getLast? = some b) (hb : b ≠ 34) (hn : n < (textOf parts).length) :
    ¬ Splits ((textOf parts).take n) parts := by
  refine not_splits_of_cut h ?_
  have hdrop : ((textOf parts).drop n).getLast? = some b := by
    rw [List.getLast?_drop, if_neg (by omega), hlast]
  have hpos : 0 < weight ((textOf parts).drop n) :=
    List.countP_pos_iff.2 ⟨b, List.mem_of_getLast? hdrop, by simpa using hb⟩
  have hsum : weight (textOf parts) = weight ((textOf parts).take n) + weight ((textOf parts).drop n) := by
    rw [← weight_append, List.take_append_drop]
  omega

/-- Blanks at the front are skipped. -/
theorem splits_blank {text bytes : CString} {parts : List Part} :
    Splits (32 :: text) (.text (32 :: bytes) :: parts) ↔ Splits text (.text bytes :: parts) := Iff.rfl

/-! ## §8. The commands that are started. -/

/-- The shell does no more than start simple commands, and each satisfies `P`. -/
def StartsOnly (P : List CString → Prop) (text : CString) : Prop :=
  ∃ commands, read text = some commands ∧ ∀ words ∈ commands, P words

/-- A text that splits starts the commands of its format. -/
theorem Splits.startsOnly_iff {P : List CString → Prop} {text : CString} {parts : List Part}
    (h : Splits text parts) : StartsOnly P text ↔ ∀ words ∈ (wordsOf parts).getD [], P words := by
  obtain ⟨commands, hread, hwords⟩ := h
  unfold StartsOnly
  rw [hread, hwords]
  constructor
  · intro ⟨_, heq, hall⟩
    cases heq
    exact hall
  · intro hall
    exact ⟨commands, rfl, hall⟩

/-- The first command has begun with these words, or did when it ended. -/
def Leads (words : List CString) (s : State) : Prop :=
  (s.commands = [] ∧ words <+: s.words) ∨ ∃ first later, s.commands = first :: later ∧ words <+: first

namespace Leads

variable {words : List CString} {s s' : State}

/-- A word that ends comes behind these. -/
theorem endWord (h : Leads words s) : Leads words s.endWord := by
  unfold State.endWord
  split
  · exact h
  · exact h.imp_left fun hfirst => ⟨hfirst.1, hfirst.2.trans (List.prefix_append _ _)⟩

/-- A command that ends is the first, or comes behind it. -/
theorem endCommand (h : Leads words s) : Leads words s.endCommand := by
  have hend := h.endWord
  unfold State.endCommand
  split
  · exact hend
  · next w ws heq =>
      refine Or.inr ?_
      rcases hend with ⟨hnone, hwords⟩ | ⟨first, later, hcommands, hfirst⟩
      · -- the first command ends here
        exact ⟨w :: ws, [], by rw [hnone, List.nil_append], heq ▸ hwords⟩
      · exact ⟨first, later ++ [w :: ws], by rw [hcommands, List.cons_append], hfirst⟩

/-- So the front stays whatever the reader does. -/
theorem moves (h : Moves s s') (hs : Leads words s) : Leads words s' := by
  cases h with
  | take bytes mode => exact hs
  | endWord => exact hs.endWord
  | endCommand mode => exact hs.endCommand
  | goto mode => exact hs

end Leads

/-- **The front of a text** that ends a word stays the front of its first command. -/
theorem read_front {front rest : CString} {words : List CString} {commands : List (List CString)}
    (hfront : run start front = some ⟨.unquoted, none, words, []⟩) (hne : words ≠ [])
    (h : read (front ++ rest) = some commands) : ∃ more later, commands = (words ++ more) :: later := by
  unfold read at h
  rw [readFrom_append, hfront] at h
  have h : readFrom ⟨.unquoted, none, words, []⟩ rest = some commands := h
  obtain ⟨s, hrun, hfinish⟩ := Option.bind_eq_some_iff.1 h
  have hleads : Leads words s :=
    run_keeps (fun _ _ hmoves => Leads.moves hmoves) hrun (Or.inl ⟨rfl, List.prefix_refl words⟩)
  have hcommands : commands = s.endCommand.commands := by
    unfold finish at hfinish
    split at hfinish
    · cases hfinish; rfl
    · cases hfinish; rfl
    · cases hfinish
  rcases hleads.endCommand with ⟨_, hwords⟩ | ⟨first, later, hfirst, hprefix⟩
  · -- nothing is left over behind the end of a command
    rw [State.endCommand_words] at hwords
    exact absurd (List.prefix_nil.1 hwords) hne
  · obtain ⟨more, rfl⟩ := hprefix
    exact ⟨more, later, hcommands.trans hfirst⟩

end Shell
