/-
  OvsAgent.Lib.Chunks — frames of a byte stream, read in chunks.

  A sender puts frames on a stream one after the other; the receiver is given
  the stream in chunks, cut anywhere, and decodes each chunk by itself.

  Main results:
    * `deliver_eq_iff` — when a chunk that starts inside a frame decodes to
      nothing, the receiver delivers what the frames say exactly when every
      frame that says anything lies whole in a chunk that starts at the
      beginning of a frame;
    * `loop_fuel` — a loop whose every round leaves less to read needs no more
      rounds than there are bytes.
-/
import Mathlib.Data.List.Basic

namespace Chunks

/-! ## §1. Places in a list. -/

section Everywhere

variable {μ : Type*} {P Q : List μ → μ → Prop}

/-- `P` holds of every element and what stands before it. -/
def Everywhere (P : List μ → μ → Prop) (ms : List μ) : Prop :=
  ∀ pre m post, ms = pre ++ m :: post → P pre m

theorem everywhere_nil : Everywhere P [] := by
  intro pre m post h
  simp at h

theorem everywhere_append {as bs : List μ} :
    Everywhere P (as ++ bs) ↔ Everywhere P as ∧ Everywhere (fun pre m => P (as ++ pre) m) bs := by
  constructor
  · intro h
    refine ⟨fun pre m post heq => ?_, fun pre m post heq => ?_⟩
    · exact h pre m (post ++ bs) (by rw [heq]; simp)
    · exact h (as ++ pre) m post (by rw [heq]; simp)
  · intro ⟨ha, hb⟩ pre m post heq
    rcases List.append_eq_append_iff.1 heq with ⟨w, hpre, hbs⟩ | ⟨w, has, hw⟩
    · rw [hpre]
      exact hb w m post hbs
    · cases w with
      | nil =>
          -- the element is the first of `bs`
          have has' : as = pre := by rw [has, List.append_nil]
          have hat : P (as ++ []) m := hb [] m post hw.symm
          rw [List.append_nil, has'] at hat
          exact hat
      | cons x w =>
          rw [List.cons_append, List.cons.injEq] at hw
          exact ha pre m w (by rw [has, hw.1])

theorem everywhere_congr {ms : List μ}
    (h : ∀ pre m post, ms = pre ++ m :: post → (P pre m ↔ Q pre m)) :
    Everywhere P ms ↔ Everywhere Q ms := by
  constructor
  · intro hp pre m post heq
    exact (h pre m post heq).1 (hp pre m post heq)
  · intro hq pre m post heq
    exact (h pre m post heq).2 (hq pre m post heq)

end Everywhere

/-! ## §2. The stream. -/

variable {α β μ : Type*} (text : μ → List α)

/-- The frames one after the other. -/
def stream (ms : List μ) : List α := ms.flatMap text

/-- Its length. -/
def size (ms : List μ) : Nat := (stream text ms).length

@[simp] theorem size_nil : size text [] = 0 := rfl

@[simp] theorem size_append (as bs : List μ) : size text (as ++ bs) = size text as + size text bs := by
  unfold size stream
  rw [List.flatMap_append, List.length_append]

@[simp] theorem size_cons (m : μ) (ms : List μ) :
    size text (m :: ms) = (text m).length + size text ms := by
  unfold size stream
  rw [List.flatMap_cons, List.length_append]

/-- The chunks `before` end where a frame begins, or where the last one ends. -/
def AtBoundary (ms : List μ) (before : List (List α)) : Prop :=
  ∃ pre post, ms = pre ++ post ∧ before.flatten.length = size text pre

/-- The frame `m`, sent after `pre`, lies whole in one chunk, and that chunk
starts at the beginning of a frame. -/
def ArrivesWhole (chunks : List (List α)) (pre : List μ) (m : μ) : Prop :=
  ∃ before chunk after pre₁ pre₂, chunks = before ++ chunk :: after ∧ pre = pre₁ ++ pre₂ ∧
    before.flatten.length = size text pre₁ ∧ size text pre₂ + (text m).length ≤ chunk.length

/-- Where a prefix of the stream ends: behind whole frames, or inside one. -/
theorem split_stream (ms : List μ) :
    ∀ c rest, c ++ rest = stream text ms → ∃ whole cut later p u, ms = whole ++ (cut ++ later) ∧
      c = stream text whole ++ p ∧ stream text cut = p ++ u ∧ rest = u ++ stream text later ∧
      (cut = [] ∨ ∃ m, cut = [m] ∧ p ≠ [] ∧ u ≠ []) := by
  induction ms with
  | nil =>
      intro c rest h
      have hboth := List.append_eq_nil_iff.1 h
      exact ⟨[], [], [], [], [], rfl, hboth.1, rfl, hboth.2, Or.inl rfl⟩
  | cons m ms ih =>
      intro c rest h
      have h : c ++ rest = text m ++ stream text ms := h
      rcases List.append_eq_append_iff.1 h with ⟨u, htext, hrest⟩ | ⟨c', hc, hms⟩
      · -- the prefix ends in the first frame
        by_cases hu : u = []
        · refine ⟨[m], [], ms, [], [], rfl, ?_, rfl, ?_, Or.inl rfl⟩
          · rw [hu, List.append_nil] at htext
            rw [← htext]; simp [stream]
          · rw [hrest, hu]
        · by_cases hcnil : c = []
          · refine ⟨[], [], m :: ms, [], [], rfl, hcnil, rfl, ?_, Or.inl rfl⟩
            rw [hcnil] at h
            exact h
          · exact ⟨[], [m], ms, c, u, rfl, rfl, by rw [← htext]; simp [stream], hrest,
              Or.inr ⟨m, rfl, hcnil, hu⟩⟩
      · obtain ⟨whole, cut, later, p, u, hms', hc', hcut, hrest, hor⟩ := ih c' rest hms.symm
        refine ⟨m :: whole, cut, later, p, u, by rw [hms']; rfl, ?_, hcut, hrest, hor⟩
        rw [hc, hc', ← List.append_assoc]; rfl

/-! ## §3. Positions. -/

/-- `ArrivesWhole` with the chunks starting at `a` and the frames at `b`. -/
def ArrivesAt (a b : Nat) (chunks : List (List α)) (pre : List μ) (m : μ) : Prop :=
  ∃ before chunk after pre₁ pre₂, chunks = before ++ chunk :: after ∧ pre = pre₁ ++ pre₂ ∧
    a + before.flatten.length = b + size text pre₁ ∧
    size text pre₂ + (text m).length ≤ chunk.length

theorem arrivesAt_zero {chunks : List (List α)} {pre : List μ} {m : μ} :
    ArrivesAt text 0 0 chunks pre m ↔ ArrivesWhole text chunks pre m := by
  unfold ArrivesAt ArrivesWhole
  simp only [Nat.zero_add]

/-- In the first chunk, or in a later one. -/
theorem arrivesAt_cons {a b : Nat} {c : List α} {cs : List (List α)} {pre : List μ} {m : μ} :
    ArrivesAt text a b (c :: cs) pre m ↔
      (∃ pre₁ pre₂, pre = pre₁ ++ pre₂ ∧ a = b + size text pre₁ ∧
        size text pre₂ + (text m).length ≤ c.length)
      ∨ ArrivesAt text (a + c.length) b cs pre m := by
  constructor
  · intro ⟨before, chunk, after, pre₁, pre₂, hcs, hpre, hpos, hfit⟩
    cases before with
    | nil =>
        rw [List.nil_append, List.cons.injEq] at hcs
        exact Or.inl ⟨pre₁, pre₂, hpre, hpos, hcs.1 ▸ hfit⟩
    | cons d before =>
        rw [List.cons_append, List.cons.injEq] at hcs
        refine Or.inr ⟨before, chunk, after, pre₁, pre₂, hcs.2, hpre, ?_, hfit⟩
        rw [List.flatten_cons, List.length_append] at hpos
        rw [hcs.1, ← hpos, Nat.add_assoc]
  · intro h
    rcases h with ⟨pre₁, pre₂, hpre, hpos, hfit⟩ | ⟨before, chunk, after, pre₁, pre₂, hcs,
      hpre, hpos, hfit⟩
    · exact ⟨[], c, cs, pre₁, pre₂, rfl, hpre, hpos, hfit⟩
    · refine ⟨c :: before, chunk, after, pre₁, pre₂, by rw [hcs]; rfl, hpre, ?_, hfit⟩
      rw [List.flatten_cons, List.length_append, ← hpos, Nat.add_assoc]

/-- Frames that begin before the chunks do can be left out of the count. -/
theorem arrivesAt_skip {a b : Nat} {cs : List (List α)} {w pre : List μ} {m : μ}
    (hw : ∀ w₁ x w₂, w = w₁ ++ x :: w₂ → b + size text w₁ < a) :
    ArrivesAt text a b cs (w ++ pre) m ↔ ArrivesAt text a (b + size text w) cs pre m := by
  constructor
  · intro ⟨before, chunk, after, pre₁, pre₂, hcs, hpre, hpos, hfit⟩
    rcases List.append_eq_append_iff.1 hpre with ⟨v, hpre₁, hpre'⟩ | ⟨v, hwv, hpre₂⟩
    · refine ⟨before, chunk, after, v, pre₂, hcs, hpre', ?_, hfit⟩
      rw [hpos, hpre₁, size_append, Nat.add_assoc]
    · cases v with
      | nil =>
          rw [List.append_nil] at hwv
          exact ⟨before, chunk, after, [], pre₂, hcs, hpre₂.symm, by rw [hpos, hwv]; rfl, hfit⟩
      | cons x v =>
          have := hw pre₁ x v hwv
          omega
  · intro ⟨before, chunk, after, pre₁, pre₂, hcs, hpre, hpos, hfit⟩
    refine ⟨before, chunk, after, w ++ pre₁, pre₂, hcs, by rw [hpre, List.append_assoc], ?_, hfit⟩
    rw [hpos, size_append, Nat.add_assoc]

/-! ## §4. Decoding chunk by chunk. -/

/-- The decoder of a chunk: whole frames give their output, and the beginning
of a further frame behind them gives nothing. -/
structure Decodes (decode : List α → List β) (out : μ → List β) : Prop where
  nonempty : ∀ m, text m ≠ []
  whole : ∀ ms p, (p = [] ∨ ∃ m u, text m = p ++ u ∧ u ≠ []) →
    decode (stream text ms ++ p) = ms.flatMap out

variable {text} {decode : List α → List β} {out : μ → List β}

theorem Decodes.text_pos (h : Decodes text decode out) (m : μ) : 0 < (text m).length :=
  List.length_pos_iff.2 (h.nonempty m)

/-- Every frame of the list has this output, or none. -/
theorem flatMap_eq_nil_iff_everywhere {ms : List μ} :
    ms.flatMap out = [] ↔ Everywhere (fun _ m => out m = []) ms := by
  rw [List.flatMap_eq_nil_iff]
  constructor
  · intro h pre m post heq
    exact h m (by rw [heq]; simp)
  · intro h m hm
    obtain ⟨pre, post, heq⟩ := List.append_of_mem hm
    exact h pre m post heq

/-- A proper part of `whole ++ [m]` is no longer than `whole`. -/
theorem size_le_of_concat {whole w₁ w₂ : List μ} {m x : μ} (h : whole ++ [m] = w₁ ++ x :: w₂) :
    size text w₁ ≤ size text whole := by
  rcases List.append_eq_append_iff.1 h with ⟨v, hw₁, hv⟩ | ⟨v, hwhole, _⟩
  · cases v with
    | nil => exact Nat.le_of_eq (by rw [hw₁, List.append_nil])
    | cons y v => simp at hv
  · rw [hwhole, size_append]
    exact Nat.le_add_right _ _

/-- Every frame of `whole ++ cut` begins before the chunk after them does. -/
theorem begins_before (hd : Decodes text decode out) {a b : Nat} {c : List α} {whole cut : List μ}
    {p u : List α} (hlen : a + c.length = b + size text whole + p.length)
    (hor : cut = [] ∨ ∃ m, cut = [m] ∧ p ≠ [] ∧ u ≠ []) :
    ∀ w₁ x w₂, whole ++ cut = w₁ ++ x :: w₂ → b + size text w₁ < a + c.length := by
  intro w₁ x w₂ heq
  rcases hor with hnil | ⟨m, hone, hp, _⟩
  · have hx := hd.text_pos x
    rw [hnil, List.append_nil] at heq
    have hw : size text whole = size text w₁ + ((text x).length + size text w₂) := by
      rw [heq, size_append, size_cons]
    omega
  · have hplen := List.length_pos_iff.2 hp
    rw [hone] at heq
    have hle := @size_le_of_concat _ _ text _ _ _ _ _ heq
    omega

section Chunk

variable {a b : Nat} {c : List α} {cs : List (List α)} {whole cut later : List μ} {p u : List α}

theorem size_split (text : μ → List α) {w₁ w₂ : List μ} {m : μ} (h : whole = w₁ ++ m :: w₂) :
    size text whole = size text w₁ + ((text m).length + size text w₂) := by
  rw [h, size_append, size_cons]

theorem size_of_append (text : μ → List α) {w₁ w₂ : List μ} (h : whole = w₁ ++ w₂) :
    size text whole = size text w₁ + size text w₂ := by
  rw [h, size_append]

theorem size_of_stream (h : stream text cut = p ++ u) : size text cut = p.length + u.length := by
  unfold size
  rw [h, List.length_append]

/-- The frames that end in the first chunk arrive exactly when it starts with them. -/
theorem whole_arrives (hd : Decodes text decode out) (hab : a ≤ b)
    (hlen : a + c.length = b + size text whole + p.length) :
    Everywhere (fun pre m => out m ≠ [] → ArrivesAt text a b (c :: cs) pre m) whole
      ↔ (a ≠ b → whole.flatMap out = []) := by
  constructor
  · intro h hne
    rw [flatMap_eq_nil_iff_everywhere]
    intro pre m post heq
    by_contra hout
    have hpos := hd.text_pos m
    rcases (arrivesAt_cons text).1 (h pre m post heq hout) with ⟨pre₁, _, _, ha, _⟩ | hlater
    · omega
    · obtain ⟨before, _, _, pre₁, pre₂, _, hpre, hpos', _⟩ := hlater
      have hle := size_of_append text hpre
      have hw := size_split text heq
      omega
  · intro h pre m post heq hout
    have hab' : a = b := by
      by_contra hne
      exact hout ((flatMap_eq_nil_iff_everywhere.1 (h hne)) pre m post heq)
    refine (arrivesAt_cons text).2 (Or.inl ⟨[], pre, rfl, hab', ?_⟩)
    have hw := size_split text heq
    omega

/-- The frame that is cut does not arrive. -/
theorem not_cut_arrives {m : μ} (hab : a ≤ b) (hlen : a + c.length = b + size text whole + p.length)
    (hm : (text m).length = p.length + u.length) (hp : p ≠ []) (hu : u ≠ []) :
    ¬ ArrivesAt text a b (c :: cs) whole m := by
  have hplen := List.length_pos_iff.2 hp
  have hulen := List.length_pos_iff.2 hu
  intro harr
  rcases (arrivesAt_cons text).1 harr with ⟨pre₁, pre₂, hpre, ha, hfit⟩ | hlater
  · have hle := size_of_append text hpre
    omega
  · obtain ⟨before, _, _, pre₁, pre₂, _, hpre, hpos', _⟩ := hlater
    have hle := size_of_append text hpre
    omega

/-- Behind the first chunk, frames arrive in the others. -/
theorem later_arrives (hd : Decodes text decode out) (hlen : a + c.length = b + size text whole + p.length)
    (hcut : stream text cut = p ++ u) (hor : cut = [] ∨ ∃ m, cut = [m] ∧ p ≠ [] ∧ u ≠ [])
    (hab : a ≤ b) (pre : List μ) (m : μ) :
    ArrivesAt text a b (c :: cs) (whole ++ (cut ++ pre)) m
      ↔ ArrivesAt text (a + c.length) (b + size text (whole ++ cut)) cs pre m := by
  have hsize := size_of_stream hcut
  rw [← arrivesAt_skip text (begins_before hd hlen hor), ← List.append_assoc, arrivesAt_cons text,
    or_iff_right]
  intro ⟨pre₁, pre₂, hpre, ha, hfit⟩
  have hm := hd.text_pos m
  have hle : size text whole + size text cut + size text pre = size text pre₁ + size text pre₂ := by
    rw [← size_append, ← size_append, hpre, size_append]
  omega

/-- The chunk in which the frames of `whole` and the beginning of `cut` come:
which of the frames arrive. -/
theorem everywhere_arrives (hd : Decodes text decode out) (hab : a ≤ b)
    (hlen : a + c.length = b + size text whole + p.length) (hcut : stream text cut = p ++ u)
    (hor : cut = [] ∨ ∃ m, cut = [m] ∧ p ≠ [] ∧ u ≠ []) :
    Everywhere (fun pre m => out m ≠ [] → ArrivesAt text a b (c :: cs) pre m)
        (whole ++ (cut ++ later))
      ↔ (a ≠ b → whole.flatMap out = []) ∧ cut.flatMap out = [] ∧
        Everywhere (fun pre m => out m ≠ [] →
          ArrivesAt text (a + c.length) (b + size text (whole ++ cut)) cs pre m) later := by
  rw [everywhere_append, everywhere_append]
  refine and_congr (whole_arrives hd hab hlen) (and_congr ?_ ?_)
  · rcases hor with rfl | ⟨m, rfl, hp, hu⟩
    · exact iff_of_true everywhere_nil rfl
    · have hm : (text m).length = p.length + u.length := by
        rw [← size_of_stream hcut, size_cons, size_nil, Nat.add_zero]
      have hnot := @not_cut_arrives _ _ text a b c cs whole p u m hab hlen hm hp hu
      rw [flatMap_eq_nil_iff_everywhere]
      refine everywhere_congr fun pre x post heq => ?_
      rcases List.append_eq_singleton_iff.1 heq.symm with ⟨hpre, hx⟩ | ⟨_, hx⟩
      · rw [List.cons.injEq] at hx
        rw [hpre, List.append_nil, hx.1]
        exact ⟨fun hat => by_contra fun hout => hnot (hat hout), fun hnil hout => absurd hnil hout⟩
      · cases hx
  · exact everywhere_congr fun pre m _ _ => imp_congr_right fun _ => later_arrives hd hlen hcut hor hab pre m

/-- A chunk that starts with whole frames gives their output. -/
theorem Decodes.chunk (hd : Decodes text decode out) (hcut : stream text cut = p ++ u)
    (hor : cut = [] ∨ ∃ m, cut = [m] ∧ p ≠ [] ∧ u ≠ []) :
    decode (stream text whole ++ p) = whole.flatMap out := by
  refine hd.whole whole p ?_
  rcases hor with hnil | ⟨m, hone, _, hu⟩
  · rw [hnil] at hcut
    exact Or.inl (List.append_eq_nil_iff.1 hcut.symm).1
  · refine Or.inr ⟨m, u, ?_, hu⟩
    rw [← hcut, hone]
    simp [stream]

end Chunk

/-- No chunk that starts inside a frame decodes to anything, the chunks
starting at `a` and the frames at `b`. -/
def StraySilent (text : μ → List α) (decode : List α → List β) (a b : Nat) (chunks : List (List α))
    (ms : List μ) : Prop :=
  ∀ before c after, chunks = before ++ c :: after →
    (∀ pre post, ms = pre ++ post → a + before.flatten.length ≠ b + size text pre) → decode c = []

theorem StraySilent.tail {a b : Nat} {c : List α} {cs : List (List α)} {ms : List μ}
    (h : StraySilent text decode a b (c :: cs) ms) : StraySilent text decode (a + c.length) b cs ms := by
  intro before d after heq hpos
  refine h (c :: before) d after (by rw [heq]; rfl) fun pre post hpre => ?_
  rw [List.flatten_cons, List.length_append, ← Nat.add_assoc]
  exact hpos pre post hpre

/-- Frames that begin before the chunks do can be left out. -/
theorem StraySilent.skip {a b : Nat} {cs : List (List α)} {w later : List μ}
    (h : StraySilent text decode a b cs (w ++ later))
    (hw : ∀ w₁ x w₂, w = w₁ ++ x :: w₂ → b + size text w₁ < a) :
    StraySilent text decode a (b + size text w) cs later := by
  intro before d after heq hpos
  refine h before d after heq fun pre post hpre => ?_
  rcases List.append_eq_append_iff.1 hpre with ⟨v, hv, hlater⟩ | ⟨v, hv, hpost⟩
  · have := hpos v post hlater
    rw [hv, size_append]
    omega
  · cases v with
    | nil =>
        have := hpos [] later rfl
        rw [List.append_nil] at hv
        rw [hv] at this
        rwa [size_nil, Nat.add_zero] at this
    | cons x v =>
        have := hw pre x v hv
        omega

theorem eq_append_iff_of_sublist {d l x : List β} (h : d.Sublist l) :
    d = x ++ l ↔ x = [] ∧ d = l := by
  constructor
  · intro heq
    have hle := h.length_le
    have hlen := congrArg List.length heq
    rw [List.length_append] at hlen
    have hx : x = [] := List.eq_nil_of_length_eq_zero (by omega)
    refine ⟨hx, ?_⟩
    rw [heq, hx, List.nil_append]
  · intro ⟨hx, heq⟩
    rw [hx, heq, List.nil_append]

/-- What the chunks deliver is part of what the frames say, and it is all of it
exactly when every frame with an output arrives.  The first frame comes behind
`u`, the end of a frame that an earlier chunk has cut. -/
theorem deliver_at (hd : Decodes text decode out) (chunks : List (List α)) :
    ∀ (a b : Nat) (u : List α) (ms : List μ), chunks.flatten = u ++ stream text ms →
      b = a + u.length → (∀ c ∈ chunks, c ≠ []) → StraySilent text decode a b chunks ms →
      (chunks.flatMap decode).Sublist (ms.flatMap out) ∧
        (chunks.flatMap decode = ms.flatMap out
          ↔ Everywhere (fun pre m => out m ≠ [] → ArrivesAt text a b chunks pre m) ms) := by
  induction chunks with
  | nil =>
      intro a b u ms hcut _ _ _
      -- every frame has a text, so nothing is left to say
      have hms : ms = [] := by
        cases ms with
        | nil => rfl
        | cons m ms =>
            have hboth := List.append_eq_nil_iff.1 hcut.symm
            have hm : text m = [] := (List.append_eq_nil_iff.1 hboth.2).1
            exact absurd hm (hd.nonempty m)
      subst hms
      exact ⟨List.Sublist.refl _, iff_of_true rfl everywhere_nil⟩
  | cons c cs ih =>
      intro a b u ms hcut hb hne hstray
      have hcpos : 0 < c.length := List.length_pos_iff.2 (hne c (List.mem_cons_self ..))
      have hne' : ∀ d ∈ cs, d ≠ [] := fun d hd => hne d (List.mem_cons_of_mem _ hd)
      -- a chunk that begins inside a frame says nothing itself
      have hinside : u ≠ [] → decode c = [] := by
        intro hu
        have := List.length_pos_iff.2 hu
        refine hstray [] c cs rfl fun pre post _ => ?_
        rw [List.flatten_nil, List.length_nil]
        omega
      rw [List.flatMap_cons]
      rw [List.flatten_cons] at hcut
      rcases List.append_eq_append_iff.1 hcut with ⟨v, hu, hcs⟩ | ⟨c', hc, hms⟩
      · -- the whole chunk is inside a frame that an earlier one cut
        have hlen : u.length = c.length + v.length := by rw [hu, List.length_append]
        have hu' : u ≠ [] := List.length_pos_iff.1 (by omega)
        obtain ⟨hsub, hiff⟩ := ih (a + c.length) b v ms hcs (by omega) hne' hstray.tail
        rw [hinside hu', List.nil_append]
        refine ⟨hsub, hiff.trans (everywhere_congr fun pre m _ _ => imp_congr_right fun _ => ?_)⟩
        rw [arrivesAt_cons text, or_iff_right]
        intro ⟨pre₁, _, _, ha, _⟩
        omega
      · -- the chunk holds whole frames and cuts one at most
        obtain ⟨whole, cut, later, p, u', hms', hc', hcut', hcs, hor⟩ :=
          split_stream text ms c' cs.flatten hms.symm
        subst hms'
        have hlen : a + c.length = b + size text whole + p.length := by
          rw [hc, hc', List.length_append, List.length_append, hb]
          unfold size
          omega
        have hlen' : b + size text (whole ++ cut) = a + c.length + u'.length := by
          rw [size_append, size_of_stream hcut']
          omega
        have hlater : StraySilent text decode (a + c.length) (b + size text (whole ++ cut)) cs later := by
          refine StraySilent.skip ?_ (begins_before hd hlen hor)
          rw [List.append_assoc]
          exact hstray.tail
        obtain ⟨hsub, hiff⟩ :=
          ih (a + c.length) (b + size text (whole ++ cut)) u' later hcs hlen' hne' hlater
        rw [everywhere_arrives hd (by omega) hlen hcut' hor, ← hiff, List.flatMap_append,
          List.flatMap_append]
        by_cases hu : u = []
        · -- the chunk begins where a frame does: the whole frames in it are decoded
          have hdec : decode c = whole.flatMap out := by
            rw [hc, hc', hu, List.nil_append]
            exact hd.chunk hcut' hor
          have hab : a = b := by rw [hb, hu]; rfl
          rw [hdec, List.append_cancel_left_eq, eq_append_iff_of_sublist hsub]
          exact ⟨(hsub.trans (List.sublist_append_right _ _)).append_left _,
            by simp [hab]⟩
        · -- it does not: its whole frames are lost, and must have nothing to say
          have hab : a ≠ b := by
            have := List.length_pos_iff.2 hu
            omega
          rw [hinside hu, List.nil_append, ← List.append_assoc, eq_append_iff_of_sublist hsub,
            List.append_eq_nil_iff, and_assoc]
          exact ⟨hsub.trans (List.sublist_append_right _ _), by simp [hab]⟩

/-- **Chunks and frames.**  A stream of frames is cut into chunks, and no chunk
that starts inside a frame decodes to anything.  Then the chunks deliver what
the frames say if and only if every frame that says anything arrives whole. -/
theorem deliver_eq_iff (hd : Decodes text decode out) {chunks : List (List α)} {ms : List μ}
    (hcut : chunks.flatten = stream text ms) (hne : ∀ c ∈ chunks, c ≠ [])
    (hstray : ∀ before c after, chunks = before ++ c :: after → ¬ AtBoundary text ms before →
      decode c = []) :
    chunks.flatMap decode = ms.flatMap out
      ↔ Everywhere (fun pre m => out m ≠ [] → ArrivesWhole text chunks pre m) ms := by
  have hat := (deliver_at hd chunks 0 0 [] ms (by rw [hcut]; rfl) rfl hne
    fun before c after heq hpos => by
      refine hstray before c after heq fun ⟨pre, post, hms, hlen⟩ => hpos pre post hms ?_
      rw [hlen]).2
  rw [hat]
  exact everywhere_congr fun pre m _ _ => imp_congr_right fun _ => arrivesAt_zero text

/-! ## §5. Loops over what is left to read. -/

/-- **Enough rounds.**  A loop does nothing on the empty input, and what it does
in a round depends on later rounds only through inputs that are shorter.  Then
rounds beyond the length of the input change nothing. -/
theorem loop_fuel {σ γ : Type*} {loop : Nat → σ → List α → γ}
    (hnil : ∀ fuel a, loop fuel a [] = loop 0 a [])
    (hround : ∀ fuel fuel' a s,
      (∀ a' s', s'.length < s.length → loop fuel a' s' = loop fuel' a' s') →
      loop (fuel + 1) a s = loop (fuel' + 1) a s) (fuel : Nat) :
    ∀ (a : σ) (s : List α), s.length ≤ fuel → loop fuel a s = loop s.length a s := by
  induction fuel using Nat.strongRecOn with
  | ind fuel ih =>
      intro a s hle
      cases s with
      | nil => exact hnil fuel a
      | cons b s =>
          rw [List.length_cons] at hle
          obtain ⟨n, rfl⟩ := Nat.exists_eq_succ_of_ne_zero (show fuel ≠ 0 by omega)
          refine hround n s.length a (b :: s) fun a' s' hlt => ?_
          rw [List.length_cons] at hlt
          -- both are as good as the length of what is left
          have hfuel := ih n (Nat.lt_succ_self n) a' s' (by omega)
          have hbytes := ih s.length (by omega) a' s' (by omega)
          rw [hfuel, hbytes]

end Chunks
