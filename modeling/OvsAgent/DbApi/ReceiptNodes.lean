/-
  OvsAgent.DbApi.ReceiptNodes — the receipt list, pointer by pointer.

  ReceiptList.lean has the list as a list.  Here `receipt_list_add` and
  `receipt_list_process` of receipt_list.c are followed with their nodes and
  `next` pointers: the callback of an entry runs while the search still points
  at the entry and at the one before it, and may append to the list behind
  either of them.

  Main results:
    * `process_refines` — what the pointers do is what ReceiptList.lean says;
    * `reentrant_process_iff` — the call does what is asked of it, whatever its
      callback adds, exactly when the first entry with the id can be answered.
-/
import OvsAgent.DbApi.ReceiptList
import OvsAgent.DbApi.ReceiptSafety
import OvsAgent.Lib.NodeHeap

namespace OvsAgent

open CString (ofString strncpy strncmpEq)

/-! ## §1. The functions. -/

/-- What the process dies of: a fault, a read through a pointer to no node, or a
loop that has not come to its end within the fuel. -/
inductive Crash where
  | fault (f : Fault)
  | wild
  deriving DecidableEq

/-- The nodes, and the static `msg_list`. -/
structure MsgList where
  heap : NodeHeap ReceiptNode
  msgList : Option Nat

/-- A call of `receipt_list_add`, with the answer it gets from `malloc`. -/
structure ReceiptAdd where
  malloc : Option Nat
  rid : Option CString
  receiptType : OvsdbReceiptId
  cb : Option OvsdbReceiptCb

/-- The requests a callback makes, by what it is called with. -/
abbrev CallbackRequests : Type := ReceiptCall → List ReceiptAdd

/-- What `receipt_list_process` comes back with, and the callbacks it has called. -/
structure ProcessResult where
  status : OvsStatus
  calls : List ReceiptCall
  list : MsgList

namespace MsgList

/-- A node is read. -/
def read (s : MsgList) (a : Nat) : Except Crash (Cell ReceiptNode) :=
  match s.heap a with
  | none => .error .wild
  | some cell => .ok cell

/-- `receipt_list_add`. -/
def receiptListAdd (fuel : Nat) (add : ReceiptAdd) (s : MsgList) : Except Crash (OvsStatus × MsgList) :=
  match add.rid, add.malloc with
  | none, _ => .ok (.failed, s)
  | _, none => .ok (.failed, s)
  | some rid, some newNode =>
      let heap := s.heap.store newNode (some ⟨⟨strncpy maxUuidLen rid, add.cb, add.receiptType⟩,
        none⟩)
      match s.msgList with
      | none => .ok (.success, ⟨heap, some newNode⟩)
      | some temp =>
          match heap.last fuel temp with
          | none => .error .wild
          | some temp =>
              match heap temp with
              | none => .error .wild
              | some cell =>
                  .ok (.success, ⟨heap.store temp (some { cell with next := some newNode }), s.msgList⟩)

/-- The callback makes its requests. -/
def runCallback (fuel : Nat) : List ReceiptAdd → MsgList → Except Crash MsgList
  | [], s => .ok s
  | add :: adds, s =>
      match s.receiptListAdd fuel add with
      | .error e => .error e
      | .ok (_, s) => runCallback fuel adds s

/-- `curr = msg_list; msg_list = msg_list->next; free(curr)`. -/
def removeHead (s : MsgList) : Except Crash MsgList :=
  match s.msgList with
  | none => .error .wild
  | some curr => do
      let cell ← s.read curr
      return ⟨s.heap.store curr none, cell.next⟩

/-- `curr->next = next->next; free(next)`. -/
def removeNext (s : MsgList) (curr next : Nat) : Except Crash MsgList := do
  let nextCell ← s.read next
  let currCell ← s.read curr
  return ⟨(s.heap.store curr (some { currCell with next := nextCell.next })).store next none, s.msgList⟩

/-- The `while (next != NULL)` loop of `receipt_list_process`. -/
def search (addFuel : Nat) (requests : CallbackRequests) (rid : CString) (result : Option Json)
    (s : MsgList) :
    Nat → Nat → Option Nat → Except Crash ProcessResult
  | 0, _, _ => .error .wild
  | _ + 1, _, none => .ok ⟨.failed, [], s⟩
  | fuel + 1, curr, some next => do
      let node ← s.read next
      if strncmpEq (maxUuidLen + 1) rid node.value.rid then
        match node.value.answer rid result with
        | .error fault => .error (.fault fault)
        | .ok none => .ok ⟨.failed, [], s⟩
        | .ok (some call) =>
            let s ← s.runCallback addFuel (requests call)
            let s ← s.removeNext curr next
            return ⟨.success, [call], s⟩
      else
        let currCell ← s.read curr
        match currCell.next with
        | none => .error .wild
        | some curr =>
            let cell ← s.read curr
            s.search addFuel requests rid result fuel curr cell.next

/-- `receipt_list_process`.  The head is looked at first, and removed in its own way. -/
def receiptListProcess (fuel : Nat) (requests : CallbackRequests) (rid : Option CString)
    (result : Option Json) (s : MsgList) : Except Crash ProcessResult :=
  match rid, s.msgList with
  | none, _ => .ok ⟨.failed, [], s⟩
  | _, none => .ok ⟨.failed, [], s⟩
  | some rid, some head => do
      let node ← s.read head
      if strncmpEq (maxUuidLen + 1) rid node.value.rid then
        match node.value.answer rid result with
        | .error fault => .error (.fault fault)
        | .ok none => .ok ⟨.failed, [], s⟩
        | .ok (some call) =>
            let s ← s.runCallback fuel (requests call)
            let s ← s.removeHead
            return ⟨.success, [call], s⟩
      else s.search fuel requests rid result fuel head node.next

/-! ## §2. The list of the nodes. -/

/-- The nodes from `msg_list` on. -/
abbrev Cells (s : MsgList) (cells : List (Nat × ReceiptNode)) : Prop :=
  NodeHeap.Path s.heap s.msgList cells none

/-- The list holds these entries. -/
def Holds (s : MsgList) (nodes : List ReceiptNode) : Prop :=
  ∃ cells, s.Cells cells ∧ cells.map Prod.snd = nodes

/-- `malloc` answers with addresses that are not in use, and with none twice. -/
structure Fresh (s : MsgList) (adds : List ReceiptAdd) : Prop where
  nodup : (adds.filterMap ReceiptAdd.malloc).Nodup
  free : ∀ a ∈ adds.filterMap ReceiptAdd.malloc, s.heap a = none

end MsgList

/-- The entry a call adds; none when it fails. -/
def ReceiptAdd.node? (add : ReceiptAdd) : Option ReceiptNode :=
  match add.rid, add.malloc with
  | some rid, some _ => some ⟨strncpy maxUuidLen rid, add.cb, add.receiptType⟩
  | _, _ => none

/-- The entries the callback adds. -/
def CallbackRequests.adds (requests : CallbackRequests) : CallbackAdds :=
  fun call => (requests call).filterMap ReceiptAdd.node?

/-! ## §3. The callback. -/

namespace MsgList

variable {s : MsgList} {cells : List (Nat × ReceiptNode)}

theorem read_eq {a : Nat} {cell : Cell ReceiptNode} (h : s.heap a = some cell) : s.read a = .ok cell := by
  unfold read
  rw [h]

/-- **`receipt_list_add` appends its entry.** -/
theorem receiptListAdd_eq (hs : s.Cells cells) {add : ReceiptAdd}
    (hfree : ∀ a, add.malloc = some a → s.heap a = none) {fuel : Nat} (hfuel : cells.length < fuel) :
    ∃ status s' new, s.receiptListAdd fuel add = .ok (status, s') ∧ s'.Cells (cells ++ new) ∧
      new.map Prod.snd = add.node?.toList ∧
      ∀ b, s.heap b = none → add.malloc ≠ some b → s'.heap b = none := by
  unfold receiptListAdd ReceiptAdd.node?
  cases hrid : add.rid with
  | none => exact ⟨_, s, [], rfl, by rwa [List.append_nil], rfl, fun b hb _ => hb⟩
  | some rid =>
      cases hm : add.malloc with
      | none => exact ⟨_, s, [], rfl, by rwa [List.append_nil], rfl, fun b hb _ => hb⟩
      | some a =>
          have ha := hfree a hm
          -- the fresh node is the only new address
          have hother : ∀ b c, b ≠ a → s.heap b = none → s.heap.store a c b = none := by
            intro b c hne hb
            rw [NodeHeap.store_other _ _ hne]
            exact hb
          dsimp only
          cases hlist : s.msgList with
          | none =>
              -- the only node
              unfold Cells at hs
              rw [hlist] at hs
              cases hs
              refine ⟨_, _, [(a, ⟨strncpy maxUuidLen rid, add.cb, add.receiptType⟩)], rfl,
                ?_, rfl, ?_⟩
              · exact .cons (NodeHeap.store_same _ _ _) (.nil none)
              · exact fun b hb hne => hother b _ (fun heq => hne (heq ▸ rfl)) hb
          | some head =>
              unfold Cells at hs
              rw [hlist] at hs
              rcases List.eq_nil_or_concat cells with rfl | ⟨front, ⟨b, v⟩, rfl⟩
              · cases hs
              · rw [List.concat_eq_append] at hs hfuel ⊢
                rw [List.length_append, List.length_singleton] at hfuel
                have hnot : a ∉ (front ++ [(b, v)]).map Prod.fst := by
                  intro hmem
                  obtain ⟨c, hc, heq⟩ := List.mem_map.1 hmem
                  exact hs.alloc c hc (heq ▸ ha)
                -- the walk to the last node passes the new one by
                have hstored :=
                  hs.store (c := some ⟨⟨strncpy maxUuidLen rid, add.cb, add.receiptType⟩, none⟩) hnot
                have hwalk := NodeHeap.last_eq front hstored (Nat.lt_of_succ_lt hfuel)
                obtain ⟨_, _, hlast⟩ := hstored.split
                obtain ⟨_, next, hcell, hrest⟩ := hlast.cons_inv
                cases hrest.nil_inv
                simp only [hwalk, hcell]
                refine ⟨_, _, [(a, _)], rfl, ?_, rfl, ?_⟩
                · rw [List.append_assoc]
                  exact hs.link ha
                · intro c hc hne
                  have hca : c ≠ a := fun heq => hne (heq ▸ rfl)
                  have hcb : c ≠ b := by
                    rintro rfl
                    exact hs.alloc (c, v) (List.mem_append_right _ (List.mem_singleton_self _)) hc
                  show NodeHeap.store _ b _ c = none
                  rw [NodeHeap.store_other _ _ hcb]
                  exact hother c _ hca hc

/-- **The callback appends its entries, in order.** -/
theorem runCallback_eq (adds : List ReceiptAdd) :
    ∀ {s : MsgList} {cells : List (Nat × ReceiptNode)} {fuel : Nat},
    s.Cells cells → s.Fresh adds → cells.length + adds.length ≤ fuel →
    ∃ s' new, s.runCallback fuel adds = .ok s' ∧ s'.Cells (cells ++ new) ∧
      new.map Prod.snd = adds.filterMap ReceiptAdd.node? := by
  induction adds with
  | nil =>
      intro s cells fuel hs _ _
      exact ⟨s, [], rfl, by rwa [List.append_nil], rfl⟩
  | cons add adds ih =>
      intro s cells fuel hs hfresh hfuel
      rw [List.length_cons] at hfuel
      have hfree : ∀ a, add.malloc = some a → s.heap a = none := by
        intro a ha
        refine hfresh.free a (List.mem_filterMap.2 ⟨add, List.mem_cons_self .., ha⟩)
      have hroom : cells.length < fuel := by omega
      obtain ⟨status, s₁, new, hadd, hs₁, hnew, hkept⟩ := receiptListAdd_eq hs hfree hroom
      -- a call adds one node at most, so the fuel lasts for the others
      have hlen : new.length ≤ 1 := by
        have h := congrArg List.length hnew
        rw [List.length_map] at h
        rw [h]
        cases add.node? <;> simp
      -- the later addresses are still free: no two calls are given the same one
      have hfresh₁ : s₁.Fresh adds := by
        have hnodup := hfresh.nodup
        cases hm : add.malloc with
        | none =>
            rw [List.filterMap_cons_none hm] at hnodup
            refine ⟨hnodup, fun a ha => hkept a (hfresh.free a ?_) (by rw [hm]; exact nofun)⟩
            rwa [List.filterMap_cons_none hm]
        | some b =>
            rw [List.filterMap_cons_some hm, List.nodup_cons] at hnodup
            refine ⟨hnodup.2, fun a ha => hkept a (hfresh.free a ?_) ?_⟩
            · rw [List.filterMap_cons_some hm]
              exact List.mem_cons_of_mem _ ha
            · rw [hm]
              intro heq
              cases heq
              exact hnodup.1 ha
      have hroom₁ : (cells ++ new).length + adds.length ≤ fuel := by
        rw [List.length_append]
        omega
      obtain ⟨s', later, hrun, hs', hlater⟩ := ih hs₁ hfresh₁ hroom₁
      refine ⟨s', new ++ later, ?_, by rwa [← List.append_assoc], ?_⟩
      · unfold runCallback
        rw [hadd]
        exact hrun
      · rw [List.map_append, hnew, hlater]
        cases hnode : add.node? with
        | none => rw [List.filterMap_cons_none hnode]; rfl
        | some node => rw [List.filterMap_cons_some hnode]; rfl

/-! ## §4. The search. -/

/-- The first entry is taken out. -/
theorem removeHead_eq {a : Nat} {v : ReceiptNode} (hs : s.Cells ((a, v) :: cells)) :
    ∃ s', s.removeHead = .ok s' ∧ s'.Cells cells := by
  obtain ⟨hhead, next, hcell, _⟩ := hs.cons_inv
  refine ⟨⟨s.heap.store a none, next⟩, ?_, hs.unlink_head hcell⟩
  unfold removeHead
  rw [hhead]
  show (s.read a >>= _) = _
  rw [read_eq hcell]
  rfl

/-- The entry behind `a` is taken out. -/
theorem removeNext_eq {a b : Nat} {v w : ReceiptNode} {pre post : List (Nat × ReceiptNode)}
    (hs : s.Cells (pre ++ (a, v) :: (b, w) :: post)) :
    ∃ s', s.removeNext a b = .ok s' ∧ s'.Cells (pre ++ (a, v) :: post) := by
  obtain ⟨_, _, hrest⟩ := hs.split
  obtain ⟨_, _, ha, hrest'⟩ := hrest.cons_inv
  obtain ⟨_, next, hb, _⟩ := hrest'.cons_inv
  refine ⟨⟨(s.heap.store a (some ⟨v, next⟩)).store b none, s.msgList⟩, ?_, hs.unlink hb⟩
  unfold removeNext
  rw [read_eq hb, read_eq ha]
  rfl

/-- The outcome is that of the list, behind the entries `front`. -/
def Refines (out : Except Crash ProcessResult) (front : List ReceiptNode)
    (r : Except Fault ReceiptListResult) :
    Prop :=
  match r with
  | .error fault => out = .error (.fault fault)
  | .ok r => ∃ s', out = .ok ⟨r.status, r.calls, s'⟩ ∧ s'.Holds (front ++ r.receipts)

section Search

variable {requests : CallbackRequests} {rid : CString} {result : Option Json} {addFuel : Nat}

/-- Enough for the callback that is called, if one is. -/
def EnoughFuel (requests : CallbackRequests) (rid : CString) (result : Option Json) (nodes : List ReceiptNode)
    (fuel : Nat) : Prop :=
  nodes.length < fuel ∧ ∀ node ∈ nodes, ∀ call, node.answer rid result = .ok (some call) →
    nodes.length + (requests call).length ≤ fuel

/-- The entry with the id is found behind the entries `pre`, and is taken out by
`remove` once its callback has run. -/
theorem found_refines (hfresh : ∀ call, s.Fresh (requests call)) {pre post : List (Nat × ReceiptNode)}
    {b : Nat} {w : ReceiptNode} (hs : s.Cells (pre ++ (b, w) :: post))
    (henough : EnoughFuel requests rid result ((pre ++ (b, w) :: post).map Prod.snd) addFuel)
    {remove : MsgList → Except Crash MsgList}
    (hremove : ∀ (s₁ : MsgList) (post : List (Nat × ReceiptNode)), s₁.Cells (pre ++ (b, w) :: post) →
    ∃ s₂, remove s₁ = .ok s₂ ∧ s₂.Cells (pre ++ post)) :
    Refines
      (match w.answer rid result with
        | .error fault => .error (.fault fault)
        | .ok none => .ok ⟨.failed, [], s⟩
        | .ok (some call) => do
            let s ← s.runCallback addFuel (requests call)
            let s ← remove s
            return ⟨.success, [call], s⟩)
      (pre.map Prod.snd)
      (match w.answer rid result with
        | .error fault => .error fault
        | .ok none => .ok ⟨.failed, [], w :: post.map Prod.snd⟩
        | .ok (some call) => .ok ⟨.success, [call], post.map Prod.snd ++ requests.adds call⟩) := by
  cases hans : w.answer rid result with
  | error fault => exact rfl
  | ok answer =>
      cases answer with
      | none => exact ⟨s, rfl, _, hs, List.map_append ..⟩
      | some call =>
          have hw : w ∈ (pre ++ (b, w) :: post).map Prod.snd :=
            List.mem_map.2 ⟨(b, w), List.mem_append_right _ (List.mem_cons_self ..), rfl⟩
          have hcallback := henough.2 w hw call hans
          rw [List.length_map] at hcallback
          -- the callback has run, and the entry is still where it was
          obtain ⟨s₁, new, hrun, hs₁, hnew⟩ := runCallback_eq _ hs (hfresh call) hcallback
          rw [List.append_assoc, List.cons_append] at hs₁
          obtain ⟨s₂, hout, hs₂⟩ := hremove s₁ (post ++ new) hs₁
          refine ⟨s₂, ?_, _, hs₂, ?_⟩
          · show (s.runCallback addFuel (requests call) >>= _) = _
            rw [hrun]
            show (remove s₁ >>= _) = _
            rw [hout]
            rfl
          · have hadds : new.map Prod.snd = requests.adds call := hnew
            rw [List.map_append, List.map_append, hadds]

/-- **The loop.**  `curr` is an entry without the id and `next` the cell behind it. -/
theorem search_refines (hfresh : ∀ call, s.Fresh (requests call)) (rest : List (Nat × ReceiptNode)) :
    ∀ {pre : List (Nat × ReceiptNode)} {curr : Nat} {v : ReceiptNode} {next : Option Nat} {fuel : Nat},
      s.Cells (pre ++ (curr, v) :: rest) → s.heap curr = some ⟨v, next⟩ → rest.length < fuel →
      EnoughFuel requests rid result ((pre ++ (curr, v) :: rest).map Prod.snd) addFuel →
      Refines (s.search addFuel requests rid result fuel curr next) ((pre ++ [(curr, v)]).map Prod.snd)
        (receiptListSearch requests.adds rid result (rest.map Prod.snd)) := by
  -- over the entries behind `curr`; those passed over gather in `pre`
  induction rest with
  | nil =>
      intro pre curr v next fuel hs hcurr hfuel _
      obtain ⟨fuel, rfl⟩ := Nat.exists_eq_succ_of_ne_zero (Nat.ne_of_gt hfuel)
      obtain ⟨_, _, hlast⟩ := hs.split
      obtain ⟨_, next', hcell, hend⟩ := hlast.cons_inv
      rw [hcurr] at hcell
      cases hcell
      cases hend.nil_inv
      exact ⟨s, rfl, _, hs, (List.append_nil _).symm⟩
  | cons c rest ih =>
      intro pre curr v next fuel hs hcurr hfuel henough
      obtain ⟨b, w⟩ := c
      obtain ⟨fuel, rfl⟩ :=
        Nat.exists_eq_succ_of_ne_zero (Nat.ne_of_gt (Nat.lt_of_le_of_lt (Nat.zero_le _) hfuel))
      obtain ⟨_, _, hrest⟩ := hs.split
      obtain ⟨_, next', hcell, hrest'⟩ := hrest.cons_inv
      rw [hcurr] at hcell
      cases hcell
      -- `next` points to the node of the entry behind `curr`
      obtain ⟨rfl, next'', hb, _⟩ := hrest'.cons_inv
      rw [List.map_cons, receiptListSearch]
      show Refines (s.read b >>= _) _ _
      rw [read_eq hb]
      show Refines (if strncmpEq (maxUuidLen + 1) rid w.rid then _ else _) _ _
      have hassoc : ∀ post, (pre ++ [(curr, v)]) ++ post = pre ++ (curr, v) :: post :=
        fun _ => List.append_assoc ..
      rw [← hassoc] at hs henough
      by_cases hmatch : strncmpEq (maxUuidLen + 1) rid w.rid = true
      · rw [if_pos hmatch, if_pos hmatch]
        refine found_refines hfresh hs henough fun s₁ post hs₁ => ?_
        rw [hassoc] at hs₁ ⊢
        exact removeNext_eq hs₁
      · rw [if_neg hmatch, if_neg hmatch]
        -- `curr = curr->next; next = curr->next`
        show Refines (s.read curr >>= _) _ _
        rw [read_eq hcurr]
        show Refines (s.read b >>= _) _ _
        rw [read_eq hb]
        have hgo := ih hs hb (Nat.lt_of_succ_lt_succ hfuel) henough
        -- the entry passed over goes to the front
        cases hr : receiptListSearch requests.adds rid result (rest.map Prod.snd) with
        | error fault =>
            rw [hr] at hgo
            exact hgo
        | ok r =>
            rw [hr] at hgo
            obtain ⟨s', hout, cells', hs', hcells'⟩ := hgo
            refine ⟨s', hout, cells', hs', ?_⟩
            rw [hcells', List.map_append, List.append_assoc]
            rfl

/-- **The pointers do what the list says.** -/
theorem process_refines {nodes : List ReceiptNode} (hs : s.Holds nodes)
    (hfresh : ∀ call, s.Fresh (requests call)) {fuel : Nat}
    (hfuel : EnoughFuel requests rid result nodes fuel) :
    Refines (s.receiptListProcess fuel requests (some rid) result) []
      (OvsAgent.receiptListProcess requests.adds (some rid) result nodes) := by
  obtain ⟨cells, hs, rfl⟩ := hs
  show Refines _ [] (receiptListSearch requests.adds rid result (cells.map Prod.snd))
  unfold receiptListProcess
  cases cells with
  | nil =>
      cases hlist : s.msgList with
      | none => exact ⟨s, rfl, [], hs, rfl⟩
      | some head =>
          unfold Cells at hs
          rw [hlist] at hs
          cases hs
  | cons c cells =>
      obtain ⟨a, v⟩ := c
      obtain ⟨hhead, next, ha, _⟩ := hs.cons_inv
      rw [hhead, List.map_cons, receiptListSearch]
      show Refines (s.read a >>= _) _ _
      rw [read_eq ha]
      show Refines (if strncmpEq (maxUuidLen + 1) rid v.rid then _ else _) _ _
      have hs₀ : s.Cells ([] ++ (a, v) :: cells) := hs
      by_cases hmatch : strncmpEq (maxUuidLen + 1) rid v.rid = true
      · -- the entry is the head: `msg_list` itself moves on
        rw [if_pos hmatch, if_pos hmatch]
        exact found_refines hfresh hs₀ hfuel fun s₁ post hs₁ => removeHead_eq hs₁
      · rw [if_neg hmatch, if_neg hmatch]
        have hlen := hfuel.1
        rw [List.length_map, List.length_cons] at hlen
        -- behind the head the walk needs the node before the current one
        have hgo := search_refines hfresh cells hs₀ ha (Nat.lt_of_succ_lt hlen) hfuel
        cases hr : receiptListSearch requests.adds rid result (cells.map Prod.snd) with
        | error fault =>
            rw [hr] at hgo
            exact hgo
        | ok r =>
            rw [hr] at hgo
            exact hgo

end Search

/-- There is enough fuel for any list. -/
theorem exists_enoughFuel (requests : CallbackRequests) (rid : CString) (result : Option Json)
    (nodes : List ReceiptNode) :
    ∃ n, ∀ fuel, n ≤ fuel → EnoughFuel requests rid result nodes fuel := by
  have hbound : ∀ nodes : List ReceiptNode, ∃ n, ∀ node ∈ nodes, ∀ call,
      node.answer rid result = .ok (some call) → (requests call).length ≤ n := by
    intro nodes
    induction nodes with
    | nil => exact ⟨0, nofun⟩
    | cons node nodes ih =>
        obtain ⟨n, hn⟩ := ih
        have hone : ∃ m, ∀ call, node.answer rid result = .ok (some call) →
            (requests call).length ≤ m := by
          match node.answer rid result with
          | .error fault => exact ⟨0, nofun⟩
          | .ok none => exact ⟨0, nofun⟩
          | .ok (some call) =>
              refine ⟨(requests call).length, fun call' h => ?_⟩
              cases h
              exact Nat.le_refl _
        obtain ⟨m, hm⟩ := hone
        refine ⟨max m n, fun node' hmem call h => ?_⟩
        rcases List.mem_cons.1 hmem with rfl | hmem
        · exact Nat.le_trans (hm call h) (Nat.le_max_left _ _)
        · exact Nat.le_trans (hn node' hmem call h) (Nat.le_max_right _ _)
  obtain ⟨n, hn⟩ := hbound nodes
  refine ⟨nodes.length + n + 1, fun fuel hfuel => ⟨by omega, fun node hmem call h => ?_⟩⟩
  have := hn node hmem call h
  omega

end MsgList

/-! ## §5. What is asked of the call. -/

/-- `node` is the first entry with the id, and its parser makes `receipt` of the result. -/
structure Answerable (nodes : List ReceiptNode) (rid : Option CString) (result : Option Json)
    (pre : List ReceiptNode) (node : ReceiptNode) (post : List ReceiptNode) (receipt : OvsDbReceipt) :
    Prop where
  split : nodes = pre ++ node :: post
  first : ∀ n ∈ pre, some n.rid ≠ rid
  id : rid = some node.rid
  parsed : ovsdbParseResult node.receiptType result = .ok (some receipt)

/-- Some entry has the id and the result parses for the first one: the call
succeeds, the entry's callback has run once, and the list is what it was without
the entry, and behind it what the callback added.  Otherwise the call fails, no
callback has run, and the list is what it was. -/
structure ProcessedAs (requests : CallbackRequests) (rid : Option CString) (result : Option Json)
    (nodes : List ReceiptNode) (out : Except Crash ProcessResult) : Prop where
  answered : ∀ pre node post receipt, Answerable nodes rid result pre node post receipt →
    ∃ s' cb, node.callback = some cb ∧ out = .ok ⟨.success, [⟨cb, node.rid, receipt⟩], s'⟩ ∧
      s'.Holds (pre ++ post ++ requests.adds ⟨cb, node.rid, receipt⟩)
  refused : (¬ ∃ pre node post receipt, Answerable nodes rid result pre node post receipt) →
    ∃ s', out = .ok ⟨.failed, [], s'⟩ ∧ s'.Holds nodes

/-- The entry has a parser that returns for the result, and a callback if that
makes a receipt of it. -/
def ReceiptNode.CanAnswer (node : ReceiptNode) (result : Option Json) : Prop :=
  (∀ value, result = some value →
      node.receiptType.Registered ∧ ¬ (node.receiptType = .insert ∧ BadUuid value)) ∧
    (Accepts node.receiptType result → node.callback.isSome)

theorem ProcessedAs.ok {requests : CallbackRequests} {rid : Option CString} {result : Option Json}
    {nodes : List ReceiptNode} {out : Except Crash ProcessResult}
    (h : ProcessedAs requests rid result nodes out) :
    ∃ r, out = .ok r := by
  by_cases hex : ∃ pre node post receipt, Answerable nodes rid result pre node post receipt
  · obtain ⟨pre, node, post, receipt, hans⟩ := hex
    obtain ⟨_, _, _, hout, _⟩ := h.answered pre node post receipt hans
    exact ⟨_, hout⟩
  · obtain ⟨_, hout, _⟩ := h.refused hex
    exact ⟨_, hout⟩

/-- The process survives the answer exactly when the entry can answer. -/
theorem ReceiptNode.answer_error_iff (node : ReceiptNode) (rid : CString) (result : Option Json) :
    (∃ fault, node.answer rid result = .error fault) ↔ ¬ node.CanAnswer result := by
  have hparse : (∃ fault, ovsdbParseResult node.receiptType result = .error fault) ↔
      ¬ ∀ value, result = some value →
        node.receiptType.Registered ∧ ¬ (node.receiptType = .insert ∧ BadUuid value) := by
    cases result with
    | none => exact iff_of_false (fun ⟨_, h⟩ => by cases h) fun h => h nofun
    | some value =>
        by_cases htype : node.receiptType.Registered
        · rw [ovsdbParseResult_error_iff htype]
          constructor
          · exact fun hbad h => (h value rfl).2 hbad
          · intro h
            by_contra hbad
            refine h fun value' heq => ⟨htype, ?_⟩
            cases heq
            exact hbad
        · -- a type without a parser: the table's NULL entry is called
          have hunknown : node.receiptType = .unknown := not_not.1 htype
          refine iff_of_true ⟨.nullCall, ?_⟩ fun h => htype (h value rfl).1
          rw [hunknown]
          rfl
  -- past the parser, only the call of the callback can go wrong
  unfold ReceiptNode.CanAnswer
  rw [not_and_or, ← hparse]
  unfold ReceiptNode.answer
  cases hresult : ovsdbParseResult node.receiptType result with
  | error fault => exact iff_of_true ⟨fault, rfl⟩ (Or.inl ⟨fault, rfl⟩)
  | ok receipt =>
      cases receipt with
      | none =>
          refine iff_of_false (fun ⟨_, h⟩ => by cases h) ?_
          rintro (⟨_, h⟩ | h)
          · cases h
          · refine h fun haccepts => ?_
            obtain ⟨receipt, hsome, _⟩ := (ovsdbParseResult_iff _ _).2 haccepts
            rw [hresult] at hsome
            cases hsome
      | some receipt =>
          have haccepts : Accepts node.receiptType result := accepts_of_parsed hresult
          cases hcb : node.callback with
          | none => exact iff_of_true ⟨.nullCall, rfl⟩ (Or.inr fun h => by cases h haccepts)
          | some cb =>
              refine iff_of_false (fun ⟨_, h⟩ => by cases h) ?_
              rintro (⟨_, h⟩ | h)
              · cases h
              · exact h fun _ => rfl

/-- The first entry with an id is one. -/
theorem Answerable.unique {rid : Option CString} {result : Option Json} {l : ReceiptList}
    {node node' : ReceiptNode} {pre post pre' post' : List ReceiptNode} {receipt : OvsDbReceipt}
    (h : Answerable l.nodes rid result pre' node' post' receipt) (heq : l.nodes = pre ++ node :: post)
    (hid : rid = some node.rid) (hpre : ∀ n ∈ pre, some n.rid ≠ rid) :
    pre = pre' ∧ node = node' ∧ post = post' := by
  have hsplit := heq.symm.trans h.split
  have hlast := h.first
  have hid' := h.id
  clear h heq
  -- along both splits at once; one that ended first would have the id among the other's `pre`
  induction pre generalizing pre' with
  | nil =>
      cases pre' with
      | nil =>
          cases hsplit
          exact ⟨rfl, rfl, rfl⟩
      | cons n pre' =>
          cases hsplit
          exact absurd hid.symm (hlast node (List.mem_cons_self ..))
  | cons n pre ih =>
      cases pre' with
      | nil =>
          cases hsplit
          exact absurd hid'.symm (hpre node' (List.mem_cons_self ..))
      | cons n' pre' =>
          rw [List.cons_append, List.cons_append, List.cons.injEq] at hsplit
          obtain ⟨rfl, hsplit⟩ := hsplit
          obtain ⟨rfl, rfl, rfl⟩ := ih (fun m hm => hpre m (List.mem_cons_of_mem _ hm)) hsplit
            fun m hm => hlast m (List.mem_cons_of_mem _ hm)
          exact ⟨rfl, rfl, rfl⟩

/-- The outcome at the first entry with the id. -/
theorem processedAs_first_iff {requests : CallbackRequests} {l : ReceiptList} {node : ReceiptNode}
    {pre post : List ReceiptNode} {result : Option Json} {out : Except Crash ProcessResult}
    (heq : l.nodes = pre ++ node :: post) (hpre : ∀ n ∈ pre, n.rid ≠ node.rid)
    (hout : MsgList.Refines out [] (receiptListSearch requests.adds node.rid result l.nodes)) :
    ProcessedAs requests (some node.rid) result l.nodes out ↔ node.CanAnswer result := by
  have hpre' : ∀ n ∈ pre, some n.rid ≠ some node.rid := fun n hn h => hpre n hn (Option.some.inj h)
  have herror := node.answer_error_iff node.rid result
  rw [receiptListSearch_first heq rfl hpre] at hout
  cases hans : node.answer node.rid result with
  | error fault =>
      -- the process is gone, which is neither of the two outcomes
      rw [hans] at hout
      refine iff_of_false (fun h => ?_) (herror.1 ⟨fault, hans⟩)
      obtain ⟨_, hok⟩ := h.ok
      rw [hok] at hout
      cases hout
  | ok answer =>
      have hcan : node.CanAnswer result := by
        by_contra hno
        obtain ⟨_, h⟩ := herror.2 hno
        rw [hans] at h
        cases h
      refine iff_of_true ?_ hcan
      rw [hans] at hout
      cases answer with
      | none =>
          refine ⟨fun pre' node' post' receipt h => ?_, fun _ => hout⟩
          -- its result was not parsed
          obtain ⟨rfl, rfl, rfl⟩ := h.unique heq rfl hpre'
          unfold ReceiptNode.answer at hans
          rw [h.parsed] at hans
          dsimp only at hans
          split at hans <;> cases hans
      | some call =>
          obtain ⟨hparse, hcb, hrid⟩ := ReceiptNode.answer_eq_call hans
          obtain ⟨cb, rid, receipt⟩ := call
          cases hrid
          refine ⟨fun pre' node' post' receipt' h => ?_, fun hno => ?_⟩
          · obtain ⟨rfl, rfl, rfl⟩ := h.unique heq rfl hpre'
            rw [h.parsed] at hparse
            cases hparse
            obtain ⟨s', hout, hs'⟩ := hout
            exact ⟨s', cb, hcb, hout, hs'⟩
          · exact absurd ⟨pre, node, post, receipt, heq, hpre', rfl, hparse⟩ hno

/-- **The receipt list under re-entrant callbacks.**  Let the nodes from
`msg_list` on be the entries of `l`, and let the callback of whatever entry is
called make any requests of its own, for which `malloc` answers with fresh
addresses or not at all.  With fuel enough, `receipt_list_process` does what is
asked of it if and only if the first entry with the id, if there is one, can
answer. -/
theorem reentrant_process_iff {s : MsgList} {l : ReceiptList} (hs : s.Holds l.nodes)
    {requests : CallbackRequests} (hfresh : ∀ call, s.Fresh (requests call)) (rid : Option CString)
    (result : Option Json) :
    (∃ n, ∀ fuel, n ≤ fuel →
        ProcessedAs requests rid result l.nodes (s.receiptListProcess fuel requests rid result))
      ↔ ∀ node, rid.bind l.first = some node → node.CanAnswer result := by
  cases rid with
  | none =>
      refine iff_of_true ⟨0, fun fuel _ => ⟨fun _ _ _ _ h => ?_, fun _ => ⟨s, ?_, hs⟩⟩⟩ nofun
      · cases h.id
      · unfold MsgList.receiptListProcess
        rfl
  | some rid =>
      obtain ⟨n, hn⟩ := MsgList.exists_enoughFuel requests rid result l.nodes
      have hrefines :
          ∀ fuel, n ≤ fuel → MsgList.Refines (s.receiptListProcess fuel requests (some rid) result) []
          (receiptListSearch requests.adds rid result l.nodes) :=
        fun fuel hfuel => MsgList.process_refines hs hfresh (hn fuel hfuel)
      cases hfirst : l.first rid with
      | none =>
          -- nobody has the id, so nothing is asked
          have hno : ∀ node ∈ l.nodes, node.rid ≠ rid := by
            intro node hnode heq
            exact absurd heq (by simpa using List.find?_eq_none.1 hfirst node hnode)
          refine iff_of_true ⟨n, fun fuel hfuel => ?_⟩ fun node h => ?_
          · have hout := hrefines fuel hfuel
            rw [receiptListSearch_absent l.fits hno] at hout
            refine ⟨fun pre node post receipt h => ?_, fun _ => hout⟩
            have hmem : node ∈ l.nodes := by
              rw [h.split]
              exact List.mem_append_right _ (List.mem_cons_self ..)
            exact absurd (Option.some.inj h.id).symm (hno node hmem)
          · rw [Option.bind_some, hfirst] at h
            cases h
      | some node =>
          obtain ⟨rfl, pre, post, heq, hpre⟩ := ReceiptList.first_split hfirst
          have hiff := fun fuel hfuel => processedAs_first_iff heq hpre (hrefines fuel hfuel)
          rw [Option.bind_some, hfirst]
          constructor
          · intro ⟨m, hm⟩ node' hnode'
            cases hnode'
            exact (hiff (max m n) (Nat.le_max_right _ _)).1 (hm _ (Nat.le_max_left _ _))
          · intro h
            exact ⟨n, fun fuel hfuel => (hiff fuel hfuel).2 (h node rfl)⟩

/-- An insert is waiting behind a monitor request. -/
def twoRequests : ReceiptList where
  nodes := [⟨ofString "1", some .dummyReceiptCb, .monitor⟩,
    ⟨ofString "2", some .ovsAgentApiWriteCallback, .insert⟩]
  fits := by decide

def twoNodes : MsgList where
  heap := NodeHeap.store (NodeHeap.store (fun _ => none)
    1 (some ⟨⟨ofString "1", some .dummyReceiptCb, .monitor⟩, some 2⟩))
    2 (some ⟨⟨ofString "2", some .ovsAgentApiWriteCallback, .insert⟩, none⟩)
  msgList := some 1

/-- The insert's callback makes the first monitor request of the process. -/
def monitorRequest : CallbackRequests :=
  fun _ => [⟨some 3, some (ofString "4"), .monitor, some .dummyReceiptCb⟩]

/-- The node is removed from behind the first, with the new one behind it. -/
theorem reentrant_process_iff_two : ∃ n, ∀ fuel, n ≤ fuel →
    ProcessedAs monitorRequest (some (ofString "2"))
      (some (insertedAs (.array [.string ovsdbTableUuid, .string (ofString "u")]))) twoRequests.nodes
      (twoNodes.receiptListProcess fuel monitorRequest (some (ofString "2"))
        (some (insertedAs (.array [.string ovsdbTableUuid, .string (ofString "u")])))) := by
  have hs : twoNodes.Holds twoRequests.nodes :=
    ⟨[(1, ⟨ofString "1", some .dummyReceiptCb, .monitor⟩),
      (2, ⟨ofString "2", some .ovsAgentApiWriteCallback, .insert⟩)],
      .cons rfl (.cons rfl (.nil none)), rfl⟩
  have hfresh : ∀ call, twoNodes.Fresh (monitorRequest call) := by
    intro call
    refine ⟨List.nodup_singleton 3, fun a ha => ?_⟩
    rw [List.mem_singleton.1 ha]
    rfl
  refine (reentrant_process_iff hs hfresh _ _).2 fun node hnode => ?_
  have hfirst : (some (ofString "2")).bind twoRequests.first
      = some ⟨ofString "2", some .ovsAgentApiWriteCallback, .insert⟩ := by
    decide +kernel
  rw [hfirst] at hnode
  cases hnode
  refine ⟨fun value heq => ?_, fun _ => rfl⟩
  cases heq
  refine ⟨nofun, fun ⟨_, _, hbad⟩ => ?_⟩
  exact absurd (hbad (ofString "u") rfl) (by decide)

/-- A cancel that was registered without a callback. -/
def cancelRequest : ReceiptList where
  nodes := [⟨ofString "1", none, .monitorCancel⟩]
  fits := by decide

def cancelNode : MsgList where
  heap := NodeHeap.store (fun _ => none) 1 (some ⟨⟨ofString "1", none, .monitorCancel⟩, none⟩)
  msgList := some 1

/-- Its result parses, and the process dies. -/
theorem cancel_reply_not_processed :
    cancelNode.Holds cancelRequest.nodes ∧
      (∀ fuel, cancelNode.receiptListProcess fuel (fun _ => []) (some (ofString "1")) (some (.object []))
        = .error (.fault .nullCall)) ∧
      ¬ ∃ n, ∀ fuel, n ≤ fuel →
        ProcessedAs (fun _ => []) (some (ofString "1")) (some (.object [])) cancelRequest.nodes
          (cancelNode.receiptListProcess fuel (fun _ => []) (some (ofString "1")) (some (.object []))) := by
  have hcrash : ∀ fuel, cancelNode.receiptListProcess fuel
      (fun _ => []) (some (ofString "1")) (some (.object []))
      = .error (.fault .nullCall) := by
    intro fuel
    rfl
  refine ⟨⟨[(1, ⟨ofString "1", none, .monitorCancel⟩)], .cons rfl (.nil none), rfl⟩, hcrash,
    fun ⟨n, h⟩ => ?_⟩
  obtain ⟨_, hok⟩ := (h n (Nat.le_refl n)).ok
  rw [hcrash] at hok
  cases hok

end OvsAgent
