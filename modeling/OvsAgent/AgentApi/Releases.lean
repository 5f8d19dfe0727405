/-
  OvsAgent.AgentApi.Releases — what a process acquires, it gives back once.

  The handle, the table, the mutex, the condition, the log, the socket and the
  threads are acquired and given back by the client's thread and by those of
  `ovsdb_listen`.  Whatever order the steps come in and wherever `init` fails,
  the log of these events can be replayed, but for two uses: `send` is given
  `ovsdb_sock_fd` also when the thread has closed it, and `LOG` reads `g_logger`
  again after its test.  A client calls `deinit` when its requests have returned.

  Main results:
    * `log_lawful` — nothing is used, closed, joined or freed unless it is held;
    * `untouched_when_gone` — what was given back is left alone;
    * `acquired_and_given_back` — between two calls the handle and its objects
      have been given back as often as acquired, whatever failed;
    * `held_after_deinit` — `deinit` gives back all that a session acquired.
-/
import OvsAgent.AgentApi.Sessions

namespace OvsAgent

open Resources (Event Lawful LawfulBut)

/-! ## §1. What is held. -/

section Held

variable {s s' : ApiProcess}

/-- Two accounts of what is held, resource by resource. -/
theorem held_ext {f g : ApiResource → Bool} (handle : f .handle = g .handle)
    (logger : f .logger = g .logger) (table : f .table = g .table) (elements : f .elements = g .elements)
    (mutex : f .mutex = g .mutex) (condition : f .condition = g .condition)
    (fd : ∀ n, f (.fd (some n)) = g (.fd (some n))) (noFd : f (.fd none) = g (.fd none))
    (thread : ∀ n, f (.thread n) = g (.thread n)) : f = g := by
  funext r
  cases r with
  | fd n =>
      cases n with
      | none => exact noFd
      | some n => exact fd n
  | thread n => exact thread n
  | _ => assumption

/-- What a process holds depends on little. -/
theorem held_congr (hobj : s'.objects = s.objects)
    (hlog : s'.logger.map LogContext.fd = s.logger.map LogContext.fd)
    (hfd : ∀ n, s'.holdsFd n = s.holdsFd n) (hthread : ∀ n, s'.holdsThread n = s.holdsThread n) :
    s'.held = s.held := by
  have hlogger : s'.logger.isSome = s.logger.isSome := by
    have hmap := congrArg Option.isSome hlog
    rw [Option.isSome_map, Option.isSome_map] at hmap
    exact hmap
  have htable : s'.table = s.table := congrArg (fun x => x.2.1) hobj
  exact held_ext (congrArg Prod.fst hobj) hlogger htable htable (congrArg (fun x => x.2.2.1) hobj)
    (congrArg (fun x => x.2.2.2) hobj) hfd rfl hthread

/-- The running thread has closed the socket, or it has not. -/
theorem ApiProcess.OneThread.closing {n : Nat} {pc : ThreadPc} (hs : s.OneThread)
    (hpc : s.threads[n]? = some pc) (hrun : pc.running = true) : s.closing = (pc == .forget) := by
  obtain ⟨rfl, _⟩ := (hs.each n pc hpc).1 hrun
  unfold ApiProcess.closing
  cases hc : s.threads.contains .forget with
  | true =>
      obtain ⟨m, hm⟩ := List.mem_iff_getElem?.1 (List.contains_iff_mem.1 hc)
      obtain ⟨rfl, _⟩ := (hs.each m _ hm).1 rfl
      rw [hpc] at hm
      cases hm
      rfl
  | false =>
      symm
      refine beq_eq_false_iff_ne.2 fun hforget => ?_
      rw [List.contains_iff_mem.2 (List.mem_of_getElem? (hforget ▸ hpc))] at hc
      cases hc

/-- Without a running thread nothing is being closed. -/
theorem ApiProcess.OneThread.not_closing (hs : s.OneThread) (hoff : s.attended = false) :
    s.closing = false := by
  unfold ApiProcess.closing
  cases hc : s.threads.contains .forget with
  | false => rfl
  | true =>
      obtain ⟨m, hm⟩ := List.mem_iff_getElem?.1 (List.contains_iff_mem.1 hc)
      obtain ⟨_, hon⟩ := (hs.each m _ hm).1 rfl
      rw [hoff] at hon
      cases hon

theorem holdsThread_set {n : Nat} {pc : ThreadPc} (pc' : ThreadPc) (hpc : s.threads[n]? = some pc)
    (hjoined : (pc' != .joined) = (pc != .joined)) (hthreads : s'.threads = s.threads.set n pc') (m : Nat) :
    s'.holdsThread m = s.holdsThread m := by
  unfold ApiProcess.holdsThread
  rw [hthreads, List.getElem?_set]
  by_cases hnm : n = m
  · subst hnm
    rw [if_pos rfl, if_pos (List.getElem?_eq_some_iff.1 hpc).1, hpc]
    exact hjoined
  · rw [if_neg hnm]

end Held

/-- The logger or a descriptor: what `LOG` and `send` use. -/
def ApiResource.isFile : ApiResource → Bool
  | logger => true
  | fd _ => true
  | _ => false

/-- The log can be replayed but for the uses of what is `stray`, and the log
file and the socket are different descriptors. -/
structure ApiProcess.Accounted (stray : ApiResource → Bool) (s : ApiProcess) : Prop where
  lawful : LawfulBut stray s.log s.held
  distinct : ∀ l fd, s.logger = some l → s.ovsdbSockFd = some fd → s.closing = false → l.fd ≠ fd

section Accounted

variable {stray : ApiResource → Bool} {s s' : ApiProcess}

theorem accounted_start : ApiProcess.start.Accounted stray where
  lawful := by
    have hheld : ApiProcess.start.held = fun _ => false := by
      funext r
      cases r with
      | fd n => cases n <;> rfl
      | _ => rfl
    show LawfulBut stray [] ApiProcess.start.held
    rw [hheld]
    exact Resources.lawfulBut_nil
  distinct := fun _ _ h => by cases h

/-- Nothing is acquired or given back. -/
theorem ApiProcess.Accounted.congr (ha : s.Accounted stray) (hlog : s'.log = s.log)
    (hheld : s'.held = s.held) (hlogger : s'.logger.map LogContext.fd = s.logger.map LogContext.fd)
    (hfd : s'.ovsdbSockFd = s.ovsdbSockFd) (hclosing : s'.closing = s.closing) : s'.Accounted stray := by
  refine ⟨by rw [hlog, hheld]; exact ha.lawful, fun l fd hl hsock hc => ?_⟩
  have hmap : s.logger.map LogContext.fd = some l.fd := by rw [← hlogger, hl]; rfl
  obtain ⟨l₀, hl₀, heq⟩ := Option.map_eq_some_iff.1 hmap
  rw [← heq]
  exact ha.distinct l₀ fd hl₀ (hfd ▸ hsock) (hclosing ▸ hc)

/-- Something that is held is used. -/
theorem ApiProcess.Accounted.touch {r : ApiResource} (ha : s.Accounted stray) (hr : s.held r = true) :
    (s.did [.use r]).Accounted stray :=
  ⟨ha.lawful.use hr, ha.distinct⟩

end Accounted

/-! ## §2. The socket. -/

section Socket

variable {stray : ApiResource → Bool} {s s' : ApiProcess} {fd : Nat}

/-- The socket is open. -/
theorem holdsFd_of_connected (hfd : s.ovsdbSockFd = some fd) (hc : s.closing = false) :
    s.holdsFd fd = true := by
  unfold ApiProcess.holdsFd
  rw [hfd, hc]
  simp

/-- Without a socket only the log file is open. -/
theorem holdsFd_of_disconnected (h : s.ovsdbSockFd = none ∨ s.closing = true) (n : Nat) :
    s.holdsFd n = (s.logger.map LogContext.fd == some n) := by
  unfold ApiProcess.holdsFd
  rcases h with hnone | hc
  · rw [hnone]
    simp
  · rw [hc]
    simp

theorem gives_iff : s.gives fd = true ↔ s.holdsFd fd = false := by
  unfold ApiProcess.gives
  cases s.holdsFd fd <;> simp

/-- The socket is closed. -/
theorem held_disconnect (ha : s.Accounted stray) (hfd : s.ovsdbSockFd = some fd) (hc : s.closing = false)
    (hoff : s'.ovsdbSockFd = none ∨ s'.closing = true) (hobj : s'.objects = s.objects)
    (hlog : s'.logger = s.logger) (hthread : ∀ n, s'.holdsThread n = s.holdsThread n) :
    Function.update s.held (.fd (some fd)) false = s'.held := by
  refine held_ext (congrArg Prod.fst hobj).symm (congrArg Option.isSome hlog).symm
    (congrArg (fun x => x.2.1) hobj).symm (congrArg (fun x => x.2.1) hobj).symm
    (congrArg (fun x => x.2.2.1) hobj).symm (congrArg (fun x => x.2.2.2) hobj).symm (fun n => ?_) rfl
    fun n => (hthread n).symm
  show _ = s'.holdsFd n
  rw [holdsFd_of_disconnected hoff, hlog]
  by_cases hn : n = fd
  · subst hn
    rw [Function.update_self]
    symm
    refine beq_eq_false_iff_ne.2 fun hsame => ?_
    obtain ⟨l, hl, hln⟩ := Option.map_eq_some_iff.1 hsame
    exact ha.distinct l n hl hfd hc hln
  · rw [Function.update_of_ne (by rintro ⟨⟩; exact hn rfl)]
    show s.holdsFd n = _
    unfold ApiProcess.holdsFd
    rw [hfd]
    simp [Ne.symm hn]

/-- A socket is opened. -/
theorem held_connect (hfd : s'.ovsdbSockFd = some fd) (hc : s'.closing = false)
    (hoff : s.ovsdbSockFd = none) (hobj : s'.objects = s.objects) (hlog : s'.logger = s.logger)
    (hthread : ∀ n, s'.holdsThread n = s.holdsThread n) :
    Function.update s.held (.fd (some fd)) true = s'.held := by
  refine held_ext (congrArg Prod.fst hobj).symm (congrArg Option.isSome hlog).symm
    (congrArg (fun x => x.2.1) hobj).symm (congrArg (fun x => x.2.1) hobj).symm
    (congrArg (fun x => x.2.2.1) hobj).symm (congrArg (fun x => x.2.2.2) hobj).symm (fun n => ?_) rfl
    fun n => (hthread n).symm
  by_cases hn : n = fd
  · subst hn
    rw [Function.update_self]
    exact (holdsFd_of_connected hfd hc).symm
  · rw [Function.update_of_ne (by rintro ⟨⟩; exact hn rfl)]
    show s.holdsFd n = s'.holdsFd n
    rw [holdsFd_of_disconnected (.inl hoff)]
    unfold ApiProcess.holdsFd
    rw [hfd, hlog]
    simp [Ne.symm hn]

/-- `ovsdb_socket_connect`. -/
theorem ovsdbSocketConnect_accounted {r : ConnectResult} (ha : s.Accounted stray)
    (hoff : s.ovsdbSockFd = none) (hc : s.closing = false) (hgives : r.fd.all s.gives = true) :
    ({ s with ovsdbSockFd := (ovsdbSocketConnect r).1 }.did (ovsdbSocketConnect r).2).Accounted stray := by
  -- a descriptor that is closed again leaves things as they were
  have hsame : { s with ovsdbSockFd := none }.held = s.held := by
    refine held_congr rfl rfl (fun n => ?_) fun _ => rfl
    rw [holdsFd_of_disconnected (.inl rfl), holdsFd_of_disconnected (.inl hoff)]
  cases hr : ovsdbSocketConnect r with
  | mk fd events =>
      cases fd with
      | none =>
          refine ⟨?_, fun _ _ _ hnone _ => by cases hnone⟩
          show LawfulBut stray (s.log ++ events) { s with ovsdbSockFd := none }.held
          rw [hsame]
          obtain rfl | ⟨fd, hfd, rfl⟩ := ovsdbSocketConnect_none hr
          · rw [List.append_nil]
            exact ha.lawful
          · rw [hfd] at hgives
            exact ha.lawful.attempt (gives_iff.1 hgives)
      | some fd =>
          obtain ⟨hfd, rfl⟩ := ovsdbSocketConnect_some hr
          rw [hfd] at hgives
          have hfree : s.holdsFd fd = false := gives_iff.1 hgives
          refine ⟨?_, fun l n hl hn _ => ?_⟩
          · show LawfulBut stray (s.log ++ [.acquire (.fd (some fd))]) { s with ovsdbSockFd := some fd }.held
            have hheld : Function.update s.held (.fd (some fd)) true =
                { s with ovsdbSockFd := some fd }.held := held_connect rfl hc hoff rfl rfl fun _ => rfl
            rw [← hheld]
            exact ha.lawful.acquire hfree
          · cases hn
            intro heq
            rw [holdsFd_of_disconnected (.inl hoff), ← heq] at hfree
            have hl : s.logger = some l := hl
            rw [hl, Option.map_some, beq_self_eq_true] at hfree
            cases hfree

/-- `ovsdb_socket_disconnect`. -/
theorem ovsdbSocketDisconnect_accounted (ha : s.Accounted stray) (hfd : s.ovsdbSockFd = some fd)
    (hc : s.closing = false) :
    ({ s with ovsdbSockFd := none }.did (ovsdbSocketDisconnect s.ovsdbSockFd)).Accounted stray := by
  refine ⟨?_, fun _ _ _ hnone _ => by cases hnone⟩
  show LawfulBut stray (s.log ++ ovsdbSocketDisconnect s.ovsdbSockFd) { s with ovsdbSockFd := none }.held
  have hheld : Function.update s.held (.fd (some fd)) false = { s with ovsdbSockFd := none }.held :=
    held_disconnect ha hfd hc (.inl rfl) rfl rfl fun _ => rfl
  rw [← hheld, hfd]
  exact ha.lawful.release (holdsFd_of_connected hfd hc)

end Socket

/-! ## §3. The threads. -/

section Thread

variable {stray : ApiResource → Bool} {s s' : ApiProcess} {n : Nat}

theorem ThreadPc.not_joined {pc : ThreadPc} (h : pc.running = true) : (pc != .joined) = true := by
  cases pc <;> first | rfl | cases h

/-- The thread goes on, with the socket open as before. -/
theorem held_move {pc : ThreadPc} (pc' : ThreadPc) (hs : s.OneThread) (hpc : s.threads[n]? = some pc)
    (hrun : pc.running = true) (hno : pc ≠ .forget) (hrun' : pc'.running = true) (hno' : pc' ≠ .forget) :
    { s with threads := s.threads.set n pc' }.closing = s.closing ∧
      { s with threads := s.threads.set n pc' }.held = s.held := by
  have hset : (s.threads.set n pc')[n]? = some pc' :=
    List.getElem?_set_self (List.getElem?_eq_some_iff.1 hpc).1
  have hs' : { s with threads := s.threads.set n pc' }.OneThread := by
    refine hs.set fun q hq => ?_
    rw [hpc] at hq
    cases hq
    rw [hrun', hrun]
  have hsame : { s with threads := s.threads.set n pc' }.closing = s.closing := by
    rw [hs'.closing hset hrun', hs.closing hpc hrun, beq_eq_false_iff_ne.2 hno, beq_eq_false_iff_ne.2 hno']
  refine ⟨hsame, held_congr rfl rfl (fun m => ?_) (holdsThread_set pc' hpc ?_ rfl)⟩
  · unfold ApiProcess.holdsFd
    rw [hsame]
  · rw [ThreadPc.not_joined hrun, ThreadPc.not_joined hrun']

/-- The running thread has a socket. -/
theorem ApiProcess.OneThread.socket {pc : ThreadPc} (hs : s.OneThread) (hpc : s.threads[n]? = some pc)
    (hrun : pc.running = true) : ∃ fd, s.ovsdbSockFd = some fd := by
  obtain ⟨_, hon⟩ := (hs.each n pc hpc).1 hrun
  exact Option.isSome_iff_exists.1 (Bool.and_eq_true_iff.1 hon).1

theorem ThreadEffect.accounted (h : ThreadEffect s n s') (ho : s.Ordered) (ha : s.Accounted stray) :
    s'.Accounted stray := by
  have hs := ho.oneThread
  cases h with
  | tested pc h hpc =>
      obtain ⟨hclosing, hheld⟩ := held_move pc hs h rfl ThreadPc.noConfusion
        (by rcases hpc with rfl | rfl <;> rfl) (by rcases hpc with rfl | rfl <;> exact ThreadPc.noConfusion)
      exact ha.congr rfl hheld rfl rfl hclosing
  | listened pc h hpc =>
      obtain ⟨hclosing, hheld⟩ := held_move pc hs h rfl ThreadPc.noConfusion
        (by rcases hpc with rfl | rfl | rfl <;> rfl)
        (by rcases hpc with rfl | rfl | rfl <;> exact ThreadPc.noConfusion)
      obtain ⟨fd, hfd⟩ := hs.socket h rfl
      refine ⟨?_, fun l m hl hm hc => ha.distinct l m hl hm (hclosing ▸ hc)⟩
      show LawfulBut stray (s.log ++ [.use (.fd s.ovsdbSockFd)]) { s with threads := s.threads.set n pc }.held
      rw [hheld, hfd]
      exact ha.lawful.use (holdsFd_of_connected hfd (hs.closing h rfl))
  | parsed h hidle =>
      obtain ⟨hclosing, hheld⟩ := held_move .test hs h rfl ThreadPc.noConfusion rfl ThreadPc.noConfusion
      exact ha.congr rfl hheld rfl rfl hclosing
  | closed h =>
      obtain ⟨fd, hfd⟩ := hs.socket h rfl
      have hopen := hs.closing h rfl
      have hclosed : { s with threads := s.threads.set n .forget }.closing = true := by
        refine List.contains_iff_mem.2 (List.mem_of_getElem? (i := n) ?_)
        exact List.getElem?_set_self (List.getElem?_eq_some_iff.1 h).1
      refine ⟨?_, fun l m hl hm hc => ?_⟩
      · show LawfulBut stray (s.log ++ ovsdbSocketDisconnect s.ovsdbSockFd)
          { s with threads := s.threads.set n .forget }.held
        rw [← held_disconnect ha hfd hopen (.inr hclosed) rfl rfl (holdsThread_set .forget h rfl rfl), hfd]
        exact ha.lawful.release (holdsFd_of_connected hfd hopen)
      · have hc : { s with threads := s.threads.set n .forget }.closing = false := hc
        rw [hclosed] at hc
        cases hc
  | forgot h =>
      have hclosed := hs.closing h rfl
      refine ⟨?_, fun l m hl hm hc => by cases hm⟩
      have hheld : { s with ovsdbSockFd := none, threads := s.threads.set n .exited }.held = s.held := by
        refine held_congr rfl rfl (fun m => ?_) (holdsThread_set .exited h rfl rfl)
        rw [holdsFd_of_disconnected (.inl rfl), holdsFd_of_disconnected (.inr hclosed)]
      show LawfulBut stray s.log { s with ovsdbSockFd := none, threads := s.threads.set n .exited }.held
      rw [hheld]
      exact ha.lawful

end Thread

/-! ## §4. The log file. -/

section LogFile

variable {stray : ApiResource → Bool} {s : ApiProcess}

/-- What `open_log` did. -/
theorem openLog_cases (malloc : Bool) (opened : Option Nat) (path name : Option CString)
    (logger : Option LogContext) :
    (openLog malloc opened path name logger).2 = (logger, []) ∨
    (openLog malloc opened path name logger).2 = (logger, [.acquire .logger, .release .logger]) ∧
    logger = none ∨
    ∃ l, opened = some l.fd ∧ logger = none ∧
      (openLog malloc opened path name logger).2 = (some l,
        [.acquire .logger, .acquire (.fd (some l.fd))]) := by
  cases logger with
  | some l => cases path <;> exact .inl rfl
  | none =>
      cases path with
      | none => exact .inl rfl
      | some path =>
          cases malloc with
          | false => exact .inl rfl
          | true =>
              cases opened with
              | none => exact .inr (.inl ⟨rfl, rfl⟩)
              | some fd => exact .inr (.inr ⟨_, rfl, rfl, rfl⟩)

/-- `open_log` fails only where no log was open. -/
theorem openLog_failed {malloc : Bool} {opened : Option Nat} {path name : Option CString}
    {logger : Option LogContext} (h : (openLog malloc opened path name logger).1 = false) :
    (openLog malloc opened path name logger).2.1 = none := by
  cases logger with
  | some l => cases path <;> cases h
  | none =>
      cases path with
      | none => rfl
      | some path =>
          cases malloc with
          | false => rfl
          | true =>
              cases opened with
              | none => rfl
              | some fd => cases h

theorem closeLog_gone (logger : Option LogContext) : (closeLog logger).2.1 = none := by
  cases logger <;> rfl

/-- A log with a file is there. -/
theorem held_openLog {l : LogContext} (hlogger : s.logger = none) :
    Function.update (Function.update s.held .logger true) (.fd (some l.fd)) true =
      { s with logger := some l }.held := by
  refine held_ext rfl rfl rfl rfl rfl rfl (fun n => ?_) rfl fun _ => rfl
  by_cases hn : n = l.fd
  · subst hn
    rw [Function.update_self]
    show true = ((some l.fd == some l.fd) || _)
    rw [beq_self_eq_true, Bool.true_or]
  · rw [Function.update_of_ne (by rintro ⟨⟩; exact hn rfl),
      Function.update_of_ne ApiResource.noConfusion]
    show s.holdsFd n = ((some l.fd == some n) || (s.ovsdbSockFd == some n && !s.closing))
    unfold ApiProcess.holdsFd
    rw [hlogger, beq_eq_false_iff_ne.2 fun heq => hn (Option.some.inj heq).symm]
    rfl

/-- The log and its file are gone. -/
theorem held_closeLog {l : LogContext} (ha : s.Accounted stray) (hlogger : s.logger = some l) :
    Function.update (Function.update s.held (.fd (some l.fd)) false) .logger false =
      { s with logger := none }.held := by
  refine held_ext rfl rfl rfl rfl rfl rfl (fun n => ?_) rfl fun _ => rfl
  rw [Function.update_of_ne ApiResource.noConfusion]
  show _ = ((none == some n) || (s.ovsdbSockFd == some n && !s.closing))
  by_cases hn : n = l.fd
  · subst hn
    rw [Function.update_self]
    symm
    refine Bool.or_eq_false_iff.2 ⟨rfl, ?_⟩
    by_contra hopen
    obtain ⟨hsock, hc⟩ := Bool.and_eq_true_iff.1 (Bool.eq_true_of_not_eq_false hopen)
    refine ha.distinct l l.fd hlogger (eq_of_beq hsock) ?_ rfl
    cases hcl : s.closing with
    | false => rfl
    | true => rw [hcl] at hc; cases hc
  · rw [Function.update_of_ne (by rintro ⟨⟩; exact hn rfl)]
    show s.holdsFd n = _
    unfold ApiProcess.holdsFd
    rw [hlogger, Option.map_some, beq_eq_false_iff_ne.2 fun heq => hn (Option.some.inj heq).symm]
    rfl

/-- `open_log`. -/
theorem openLog_accounted {malloc : Bool} {opened : Option Nat} {path name : Option CString}
    (ha : s.Accounted stray) (hgives : opened.all s.gives = true) :
    ({ s with logger := (openLog malloc opened path name s.logger).2.1 }.did
      (openLog malloc opened path name s.logger).2.2).Accounted stray := by
  obtain hnone | ⟨hnone, hlogger⟩ | ⟨l, hopened, hlogger, hsome⟩ :=
    openLog_cases malloc opened path name s.logger
  · rw [hnone]
    exact ha.congr (List.append_nil _) rfl rfl rfl rfl
  · rw [hnone]
    refine ⟨?_, ha.distinct⟩
    have hfree : s.held .logger = false := congrArg Option.isSome hlogger
    exact ha.lawful.attempt hfree
  · rw [hsome]
    rw [hopened] at hgives
    have hfree : s.holdsFd l.fd = false := gives_iff.1 hgives
    refine ⟨?_, fun l' fd hl hfd hc => ?_⟩
    · have hlog : s.held .logger = false := congrArg Option.isSome hlogger
      have hacq := (ha.lawful.acquire hlog).acquire (r := .fd (some l.fd)) (by
        rw [Function.update_of_ne ApiResource.noConfusion]
        exact hfree)
      rw [held_openLog hlogger, List.append_assoc] at hacq
      exact hacq
    · cases hl
      intro heq
      have hopen : s.holdsFd fd = true := holdsFd_of_connected hfd hc
      rw [← heq, hfree] at hopen
      cases hopen

/-- `close_log`. -/
theorem closeLog_accounted (ha : s.Accounted stray) :
    ({ s with logger := (closeLog s.logger).2.1 }.did (closeLog s.logger).2.2).Accounted stray := by
  refine ⟨?_, fun l fd hl _ _ => ?_⟩
  · cases hl : s.logger with
    | none =>
        have hsame : { s with logger := none }.held = s.held := by
          refine held_congr rfl (by rw [hl]) (fun n => ?_) fun _ => rfl
          unfold ApiProcess.holdsFd
          rw [hl]
          rfl
        show LawfulBut stray (s.log ++ []) { s with logger := none }.held
        rw [hsame, List.append_nil]
        exact ha.lawful
    | some l =>
        have hfd : s.held (.fd (some l.fd)) = true := by
          show s.holdsFd l.fd = true
          unfold ApiProcess.holdsFd
          rw [hl, Option.map_some, beq_self_eq_true, Bool.true_or]
        have hrel := (ha.lawful.release hfd).release (r := .logger) (by
          rw [Function.update_of_ne ApiResource.noConfusion]
          exact congrArg Option.isSome hl)
        rw [held_closeLog ha hl, List.append_assoc] at hrel
        exact hrel
  · have hl : (closeLog s.logger).2.1 = some l := hl
    rw [closeLog_gone] at hl
    cases hl

end LogFile

/-! ## §5. The client. -/

section Client

variable {stray : ApiResource → Bool} {s s' : ApiProcess} {c : Choice}

/-- `set_log_level` leaves the file alone. -/
theorem setLogLevel_accounted (level : LogLevel) (ha : s.Accounted stray) :
    ({ s with logger := (setLogLevel level s.logger).2.1 }.did
      (setLogLevel level s.logger).2.2).Accounted stray := by
  have hfile : (setLogLevel level s.logger).2.1.map LogContext.fd = s.logger.map LogContext.fd := by
    cases s.logger <;> rfl
  have hset : { s with logger := (setLogLevel level s.logger).2.1 }.Accounted stray := by
    refine ha.congr rfl (held_congr rfl hfile (fun n => ?_) fun _ => rfl) hfile rfl rfl
    exact congrArg (fun x => (x == some n) || (s.ovsdbSockFd == some n && !s.closing)) hfile
  cases hl : s.logger with
  | none =>
      rw [hl] at hset
      exact hset.congr (List.append_nil _) rfl rfl rfl rfl
  | some l =>
      rw [hl] at hset
      exact hset.touch rfl

theorem ApiProcess.Accounted.goto (ha : s.Accounted stray) (pc : ClientPc) : (s.goto pc).Accounted stray :=
  ⟨ha.lawful, ha.distinct⟩

theorem ApiProcess.Accounted.returns (ha : s.Accounted stray) (rtn : Bool) :
    (s.returns rtn).Accounted stray :=
  ⟨ha.lawful, ha.distinct⟩

/-- One of the objects, or a thread, is acquired. -/
theorem ApiProcess.Accounted.acquire {r : ApiResource} (ha : s.Accounted stray) (hfree : s.held r = false)
    (hlog : s'.log = s.log ++ [.acquire r]) (hheld : Function.update s.held r true = s'.held)
    (hlogger : s'.logger = s.logger) (hfd : s'.ovsdbSockFd = s.ovsdbSockFd)
    (hclosing : s'.closing = s.closing) :
    s'.Accounted stray := by
  refine ⟨?_, ?_⟩
  · rw [hlog, ← hheld]
    exact ha.lawful.acquire hfree
  · rw [hlogger, hfd, hclosing]
    exact ha.distinct

/-- One of the objects, or a thread, is given back. -/
theorem ApiProcess.Accounted.release {r : ApiResource} (ha : s.Accounted stray) (hthere : s.held r = true)
    (hlog : s'.log = s.log ++ [.release r]) (hheld : Function.update s.held r false = s'.held)
    (hlogger : s'.logger = s.logger) (hfd : s'.ovsdbSockFd = s.ovsdbSockFd)
    (hclosing : s'.closing = s.closing) :
    s'.Accounted stray := by
  refine ⟨?_, ?_⟩
  · rw [hlog, ← hheld]
    exact ha.lawful.release hthere
  · rw [hlogger, hfd, hclosing]
    exact ha.distinct

/-- The objects there are when the client stands at `pc`. -/
theorem ApiProcess.InPhase.at {pc : ClientPc} (hs : s.InPhase) (hpc : s.client = pc) :
    (s.handle, s.table, s.mutex, s.condition) = pc.objects s.handle := by
  unfold ApiProcess.InPhase at hs
  rw [hpc] at hs
  exact hs

/-- A thread is created. -/
theorem held_create :
    Function.update s.held (.thread s.threads.length) true =
      { s with threads := s.threads ++ [ThreadPc.test] }.held := by
  have hclosing : { s with threads := s.threads ++ [ThreadPc.test] }.closing = s.closing := by
    show (s.threads ++ [ThreadPc.test]).contains .forget = s.threads.contains .forget
    simp
  refine held_ext rfl rfl rfl rfl rfl rfl (fun n => ?_) rfl fun n => ?_
  · rw [Function.update_of_ne ApiResource.noConfusion]
    show s.holdsFd n = { s with threads := s.threads ++ [ThreadPc.test] }.holdsFd n
    unfold ApiProcess.holdsFd
    rw [hclosing]
  · show _ = { s with threads := s.threads ++ [ThreadPc.test] }.holdsThread n
    by_cases hn : n = s.threads.length
    · subst hn
      rw [Function.update_self]
      unfold ApiProcess.holdsThread
      simp only [List.getElem?_concat_length]
      rfl
    · rw [Function.update_of_ne (by rintro ⟨⟩; exact hn rfl)]
      show s.holdsThread n = _
      unfold ApiProcess.holdsThread
      have hsame : (s.threads ++ [ThreadPc.test])[n]? = s.threads[n]? := by
        rw [List.getElem?_append]
        split
        · rfl
        · rw [List.getElem?_eq_none (by rw [List.length_singleton]; omega), List.getElem?_eq_none (by omega)]
      simp only [hsame]

/-- `pthread_create`. -/
theorem pthreadCreate_accounted (ha : s.Accounted stray) :
    ({ s with threads := s.threads ++ [ThreadPc.test] }.did
      [.acquire (.thread s.threads.length)]).Accounted stray := by
  refine ha.acquire (r := .thread s.threads.length) ?_ rfl held_create rfl rfl ?_
  · show s.holdsThread s.threads.length = false
    unfold ApiProcess.holdsThread
    rw [List.getElem?_eq_none le_rfl]
  · show (s.threads ++ [ThreadPc.test]).contains .forget = s.threads.contains .forget
    simp

/-- A thread that has exited is joined. -/
theorem held_join (hgone : s.ovsdbSockFd = none) (hthread : s.listenThread < s.threads.length) :
    Function.update s.held (.thread s.listenThread) false =
      { s with threads := s.threads.set s.listenThread .joined }.held := by
  refine held_ext rfl rfl rfl rfl rfl rfl (fun n => ?_) rfl fun n => ?_
  · rw [Function.update_of_ne ApiResource.noConfusion]
    show s.holdsFd n = { s with threads := s.threads.set s.listenThread .joined }.holdsFd n
    rw [holdsFd_of_disconnected (.inl hgone)]
    exact (holdsFd_of_disconnected (s := { s with threads := s.threads.set s.listenThread .joined })
      (.inl hgone) n).symm
  · show _ = { s with threads := s.threads.set s.listenThread .joined }.holdsThread n
    by_cases hn : n = s.listenThread
    · subst hn
      rw [Function.update_self]
      unfold ApiProcess.holdsThread
      simp only [List.getElem?_set_self hthread]
      rfl
    · rw [Function.update_of_ne (by rintro ⟨⟩; exact hn rfl)]
      show s.holdsThread n = _
      unfold ApiProcess.holdsThread
      simp only [List.getElem?_set_ne (Ne.symm hn)]

/-- What `create_transaction_table` did. -/
theorem createTransactionTable_cases (malloc elements : Bool) :
    createTransactionTable malloc elements = (true, [.acquire .table, .acquire .elements]) ∨
    createTransactionTable malloc elements = (false, [.acquire .table, .release .table]) ∨
    createTransactionTable malloc elements = (false, []) := by
  cases malloc with
  | false => exact .inr (.inr rfl)
  | true =>
      cases elements with
      | false => exact .inr (.inl rfl)
      | true => exact .inl rfl

/-- The table with its elements is there, or gone. -/
theorem held_table (b : Bool) (hrest : s'.objects = (s.handle, b, s.mutex, s.condition))
    (hlog : s'.logger = s.logger) (hfd : ∀ n, s'.holdsFd n = s.holdsFd n)
    (hthread : ∀ n, s'.holdsThread n = s.holdsThread n) :
    Function.update (Function.update s.held .table b) .elements b = s'.held := by
  have htable : s'.table = b := congrArg (fun x => x.2.1) hrest
  refine held_ext (congrArg Prod.fst hrest).symm (congrArg Option.isSome hlog).symm htable.symm ?_
    (congrArg (fun x => x.2.2.1) hrest).symm (congrArg (fun x => x.2.2.2) hrest).symm
    (fun n => (hfd n).symm) rfl
    fun n => (hthread n).symm
  rw [Function.update_self]
  exact htable.symm

/-- `create_transaction_table`, where there is no table. -/
theorem createTransactionTable_accounted (malloc elements : Bool) (ha : s.Accounted stray)
    (htable : s.table = false) :
    ({ s with table := (createTransactionTable malloc elements).1 }.did
      (createTransactionTable malloc elements).2).Accounted stray := by
  have hfree : s.held .table = false := htable
  have hsame : { s with table := false }.held = s.held := by rw [← htable]
  refine ⟨?_, ha.distinct⟩
  show LawfulBut stray (s.log ++ (createTransactionTable malloc elements).2)
    { s with table := (createTransactionTable malloc elements).1 }.held
  obtain hmade | hmade | hmade := createTransactionTable_cases malloc elements
  · have hnone : Function.update s.held .table true .elements = false := htable
    have hheld : Function.update (Function.update s.held .table true) .elements true =
        { s with table := true }.held := held_table true rfl rfl (fun _ => rfl) fun _ => rfl
    have hacq := (ha.lawful.acquire hfree).acquire hnone
    rw [List.append_assoc, hheld] at hacq
    rw [hmade]
    exact hacq
  · rw [hmade, hsame]
    exact ha.lawful.attempt hfree
  · rw [hmade, hsame, List.append_nil]
    exact ha.lawful

/-- `deinit_transaction_manager`, where there is a table. -/
theorem deinitTransactionManager_accounted (ha : s.Accounted stray) (htable : s.table = true) :
    ({ s with table := false }.did
      [.use .table, .use .elements, .release .elements, .release .table]).Accounted stray := by
  refine ⟨?_, ha.distinct⟩
  have hthere : s.held .table = true := htable
  have helements : s.held .elements = true := htable
  have hstill : Function.update s.held .elements false .table = true := htable
  have hheld : Function.update (Function.update s.held .table false) .elements false =
      { s with table := false }.held := held_table false rfl rfl (fun _ => rfl) fun _ => rfl
  have hrel := (((ha.lawful.use hthere).use helements).release helements).release hstill
  rw [Function.update_comm ApiResource.noConfusion, hheld] at hrel
  simp only [List.append_assoc] at hrel
  exact hrel

/-- A step of the client. -/
theorem clientStep_accounted (h : clientStep s c = some s') (ho : s.Ordered) (ha : s.Accounted stray) :
    s'.Accounted stray := by
  have hobj : ∀ {pc : ClientPc}, s.client = pc → (s.handle, s.table, s.mutex, s.condition) =
      pc.objects s.handle :=
    fun hpc => ho.inPhase.at hpc
  have hs' := clientStep_oneThread h ho.oneThread ho.linked
  -- the steps that look into the handle do so while it is there
  have hlook : ∀ {pc : ClientPc}, s.client = pc → (pc.objects s.handle).1 = true →
      (s.did [.use .handle]).Accounted stray := by
    intro pc hpc hup
    refine ha.touch ?_
    rw [← hup]
    exact congrArg Prod.fst (hobj hpc)
  unfold clientStep at h
  cases hpc : s.client with
  | idle => simp only [hpc] at h; cases h
  | openLog cid =>
      simp only [hpc] at h
      split at h
      · next hgives =>
          cases h
          exact (openLog_accounted ha hgives).goto _
      · cases h
  | setFields cid =>
      have hhandle := hlook hpc rfl
      simp only [hpc] at h
      cases h
      cases c.debug with
      | false => exact ⟨hhandle.lawful, hhandle.distinct⟩
      | true =>
          have hset := setLogLevel_accounted .debug hhandle
          exact hset.congr (List.append_assoc s.log [.use .handle] _).symm rfl rfl rfl rfl
  | ovsdbInit cid =>
      simp only [hpc] at h
      split at h
      · cases h; exact ⟨ha.lawful, ha.distinct⟩
      · cases h; exact ⟨ha.lawful, ha.distinct⟩
  | connect cid =>
      have hoff : s.ovsdbSockFd = none := ho.linked.apart (by rw [hpc]; rfl)
      have hclosing : s.closing = false :=
        ho.oneThread.not_closing (by unfold ApiProcess.attended; rw [hoff]; rfl)
      simp only [hpc] at h
      split at h
      · next hgives =>
          have hconnected := ovsdbSocketConnect_accounted ha hoff hclosing hgives
          split at h
          · next events hconnect =>
              cases h
              rw [hconnect, ← hoff] at hconnected
              exact hconnected.goto _
          · next fd events hconnect =>
              cases h
              rw [hconnect] at hconnected
              exact ⟨hconnected.lawful, hconnected.distinct⟩
      · cases h
  | createThread cid =>
      obtain ⟨fd, hfd⟩ := Option.isSome_iff_exists.1 (ho.linked.creating (by rw [hpc]; rfl))
      have hclosing : s.closing = false :=
        ho.oneThread.not_closing (by unfold ApiProcess.attended; rw [hpc]; exact Bool.and_false _)
      simp only [hpc] at h
      split at h
      · cases h
        have hcreated := pthreadCreate_accounted ha
        exact ⟨hcreated.lawful, hcreated.distinct⟩
      · cases h
        have hclosed := ovsdbSocketDisconnect_accounted ha hfd hclosing
        exact ⟨hclosed.lawful, hclosed.distinct⟩
  | mutexInit cid =>
      have hhandle := hlook hpc rfl
      simp only [hpc] at h
      split at h
      · cases h
        exact hhandle.acquire (r := .mutex) (congrArg (fun x => x.2.2.1) (hobj hpc))
          (List.append_assoc s.log [.use .handle] _).symm
          (held_ext rfl rfl rfl rfl rfl rfl (fun _ => rfl) rfl fun _ => rfl) rfl rfl rfl
      · cases h
        exact hhandle.goto _
  | condInit cid =>
      have hhandle := hlook hpc rfl
      simp only [hpc] at h
      split at h
      · cases h
        exact hhandle.acquire (r := .condition) (congrArg (fun x => x.2.2.2) (hobj hpc))
          (List.append_assoc s.log [.use .handle] _).symm
          (held_ext rfl rfl rfl rfl rfl rfl (fun _ => rfl) rfl fun _ => rfl) rfl rfl rfl
      · cases h
        exact hhandle.goto _
  | initManager cid =>
      have htable : s.table = false := congrArg (fun x => x.2.1) (hobj hpc)
      simp only [hpc, htable] at h
      rw [if_neg Bool.false_ne_true] at h
      have hmade := createTransactionTable_accounted c.malloc c.elements ha htable
      split at h
      · next hok =>
          cases h
          rw [hok] at hmade
          exact ⟨hmade.lawful, hmade.distinct⟩
      · next hfailed =>
          cases h
          rw [Bool.eq_false_iff.2 hfailed, ← htable] at hmade
          exact hmade.goto _
  | cancelMonitor =>
      have hhandle := hlook hpc rfl
      simp only [hpc] at h
      cases h
      exact ⟨hhandle.lawful, hhandle.distinct⟩
  | join =>
      simp only [hpc] at h
      split at h
      · cases h
      · next hrun =>
          cases h
          have hgone := ho.oneThread.joined (by rw [hpc]; rfl) (Bool.eq_false_iff.2 hrun)
          have hoff : s.attended = false := by
            unfold ApiProcess.attended
            rw [hgone]
            rfl
          have hoff' : (s.ovsdbSockFd.isSome && true) = false := by rw [hgone]; rfl
          obtain ⟨pc, hthread, hnot⟩ := ho.linked.joinable (by rw [hpc]; rfl)
          refine ha.release (r := .thread s.listenThread) ?_ rfl
            (held_join hgone (List.getElem?_eq_some_iff.1 hthread).1) rfl rfl ?_
          · show s.holdsThread s.listenThread = true
            unfold ApiProcess.holdsThread
            rw [hthread]
            exact bne_iff_ne.2 hnot
          · rw [hs'.not_closing hoff', ho.oneThread.not_closing hoff]
  | deinitManager =>
      have htable : s.table = true := congrArg (fun x => x.2.1) (hobj hpc)
      simp only [hpc, htable, if_pos] at h
      cases h
      have hdeleted := deinitTransactionManager_accounted ha htable
      exact ⟨hdeleted.lawful, hdeleted.distinct⟩
  | condDestroy rtn =>
      have hhandle := hlook hpc rfl
      simp only [hpc] at h
      cases h
      exact hhandle.release (r := .condition) (congrArg (fun x => x.2.2.2) (hobj hpc))
        (List.append_assoc s.log [.use .handle] _).symm
        (held_ext rfl rfl rfl rfl rfl rfl (fun _ => rfl) rfl fun _ => rfl) rfl rfl rfl
  | mutexDestroy rtn =>
      have hhandle := hlook hpc rfl
      simp only [hpc] at h
      cases h
      exact hhandle.release (r := .mutex) (congrArg (fun x => x.2.2.1) (hobj hpc))
        (List.append_assoc s.log [.use .handle] _).symm
        (held_ext rfl rfl rfl rfl rfl rfl (fun _ => rfl) rfl fun _ => rfl) rfl rfl rfl
  | closeLog rtn =>
      simp only [hpc] at h
      cases h
      exact (closeLog_accounted ha).goto _
  | freeHandle rtn =>
      simp only [hpc] at h
      cases h
      exact ha.release (r := .handle) (congrArg Prod.fst (hobj hpc)) rfl
        (held_ext rfl rfl rfl rfl rfl rfl (fun _ => rfl) rfl fun _ => rfl) rfl rfl rfl
  | _ =>
      simp only [hpc] at h
      cases h
      exact ⟨ha.lawful, ha.distinct⟩

end Client

/-! ## §6. Every run. -/

section Runs

variable {stray : ApiResource → Bool} {s s' : ApiProcess}

/-- Where messages come to something, all the objects are there. -/
theorem ApiProcess.Ordered.serving (ho : s.Ordered) (h : s.client.serving s.handle = true) :
    ∀ r ∈ apiUses, s.held r = true := by
  have hobj := ho.inPhase
  unfold ApiProcess.InPhase at hobj
  have hall : s.objects = (true, true, true, true) := by
    rw [hobj]
    cases hpc : s.client with
    | idle => rw [hpc] at h; rw [show s.handle = true from h]; rfl
    | cancelMonitor => rfl
    | setTerminate => rfl
    | join => rfl
    | _ => rw [hpc] at h; cases h
  intro r hr
  simp only [apiUses, List.mem_cons, List.not_mem_nil, or_false] at hr
  rcases hr with rfl | rfl | rfl | rfl | rfl
  · exact congrArg Prod.fst hall
  · exact congrArg (fun x => x.2.1) hall
  · exact congrArg (fun x => x.2.1) hall
  · exact congrArg (fun x => x.2.2.1) hall
  · exact congrArg (fun x => x.2.2.2) hall

/-- A step of the component that may touch the objects is taken while they are there. -/
theorem Component.uses_held {i : ComponentStep} {a : Component} (ho : s.Ordered) (hk : s.Kept)
    (hwhen : s.permits i = true) (hc : componentStep s.component (i.over s.connected) = some a) :
    ∀ r ∈ s.component.uses i, s.held r = true := by
  cases hserving : s.client.serving s.handle with
  | true =>
      intro r hr
      refine ho.serving hserving r ?_
      cases i with
      | receipt rid result => cases hr
      | update monId tableName row =>
          simp only [Component.uses] at hr
          split at hr
          · cases hr
          · exact hr
      | _ => exact hr
  | false =>
      obtain ⟨⟨monId, tableName, row, rfl⟩, _⟩ := hk.unmoved ho hserving hwhen hc
      obtain ⟨_, _, hmonitors⟩ := hk.unserved ho hserving hwhen
      intro r hr
      simp only [Component.uses, hmonitors, List.isEmpty_nil, if_pos] at hr
      cases hr

/-- The step sends only while the connection is open, and writes a line only
while the logger is still there. -/
def ApiProcess.steady (s : ApiProcess) : ApiStep → Bool
  | .request i => !s.component.sends i || s.connected
  | .logWrite _ => s.logger.isSome
  | _ => true

/-- All that a request touches is held, but for what `send` is given. -/
theorem ApiProcess.uses_held {i : ComponentStep} {a : Component} (ho : s.Ordered) (hk : s.Kept)
    (hwhen : s.permits i = true) (hc : componentStep s.component (i.over s.connected) = some a)
    (hseen : (∀ r : ApiResource, r.isFile = true → stray r = true) ∨ s.steady (.request i) = true) :
    ∀ r ∈ s.uses i, stray r = true ∨ s.held r = true := by
  intro r hr
  unfold ApiProcess.uses at hr
  rcases List.mem_append.1 hr with hobject | hsend
  · exact .inr (Component.uses_held ho hk hwhen hc r hobject)
  · split at hsend
    · next hsends =>
        cases List.mem_singleton.1 hsend
        rcases hseen with hstray | hsteady
        · exact .inl (hstray (.fd s.ovsdbSockFd) rfl)
        · have hconnected : (!s.component.sends i || s.connected) = true := hsteady
          rw [hsends, Bool.not_true, Bool.false_or] at hconnected
          obtain ⟨hfd, hopen⟩ := Bool.and_eq_true_iff.1 hconnected
          obtain ⟨fd, hfd⟩ := Option.isSome_iff_exists.1 hfd
          refine .inr ?_
          rw [hfd]
          exact holdsFd_of_connected hfd (by rw [← Bool.not_eq_true']; exact hopen)
    · cases hsend

/-- `LOG` reads a logger that is there. -/
theorem ApiProcess.lineUses_held (hlogger : s.logger.isSome = true) :
    ∀ r ∈ s.lineUses, s.held r = true := by
  obtain ⟨l, hl⟩ := Option.isSome_iff_exists.1 hlogger
  intro r hr
  unfold ApiProcess.lineUses at hr
  rw [hl] at hr
  simp only [List.mem_cons, List.not_mem_nil, or_false] at hr
  rcases hr with rfl | rfl
  · exact hlogger
  · show s.holdsFd l.fd = true
    unfold ApiProcess.holdsFd
    rw [hl, Option.map_some, beq_self_eq_true, Bool.true_or]

theorem OtherEffect.accounted {i : ApiStep} (h : OtherEffect s i s') (ho : s.Ordered) (hk : s.Kept)
    (ha : s.Accounted stray)
    (hseen : (∀ r : ApiResource, r.isFile = true → stray r = true) ∨ s.steady i = true) :
    s'.Accounted stray := by
  cases h with
  | openLog malloc opened path name hidle hgives => exact openLog_accounted ha hgives
  | closeLog hidle => exact closeLog_accounted ha
  | returned i rtn hidle => exact ha.returns rtn
  | init cid malloc hidle hdown =>
      exact ha.acquire (r := .handle) hdown rfl (held_ext rfl rfl rfl rfl rfl rfl (fun _ => rfl) rfl
        fun _ => rfl)
        rfl rfl rfl
  | deinit hidle hup => exact (ha.goto _).touch hup
  | request i a hwhen hc =>
      exact ⟨ha.lawful.uses (ApiProcess.uses_held ho hk hwhen hc hseen), ha.distinct⟩
  | logTest level logging hlogger =>
      have hthere : s.held .logger = true := hlogger
      exact ⟨ha.lawful.use hthere, ha.distinct⟩
  | logWrite malloc logging =>
      cases malloc with
      | false => exact ha.congr (List.append_nil _) rfl rfl rfl rfl
      | true =>
          refine ⟨ha.lawful.uses fun r hr => ?_, ha.distinct⟩
          rcases hseen with hstray | hlogger
          · refine .inl (hstray r ?_)
            simp only [ApiProcess.lineUses, List.mem_cons, List.not_mem_nil, or_false] at hr
            rcases hr with rfl | rfl <;> rfl
          · exact .inr (ApiProcess.lineUses_held hlogger r hr)

/-- The step lemma. -/
theorem apiStep_accounted {i : ApiStep} (h : apiStep s i = some s') (ho : s.Ordered) (hk : s.Kept)
    (ha : s.Accounted stray)
    (hseen : (∀ r : ApiResource, r.isFile = true → stray r = true) ∨ s.steady i = true) :
    s'.Accounted stray := by
  obtain ⟨c, hc⟩ | ⟨n, ht⟩ | hother := apiStep_cases h
  · exact clientStep_accounted hc ho ha
  · exact ht.accounted ho ha
  · exact hother.accounted ho hk ha hseen

/-- The run lemma: either the uses of the files are left out, or every step is steady. -/
theorem accounted_of_reach {C : ApiProcess → ApiStep → Prop}
    (hC : (∀ r : ApiResource, r.isFile = true → stray r = true) ∨ ∀ s i, C s i → s.steady i = true)
    (h : apiMachine.Reach C s) : s.Accounted stray := by
  have hall : (s.Ordered ∧ s.Kept) ∧ s.Accounted stray := by
    refine h.invariant (I := fun s => (s.Ordered ∧ s.Kept) ∧ s.Accounted stray) ?_ ?_
    · intro s h0
      have h0 : s = .start := h0
      subst h0
      exact ⟨⟨ordered_start, kept_start⟩, accounted_start⟩
    · intro s i s' hI hCi hstep
      obtain ⟨⟨ho, hk⟩, ha⟩ := hI
      exact ⟨⟨apiStep_ordered hstep ho, apiStep_kept hstep ho hk⟩,
        apiStep_accounted hstep ho hk ha (hC.imp id fun hsteady => hsteady s i hCi)⟩
  exact hall.2

/-- In every run, but for the uses of the files. -/
theorem accounted_of_reachable (h : apiMachine.Reachable s) : s.Accounted ApiResource.isFile :=
  accounted_of_reach (.inl fun _ hr => hr) h

/-- **The log can be replayed.**  In every run nothing is closed, joined,
destroyed or freed that is not held and nothing acquired that is, no object of
the API is used that is not held, and in the end just that is held which the
state shows; a thread only listens on an open socket.  The uses that `send` and
`LOG` make are of what is held too, when no connection is closed under a `send`
and no logger under a `LOG`. -/
theorem log_lawful (h : apiMachine.Reachable s) : LawfulBut ApiResource.isFile s.log s.held ∧
    (∀ n : Nat, s.threads[n]? = some .listen → s.held (.fd s.ovsdbSockFd) = true) ∧
    (apiMachine.Reach (fun s i => s.steady i = true) s → Lawful s.log s.held) := by
  refine ⟨(accounted_of_reachable h).lawful, fun n hlisten => ?_, fun hsteady => ?_⟩
  · have hs := (api_invariant h).1.oneThread
    obtain ⟨fd, hfd⟩ := hs.socket hlisten rfl
    rw [hfd]
    exact holdsFd_of_connected hfd (hs.closing hlisten rfl)
  · exact Resources.lawfulBut_none.1 (accounted_of_reach (.inr fun _ _ hi => hi) hsteady).lawful

/-- An `init` that succeeds, a request that is sent, a line of the log, and a
`deinit` up to the `free`. -/
def wholeSessionSteps : List ApiStep :=
  initSteps .meshAgent 3 4 ++
    (requestSteps 0 (gatewayRequest .disable 1)).map ApiStep.request ++ [.logTest .info,
      .logWrite true, .deinit] ++
    List.replicate 2 (.client (.well 3 4)) ++ List.replicate 3 (.thread 0 .nothing) ++
    List.replicate 7 (.client (.well 3 4))

theorem log_lawful_wholeSession :
    ∃ s, apiMachine.checkedRun ApiProcess.steady .start wholeSessionSteps = some s ∧
      s.log.count (.use (.fd (some 4))) = 1 ∧ s.log.count (.use (.fd (some 3))) = 1 ∧
      Lawful s.log s.held := by
  have hrun : (apiMachine.checkedRun ApiProcess.steady .start wholeSessionSteps).any (fun s =>
      s.log.count (.use (.fd (some 4))) == 1 && s.log.count (.use (.fd (some 3))) == 1) = true := by decide
  obtain ⟨s, hs, htest⟩ := (Option.any_eq_true _ _).1 hrun
  obtain ⟨hsent, hline⟩ := Bool.and_eq_true_iff.1 htest
  have hsteady : apiMachine.Reach (fun s i => s.steady i = true) s :=
    Machine.reach_of_checkedRun (fun _ _ hi => hi) (.init rfl) hs
  exact ⟨s, hs, eq_of_beq hsent, eq_of_beq hline, (log_lawful hsteady.reachable).2.2 hsteady⟩

/-- The thread has closed the connection and not yet said so when a request
comes to its `send`: it is given the closed descriptor. -/
def strayedSendSteps : List ApiStep :=
  initSteps .meshAgent 3 4 ++
    ((requestSteps 0 (gatewayRequest .disable 1)).take 5).map ApiStep.request ++
    [.thread 0 .nothing, .thread 0 .error, .thread 0 .nothing, .request (.call 0 true .ok)]

example : (apiMachine.run .start strayedSendSteps).isSome = true ∧
    (Resources.replay (fun _ => false) (ApiProcess.after strayedSendSteps).log).isNone = true := by decide

/-- What was given back is left alone until it is acquired again: it is not
given back twice, and what is no file is not used. -/
theorem untouched_when_gone (h : apiMachine.Reachable s) {r : ApiResource}
    {pre mid post : List (Event ApiResource)} {ev : Event ApiResource}
    (hlog : s.log = pre ++ .release r :: (mid ++ ev :: post))
    (hev : ev = .use r ∧ r.isFile = false ∨ ev = .release r) : .acquire r ∈ mid := by
  have hlawful := (accounted_of_reachable h).lawful
  rw [hlog] at hlawful
  exact hlawful.between hev

/-- **Nothing is lost on the way.**  Between two calls, whichever calls failed
before and wherever, the handle, the table and its elements, the mutex and the
condition have each been given back as often as acquired, but for the handle in
use. -/
theorem acquired_and_given_back (h : apiMachine.Reachable s) (hidle : s.client = .idle) :
    ∀ r ∈ apiUses, s.log.count (.acquire r) = s.log.count (.release r) + s.handle.toNat := by
  have hobj : s.objects = (s.handle, s.handle, s.handle, s.handle) := (api_invariant h).1.inPhase.at hidle
  have hheld : ∀ r ∈ apiUses, s.held r = s.handle := by
    intro r hr
    simp only [apiUses, List.mem_cons, List.not_mem_nil, or_false] at hr
    rcases hr with rfl | rfl | rfl | rfl | rfl
    · rfl
    · exact congrArg (fun x => x.2.1) hobj
    · exact congrArg (fun x => x.2.1) hobj
    · exact congrArg (fun x => x.2.2.1) hobj
    · exact congrArg (fun x => x.2.2.2) hobj
  intro r hr
  rw [← hheld r hr]
  exact (accounted_of_reachable h).lawful.balance r

/-- The first `init` failed and freed its handle, the second one has its own. -/
theorem acquired_and_given_back_secondTry : (ApiProcess.after secondTrySteps).handle = true ∧
    (ApiProcess.after secondTrySteps).log.count (.acquire .handle) =
      (ApiProcess.after secondTrySteps).log.count (.release .handle) + 1 :=
  ⟨by decide,
    acquired_and_given_back (ApiProcess.reachable_after (by decide)) (by decide) .handle (by decide)⟩

/-- The log is closed before the handle is freed. -/
theorem logger_of_freeHandle (h : apiMachine.Reachable s) :
    ∀ rtn, s.client = .freeHandle rtn → s.logger = none := by
  refine h.invariant (I := fun s => ∀ rtn, s.client = .freeHandle rtn → s.logger = none) ?_ ?_
  · intro s h0 rtn _
    have h0 : s = .start := h0
    subst h0
    rfl
  · intro s i s' hI _ hstep rtn hpc'
    obtain ⟨c, hc⟩ | ⟨n, ht⟩ | hother := apiStep_cases hstep
    · unfold clientStep at hc
      cases hpc : s.client with
      | openLog cid =>
          simp only [hpc] at hc
          split at hc
          · cases hc
            have hpc' : (if (openLog c.malloc c.opened (some ovsAgentApiLogFile) (some cid.name) s.logger).1
              then ClientPc.setFields cid else .freeHandle false) = .freeHandle rtn := hpc'
            cases hopen : (openLog c.malloc c.opened (some ovsAgentApiLogFile) (some cid.name)
              s.logger).1 with
            | false => exact openLog_failed hopen
            | true => rw [hopen] at hpc'; cases hpc'
          · cases hc
      | closeLog rtn' =>
          simp only [hpc] at hc
          cases hc
          exact closeLog_gone ..
      | _ =>
          simp only [hpc] at hc
          (repeat' split at hc) <;> cases hc <;> cases hpc'
    · obtain ⟨hclient, _, _, _, hlogger⟩ := ht.frame
      rw [hlogger]
      exact hI rtn (hclient ▸ hpc')
    · cases hother with
      | openLog malloc opened path name hidle hgives =>
          exact absurd (hidle.symm.trans hpc') ClientPc.noConfusion
      | closeLog hidle => exact closeLog_gone ..
      | request i a hwhen hc => exact hI rtn hpc'
      | logTest level logging hlogger => exact hI rtn hpc'
      | logWrite malloc logging => exact hI rtn hpc'
      | _ => cases hpc'

/-- **`deinit` gives everything back**: when it has freed the handle, all that
is left are threads of earlier connections, which have exited and were never
joined. -/
theorem held_after_deinit {c : Choice} (h : apiMachine.Reachable s) (hpc : s.client = .freeHandle true)
    (hstep : clientStep s c = some s') : s'.client = .idle ∧ s'.result = some true ∧
      ∀ r, s'.held r = true → ∃ n, r = .thread n ∧ s'.threads[n]? = some .exited := by
  obtain ⟨ho, _⟩ := api_invariant h
  have hfd : s.ovsdbSockFd = none := ho.linked.apart (by rw [hpc]; rfl)
  have hlogger := logger_of_freeHandle h true hpc
  have hobj := ho.inPhase.at hpc
  unfold clientStep at hstep
  simp only [hpc] at hstep
  cases hstep
  refine ⟨rfl, rfl, fun r hr => ?_⟩
  cases r with
  | handle => cases hr
  | logger =>
      have hr : s.logger.isSome = true := hr
      rw [hlogger] at hr
      cases hr
  | table => exact absurd hr (Bool.eq_false_iff.1 (congrArg (fun x => x.2.1) hobj))
  | elements => exact absurd hr (Bool.eq_false_iff.1 (congrArg (fun x => x.2.1) hobj))
  | mutex => exact absurd hr (Bool.eq_false_iff.1 (congrArg (fun x => x.2.2.1) hobj))
  | condition => exact absurd hr (Bool.eq_false_iff.1 (congrArg (fun x => x.2.2.2) hobj))
  | fd n =>
      cases n with
      | none => cases hr
      | some n =>
          have hr : s.holdsFd n = true := hr
          rw [holdsFd_of_disconnected (.inl hfd), hlogger] at hr
          cases hr
  | thread n =>
      refine ⟨n, rfl, ?_⟩
      have hr : s.holdsThread n = true := hr
      unfold ApiProcess.holdsThread at hr
      show s.threads[n]? = some .exited
      cases hthread : s.threads[n]? with
      | none => rw [hthread] at hr; cases hr
      | some pc =>
          rw [hthread] at hr
          have hstopped : pc.running = false := by
            by_contra hrun
            obtain ⟨_, hon⟩ := (ho.oneThread.each n pc hthread).1 (Bool.eq_true_of_not_eq_false hrun)
            rw [ApiProcess.attended, hfd] at hon
            cases hon
          cases pc with
          | exited => rfl
          | joined => cases hr
          | _ => cases hstopped

theorem held_after_deinit_wholeSession :
    ∃ s', clientStep (ApiProcess.after wholeSessionSteps) (.well 3 4) = some s' ∧
    s'.client = .idle ∧ s'.result = some true ∧
      ∀ r, s'.held r = true → ∃ n, r = .thread n ∧ s'.threads[n]? = some .exited :=
  ⟨_, rfl, held_after_deinit (s := ApiProcess.after wholeSessionSteps) (c := .well 3 4)
    (ApiProcess.reachable_after (by decide)) (by decide) rfl⟩

end Runs

end OvsAgent
