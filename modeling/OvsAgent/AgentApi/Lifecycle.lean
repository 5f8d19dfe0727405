/-
  OvsAgent.AgentApi.Lifecycle — from `ovs_agent_api_init` to `ovs_agent_api_deinit`.

  Follows OvsAgentApi.c, OvsDbApi.c, ovsdb_socket.c and log.c.  A thread of the
  client takes the API up and down; `ovsdb_listen` runs in a thread of its own
  that ends when it is told to or when the connection is lost, whatever the
  client is doing then.  In between the process is `componentMachine`, whose
  listener only runs while the thread handles a message.

  What each step acquires, uses and gives back is recorded, the descriptor that
  `send` is given and what `LOG` reads of the logger too.  Nothing else in this
  file looks at the record.
-/
import OvsAgent.AgentApi.ComponentSteps
import OvsAgent.Lib.Resources

namespace OvsAgent

open CString (ofString strncpy)
open Resources (Event)

/-! ## §1. What a process holds. -/

/-- `OVS_COMPONENT_ID`. -/
inductive OvsComponentId where
  | testApp
  | ovsAgent
  | bridgeUtils
  | meshAgent
  deriving Repr, DecidableEq

/-- The enumerator. -/
def OvsComponentId.toNat : OvsComponentId → Nat
  | testApp => 1
  | ovsAgent => 2
  | bridgeUtils => 3
  | meshAgent => 4

/-- `component_id_enum_to_string`. -/
def OvsComponentId.name : OvsComponentId → CString
  | testApp => ofString "TestApp"
  | ovsAgent => ofString "OvsAgent"
  | bridgeUtils => ofString "BridgeUtils"
  | meshAgent => ofString "MeshAgent"

/-- A block of memory, an initialised object, a descriptor (`none` is -1) or a
thread that can be joined. -/
inductive ApiResource where
  | handle
  | logger
  | table
  | elements
  | mutex
  | condition
  | fd (n : Option Nat)
  | thread (n : Nat)
  deriving Repr, DecidableEq

/-- `LOG_LEVEL`. -/
inductive LogLevel where
  | error
  | warning
  | info
  | debug
  | trace
  deriving Repr, DecidableEq

/-- The enumerator. -/
def LogLevel.toNat : LogLevel → Nat
  | error => 1
  | warning => 2
  | info => 3
  | debug => 4
  | trace => 5

/-- `log_context`. -/
structure LogContext where
  name : CString
  level : LogLevel
  fd : Nat
  deriving Repr, DecidableEq

/-- `MAX_LOG_NAME_SIZE`. -/
abbrev maxLogNameSize : Nat := 32

/-- What a call returns, the static variable it may have set, and what it did. -/
abbrev Called (α : Type) := Bool × α × List (Event ApiResource)

/-- `open_log`; `opened` is what `open` returned. -/
def openLog (malloc : Bool) (opened : Option Nat) (path name : Option CString) (logger : Option LogContext) :
    Called (Option LogContext) :=
  match logger, path with
  | some l, _ => (true, some l, [])
  | none, none => (false, none, [])
  | none, some _ =>
      if malloc then
        match opened with
        | none => (false, none, [.acquire .logger, .release .logger])
        | some fd => (true, some ⟨(name.map (strncpy (maxLogNameSize - 1))).getD [], .info, fd⟩,
            [.acquire .logger, .acquire (.fd (some fd))])
      else (false, none, [])

/-- `close_log`. -/
def closeLog : Option LogContext → Called (Option LogContext)
  | none => (true, none, [])
  | some l => (true, none, [.release (.fd (some l.fd)), .release .logger])

/-- `set_log_level`. -/
def setLogLevel (level : LogLevel) : Option LogContext → Called (Option LogContext)
  | none => (false, none, [])
  | some l => (true, some { l with level := level }, [.use .logger])

/-- `create_transaction_table`: the table, then its pointers to the entries. -/
def createTransactionTable (malloc elements : Bool) : Bool × List (Event ApiResource) :=
  if malloc then
    if elements then (true, [.acquire .table, .acquire .elements])
    else (false, [.acquire .table, .release .table])
  else (false, [])

/-- How `ovsdb_socket_connect` ends, with the descriptor it got. -/
inductive ConnectResult where
  | noSocket
  | refused (fd : Nat)
  /-- One of the two `fcntl` of `ovsdb_socket_set_mode` fails. -/
  | noMode (fd : Nat)
  | connected (fd : Nat)
  deriving Repr, DecidableEq

/-- `ovsdb_socket_connect`. -/
def ovsdbSocketConnect : ConnectResult → Option Nat × List (Event ApiResource)
  | .noSocket => (none, [])
  | .refused fd => (none, [.acquire (.fd (some fd)), .release (.fd (some fd))])
  | .noMode fd => (none, [.acquire (.fd (some fd)), .release (.fd (some fd))])
  | .connected fd => (some fd, [.acquire (.fd (some fd))])

/-- `ovsdb_socket_disconnect`. -/
def ovsdbSocketDisconnect : Option Nat → List (Event ApiResource)
  | none => []
  | some fd => [.release (.fd (some fd))]

/-! ## §2. The threads. -/

/-- Where the client's thread stands in one of the two calls.  `rtn` is what
the call will return. -/
inductive ClientPc where
  | idle
  | openLog (cid : OvsComponentId)
  | setFields (cid : OvsComponentId)
  | ovsdbInit (cid : OvsComponentId)
  | connect (cid : OvsComponentId)
  | createThread (cid : OvsComponentId)
  | mutexInit (cid : OvsComponentId)
  | condInit (cid : OvsComponentId)
  | initManager (cid : OvsComponentId)
  | cancelMonitor
  | setTerminate
  | join
  | clearMonitors
  | clearReceipts
  | deinitManager
  | condDestroy (rtn : Bool)
  | mutexDestroy (rtn : Bool)
  | closeLog (rtn : Bool)
  | freeHandle (rtn : Bool)
  deriving Repr, DecidableEq

/-- Where a thread of `ovsdb_listen` stands: at the loop's test, in
`ovsdb_socket_listen`, in `ovsdb_parse_msg`, before `close`, before
`ovsdb_sock_fd = -1`, and at its end. -/
inductive ThreadPc where
  | test
  | listen
  | parse
  | close
  | forget
  | exited
  | joined
  deriving Repr, DecidableEq

/-- The thread has not come to its end. -/
def ThreadPc.running : ThreadPc → Bool
  | exited => false
  | joined => false
  | _ => true

/-- What `ovsdb_socket_listen` returns: 0, a negative value, or a count of bytes. -/
inductive ListenResult where
  | nothing
  | error
  | data
  deriving Repr, DecidableEq

/-- A process that uses the API.  `handle`, `table` say whether `g_handle` and
`g_transaction_table` are not NULL, `mutex` and `condition` whether the objects
in the handle are initialised; what the handle, the table and the two lists
hold is `component`'s.  `threads` are those ever created, by number. -/
structure ApiProcess where
  handle : Bool
  table : Bool
  mutex : Bool
  condition : Bool
  logger : Option LogContext
  ovsdbSockFd : Option Nat
  terminate : Bool
  listenThread : Nat
  threads : List ThreadPc
  /-- The calls of `LOG` that are past their test. -/
  logging : Nat
  component : Component
  client : ClientPc
  result : Option Bool
  log : List (Event ApiResource)

namespace ApiProcess

/-- A process before its first call. -/
def start : ApiProcess where
  handle := false
  table := false
  mutex := false
  condition := false
  logger := none
  ovsdbSockFd := none
  terminate := false
  listenThread := 0
  threads := []
  logging := 0
  component := .start 0
  client := .idle
  result := none
  log := []

/-- The descriptor has been closed, and `ovsdb_sock_fd` still has its number. -/
def closing (s : ApiProcess) : Bool := s.threads.contains .forget

/-- `send` finds a connection. -/
def connected (s : ApiProcess) : Bool := s.ovsdbSockFd.isSome && !s.closing

/-- Descriptor `n` is open. -/
def holdsFd (s : ApiProcess) (n : Nat) : Bool :=
  (s.logger.map LogContext.fd == some n) || (s.ovsdbSockFd == some n && !s.closing)

/-- Thread `n` has not been joined. -/
def holdsThread (s : ApiProcess) (n : Nat) : Bool :=
  match s.threads[n]? with
  | none => false
  | some pc => pc != .joined

/-- What the process holds. -/
def held (s : ApiProcess) : ApiResource → Bool
  | .handle => s.handle
  | .logger => s.logger.isSome
  | .table => s.table
  | .elements => s.table
  | .mutex => s.mutex
  | .condition => s.condition
  | .fd none => false
  | .fd (some n) => s.holdsFd n
  | .thread n => s.holdsThread n

/-- The kernel gives a descriptor that is not open. -/
def gives (s : ApiProcess) (fd : Nat) : Bool := !s.holdsFd fd

/-- Something was done. -/
def did (s : ApiProcess) (events : List (Event ApiResource)) : ApiProcess := { s with log := s.log ++ events }

/-- The client's thread goes on to `pc`. -/
def goto (s : ApiProcess) (pc : ClientPc) : ApiProcess := { s with client := pc }

/-- The call returns. -/
def returns (s : ApiProcess) (rtn : Bool) : ApiProcess := { s with client := .idle, result := some rtn }

end ApiProcess

/-- What the environment answers to one step of the client. -/
structure Choice where
  malloc : Bool
  opened : Option Nat
  /-- `access(OVSAGENT_DEBUG_ENABLE, F_OK) != -1`. -/
  debug : Bool
  connect : ConnectResult
  /-- `pthread_create`, `pthread_mutex_init` or `pthread_cond_init` succeeds. -/
  created : Bool
  /-- The second `malloc` of `create_transaction_table` succeeds. -/
  elements : Bool
  deriving Repr, DecidableEq

/-- The descriptor `ovsdb_socket_connect` gets. -/
def ConnectResult.fd : ConnectResult → Option Nat
  | noSocket => none
  | refused fd => some fd
  | noMode fd => some fd
  | connected fd => some fd

/-- `OVS_AGENT_API_LOG_FILE`. -/
def ovsAgentApiLogFile : CString := ofString "/rdklogs/logs/OvsAgentApi.log"

/-! ## §3. The steps of the client. -/

/-- `ovs_agent_api_init` up to the `malloc` of the handle. -/
def ovsAgentApiInit (s : ApiProcess) (cid : OvsComponentId) (malloc : Bool) : Option ApiProcess :=
  match s.client with
  | .idle =>
      if s.handle then some (s.returns true)
      else if malloc then some (({ s with handle := true }.goto (.openLog cid)).did [.acquire .handle])
      else some (s.returns false)
  | _ => none

/-- The call of the OVSDB layer has returned. -/
def DbPc.hasReturned : DbPc → Bool
  | .returned _ => true
  | _ => false

/-- No request is under way. -/
def Component.atRest (s : Component) : Bool :=
  s.calls.all (·.result.isSome) && s.monitorCalls.all DbPc.hasReturned

/-- `ovs_agent_api_deinit` up to its first access; a client calls it when its
requests have returned. -/
def ovsAgentApiDeinit (s : ApiProcess) : Option ApiProcess :=
  match s.client with
  | .idle =>
      if s.handle then
        if s.component.atRest then some ((s.goto .cancelMonitor).did [.use .handle]) else none
      else some (s.returns true)
  | _ => none

/-- The next access of the call in progress. -/
def clientStep (s : ApiProcess) (c : Choice) : Option ApiProcess :=
  match s.client with
  | .idle => none
  | .openLog cid =>
      if c.opened.all s.gives then
        let r := openLog c.malloc c.opened (some ovsAgentApiLogFile) (some cid.name) s.logger
        some (({ s with logger := r.2.1 }.goto (if r.1 then .setFields cid else .freeHandle false)).did r.2.2)
      else none
  | .setFields cid =>
      let r := if c.debug then setLogLevel .debug s.logger else (false, s.logger, [])
      -- the calls are numbered from here
      some (({ s with
        component := { s.component with
          blocked := false, monitorFeedback := false, calls := [], monitorCalls := [] }
        logger := r.2.1 }.goto (.ovsdbInit cid)).did (.use .handle :: r.2.2))
  | .ovsdbInit cid =>
      let db := { s.component.db with id := cid.toNat * ovsStartingIdMultiplier % 2 ^ 32 }
      let s := { s with component := { s.component with db := db } }
      if s.ovsdbSockFd.isSome then some (s.goto (.mutexInit cid)) else some (s.goto (.connect cid))
  | .connect cid =>
      if c.connect.fd.all s.gives then
        match ovsdbSocketConnect c.connect with
        | (none, events) => some ((s.goto (.closeLog false)).did events)
        | (some fd, events) =>
            -- nothing has been sent on the new connection
            let db := { s.component.db with sent := [] }
            some (({ s with
              ovsdbSockFd := some fd
              component := { s.component with db := db } }.goto (.createThread cid)).did events)
      else none
  | .createThread cid =>
      let s := { s with terminate := false }
      if c.created then
        let threads := s.threads ++ [ThreadPc.test]
        some (({ s with listenThread := s.threads.length, threads := threads }.goto (.mutexInit cid)).did
          [.acquire (.thread s.threads.length)])
      else some (({ s with ovsdbSockFd := none }.goto (.closeLog false)).did
        (ovsdbSocketDisconnect s.ovsdbSockFd))
  | .mutexInit cid =>
      if c.created then
        some (({ s with
          mutex := true
          component := { s.component with mutex := none } }.goto (.condInit cid)).did
          [.use .handle, .acquire .mutex])
      else some ((s.goto (.closeLog false)).did [.use .handle])
  | .condInit cid =>
      if c.created then
        some (({ s with condition := true }.goto (.initManager cid)).did [.use .handle, .acquire .condition])
      else some ((s.goto (.mutexDestroy false)).did [.use .handle])
  | .initManager _ =>
      if s.table then some (s.returns true)
      else
        let r := createTransactionTable c.malloc c.elements
        if r.1 then
          some (({ s with
            table := true
            component := { s.component with manager := .start } }.returns true).did r.2)
        else some ((s.goto (.condDestroy false)).did r.2)
  | .cancelMonitor =>
      -- `send_monitor_feedback_cancel_request` does nothing and returns true
      some (({ s with component := { s.component with monitorFeedback := false } }.goto .setTerminate).did
        [.use .handle])
  | .setTerminate => some ({ s with terminate := true }.goto .join)
  | .join =>
      if (s.threads[s.listenThread]?.map ThreadPc.running).getD false then none
      else some (({ s with threads := s.threads.set s.listenThread .joined }.goto .clearMonitors).did
        [.release (.thread s.listenThread)])
  | .clearMonitors =>
      let db := { s.component.db with monitors := [] }
      some ({ s with component := { s.component with db := db } }.goto .clearReceipts)
  | .clearReceipts =>
      let db := { s.component.db with receipts := [] }
      some ({ s with component := { s.component with db := db } }.goto .deinitManager)
  | .deinitManager =>
      if s.table then
        let m := deinitTransactionManager s.component.manager
        some (({ s with
          table := false
          component := { s.component with manager := m } }.goto (.condDestroy true)).did
          [.use .table, .use .elements, .release .elements, .release .table])
      else some (s.goto (.condDestroy true))
  | .condDestroy rtn =>
      some (({ s with condition := false }.goto (.mutexDestroy rtn)).did [.use .handle, .release .condition])
  | .mutexDestroy rtn =>
      some (({ s with mutex := false }.goto (.closeLog rtn)).did [.use .handle, .release .mutex])
  | .closeLog rtn =>
      let r := OvsAgent.closeLog s.logger
      some (({ s with logger := r.2.1 }.goto (.freeHandle rtn)).did r.2.2)
  | .freeHandle rtn => some (({ s with handle := false }.returns rtn).did [.release .handle])

/-! ## §4. The steps of the other threads. -/

/-- The next access of thread `n` of `ovsdb_listen`. -/
def threadStep (s : ApiProcess) (n : Nat) (r : ListenResult) : Option ApiProcess :=
  match s.threads[n]? with
  | some .test => some { s with threads := s.threads.set n (if s.terminate then .close else .listen) }
  | some .listen =>
      let pc := match r with
        | .nothing => ThreadPc.test
        | .error => .close
        | .data => .parse
      some ({ s with threads := s.threads.set n pc }.did [.use (.fd s.ovsdbSockFd)])
  | some .parse =>
      -- while the client is in `deinit` the only requests are those of a callback
      match s.component.listener, s.client = .idle || s.component.atRest with
      | .idle, true => some { s with threads := s.threads.set n .test }
      | _, _ => none
  | some .close =>
      some ({ s with threads := s.threads.set n .forget }.did (ovsdbSocketDisconnect s.ovsdbSockFd))
  | some .forget => some { s with ovsdbSockFd := none, threads := s.threads.set n .exited }
  | _ => none

/-- A step that the thread of `ovsdb_listen` takes while it handles a message. -/
def ComponentStep.byListener : ComponentStep → Bool
  | .receipt .. => true
  | .update .. => true
  | .listener .. => true
  | _ => false

/-- `send` fails without a connection. -/
def Outcome.over (connected : Bool) (o : Outcome) : Outcome :=
  { o with send := if connected then o.send else .error }

def ComponentStep.over (connected : Bool) : ComponentStep → ComponentStep
  | .call n malloc o => .call n malloc (o.over connected)
  | .monitorCall n o => .monitorCall n (o.over connected)
  | .listener o waiter => .listener (o.over connected) waiter
  | i => i

/-- All that a request or a callback of the API may touch. -/
def apiUses : List ApiResource := [.handle, .table, .elements, .mutex, .condition]

/-- What a step of the component may touch of them: a message that nobody waits for
comes to no callback. -/
def Component.uses (s : Component) : ComponentStep → List ApiResource
  | .receipt .. => []
  | .update .. => if s.db.monitors.isEmpty then [] else apiUses
  | _ => apiUses

/-- The next access is the call of `send`. -/
def DbPc.sends : DbPc → Bool
  | .socketWrite _ => true
  | _ => false

def CallPc.sends : CallPc → Bool
  | .ovsdbWrite pc => pc.sends
  | _ => false

def ListenerPc.sends : ListenerPc → Bool
  | .ovsdbMonitor _ pc => pc.sends
  | .deleteGwConfig _ _ pc => pc.sends
  | .deleteFeedback _ _ pc => pc.sends
  | _ => false

/-- The step calls `send`. -/
def Component.sends (s : Component) : ComponentStep → Bool
  | .call n _ _ => (s.calls[n]?.map fun c => c.pc.sends).getD false
  | .monitorCall n _ => (s.monitorCalls[n]?.map DbPc.sends).getD false
  | .listener .. => s.listener.sends
  | _ => false

/-- All that the step may touch; `send` is given what `ovsdb_sock_fd` holds. -/
def ApiProcess.uses (s : ApiProcess) (i : ComponentStep) : List ApiResource :=
  s.component.uses i ++ if s.component.sends i then [.fd s.ovsdbSockFd] else []

/-- A request may be under way: the client is in neither call, or waits for
the thread, whose callbacks make requests too. -/
def ApiProcess.serves (s : ApiProcess) : Bool :=
  match s.client with
  | .idle => s.handle
  | .cancelMonitor => s.threads.contains .parse
  | .setTerminate => s.threads.contains .parse
  | .join => s.threads.contains .parse
  | _ => false

/-- The step may be taken now: a thread handles a message, or a request may
be under way. -/
def ApiProcess.permits (s : ApiProcess) (i : ComponentStep) : Bool :=
  if i.byListener then s.threads.contains .parse else s.serves

/-- A step of a request, or of the handling of a message. -/
def requestStep (s : ApiProcess) (i : ComponentStep) : Option ApiProcess :=
  if s.permits i then
    (componentStep s.component (i.over s.connected)).map fun c =>
      { s with component := c }.did ((s.uses i).map .use)
  else none

/-- `LOG` up to the end of its test, in any thread; without a logger it does
nothing. -/
def logTest (s : ApiProcess) (level : LogLevel) : Option ApiProcess :=
  s.logger.map fun l =>
    { s with logging := if level.toNat ≤ l.level.toNat then s.logging + 1 else s.logging }.did
      [.use .logger]

/-- What `LOG` needs for its line: the name and the descriptor are read from
`g_logger` again, which another thread may have closed. -/
def ApiProcess.lineUses (s : ApiProcess) : List ApiResource := [.logger, .fd (s.logger.map LogContext.fd)]

/-- The rest of a `LOG` that is past its test. -/
def logWrite (s : ApiProcess) (malloc : Bool) : Option ApiProcess :=
  if 0 < s.logging then
    some ({ s with logging := s.logging - 1 }.did (if malloc then s.lineUses.map .use else []))
  else none

/-! ## §5. The machine. -/

inductive ApiStep where
  /-- The client opens or closes the log itself, as the test programs do. -/
  | openLog (malloc : Bool) (opened : Option Nat) (path name : Option CString)
  | closeLog
  | init (cid : OvsComponentId) (malloc : Bool)
  | deinit
  | client (c : Choice)
  | thread (n : Nat) (r : ListenResult)
  | request (i : ComponentStep)
  /-- Some thread calls `LOG`. -/
  | logTest (level : LogLevel)
  | logWrite (malloc : Bool)

def apiStep (s : ApiProcess) : ApiStep → Option ApiProcess
  | .openLog malloc opened path name =>
      if s.client = .idle && opened.all s.gives then
        let r := openLog malloc opened path name s.logger
        some ({ s with logger := r.2.1 }.did r.2.2)
      else none
  | .closeLog =>
      if s.client = .idle then
        let r := closeLog s.logger
        some ({ s with logger := r.2.1 }.did r.2.2)
      else none
  | .init cid malloc => ovsAgentApiInit s cid malloc
  | .deinit => ovsAgentApiDeinit s
  | .client c => clientStep s c
  | .thread n r => threadStep s n r
  | .request i => requestStep s i
  | .logTest level => OvsAgent.logTest s level
  | .logWrite malloc => OvsAgent.logWrite s malloc

/-- A process that uses the API. -/
def apiMachine : Machine ApiProcess ApiStep where
  init s := s = .start
  step := apiStep

/-! ## §6. The objects of the handle. -/

/-- Which of the handle, the table, the mutex and the condition there are when
the client stands here; `up` is for between two calls. -/
def ClientPc.objects (up : Bool) : ClientPc → Bool × Bool × Bool × Bool
  | .idle => (up, up, up, up)
  | .condInit _ => (true, false, true, false)
  | .initManager _ => (true, false, true, true)
  | .cancelMonitor => (true, true, true, true)
  | .setTerminate => (true, true, true, true)
  | .join => (true, true, true, true)
  | .clearMonitors => (true, true, true, true)
  | .clearReceipts => (true, true, true, true)
  | .deinitManager => (true, true, true, true)
  | .condDestroy _ => (true, false, true, true)
  | .mutexDestroy _ => (true, false, true, false)
  | _ => (true, false, false, false)

/-- The objects there are. -/
def ApiProcess.objects (s : ApiProcess) : Bool × Bool × Bool × Bool :=
  (s.handle, s.table, s.mutex, s.condition)

/-- Each object is there from the step that makes it to the step that ends it. -/
def ApiProcess.InPhase (s : ApiProcess) : Prop := s.objects = s.client.objects s.handle

theorem clientStep_inPhase {s s' : ApiProcess} {c : Choice} (h : clientStep s c = some s') (hs : s.InPhase) :
    s'.InPhase := by
  unfold ApiProcess.InPhase at hs ⊢
  unfold clientStep at h
  cases hpc : s.client <;> simp only [hpc, ClientPc.objects] at h hs <;> (repeat' split at h) <;> cases h <;>
    simp_all [ApiProcess.did, ApiProcess.goto, ApiProcess.returns, ApiProcess.objects, ClientPc.objects]

/-! ## §7. The thread that listens. -/

/-- A thread runs exactly when `on`, and it is `last`. -/
structure Attended (threads : List ThreadPc) (last : Nat) (on : Bool) : Prop where
  each : ∀ n pc, threads[n]? = some pc → (pc.running = true ↔ n = last ∧ on = true)
  bound : on = true → last < threads.length

namespace Attended

variable {threads : List ThreadPc} {last n : Nat} {on : Bool} {pc pc' : ThreadPc}

theorem start : Attended [] 0 false where
  each := by
    intro n pc h
    rw [List.getElem?_nil] at h
    cases h
  bound := by
    intro h
    cases h

/-- The running thread. -/
theorem thread (h : Attended threads last true) : ∃ pc, threads[last]? = some pc ∧ pc.running = true := by
  have hpc := List.getElem?_eq_getElem (h.bound rfl)
  exact ⟨_, hpc, (h.each last _ hpc).2 ⟨rfl, rfl⟩⟩

/-- A thread goes on, and runs if it ran. -/
theorem set (h : Attended threads last on)
    (hpc : ∀ pc, threads[n]? = some pc → pc'.running = pc.running) :
    Attended (threads.set n pc') last on where
  each := by
    intro m q hq
    rw [List.getElem?_set] at hq
    by_cases hnm : n = m
    · subst hnm
      rw [if_pos rfl] at hq
      split at hq
      · next hlt =>
          cases hq
          have hold := List.getElem?_eq_getElem hlt
          rw [hpc _ hold]
          exact h.each n _ hold
      · cases hq
    · rw [if_neg hnm] at hq
      exact h.each m q hq
  bound := by
    intro hon
    rw [List.length_set]
    exact h.bound hon

/-- The running thread comes to its end. -/
theorem exit (h : Attended threads last on) (hpc : threads[n]? = some pc) (hrun : pc.running = true) :
    Attended (threads.set n .exited) last false where
  each := by
    intro m q hq
    obtain ⟨hn, _⟩ := (h.each n pc hpc).1 hrun
    rw [List.getElem?_set] at hq
    by_cases hnm : n = m
    · subst hnm
      rw [if_pos rfl] at hq
      split at hq
      · cases hq
        simp [ThreadPc.running]
      · cases hq
    · rw [if_neg hnm] at hq
      rw [h.each m q hq]
      exact ⟨fun hm => absurd (hn.trans hm.1.symm) hnm, fun hm => absurd hm.2 Bool.false_ne_true⟩
  bound := by
    intro hoff
    cases hoff

/-- `pthread_create`, when no thread runs. -/
theorem create (h : Attended threads last false) : Attended (threads ++ [.test]) threads.length true where
  each := by
    intro n pc hn
    rcases Nat.lt_trichotomy n threads.length with hlt | rfl | hgt
    · rw [List.getElem?_append_left hlt] at hn
      rw [h.each n pc hn]
      exact ⟨fun hon => absurd hon.2 Bool.false_ne_true, fun hon => absurd hon.1 (Nat.ne_of_lt hlt)⟩
    · rw [List.getElem?_concat_length] at hn
      cases hn
      simp [ThreadPc.running]
    · rw [List.getElem?_eq_none (by rw [List.length_append, List.length_singleton]; omega)] at hn
      cases hn
  bound := by
    intro _
    rw [List.length_append, List.length_singleton]
    exact Nat.lt_succ_self _

end Attended

/-- The client is between `ovsdb_socket_connect` and `pthread_create`. -/
def ClientPc.creating : ClientPc → Bool
  | .createThread _ => true
  | _ => false

/-- The thread of the connection is there. -/
def ApiProcess.attended (s : ApiProcess) : Bool := s.ovsdbSockFd.isSome && !s.client.creating

/-- There is a running thread for each connection, and no other. -/
def ApiProcess.OneThread (s : ApiProcess) : Prop := Attended s.threads s.listenThread s.attended

/-- Points of the client where there is no connection: `ovsdb_init` found none,
or the thread has been joined. -/
def ClientPc.apart : ClientPc → Bool
  | .connect _ => true
  | .clearMonitors => true
  | .clearReceipts => true
  | .deinitManager => true
  | .condDestroy rtn => rtn
  | .mutexDestroy rtn => rtn
  | .closeLog rtn => rtn
  | .freeHandle rtn => rtn
  | _ => false

/-- Points of the client from which it can come to the join. -/
def ClientPc.joins (up : Bool) : ClientPc → Bool
  | .idle => up
  | .mutexInit _ => true
  | .condInit _ => true
  | .initManager _ => true
  | .cancelMonitor => true
  | .setTerminate => true
  | .join => true
  | _ => false

/-- What the client's place says about the connection. -/
structure ApiProcess.Linked (s : ApiProcess) : Prop where
  apart : s.client.apart = true → s.ovsdbSockFd = none
  creating : s.client.creating = true → s.ovsdbSockFd.isSome = true
  joinable : s.client.joins s.handle = true → ∃ pc, s.threads[s.listenThread]? = some pc ∧
    pc ≠ .joined

section ClientThreads

variable {s s' : ApiProcess} {c : Choice}

theorem ovsdbSocketConnect_none {r : ConnectResult} {events : List (Event ApiResource)}
    (h : ovsdbSocketConnect r = (none, events)) :
    events = [] ∨ ∃ fd, r.fd = some fd ∧ events = [.acquire (.fd (some fd)),
      .release (.fd (some fd))] := by
  cases r with
  | noSocket => cases h; exact .inl rfl
  | refused fd => cases h; exact .inr ⟨fd, rfl, rfl⟩
  | noMode fd => cases h; exact .inr ⟨fd, rfl, rfl⟩
  | connected fd => cases h

theorem ovsdbSocketConnect_some {r : ConnectResult} {events : List (Event ApiResource)} {fd : Nat}
    (h : ovsdbSocketConnect r = (some fd, events)) :
    r.fd = some fd ∧ events = [.acquire (.fd (some fd))] := by
  cases r with
  | connected fd => cases h; exact ⟨rfl, rfl⟩
  | _ => cases h

theorem ApiProcess.OneThread.off (hs : s.OneThread) (hoff : s.attended = false) :
    Attended s.threads s.listenThread false := hoff ▸ hs

/-- The thread that `pthread_join` waited for does not run. -/
theorem ApiProcess.OneThread.joined (hs : s.OneThread) (hc : s.client.creating = false)
    (hrun : (s.threads[s.listenThread]?.map ThreadPc.running).getD false = false) : s.ovsdbSockFd = none := by
  cases hfd : s.ovsdbSockFd with
  | none => rfl
  | some fd =>
      have hon : s.attended = true := by
        unfold ApiProcess.attended
        rw [hfd, hc]
        rfl
      unfold ApiProcess.OneThread at hs
      rw [hon] at hs
      obtain ⟨pc, hpc, hruns⟩ := hs.thread
      rw [hpc, Option.map_some, Option.getD_some, hruns] at hrun
      cases hrun

theorem clientStep_oneThread (h : clientStep s c = some s') (hs : s.OneThread) (hl : s.Linked) :
    s'.OneThread := by
  unfold clientStep at h
  cases hpc : s.client with
  | connect cid =>
      have hfd : s.ovsdbSockFd = none := hl.apart (by rw [hpc]; rfl)
      have hoff := hs.off (by unfold ApiProcess.attended; rw [hfd]; rfl)
      simp only [hpc] at h
      split at h
      · split at h
        · cases h
          show Attended s.threads s.listenThread (s.ovsdbSockFd.isSome && true)
          rw [hfd]
          exact hoff
        · cases h
          exact hoff
      · cases h
  | createThread cid =>
      have hoff := hs.off (by unfold ApiProcess.attended; rw [hpc]; exact Bool.and_false _)
      simp only [hpc] at h
      split at h
      · cases h
        show Attended (s.threads ++ [.test]) s.threads.length (s.ovsdbSockFd.isSome && true)
        rw [hl.creating (by rw [hpc]; rfl)]
        exact hoff.create
      · cases h
        exact hoff
  | join =>
      simp only [hpc] at h
      split at h
      · cases h
      · next hrun =>
          cases h
          show Attended (s.threads.set s.listenThread .joined) s.listenThread (s.ovsdbSockFd.isSome && true)
          have hon : s.attended = (s.ovsdbSockFd.isSome && true) := by
            unfold ApiProcess.attended
            rw [hpc]
            rfl
          unfold ApiProcess.OneThread at hs
          rw [hon] at hs
          refine hs.set fun pc hthread => ?_
          rw [hthread, Option.map_some, Option.getD_some] at hrun
          exact (Bool.eq_false_iff.2 hrun).symm
  | _ =>
      simp only [hpc] at h
      (repeat' split at h) <;> cases h <;>
        simpa [ApiProcess.OneThread, ApiProcess.attended, ApiProcess.did, ApiProcess.goto, ApiProcess.returns,
          ClientPc.creating, hpc] using hs

theorem clientStep_apart (h : clientStep s c = some s') (hs : s.OneThread) (hl : s.Linked)
    (hap : s'.client.apart = true) : s'.ovsdbSockFd = none := by
  have hold := hl.apart
  unfold clientStep at h
  cases hpc : s.client with
  | join =>
      simp only [hpc] at h
      split at h
      · cases h
      · next hrun =>
          cases h
          exact hs.joined (by rw [hpc]; rfl) (Bool.eq_false_iff.2 hrun)
  | _ =>
      simp only [hpc, ClientPc.apart] at h hold
      (repeat' split at h) <;> cases h <;>
        simp_all [ApiProcess.did, ApiProcess.goto, ApiProcess.returns, ClientPc.apart]

theorem clientStep_creating (h : clientStep s c = some s') (hcr : s'.client.creating = true) :
    s'.ovsdbSockFd.isSome = true := by
  unfold clientStep at h
  cases hpc : s.client with
  | connect cid =>
      simp only [hpc] at h
      split at h
      · split at h
        · cases h; cases hcr
        · cases h; rfl
      · cases h
  | _ =>
      simp only [hpc] at h
      (repeat' split at h) <;> cases h <;> cases hcr

theorem clientStep_joinable (h : clientStep s c = some s') (hs : s.OneThread) (hl : s.Linked)
    (hj : s'.client.joins s'.handle = true) :
    ∃ pc, s'.threads[s'.listenThread]? = some pc ∧ pc ≠ .joined := by
  have hold := hl.joinable
  unfold clientStep at h
  cases hpc : s.client with
  | ovsdbInit cid =>
      simp only [hpc] at h
      split at h
      · next hfd =>
          cases h
          -- a connection that was there has its thread
          have hon : s.attended = true := by
            unfold ApiProcess.attended
            rw [hpc]
            exact Bool.and_eq_true_iff.2 ⟨hfd, rfl⟩
          unfold ApiProcess.OneThread at hs
          rw [hon] at hs
          obtain ⟨pc, hthread, hrun⟩ := hs.thread
          exact ⟨pc, hthread, fun hpc' => by rw [hpc'] at hrun; cases hrun⟩
      · cases h; cases hj
  | createThread cid =>
      simp only [hpc] at h
      split at h
      · cases h
        exact ⟨.test, List.getElem?_concat_length .., ThreadPc.noConfusion⟩
      · cases h; cases hj
  | _ =>
      simp only [hpc, ClientPc.joins] at h hold
      (repeat' split at h) <;> cases h <;> first | exact hold trivial | cases hj

theorem clientStep_linked (h : clientStep s c = some s') (hs : s.OneThread) (hl : s.Linked) : s'.Linked :=
  ⟨clientStep_apart h hs hl, clientStep_creating h, clientStep_joinable h hs hl⟩

end ClientThreads

/-- What a thread of `ovsdb_listen` can do next. -/
inductive ThreadEffect (s : ApiProcess) (n : Nat) : ApiProcess → Prop where
  | tested (pc : ThreadPc) (h : s.threads[n]? = some .test) (hpc : pc = .close ∨ pc = .listen) :
      ThreadEffect s n { s with threads := s.threads.set n pc }
  | listened (pc : ThreadPc) (h : s.threads[n]? = some .listen)
      (hpc : pc = .test ∨ pc = .close ∨ pc = .parse) :
      ThreadEffect s n ({ s with threads := s.threads.set n pc }.did [.use (.fd s.ovsdbSockFd)])
  | parsed (h : s.threads[n]? = some .parse) (hidle : s.component.listener = .idle) :
      ThreadEffect s n { s with threads := s.threads.set n .test }
  | closed (h : s.threads[n]? = some .close) :
      ThreadEffect s n ({ s with threads := s.threads.set n .forget }.did
        (ovsdbSocketDisconnect s.ovsdbSockFd))
  | forgot (h : s.threads[n]? = some .forget) :
      ThreadEffect s n { s with ovsdbSockFd := none, threads := s.threads.set n .exited }

section Thread

variable {s s' : ApiProcess} {n : Nat} {r : ListenResult}

theorem threadStep_effect (h : threadStep s n r = some s') : ThreadEffect s n s' := by
  unfold threadStep at h
  split at h
  · next hpc =>
      cases h
      refine .tested _ hpc ?_
      split
      · exact .inl rfl
      · exact .inr rfl
  · next hpc =>
      cases h
      refine .listened _ hpc ?_
      cases r with
      | nothing => exact .inl rfl
      | error => exact .inr (.inl rfl)
      | data => exact .inr (.inr rfl)
  · next hpc =>
      split at h
      · next hidle _ => cases h; exact .parsed hpc hidle
      · cases h
  · next hpc => cases h; exact .closed hpc
  · next hpc => cases h; exact .forgot hpc
  · cases h

/-- What no thread touches. -/
theorem ThreadEffect.frame (h : ThreadEffect s n s') :
    s'.client = s.client ∧ s'.objects = s.objects ∧ s'.listenThread = s.listenThread ∧
      s'.component = s.component ∧ s'.logger = s.logger := by
  cases h <;> exact ⟨rfl, rfl, rfl, rfl, rfl⟩

/-- The thread and where it goes. -/
theorem ThreadEffect.goes (h : ThreadEffect s n s') :
    ∃ pc pc', s.threads[n]? = some pc ∧ pc.running = true ∧
    pc' ≠ .joined ∧ s'.threads = s.threads.set n pc' := by
  cases h with
  | tested pc h hpc =>
      exact ⟨_, pc, h, rfl, by rcases hpc with rfl | rfl <;> exact ThreadPc.noConfusion, rfl⟩
  | listened pc h hpc =>
      exact ⟨_, pc, h, rfl, by rcases hpc with rfl | rfl | rfl <;> exact ThreadPc.noConfusion, rfl⟩
  | parsed h _ => exact ⟨_, _, h, rfl, ThreadPc.noConfusion, rfl⟩
  | closed h => exact ⟨_, _, h, rfl, ThreadPc.noConfusion, rfl⟩
  | forgot h => exact ⟨_, _, h, rfl, ThreadPc.noConfusion, rfl⟩

theorem ThreadEffect.oneThread (h : ThreadEffect s n s') (hs : s.OneThread) : s'.OneThread := by
  have hset : ∀ {pc pc' : ThreadPc}, s.threads[n]? = some pc → pc'.running = pc.running →
      Attended (s.threads.set n pc') s.listenThread s.attended := by
    intro pc pc' hpc hrun
    refine hs.set fun q hq => ?_
    rw [hpc] at hq
    cases hq
    exact hrun
  cases h with
  | tested pc h hpc => exact hset h (by rcases hpc with rfl | rfl <;> rfl)
  | listened pc h hpc => exact hset h (by rcases hpc with rfl | rfl | rfl <;> rfl)
  | parsed h _ => exact hset h rfl
  | closed h => exact hset h rfl
  | forgot h => exact hs.exit h rfl

theorem ThreadEffect.sockFd (h : ThreadEffect s n s') :
    s'.ovsdbSockFd = s.ovsdbSockFd ∨ s'.ovsdbSockFd = none ∧ s.threads[n]? = some .forget := by
  cases h with
  | forgot h => exact .inr ⟨rfl, h⟩
  | _ => exact .inl rfl

theorem ThreadEffect.linked (h : ThreadEffect s n s') (hs : s.OneThread) (hl : s.Linked) : s'.Linked := by
  obtain ⟨hclient, hobj, hlast, _, _⟩ := h.frame
  have hhandle : s'.handle = s.handle := congrArg Prod.fst hobj
  obtain ⟨pc, pc', hpc, hrun, hnot, hthreads⟩ := h.goes
  obtain ⟨_, hon⟩ := (hs.each n pc hpc).1 hrun
  obtain ⟨_, hcr⟩ := Bool.and_eq_true_iff.1 hon
  refine ⟨fun hap => ?_, fun hcr' => ?_, fun hj => ?_⟩
  · rw [hclient] at hap
    rcases h.sockFd with hfd | ⟨hfd, _⟩
    · rw [hfd, hl.apart hap]
    · exact hfd
  · -- no thread runs while the client makes one
    rw [hclient] at hcr'
    rw [hcr'] at hcr
    cases hcr
  · rw [hclient, hhandle] at hj
    obtain ⟨q, hq, hqj⟩ := hl.joinable hj
    rw [hthreads, hlast, List.getElem?_set]
    by_cases hn : n = s.listenThread
    · rw [if_pos hn, if_pos (hn ▸ (List.getElem?_eq_some_iff.1 hq).1)]
      exact ⟨pc', rfl, hnot⟩
    · rw [if_neg hn]
      exact ⟨q, hq, hqj⟩

theorem ThreadEffect.inPhase (h : ThreadEffect s n s') (hs : s.InPhase) : s'.InPhase := by
  obtain ⟨hclient, hobj, _⟩ := h.frame
  have hhandle : s'.handle = s.handle := congrArg Prod.fst hobj
  unfold ApiProcess.InPhase at hs ⊢
  rw [hclient, hobj, hhandle]
  exact hs

end Thread

/-- The client's place, the objects and the threads fit together. -/
structure ApiProcess.Ordered (s : ApiProcess) : Prop where
  inPhase : s.InPhase
  oneThread : s.OneThread
  linked : s.Linked

section Ordered

variable {s s' : ApiProcess}

theorem ordered_start : ApiProcess.start.Ordered :=
  ⟨rfl, Attended.start, fun h => (Bool.false_ne_true h).elim, fun h => (Bool.false_ne_true h).elim,
    fun h => (Bool.false_ne_true h).elim⟩

/-- Nothing that the order looks at has changed. -/
theorem ApiProcess.Ordered.congr (hs : s.Ordered) (hobj : s'.objects = s.objects)
    (hclient : s'.client = s.client) (hthreads : s'.threads = s.threads)
    (hlast : s'.listenThread = s.listenThread) (hfd : s'.ovsdbSockFd = s.ovsdbSockFd) : s'.Ordered := by
  have hhandle : s'.handle = s.handle := congrArg Prod.fst hobj
  have hon : s'.attended = s.attended := by
    unfold ApiProcess.attended
    rw [hclient, hfd]
  refine ⟨?_, ?_, ?_, ?_, ?_⟩
  · unfold ApiProcess.InPhase
    rw [hobj, hclient, hhandle]
    exact hs.inPhase
  · unfold ApiProcess.OneThread
    rw [hthreads, hlast, hon]
    exact hs.oneThread
  · rw [hclient, hfd]
    exact hs.linked.apart
  · rw [hclient, hfd]
    exact hs.linked.creating
  · rw [hclient, hhandle, hthreads, hlast]
    exact hs.linked.joinable

/-- What a step that is neither the client's within a call nor a thread's does. -/
inductive OtherEffect (s : ApiProcess) : ApiStep → ApiProcess → Prop where
  | openLog (malloc : Bool) (opened : Option Nat) (path name : Option CString) (hidle : s.client = .idle)
      (hgives : opened.all s.gives = true) :
      OtherEffect s (.openLog malloc opened path name)
        (({ s with logger := (openLog malloc opened path name s.logger).2.1 }).did
          (openLog malloc opened path name s.logger).2.2)
  | closeLog (hidle : s.client = .idle) :
      OtherEffect s .closeLog (({ s with logger := (closeLog s.logger).2.1 }).did (closeLog s.logger).2.2)
  | returned (i : ApiStep) (rtn : Bool) (hidle : s.client = .idle) : OtherEffect s i (s.returns rtn)
  | init (cid : OvsComponentId) (malloc : Bool) (hidle : s.client = .idle) (hdown : s.handle = false) :
      OtherEffect s (.init cid malloc) (({ s with handle := true }.goto (.openLog cid)).did
        [.acquire .handle])
  | deinit (hidle : s.client = .idle) (hup : s.handle = true) :
      OtherEffect s .deinit ((s.goto .cancelMonitor).did [.use .handle])
  | request (i : ComponentStep) (c : Component)
      (hwhen : s.permits i = true)
      (hc : componentStep s.component (i.over s.connected) = some c) :
      OtherEffect s (.request i) ({ s with component := c }.did ((s.uses i).map .use))
  | logTest (level : LogLevel) (logging : Nat) (hlogger : s.logger.isSome = true) :
      OtherEffect s (.logTest level) ({ s with logging := logging }.did [.use .logger])
  | logWrite (malloc : Bool) (logging : Nat) :
      OtherEffect s (.logWrite malloc)
        ({ s with logging := logging }.did (if malloc then s.lineUses.map .use else []))

theorem ovsAgentApiInit_effect {cid : OvsComponentId} {malloc : Bool}
    (h : ovsAgentApiInit s cid malloc = some s') :
    OtherEffect s (.init cid malloc) s' := by
  unfold ovsAgentApiInit at h
  split at h
  · next hidle =>
      split at h
      · cases h; exact .returned _ true hidle
      · next hup =>
          split at h
          · cases h; exact .init cid malloc hidle (Bool.eq_false_iff.2 hup)
          · cases h; exact .returned _ false hidle
  · cases h

theorem ovsAgentApiDeinit_effect (h : ovsAgentApiDeinit s = some s') : OtherEffect s .deinit s' := by
  unfold ovsAgentApiDeinit at h
  split at h
  · next hidle =>
      split at h
      · next hup =>
          split at h
          · cases h; exact .deinit hidle hup
          · cases h
      · cases h; exact .returned _ true hidle
  · cases h

theorem requestStep_effect {i : ComponentStep} (h : requestStep s i = some s') :
    OtherEffect s (.request i) s' := by
  unfold requestStep at h
  split at h
  · next hwhen =>
      obtain ⟨c, hc, rfl⟩ := Option.map_eq_some_iff.1 h
      exact .request i c hwhen hc
  · cases h

theorem logTest_effect {level : LogLevel} (h : logTest s level = some s') :
    OtherEffect s (.logTest level) s' := by
  obtain ⟨l, hl, rfl⟩ := Option.map_eq_some_iff.1 h
  exact .logTest level _ (by rw [hl]; rfl)

theorem logWrite_effect {malloc : Bool} (h : logWrite s malloc = some s') :
    OtherEffect s (.logWrite malloc) s' := by
  unfold logWrite at h
  split at h
  · cases h; exact .logWrite malloc _
  · cases h

/-- **What one step of the process does.** -/
theorem apiStep_cases {i : ApiStep} (h : apiStep s i = some s') :
    (∃ c, clientStep s c = some s') ∨ (∃ n, ThreadEffect s n s') ∨ OtherEffect s i s' := by
  cases i with
  | openLog malloc opened path name =>
      simp only [apiStep] at h
      split at h
      · next hwhen =>
          cases h
          obtain ⟨hidle, hgives⟩ := Bool.and_eq_true_iff.1 hwhen
          exact .inr (.inr (.openLog malloc opened path name (of_decide_eq_true hidle) hgives))
      · cases h
  | closeLog =>
      simp only [apiStep] at h
      split at h
      · next hidle => cases h; exact .inr (.inr (.closeLog hidle))
      · cases h
  | init cid malloc => exact .inr (.inr (ovsAgentApiInit_effect h))
  | deinit => exact .inr (.inr (ovsAgentApiDeinit_effect h))
  | client c => exact .inl ⟨c, h⟩
  | thread n r => exact .inr (.inl ⟨n, threadStep_effect h⟩)
  | request i => exact .inr (.inr (requestStep_effect h))
  | logTest level => exact .inr (.inr (logTest_effect h))
  | logWrite malloc => exact .inr (.inr (logWrite_effect h))

theorem OtherEffect.ordered {i : ApiStep} (h : OtherEffect s i s') (hs : s.Ordered) : s'.Ordered := by
  have hobj := hs.inPhase
  unfold ApiProcess.InPhase at hobj
  cases h with
  | openLog malloc opened path name hidle hgives => exact hs.congr rfl rfl rfl rfl rfl
  | closeLog hidle => exact hs.congr rfl rfl rfl rfl rfl
  | returned i rtn hidle => exact hs.congr rfl hidle.symm rfl rfl rfl
  | init cid malloc hidle hdown =>
      rw [hidle, hdown] at hobj
      refine ⟨?_, ?_, ?_⟩
      · show (true, s.table, s.mutex, s.condition) = (true, false, false, false)
        exact congrArg (Prod.mk true) (congrArg Prod.snd hobj)
      · have hon := hs.oneThread
        unfold ApiProcess.OneThread ApiProcess.attended at hon
        rw [hidle] at hon
        exact hon
      · exact ⟨fun hap => (Bool.false_ne_true hap).elim, fun hcr => (Bool.false_ne_true hcr).elim,
          fun hj => (Bool.false_ne_true hj).elim⟩
  | deinit hidle hup =>
      rw [hidle, hup] at hobj
      refine ⟨?_, ?_, ?_⟩
      · show s.objects = (true, true, true, true)
        exact hobj
      · have hon := hs.oneThread
        unfold ApiProcess.OneThread ApiProcess.attended at hon
        rw [hidle] at hon
        exact hon
      · refine ⟨fun hap => (Bool.false_ne_true hap).elim, fun hcr => (Bool.false_ne_true hcr).elim,
          fun _ => ?_⟩
        exact hs.linked.joinable (by rw [hidle, hup]; rfl)
  | request i c hwhen hc => exact hs.congr rfl rfl rfl rfl rfl
  | logTest level logging hlogger => exact hs.congr rfl rfl rfl rfl rfl
  | logWrite malloc logging => exact hs.congr rfl rfl rfl rfl rfl

theorem apiStep_ordered {i : ApiStep} (h : apiStep s i = some s') (hs : s.Ordered) : s'.Ordered := by
  obtain ⟨c, hc⟩ | ⟨n, ht⟩ | ho := apiStep_cases h
  · exact ⟨clientStep_inPhase hc hs.inPhase, clientStep_oneThread hc hs.oneThread hs.linked,
      clientStep_linked hc hs.oneThread hs.linked⟩
  · exact ⟨ht.inPhase hs.inPhase, ht.oneThread hs.oneThread, ht.linked hs.oneThread hs.linked⟩
  · exact ho.ordered hs

end Ordered

end OvsAgent
