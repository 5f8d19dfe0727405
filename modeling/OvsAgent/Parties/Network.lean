/-
  OvsAgent.Parties.Network — a component, the server and the OvsAgent.

  Both processes run OvsAgentApi.c, each with its own calls, listener and
  tables; OvsAgent.c adds a monitor request at start-up and `gwconf_mon_cb`.
  A step of the network is one access of a thread, one request carried out by
  the server, or one message read by a listener.

  The runs are those of a component that makes non-blocking insert requests
  with a callback, whose pending transactions stand in slots of their own;
  memory is there, no `send` fails and the server answers no request with an
  error.
-/
import OvsAgent.Parties.OvsdbServer
import OvsAgent.AgentApi.ComponentSteps
import OvsAgent.OvsAgentCore.OvsAgent

namespace OvsAgent

open CString (ofString utoa atou strncpy)
open Json

/-! ## §1. The processes. -/

/-- The listener reads one message. -/
def Component.hear (s : Component) : ServerMsg → Option Component
  | .reply rid result => componentStep s (.receipt rid (some result))
  | .update monId table _ (.new columns) => componentStep s (.update monId table columns)
  -- the row is gone: no call is made
  | .update _ _ _ (.old _) =>
      match s.listener with
      | .idle => some s
      | _ => none

/-- The row `gwconf_mon_cb` is called with when this message is read. -/
def Component.actsOn (s : Component) : ServerMsg → Option OvsAgentTableConfig
  | .update monId table rowUuid (.new columns) =>
      match parseTable table columns, s.db.monitors.find? fun node => node.matches monId with
      | some tableConfig, some node =>
          if node.callback = some .gwconfMonCb then some ⟨tableConfig, strncpy maxUuidLen rowUuid⟩
          else none
      | _, _ => none
  | _ => none

/-- An insertion that call `n` makes next finds its slot free. -/
def Component.slotFree (s : Component) (n : Nat) : Bool :=
  match s.calls[n]? with
  | none => true
  | some c =>
      match c.pc with
      | .insertTransaction => (s.manager.table.elements (hashCode (atou (utoa c.rid)))).isNone
      | _ => true

/-- The steps of the component by itself. -/
def componentAllowed (s : Component) : ComponentStep → Bool
  | .interact request callback =>
      request.blockMode = .disable && callback.isSome &&
        match request.tableConfig with
        | .gwConfig config => config.isSome
        | _ => false
  | .call n malloc o => malloc && o = .ok && s.slotFree n
  | .listener o _ => o = .ok
  | _ => false

/-- The steps of the agent by itself: `OvsAgentInit` makes one monitor request. -/
def agentAllowed (s : Component) : ComponentStep → Bool
  | .interactMonitor ovsdbTable callback =>
      ovsdbTable = .gwConfig && callback = some .gwconfMonCb && s.monitorCalls.isEmpty
  | .monitorCall _ o => o = .ok
  | .call _ malloc o => malloc && o = .ok
  | .listener o _ => o = .ok
  | _ => false

/-! ## §2. The network. -/

/-- `acted` is history: the rows the agent has acted on. -/
structure Network where
  component : Component
  agent : Component
  server : OvsdbServer
  acted : List CString

inductive NetworkStep where
  | component (i : ComponentStep)
  | agent (i : ComponentStep)
  /-- The server carries out the next request of a connection. -/
  | serve (conn : Conn) (uuid : CString)
  /-- A listener reads the next message. -/
  | hearComponent
  | hearAgent (ret : Int)

namespace Network

def start (cid agentCid : Nat) : Network := ⟨.start cid, .start agentCid, .start, []⟩

/-- The request the server carries out next. -/
def nextRequest (s : Network) : Conn → Option Json
  | .component => (s.component.db.sent[s.server.servedComponent]?).map Sent.request
  | .agent => (s.agent.db.sent[s.server.servedAgent]?).map Sent.request

/-- The server has carried out a request of `conn`. -/
def serve (s : Network) (conn : Conn) (uuid : CString) : Option Network := do
  let msg ← s.nextRequest conn
  let server ← s.server.carryOut conn uuid msg
  return { s with server := match conn with
    | .component => { server with servedComponent := server.servedComponent + 1 }
    | .agent => { server with servedAgent := server.servedAgent + 1 } }

/-- The component's listener reads a message. -/
def hearComponent (s : Network) : Option Network :=
  match s.server.toComponent with
  | [] => none
  | msg :: rest => (s.component.hear msg).map fun component =>
      { s with component := component, server := { s.server with toComponent := rest } }

/-- The agent's listener reads a message; the Feedback request is made on the
same thread, so the next message waits for it. -/
def hearAgent (s : Network) (ret : Int) : Option Network :=
  match s.server.toAgent with
  | [] => none
  | msg :: rest =>
      if s.agent.calls.all (·.result.isSome) then
        (s.agent.hear msg).map fun agent =>
          let s := { s with agent := agent, server := { s.server with toAgent := rest } }
          match s.agent.actsOn msg with
          | none => s
          | some tableConfig => { s with
              agent := { agent with
                calls := agent.calls ++ [.start (gwconfMonCb ret tableConfig) none] }
              acted := s.acted ++ [tableConfig.uuid] }
      else none

end Network

def networkStep (s : Network) : NetworkStep → Option Network
  | .component i =>
      if componentAllowed s.component i then
        (componentStep s.component i).map fun component => { s with component := component }
      else none
  | .agent i =>
      if agentAllowed s.agent i then
        (componentStep s.agent i).map fun agent => { s with agent := agent }
      else none
  | .serve conn uuid => s.serve conn uuid
  | .hearComponent => s.hearComponent
  | .hearAgent ret => s.hearAgent ret

/-- The network of component `cid` and the agent, which is component `agentCid`. -/
def networkMachine (cid agentCid : Nat) : Machine Network NetworkStep where
  init s := s = .start cid agentCid
  step := networkStep

/-! ## §3. Rest. -/

/-- The process is doing nothing and has been answered on all its requests. -/
structure Component.Resting (s : Component) : Prop where
  listener : s.listener = .idle
  calls : ∀ c ∈ s.calls, c.result.isSome
  monitorCalls : ∀ pc ∈ s.monitorCalls, ∃ status, pc = .returned status
  receipts : s.db.receipts = []

/-- No message is in flight and both processes rest. -/
structure Network.Quiescent (s : Network) : Prop where
  requestsComponent : s.nextRequest .component = none
  requestsAgent : s.nextRequest .agent = none
  toComponent : s.server.toComponent = []
  toAgent : s.server.toAgent = []
  component : s.component.Resting
  agent : s.agent.Resting

/-- Nothing is lost: no transaction is pending, every inserted one has been
completed, and the agent has acted on every row of the Gateway_Config table. -/
structure Network.NothingLost (s : Network) : Prop where
  pending : ∀ e, ¬ s.component.manager.table.Mem e
  completed : ∀ e, .inserted e ∈ s.component.manager.log →
    ∃ st, .completed e.addr st ∈ s.component.manager.log
  acted : ∀ uuid, (gatewayConfigTableName, uuid) ∈ s.server.given → uuid ∈ s.acted

/-- The condition of one step: a row is committed only when the process that
waits for rows of its table already has its monitor. -/
def OnTime (s : Network) (i : NetworkStep) : Prop :=
  ∀ conn uuid msg rid table row, i = .serve conn uuid → s.nextRequest conn = some msg →
    readRequest msg = some (rid, .insert table row) →
    (table = gatewayConfigTableName → ∃ sub ∈ s.server.subscriptions, sub.conn = .agent ∧
      sub.table = table) ∧
    (table = feedbackTableName → ∃ sub ∈ s.server.subscriptions, sub.conn = .component ∧
      sub.table = table)

end OvsAgent
