import OvsAgent.Lib.Machine
import OvsAgent.Lib.Shell
import OvsAgent.Lib.SlotTable
import OvsAgent.DbApi.OvsDbApi
import OvsAgent.DbApi.Requests
import OvsAgent.AgentApi.TransactionManager
import OvsAgent.AgentApi.ManagerRuns
import OvsAgent.Lib.KeyedLog
import OvsAgent.AgentApi.Accounting
import OvsAgent.AgentApi.Completion
import OvsAgent.DbApi.Steps
import OvsAgent.AgentApi.Component
import OvsAgent.AgentApi.ComponentSteps
import OvsAgent.AgentApi.FeedbackRows
import OvsAgent.AgentApi.Evictions
import OvsAgent.AgentApi.BlockSound
import OvsAgent.AgentApi.WakeUps
import OvsAgent.DbApi.OvsdbParser
import OvsAgent.DbApi.MessageLoop
import OvsAgent.Lib.Loop
import OvsAgent.Lib.CMemory
import OvsAgent.DbApi.LoopRounds
import OvsAgent.DbApi.RowArrays
import OvsAgent.Lib.Refinement
import OvsAgent.DbApi.MonUpdateList
import OvsAgent.DbApi.ReceiptList
import OvsAgent.DbApi.RoundTrip
import OvsAgent.DbApi.InsertColumns
import OvsAgent.DbApi.ReceiptSafety
import OvsAgent.DbApi.WireIds
import OvsAgent.DbApi.LayerRuns
import OvsAgent.Lib.IdLedger
import OvsAgent.DbApi.RequestIds
import OvsAgent.Lib.NodeHeap
import OvsAgent.DbApi.ReceiptNodes
import OvsAgent.DbApi.ParseStatus
import OvsAgent.Lib.Traced
import OvsAgent.OvsAction.Commands
import OvsAgent.OvsAction.OvsAction
import OvsAgent.OvsAction.Events
import OvsAgent.OvsAction.Runs
import OvsAgent.OvsAction.BridgeFlows
import OvsAgent.OvsAction.Buffers
import OvsAgent.OvsAction.ShellWords
import OvsAgent.OvsAction.Programs
import OvsAgent.OvsAction.Removal
import OvsAgent.OvsAction.BridgeTools
import OvsAgent.OvsAction.Membership
import OvsAgent.OvsAction.Placement
import OvsAgent.OvsAction.SwitchPorts
import OvsAgent.OvsAgentCore.OvsAgent
import OvsAgent.OvsAgentCore.FeedbackStatus
import OvsAgent.Parties.OvsdbServer
import OvsAgent.Parties.OrphanRows
import OvsAgent.Parties.Network
import OvsAgent.Parties.Processes
import OvsAgent.Parties.Tracking
import OvsAgent.Parties.NoLoss
import OvsAgent.Lib.History
import OvsAgent.Parties.Records
import OvsAgent.Parties.Provenance
import OvsAgent.Parties.ExactlyOnce
import OvsAgent.Parties.CleanUp
import OvsAgent.Lib.Simulation
import OvsAgent.Lib.Service
import OvsAgent.Lib.Resources
import OvsAgent.AgentApi.Lifecycle
import OvsAgent.AgentApi.Sessions
import OvsAgent.AgentApi.Releases
import OvsAgent.Lib.Progress
import OvsAgent.AgentApi.Progress
import OvsAgent.AgentApi.Shutdown
import OvsAgent.Parties.Service
