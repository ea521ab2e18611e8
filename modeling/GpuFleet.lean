import GpuFleet.Foundations.Table
import GpuFleet.Foundations.Prog
import GpuFleet.Foundations.Triple
import GpuFleet.Foundations.Writes
import GpuFleet.Foundations.Abreast
import GpuFleet.Foundations.Numbering
import GpuFleet.Foundations.Desk
import GpuFleet.Foundations.Taking
import GpuFleet.Foundations.Tally
import GpuFleet.Foundations.Faults
import GpuFleet.Foundations.Sessions
import GpuFleet.Foundations.History
import GpuFleet.Foundations.Budget
import GpuFleet.Foundations.Calendar
import GpuFleet.Foundations.IsoFormat
import GpuFleet.Server.Schema
import GpuFleet.Server.Statements
import GpuFleet.Server.TaskUtils
import GpuFleet.Server.TaskState
import GpuFleet.Server.NodeRuntime
import GpuFleet.Server.AdminTasks
import GpuFleet.Server.Background
import GpuFleet.Server.Auth
import GpuFleet.Server.AdminNodes
import GpuFleet.Server.TerminalAbsorb
import GpuFleet.Server.System
import GpuFleet.Server.Permitted
import GpuFleet.Server.Issued
import GpuFleet.Server.OneActive
import GpuFleet.Server.ReviewGate
import GpuFleet.Server.LlmReview
import GpuFleet.Server.ReviewCooldown
import GpuFleet.Server.ReviewAlerts
import GpuFleet.Server.Recovery
import GpuFleet.Agent.SecretStore
import GpuFleet.Agent.Fallback
import GpuFleet.Server.HonestAgent
import GpuFleet.Server.Chronology
import GpuFleet.Server.NodePolicy
import GpuFleet.Server.Rejections
import GpuFleet.Server.ReplayGuard
import GpuFleet.Server.Decisions
import GpuFleet.Server.Kinds
import GpuFleet.Server.Outcomes
import GpuFleet.Server.Results
import GpuFleet.Server.Lifecycle
import GpuFleet.Server.Attempts
import GpuFleet.Server.NodeUpdates
import GpuFleet.Server.StatusHistory
import GpuFleet.Server.LogStore
import GpuFleet.Server.TaskLogs
import GpuFleet.Foundations.Transfer
import GpuFleet.Foundations.Utf8
import GpuFleet.Agent.LogPump
import GpuFleet.Agent.LogBytes
import GpuFleet.Foundations.JsonText
import GpuFleet.Foundations.JsonWriter
import GpuFleet.Foundations.Strict
import GpuFleet.Agent.StateFiles
import GpuFleet.Agent.ApiClient
import GpuFleet.Server.Webhook
import GpuFleet.Server.LatestStatus
import GpuFleet.Server.ScanPass
import GpuFleet.Server.Notifications
import GpuFleet.Server.Metrics
import GpuFleet.Server.ClaimLatency
import GpuFleet.Agent.Telemetry
import GpuFleet.Frontend.CreateCall
import GpuFleet.Server.ListTasks
import GpuFleet.Foundations.SqlTime
import GpuFleet.Foundations.IsoBounds
import GpuFleet.Server.ConnectionStatus
import GpuFleet.Server.Connectivity
import GpuFleet.Foundations.Rely
import GpuFleet.Foundations.Paths
import GpuFleet.Foundations.FileTree
import GpuFleet.Server.AdminAuth
import GpuFleet.Server.Artifacts
import GpuFleet.Server.Quota
import GpuFleet.Server.StoragePaths
import GpuFleet.Server.Workdirs
import GpuFleet.Agent.NativeTasks
import GpuFleet.Server.Storage
import GpuFleet.Server.NodeRows
import GpuFleet.Server.Footprint
import GpuFleet.Server.LogRows
import GpuFleet.Server.Retention
import GpuFleet.Server.TimeFilters
import GpuFleet.Server.Security
import GpuFleet.Server.Secrets
import GpuFleet.Server.KeyMigration
import GpuFleet.Server.OnboardingToken
import GpuFleet.Foundations.PercentCoding
import GpuFleet.Frontend.Routing
import GpuFleet.Foundations.FirstMax
import GpuFleet.Frontend.Lttb
import GpuFleet.Frontend.SmoothFeeder
import GpuFleet.Frontend.ListMerge
import GpuFleet.Foundations.OffsetPages
import GpuFleet.Frontend.AllNodes
import GpuFleet.Frontend.ConsoleStore
import GpuFleet.Server.StatusGauges
import GpuFleet.Server.KeyFailures
import GpuFleet.Server.CursorErrors
import GpuFleet.Agent.Executor
import GpuFleet.Agent.Dispatcher
import GpuFleet.Agent.ActiveTask
import GpuFleet.Agent.Completion
import GpuFleet.Agent.Crashes
import GpuFleet.Agent.Shutdown
import GpuFleet.Agent.TwoPaths
import GpuFleet.Agent.Starts
import GpuFleet.Server.Isolation
import GpuFleet.Server.Dispatch
import GpuFleet.Server.AtMostOnce
import GpuFleet.Foundations.Stably
import GpuFleet.Server.ForeignKeys
import GpuFleet.Server.Cascade
import GpuFleet.Server.AuditTrail
import GpuFleet.Fleet.Execution
