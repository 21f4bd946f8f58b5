import BuildWatch.Base64
import BuildWatch.CommandLine.Arguments
import BuildWatch.CommandLine.Commands
import BuildWatch.CommandLine.Style
import BuildWatch.Configuration.Basic
import BuildWatch.Configuration.Printer
import BuildWatch.Configuration.Reader
import BuildWatch.Container.Docker
import BuildWatch.Container.PortTable
import BuildWatch.Container.Resolution
import BuildWatch.Container.Runtime
import BuildWatch.Coordinator.Batches
import BuildWatch.Coordinator.Builds
import BuildWatch.Coordinator.Machine
import BuildWatch.Coordinator.Notification
import BuildWatch.Coordinator.Service
import BuildWatch.Coordinator.State
import BuildWatch.Coordinator.Update
import BuildWatch.Daemon.Request
import BuildWatch.Daemon.Response
import BuildWatch.Daemon.Server
import BuildWatch.Daemon.Services
import BuildWatch.Decimal.Binary64
import BuildWatch.Decimal.Shortest
import BuildWatch.Failure
import BuildWatch.Files.Path
import BuildWatch.Files.System
import BuildWatch.Files.Tree
import BuildWatch.Handler.Basic
import BuildWatch.Handler.Builtin
import BuildWatch.Handler.Lifecycle
import BuildWatch.Handler.Registry
import BuildWatch.Json.Document
import BuildWatch.Json.Parser
import BuildWatch.Json.Printer
import BuildWatch.Json.Reader
import BuildWatch.Json.Value
import BuildWatch.Main
import BuildWatch.Project.Capabilities
import BuildWatch.Project.ChangeEvent
import BuildWatch.Project.Info
import BuildWatch.Project.InfoDirectory
import BuildWatch.Project.Payload
import BuildWatch.Project.Settings
import BuildWatch.Rehearsal.Alarms
import BuildWatch.Rehearsal.Coordinator
import BuildWatch.Rehearsal.Daemon
import BuildWatch.Rehearsal.World
import BuildWatch.Table
import BuildWatch.Tasks.Alarms
import BuildWatch.Tasks.Executor
import BuildWatch.Tasks.Locks
import BuildWatch.Tasks.System
import BuildWatch.Tasks.Timers
import BuildWatch.Text.Blank
import BuildWatch.Text.Utf8
import BuildWatch.Toml.Document
import BuildWatch.Toml.Parser
import BuildWatch.Toml.Printer
import BuildWatch.Toml.Scalar
import BuildWatch.Toml.Text
import BuildWatch.Zlib.Adler
import BuildWatch.Zlib.Deflate
import BuildWatch.Zlib.Huffman
import BuildWatch.Zlib.Inflate
import BuildWatch.Proofs.Histories
import BuildWatch.Proofs.Bytes
import BuildWatch.Proofs.Text.Utf8
import BuildWatch.Proofs.Text.Decoding
import BuildWatch.Proofs.Text.ByteOrder
import BuildWatch.Proofs.Base64
import BuildWatch.Proofs.Json.Tokens
import BuildWatch.Proofs.Json.Spelling
import BuildWatch.Proofs.Json.Written
import BuildWatch.Proofs.Json.Indented
import BuildWatch.Proofs.Json.OneLine
import BuildWatch.Proofs.Json.Maps
import BuildWatch.Proofs.Json.FreeValues
import BuildWatch.Proofs.Json.Members
import BuildWatch.Proofs.Json.Reading
import BuildWatch.Proofs.Zlib.Steps
import BuildWatch.Proofs.Zlib.Room
import BuildWatch.Proofs.Zlib.Stored
import BuildWatch.Proofs.Files.Tree
import BuildWatch.Proofs.Project.FileNames
import BuildWatch.Proofs.Project.Payload
import BuildWatch.Proofs.Project.PayloadLimit
import BuildWatch.Proofs.Project.Record
import BuildWatch.Proofs.Project.RecordTexts
import BuildWatch.Proofs.Project.InfoDirectory
import BuildWatch.Proofs.Project.AppliedSettings
import BuildWatch.Proofs.Project.SettingsFields
import BuildWatch.Proofs.Project.WrittenSettings
import BuildWatch.Proofs.Container.Resolution
import BuildWatch.Proofs.Container.ReportedPorts
import BuildWatch.Proofs.Container.NotedCalls
import BuildWatch.Proofs.Handler.CallOrder
import BuildWatch.Proofs.Handler.RegistryChanges
import BuildWatch.Proofs.Handler.Dispatch
import BuildWatch.Proofs.Handler.Advertising
import BuildWatch.Proofs.Tasks.Turns
import BuildWatch.Proofs.Tasks.Locks
import BuildWatch.Proofs.Tasks.Claims
import BuildWatch.Proofs.Tasks.Exclusion
import BuildWatch.Proofs.Tasks.Acquisitions
import BuildWatch.Proofs.Tasks.AlarmRuns
import BuildWatch.Proofs.Tasks.AlarmSteps
import BuildWatch.Proofs.Tasks.AlarmTraces
import BuildWatch.Proofs.Tasks.AlarmFirings
import BuildWatch.Proofs.Tasks.AlarmProgress
import BuildWatch.Proofs.Tasks.Settling
import BuildWatch.Proofs.Tasks.AlarmExecution
import BuildWatch.Proofs.Tasks.AlarmLaw
import BuildWatch.Proofs.Coordinator.Runs
import BuildWatch.Proofs.Coordinator.Soundness
import BuildWatch.Proofs.Coordinator.View
import BuildWatch.Proofs.Coordinator.Simulation
import BuildWatch.Proofs.Coordinator.RunViews
import BuildWatch.Proofs.Coordinator.FollowUps
import BuildWatch.Proofs.Coordinator.Guards
import BuildWatch.Proofs.Coordinator.Progress
import BuildWatch.Proofs.Coordinator.Queueing
import BuildWatch.Proofs.Coordinator.Execution
import BuildWatch.Proofs.Coordinator.QuietPeriods
import BuildWatch.Proofs.Coordinator.BuildTasks
import BuildWatch.Proofs.Coordinator.Costs
import BuildWatch.Proofs.Coordinator.Rest
import BuildWatch.Proofs.Coordinator.Operations
import BuildWatch.Proofs.Coordinator.Rehearsal
import BuildWatch.Proofs.Coordinator.Isolation
import BuildWatch.Proofs.Coordinator.KeptCountdowns
import BuildWatch.Proofs.Coordinator.Expiries
import BuildWatch.Proofs.Coordinator.PromptRuns
import BuildWatch.Proofs.Coordinator.Countdowns
import BuildWatch.Proofs.Coordinator.Intake
import BuildWatch.Proofs.Coordinator.IntakeRuns
import BuildWatch.Proofs.Coordinator.Dispatches
import BuildWatch.Proofs.Coordinator.OneBatch
import BuildWatch.Proofs.Coordinator.Succession
import BuildWatch.Proofs.Coordinator.ArrivalOrders
import BuildWatch.Proofs.Coordinator.QuietLaw
import BuildWatch.Proofs.Coordinator.Refusals
import BuildWatch.Proofs.Coordinator.SettingsBatches
import BuildWatch.Proofs.Coordinator.SettingsTurns
import BuildWatch.Proofs.Coordinator.SettingsFiles
import BuildWatch.Proofs.Coordinator.RequiredMarks
import BuildWatch.Proofs.Coordinator.BatchCalls
import BuildWatch.Proofs.Coordinator.ChunkCounts
import BuildWatch.Proofs.Coordinator.BuildCalls
import BuildWatch.Proofs.Daemon.Lines
import BuildWatch.Proofs.Daemon.Replies
import BuildWatch.Proofs.Daemon.Serving
import BuildWatch.Proofs.Daemon.Updates
