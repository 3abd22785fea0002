import Sparkplane.Table
import Sparkplane.Batch
import Sparkplane.Prog
import Sparkplane.Wire
import Sparkplane.State
import Sparkplane.Tokens
import Sparkplane.Instances
import Sparkplane.StateSound
import Sparkplane.RecoverySound
import Sparkplane.Actor
import Sparkplane.LogSound
import Sparkplane.FleetSound
import Sparkplane.IntentSound
import Sparkplane.Effects
import Sparkplane.Serving
import Sparkplane.Access
import Sparkplane.Models
import Sparkplane.Agent
import Sparkplane.AuthSound
import Sparkplane.Footprint
import Sparkplane.AdmissionSound
import Sparkplane.StopSound
import Sparkplane.CancelSound
import Sparkplane.ConfineSound
import Sparkplane.Alone
import Sparkplane.IdempotencySound
import Sparkplane.RemovalSound
import Sparkplane.DownloadSound
import Sparkplane.EmergencySound
import Sparkplane.CreditSound
import Sparkplane.TokenSound
import Sparkplane.CrashSound
import Sparkplane.QuarantineSound
import Sparkplane.Cell
import Sparkplane.RouteSound
import Sparkplane.CancelRegistry
import Sparkplane.Journal
import Sparkplane.ReconcileSound
import Sparkplane.RestartSound
import Sparkplane.Ledger
import Sparkplane.LedgerSound
import Sparkplane.SessionSound
import Sparkplane.Gateway
import Sparkplane.ImageHistory
import Sparkplane.ImageHistorySound
import Sparkplane.ImageReaderSound
import Sparkplane.Responses
import Sparkplane.Anthropic
import Sparkplane.InstructionSound
import Sparkplane.Value
import Sparkplane.Exchange
import Sparkplane.ToolOrderSound
import Sparkplane.TableView
import Sparkplane.Encoders
import Sparkplane.Turn
import Sparkplane.TurnSound
import Sparkplane.ResponsesTurnSound
import Sparkplane.AnthropicTurnSound
import Sparkplane.StreamSound
import Sparkplane.ColumnsSound
import Sparkplane.SnapshotSound
import Sparkplane.Permits
import Sparkplane.InferenceSlots
import Sparkplane.SharedSnapshotSound
import Sparkplane.IpcClient
import Sparkplane.CacheNames
import Sparkplane.EngineLogs
import Sparkplane.Path
import Sparkplane.ReplaySound
import Sparkplane.Ending
import Sparkplane.ServeEndSound
import Sparkplane.Web
import Sparkplane.WebSound
import Sparkplane.Routing
import Sparkplane.Routes
import Sparkplane.Crash
import Sparkplane.Saga
import Sparkplane.Migration
import Sparkplane.MigrationSound
import Sparkplane.MigrationHost
import Sparkplane.MigrationFence
import Sparkplane.Monitor
import Sparkplane.MonitorSound
import Sparkplane.GuardSound
import Sparkplane.RebootSound
import Sparkplane.GeneratedFiles
import Sparkplane.GeneratedSound
import Sparkplane.GeneratedRecovery
import Sparkplane.Startup
import Sparkplane.CertificateRotation
import Sparkplane.EventsSound
