import Vacps.Agent.Absorbing
import Vacps.Agent.Backlog
import Vacps.Agent.Convergence
import Vacps.Agent.CursorRaces
import Vacps.Agent.Dispatch
import Vacps.Agent.CreateTrace
import Vacps.Agent.Exclusive
import Vacps.Agent.LogAppend
import Vacps.Agent.LostClaim
import Vacps.Agent.MisfireTable
import Vacps.Agent.Occurrences
import Vacps.ControlPlane.LostAck
import Vacps.ControlPlane.Orphans
import Vacps.ControlPlane.SchedulePatch
import Vacps.Agent.PatchRollback
import Vacps.Agent.PatchDryRun
import Vacps.ControlPlane.StatusRaces
import Vacps.ControlPlane.AgentNonces
import Vacps.Agent.RequestNonces
import Vacps.Agent.SignatureBinding
import Vacps.Agent.ScreenShape
import Vacps.ControlPlane.PatchRetry
import Vacps.ControlPlane.CreateRaces
import Vacps.ControlPlane.AckRedelivery
import Vacps.ControlPlane.CursorForward
import Vacps.ControlPlane.OperationReplays
import Vacps.Native.ProcessCapture
import Vacps.Native.ProcessRead
import Vacps.Agent.IdempotencyStore
import Vacps.Agent.PatchPaths
import Vacps.Native.FileOperationQueue
import Vacps.Native.HttpServer
import Vacps.Native.SplitDecoding
import Vacps.Native.StandardDecode
import Vacps.Native.CommandLine
import Vacps.Native.Base64Url
import Vacps.Native.TerminalBuffer
import Vacps.Agent.DropAccounting
import Vacps.Agent.FilesMove
import Vacps.Agent.ExpiredOutput
import Vacps.Agent.Expect
import Vacps.Agent.ByteSlices
import Vacps.Agent.WideCharacters
import Vacps.Agent.AlternateScreen
import Vacps.Agent.ResizeRollback
import Vacps.Native.DecoderReuse
import Vacps.ControlPlane.OAuthState
import Vacps.Native.AwaitOnce
import Vacps.Contracts.CronExact
import Vacps.Contracts.CronTermination
import Vacps.ControlPlane.LabelFilters
import Vacps.ControlPlane.TaskPages
import Vacps.ControlPlane.Holds
import Vacps.ControlPlane.CleanupPreview
import Vacps.ControlPlane.KeyedCreates
import Vacps.ControlPlane.RequestHashes
import Vacps.Agent.FilesEdit
import Vacps.Agent.HunkLines
import Vacps.ControlPlane.BackendRequests
import Vacps.ControlPlane.VouchedKeys
import Vacps.ControlPlane.Sessions
import Vacps.Native.FileBackends
