import DualeAI.Foundation.Generator
import DualeAI.Foundation.Text
import DualeAI.Foundation.LineBuffer
import DualeAI.Foundation.Retry
import DualeAI.Events.SseFraming
import DualeAI.Events.RequestDiscipline
import DualeAI.Events.StreamResume
import DualeAI.Events.TerminalOutcome
import DualeAI.Sdk.TaskBreaker
import DualeAI.Sdk.TaskDelivery
import DualeAI.Sdk.BreakerGuarantees
import DualeAI.Sdk.Cleanup
import DualeAI.Sdk.ToolIdentity
import DualeAI.Sdk.StreamDelivery
import DualeAI.Sdk.TenantIsolation
import DualeAI.Sdk.ActivityCache
import DualeAI.Sdk.ResponseModel
import DualeAI.Sdk.StartAgainstClose
import DualeAI.Events.TaskPaths
import DualeAI.Sdk.RedisClear
import DualeAI.Sdk.CacheTtl
import DualeAI.Sdk.InflightRegistry
import DualeAI.Sdk.ToolDrain
import DualeAI.Sdk.CacheInit
import DualeAI.Sdk.UploadBatch
import DualeAI.Sdk.PreparedFiles
import DualeAI.Sdk.UploadRuns
import DualeAI.Sdk.PartUpload
import DualeAI.Sdk.ActivityMemo
import DualeAI.Sdk.CascadeChains
import DualeAI.Sdk.ServerClock
import DualeAI.Sdk.HeartbeatLoop
import DualeAI.Sdk.ToolRetry
import DualeAI.Sdk.MockLibraries
import DualeAI.Events.Connecting
import DualeAI.Sdk.ResultLoading
import DualeAI.Sdk.MockAgreement
import DualeAI.Sdk.CanonicalJson
import DualeAI.Sdk.ToolResult
import DualeAI.Sdk.ToolContract
import DualeAI.Events.SseLimits
import DualeAI.Events.SseErrors
import DualeAI.Sdk.ToolRedaction
import DualeAI.Sdk.ToolConcurrency
import DualeAI.Sdk.AdmissionRuns
import DualeAI.Sdk.SharedClient
import DualeAI.Sdk.DocumentPolling
import DualeAI.Sdk.SyncToolPool
import DualeAI.Sdk.Conversation
import DualeAI.Sdk.ToolCompile
