import HkuRest.Core.Bytes
import HkuRest.Core.ChunkedCoding
import HkuRest.Core.TokenBucket
import HkuRest.Core.Metering
import HkuRest.Core.Transition
import HkuRest.Core.Noninterference
import HkuRest.Core.Recasing
import HkuRest.Core.Pool
import HkuRest.Core.Claims
import HkuRest.Core.Fifo
import HkuRest.Core.Semaphore
import HkuRest.Core.Segments
import HkuRest.Core.Lease
import HkuRest.Core.EventStream
import HkuRest.Core.DeadlineTimer
import HkuRest.Core.Delimited
import HkuRest.Core.Utf8
import HkuRest.Core.BitPrefix
import HkuRest.Core.Base64
import HkuRest.Core.PercentCoding
import HkuRest.Core.Checks
import HkuRest.Core.Trimming
import HkuRest.Core.ByteReads
import HkuRest.Core.Divided
import HkuRest.Httpd.RateLimit
import HkuRest.Httpd.RateLimitProofs
import HkuRest.Httpd.RateLimitService
import HkuRest.Httpd.RateLimitIsolation
import HkuRest.Httpd.RateLimitWhitelist
import HkuRest.Httpd.RateLimitTokens
import HkuRest.Httpd.RateLimitRejections
import HkuRest.Httpd.RateLimitDoubles
import HkuRest.Httpd.RateLimitStatistics
import HkuRest.Httpd.RateLimitDivisions
import HkuRest.Httpd.ConnectionManager
import HkuRest.Httpd.ManagerSteps
import HkuRest.Httpd.PermitAccounting
import HkuRest.Httpd.PermitBound
import HkuRest.Httpd.LostWakeup
import HkuRest.Httpd.PermitIds
import HkuRest.Httpd.ConnectionPermits
import HkuRest.Httpd.Shutdown
import HkuRest.Httpd.WaitQueue
import HkuRest.Httpd.WaitingCount
import HkuRest.Httpd.WaitOutcome
import HkuRest.Httpd.Beast
import HkuRest.Httpd.HttpHandle
import HkuRest.Httpd.AccessControl
import HkuRest.Httpd.CidrGrammar
import HkuRest.Httpd.CidrSubnets
import HkuRest.Httpd.AccessVerdict
import HkuRest.Httpd.Router
import HkuRest.Httpd.RouteTables
import HkuRest.Httpd.Connection
import HkuRest.Httpd.FastPath
import HkuRest.Httpd.UpgradeRequests
import HkuRest.Httpd.Turns
import HkuRest.Httpd.ClientAccess
import HkuRest.Httpd.ChunkedWrites
import HkuRest.Httpd.ChunkRoundTrip
import HkuRest.Httpd.KeepAlive
import HkuRest.Httpd.ResponseHeaders
import HkuRest.Httpd.BodyFraming
import HkuRest.Httpd.ResponseFraming
import HkuRest.Httpd.PlainResponse
import HkuRest.Httpd.StreamedResponse
import HkuRest.Httpd.KeepAliveResponses
import HkuRest.Httpd.TlsWrites
import HkuRest.Httpd.AlpnSelection
import HkuRest.Httpd.TlsShutdown
import HkuRest.Httpd.Pipelining
import HkuRest.Httpd.WebSocketConnection
import HkuRest.Httpd.PingLifetime
import HkuRest.Httpd.WebSocketPermits
import HkuRest.Httpd.WebSocketBatches
import HkuRest.Httpd.WebSocketIo
import HkuRest.Httpd.WebSocketTimeouts
import HkuRest.Httpd.WebSocketWrites
import HkuRest.Httpd.ReadDeadline
import HkuRest.Httpd.WriteQueue
import HkuRest.Httpd.MessageValidation
import HkuRest.Httpd.MessageReads
import HkuRest.Httpd.AcceptLoop
import HkuRest.Httpd.StartFailure
import HkuRest.Httpd.ProbeConnection
import HkuRest.Httpd.QueryParams
import HkuRest.Httpd.QueryReference
import HkuRest.Httpd.QueryRoundTrip
import HkuRest.Httpd.WorkerThreads
import HkuRest.Mcp.Json
import HkuRest.Httpd.RestHandle
import HkuRest.Httpd.ErrorResponses
import HkuRest.Httpd.ContentNegotiation
import HkuRest.Mcp.SessionManager
import HkuRest.Mcp.SessionEntries
import HkuRest.Mcp.SessionCalls
import HkuRest.Mcp.SessionBound
import HkuRest.Mcp.ToolHistory
import HkuRest.Mcp.ToolDescriptions
import HkuRest.Mcp.ToolSchemas
import HkuRest.Mcp.Descriptions
import HkuRest.Mcp.McpHandle
import HkuRest.Mcp.RequestChecks
import HkuRest.Mcp.SessionRecords
import HkuRest.Mcp.SessionExpiry
import HkuRest.Mcp.BuiltinMethods
import HkuRest.Mcp.SessionGate
import HkuRest.Mcp.SessionIsolation
import HkuRest.Mcp.SessionHistory
import HkuRest.Mcp.ServiceMethods
import HkuRest.Mcp.ToolMethods
import HkuRest.Mcp.HistoryTool
import HkuRest.Mcp.SessionSweeps
import HkuRest.Httpd.HeaderNames
import HkuRest.Httpd.ClientIp
import HkuRest.Mcp.McpReplies
import HkuRest.Mcp.McpError
import HkuRest.Httpd.ErrorModules
import HkuRest.Mcp.EventStreamAnswers
import HkuRest.Mcp.BodyAnswers
import HkuRest.Mcp.ProgressStreams
import HkuRest.Mqtt.ConnectionPool
import HkuRest.Mqtt.Listeners
import HkuRest.Mqtt.MqttBroker
import HkuRest.Core.HeaderBlock
import HkuRest.Httpd.WireFormat
import HkuRest.Httpd.FinishedResponses
import HkuRest.Httpd.ConnectionReplies
import HkuRest.Httpd.PlainConversation
import HkuRest.Httpd.RestConversation
import HkuRest.Core.Leases
import HkuRest.Mcp.SessionLeases
import HkuRest.Mcp.McpConversation
