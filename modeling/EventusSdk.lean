import EventusSdk.Lib.Prog
import EventusSdk.Lib.Follows
import EventusSdk.Lib.Related
import EventusSdk.Lib.Transition
import EventusSdk.Lib.Simulation
import EventusSdk.Lib.Pool
import EventusSdk.Lib.Noninterference
import EventusSdk.Lib.History
import EventusSdk.Lib.Dict
import EventusSdk.Lib.TtlMap
import EventusSdk.Lib.Log
import EventusSdk.Lib.Traversal
import EventusSdk.Lib.Backoff
import EventusSdk.Lib.JsonText
import EventusSdk.Lib.JsonTokens
import EventusSdk.Lib.Lines
import EventusSdk.Lib.Records
import EventusSdk.Lib.Interp
import EventusSdk.Lib.Recorded
import EventusSdk.Lib.Surfacing
import EventusSdk.Events
import EventusSdk.Router
import EventusSdk.RouterGraph
import EventusSdk.Dispatcher
import EventusSdk.FirstMatch
import EventusSdk.Visits
import EventusSdk.FilterResults
import EventusSdk.Payloads
import EventusSdk.Injection
import EventusSdk.Comparison
import EventusSdk.Magic
import EventusSdk.Combinators
import EventusSdk.Middleware
import EventusSdk.Boundary
import EventusSdk.FailedFeeds
import EventusSdk.Attempts
import EventusSdk.MemoryStorage
import EventusSdk.Garbage
import EventusSdk.Stores
import EventusSdk.Cursors
import EventusSdk.Dedup
import EventusSdk.Redelivery
import EventusSdk.Accounts
import EventusSdk.Facades
import EventusSdk.Coercion
import EventusSdk.Signing
import EventusSdk.Receiver
import EventusSdk.Body
import EventusSdk.Webhook
import EventusSdk.Replay
import EventusSdk.WebhookDelivery
import EventusSdk.StreamSource
import EventusSdk.Resume
import EventusSdk.Reconnect
import EventusSdk.StreamBackoff
import EventusSdk.Frames
import EventusSdk.Sse
import EventusSdk.SseLayout
import EventusSdk.SseSource
import EventusSdk.WsSource
import EventusSdk.Polling
import EventusSdk.Confirm
import EventusSdk.Pacing
import EventusSdk.PollingSleep
import EventusSdk.EscapeHatch
import EventusSdk.Supervisor
import EventusSdk.Stop
import EventusSdk.Restart
import EventusSdk.Siblings
import EventusSdk.Supervised
import EventusSdk.Client
import EventusSdk.Models
import EventusSdk.Operations
import EventusSdk.Management
import EventusSdk.OperationErrors
import EventusSdk.Queue
