import Centrifugo.Data.Log
import Centrifugo.Data.Run
import Centrifugo.Core.Client.Deadline
import Centrifugo.Core.Client.Recovery
import Centrifugo.Core.Client.Rollback
import Centrifugo.Core.Fanout
import Centrifugo.Server.Framing
import Centrifugo.Server.Loop
import Centrifugo.Core.Fanout.Gap
import Centrifugo.Server.JoinLeave
import Centrifugo.Server.Sockjs
import Centrifugo.Core.Control
import Centrifugo.Core.Hub.Overlap
import Centrifugo.Data.Task
import Centrifugo.Server.Access
import Centrifugo.Server.Job
import Centrifugo.Server.System
import Centrifugo.Server.Course
import Centrifugo.Server.Seats
import Centrifugo.Server.Registry
import Centrifugo.Server.Index
import Centrifugo.Server.Authorization
import Centrifugo.Server.ConnectionLimit
import Centrifugo.Server.Delivery
import Centrifugo.Server.Signals
import Centrifugo.Server.SlowConsumer
import Centrifugo.Proto.Wire
import Centrifugo.Proto.Message
import Centrifugo.Protocol.Wire
import Centrifugo.Protocol.Uvarint
import Centrifugo.Redis.Store
import Centrifugo.Redis.Control
import Centrifugo.Redis.Engine
import Centrifugo.Redis.Keys
import Centrifugo.Redis.Presence
import Centrifugo.Redis.Stream
import Centrifugo.Redis.Live
import Centrifugo.Redis.Recovery
import Centrifugo.Redis.Equivalence
import Centrifugo.Redis.Subscriber
import Centrifugo.Redis.Bus
import Centrifugo.Redis.Cluster
import Centrifugo.Redis.Membership
import Centrifugo.Api.Batch
import Centrifugo.Api.Agreement
import Centrifugo.Server.Routed
import Centrifugo.Server.Unsubscribe
import Centrifugo.Server.Dialogue
import Centrifugo.Core.Client.Position
import Centrifugo.Core.Client.Personal
import Centrifugo.Core.Client.Ranges
import Centrifugo.Protocol.Convert
import Centrifugo.Protocol.Commands
import Centrifugo.Protocol.Frames
import Centrifugo.Protocol.Requests
import Centrifugo.Json.Number
import Centrifugo.Json.Value
import Centrifugo.Auth.Claims
import Centrifugo.Server.Unknown
import Centrifugo.Data.Lapse
import Centrifugo.Core.Memory.Timeline
import Centrifugo.Server.Writer
import Centrifugo.Core.Client.Transport
import Centrifugo.Server.Drivers
import Centrifugo.Server.Confirmed
import Centrifugo.Server.Origin
import Centrifugo.Server.Admin
import Centrifugo.Server.CloseFrame
import Centrifugo.Server.Precedence
import Centrifugo.Server.Startup
import Centrifugo.Server.Namespaces
import Centrifugo.Server.ProxyHttp
import Centrifugo.Server.Endpoints
import Centrifugo.Server.CurrentUser
import Centrifugo.Server.Deliverable
import Centrifugo.Server.Vouched
import Centrifugo.Server.Renewal
import Centrifugo.Server.Gate
import Centrifugo.Auth.Generate
