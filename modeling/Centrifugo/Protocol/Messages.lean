import Centrifugo.Data.Map
import Centrifugo.Json.Read
import Centrifugo.Json.Utf8

/-!
# Protocol messages

The envelopes, requests, results and inner objects of the client protocol. A `Raw`
field holds opaque bytes that come from clients, tokens, proxies or publishers; a
JSON session writes them out as inline JSON, a protobuf session as a bytes field.

Numbers have the width the source gives them. A reply is generic in its result: a
handler builds one around a typed result, the codec turns that into bytes.
-/

namespace Centrifugo

open Json

/-- A payload field: its bytes, as received. -/
structure Raw where
  bytes : Bytes
  deriving DecidableEq, Inhabited

namespace Raw

def ofText (text : Text) : Raw := ⟨encodeUtf8 text⟩

/-- The text of a payload, when its bytes are UTF-8. -/
def text? (raw : Raw) : Option Text := decodeUtf8 raw.bytes

@[simp] theorem text?_ofText (text : Text) : (ofText text).text? = some text :=
  decodeUtf8_encodeUtf8 text

theorem ofText_of_text? {raw : Raw} {text : Text} (h : raw.text? = some text) :
    ofText text = raw := by
  cases raw
  exact congrArg Raw.mk (encodeUtf8_of_decodeUtf8 h)

end Raw

/-- The wire format of a connection. -/
inductive ProtocolType
  | json
  | protobuf
  deriving DecidableEq, Repr, Inhabited

inductive MethodType
  | connect
  | subscribe
  | unsubscribe
  | publish
  | presence
  | presenceStats
  | history
  | ping
  | send
  | rpc
  | refresh
  | subRefresh
  | unknown
  deriving DecidableEq, Repr

inductive PushType
  | publication
  | join
  | leave
  | unsub
  | message
  | sub
  deriving DecidableEq, Repr

def PushType.toNat : PushType → Nat
  | publication => 0
  | join => 1
  | leave => 2
  | unsub => 3
  | message => 4
  | sub => 5

/-! ## Errors and disconnects -/

/-- An error that is sent in a reply. -/
structure Error where
  code : UInt32
  message : String
  deriving DecidableEq, Repr

namespace Error

def internal : Error := ⟨100, "internal server error"⟩
def unknownChannel : Error := ⟨102, "unknown channel"⟩
def permissionDenied : Error := ⟨103, "permission denied"⟩
def methodNotFound : Error := ⟨104, "method not found"⟩
def alreadySubscribed : Error := ⟨105, "already subscribed"⟩
def limitExceeded : Error := ⟨106, "limit exceeded"⟩
def badRequest : Error := ⟨107, "bad request"⟩
def notAvailable : Error := ⟨108, "not available"⟩
def tokenExpired : Error := ⟨109, "token expired"⟩
def expired : Error := ⟨110, "expired"⟩

end Error

/-- The advice a connection is closed with. -/
structure Disconnect where
  code : UInt32
  reason : String
  reconnect : Bool
  deriving DecidableEq, Repr

namespace Disconnect

def normal : Disconnect := ⟨3000, "normal", true⟩
def shutdown : Disconnect := ⟨3001, "shutdown", true⟩
def invalidToken : Disconnect := ⟨3002, "invalid token", false⟩
def badRequest : Disconnect := ⟨3003, "bad request", false⟩
def serverError : Disconnect := ⟨3004, "internal server error", true⟩
def expired : Disconnect := ⟨3005, "expired", true⟩
def subExpired : Disconnect := ⟨3006, "subscription expired", true⟩
def stale : Disconnect := ⟨3007, "stale", false⟩
def slow : Disconnect := ⟨3008, "slow", true⟩
def writeError : Disconnect := ⟨3009, "write error", true⟩
def insufficientState : Disconnect := ⟨3010, "insufficient state", true⟩
def forceReconnect : Disconnect := ⟨3011, "force reconnect", true⟩
def forceNoReconnect : Disconnect := ⟨3012, "force disconnect", false⟩
def connectionLimit : Disconnect := ⟨3013, "connection limit", false⟩

end Disconnect

/-! ## Inner objects -/

structure ClientInfo where
  user : String
  client : String
  connInfo : Option Raw := none
  chanInfo : Option Raw := none
  deriving DecidableEq, Inhabited

/-- A publication. Its position is either in `offset` or unpacked into `seq` and
`gen`. -/
structure Publication where
  seq : UInt32 := 0
  gen : UInt32 := 0
  uid : String := ""
  data : Option Raw
  info : Option ClientInfo := none
  offset : Nat := 0
  deriving DecidableEq, Inhabited

structure Join where
  info : ClientInfo
  deriving DecidableEq

structure Leave where
  info : ClientInfo
  deriving DecidableEq

/-- An asynchronous event for a client. -/
structure Push where
  type : PushType
  channel : String
  data : Option Raw
  deriving DecidableEq

/-! ## Requests -/

structure SubscribeRequest where
  channel : String := ""
  token : String := ""
  recover : Bool := false
  seq : UInt32 := 0
  gen : UInt32 := 0
  epoch : String := ""
  offset : UInt64 := 0
  deriving DecidableEq, Inhabited

structure ConnectRequest where
  token : String := ""
  data : Option Raw := none
  name : String := ""
  version : String := ""
  subs : Map String SubscribeRequest := ∅
  deriving DecidableEq

structure PublishRequest where
  channel : String := ""
  data : Option Raw := none
  deriving DecidableEq, Inhabited

/-- The requests that name a channel and nothing else: UNSUBSCRIBE, PRESENCE,
PRESENCE_STATS and HISTORY. -/
structure ChannelRequest where
  channel : String := ""
  deriving DecidableEq, Inhabited

abbrev UnsubscribeRequest := ChannelRequest
abbrev PresenceRequest := ChannelRequest
abbrev PresenceStatsRequest := ChannelRequest
abbrev HistoryRequest := ChannelRequest

structure RefreshRequest where
  token : String := ""
  deriving DecidableEq, Inhabited

structure SubRefreshRequest where
  channel : String := ""
  token : String := ""
  deriving DecidableEq, Inhabited

structure RpcRequest where
  method : String := ""
  data : Option Raw := none
  deriving DecidableEq, Inhabited

/-! ## Results -/

structure SubscribeResult where
  expires : Bool := false
  ttl : UInt32 := 0
  recoverable : Bool := false
  seq : UInt32 := 0
  gen : UInt32 := 0
  epoch : String := ""
  publications : List Publication := []
  recovered : Bool := false
  offset : Nat := 0
  deriving DecidableEq, Inhabited

structure ConnectResult where
  client : String
  version : String
  expires : Bool
  ttl : UInt32
  data : Option Raw
  subs : Map String SubscribeResult
  deriving DecidableEq

structure HistoryResult where
  publications : List Publication
  deriving DecidableEq

structure RefreshResult where
  client : String
  version : String
  expires : Bool
  ttl : UInt32
  deriving DecidableEq

structure SubRefreshResult where
  expires : Bool
  ttl : UInt32
  deriving DecidableEq

structure PresenceResult where
  presence : Map String ClientInfo
  deriving DecidableEq

structure PresenceStatsResult where
  numClients : UInt32
  numUsers : UInt32
  deriving DecidableEq

structure RpcResult where
  data : Option Raw
  deriving DecidableEq

/-- The result object of a successful command. -/
inductive Result
  | connect (result : ConnectResult)
  | subscribe (result : SubscribeResult)
  | publish
  | unsubscribe
  | presence (result : PresenceResult)
  | presenceStats (result : PresenceStatsResult)
  | history (result : HistoryResult)
  | rpc (result : RpcResult)
  | refresh (result : RefreshResult)
  | subRefresh (result : SubRefreshResult)
  deriving DecidableEq

/-! ## Envelopes -/

structure Command where
  id : UInt32
  method : MethodType
  params : Option Raw
  deriving DecidableEq

structure Reply (ρ : Type) where
  id : UInt32
  error : Option Error
  result : Option ρ
  deriving DecidableEq

namespace Reply

variable {ρ : Type}

def ok (id : UInt32) (result : ρ) : Reply ρ := ⟨id, none, some result⟩

/-- Neither a result nor an error. -/
def bare (id : UInt32) : Reply ρ := ⟨id, none, none⟩

def err (id : UInt32) (error : Error) : Reply ρ := ⟨id, some error, none⟩

end Reply

end Centrifugo
