import Centrifugo.Api.Node
import Centrifugo.Json.Struct
import Centrifugo.Protocol.Framing
import Centrifugo.Protocol.Wire

/-!
# Messages of the API

The requests and replies of the API in their two formats. JSON requests hold values in their
own texts. A result is one value with two encodings; how a number of 64 bits is printed is
left to the caller.
-/

namespace Centrifugo

open Json Proto

inductive ApiMethod
  | publish
  | broadcast
  | unsubscribe
  | disconnect
  | presence
  | presenceStats
  | history
  | historyRemove
  | channels
  | info
  | rpc
  deriving DecidableEq

namespace ApiMethod

def name : ApiMethod → String
  | publish => "publish"
  | broadcast => "broadcast"
  | unsubscribe => "unsubscribe"
  | disconnect => "disconnect"
  | presence => "presence"
  | presenceStats => "presence_stats"
  | history => "history"
  | historyRemove => "history_remove"
  | channels => "channels"
  | info => "info"
  | rpc => "rpc"

/-- In the order of their numbers. -/
def all : List ApiMethod :=
  [publish, broadcast, unsubscribe, disconnect, presence, presenceStats, history, historyRemove,
    channels, info, rpc]

def ofName (name : String) : Option ApiMethod := all.find? fun method => method.name = name

def tryFrom (number : UInt32) : Option ApiMethod := all[number.toNat]?

@[simp] theorem ofName_name (method : ApiMethod) : ofName method.name = some method := by
  cases method <;> rfl

end ApiMethod

def Error.namespaceNotFound : Error := ⟨102, "namespace not found"⟩

/-! ## JSON -/

structure ApiCommand where
  id : UInt32 := 0
  method : String := ""
  params : Option RawValue := none
  deriving DecidableEq

structure ApiReply where
  id : UInt32
  error : Option Error
  result : Option RawValue
  deriving DecidableEq

def decodeString (value : RawValue) : Option String := value.toText?.map String.ofList

/-- A text that is empty when it is absent. -/
def textField : Option RawValue → Option String := Codec.decodeOr "" decodeString

/-- A list of texts that is empty when it is absent. -/
def textsField : Option RawValue → Option (List String) :=
  Codec.decodeOr [] fun value => (readArray value.text).bind (List.mapM decodeString)

/-- A value in its own text. Absent and `null` are the same. -/
def rawField : Option RawValue → Option (Option RawValue) := Codec.decodeOption some

def ApiCommand.decode (value : RawValue) : Option ApiCommand := do
  match ← readStruct ["id", "method", "params"] value.text with
  | [id, method, params] =>
      some {
        id := ← Codec.decodeOr 0 Codec.decodeU32 id
        method := ← textField method
        params := ← rawField params }
  | _ => none

def ApiReply.toJson (reply : ApiReply) : RawValue :=
  .object (skipIf (reply.id == 0) "id" (u32 reply.id) ++
    (reply.error.toList.map fun error => ("error", error.toJson)) ++
    reply.result.toList.map fun result => ("result", result))

structure PublishReq where
  channel : String := ""
  data : Option RawValue := none

structure BroadcastReq where
  channels : List String := []
  data : Option RawValue := none

structure ChannelReq where
  channel : String := ""

structure UnsubscribeReq where
  user : String := ""
  channel : String := ""

structure DisconnectReq where
  user : String := ""

structure RpcReq where
  method : String := ""

/-- The parameters of a command by name. Without parameters all of them are absent. -/
def fieldsOf (names : List String) : Option RawValue → Option (List (Option RawValue))
  | none => some (names.map fun _ => none)
  | some params => readStruct names params.text

namespace PublishReq

def parse (params : Option RawValue) : Option PublishReq := do
  match ← fieldsOf ["channel", "data"] params with
  | [channel, data] => some { channel := ← textField channel, data := ← rawField data }
  | _ => none

end PublishReq

namespace BroadcastReq

def parse (params : Option RawValue) : Option BroadcastReq := do
  match ← fieldsOf ["channels", "data"] params with
  | [channels, data] => some { channels := ← textsField channels, data := ← rawField data }
  | _ => none

end BroadcastReq

/-- A struct whose only field is a text. -/
def parseText (name : String) (params : Option RawValue) : Option String := do
  match ← fieldsOf [name] params with
  | [field] => textField field
  | _ => none

def ChannelReq.parse (params : Option RawValue) : Option ChannelReq :=
  (parseText "channel" params).map ChannelReq.mk

def DisconnectReq.parse (params : Option RawValue) : Option DisconnectReq :=
  (parseText "user" params).map DisconnectReq.mk

def RpcReq.parse (params : Option RawValue) : Option RpcReq :=
  (parseText "method" params).map RpcReq.mk

def UnsubscribeReq.parse (params : Option RawValue) : Option UnsubscribeReq := do
  match ← fieldsOf ["user", "channel"] params with
  | [user, channel] => some { user := ← textField user, channel := ← textField channel }
  | _ => none

/-! ## Protobuf -/

namespace ApiPb

structure Command where
  id : UInt32 := 0
  method : UInt32 := 0
  params : Bytes := []
  deriving DecidableEq

structure PublishRequest where
  channel : String := ""
  data : Bytes := []
  deriving DecidableEq

structure BroadcastRequest where
  channels : List String := []
  data : Bytes := []
  deriving DecidableEq

structure UnsubscribeRequest where
  channel : String := ""
  user : String := ""
  deriving DecidableEq

structure DisconnectRequest where
  user : String := ""
  deriving DecidableEq

/-- The requests that name a channel and nothing else. -/
structure ChannelRequest where
  channel : String := ""
  deriving DecidableEq

structure RpcRequest where
  method : String := ""
  params : Bytes := []
  deriving DecidableEq

structure Publication where
  uid : String := ""
  data : Bytes := []
  info : Option Pb.ClientInfo := none
  deriving DecidableEq

structure Metrics where
  interval : F64
  items : List (String × F64)
  deriving DecidableEq

structure NodeResult where
  uid : String
  name : String
  version : String
  numClients : UInt32
  numUsers : UInt32
  numChannels : UInt32
  uptime : UInt32
  metrics : Option Metrics
  deriving DecidableEq

instance : Message Command where
  empty := {}
  fields c := Field.uint 1 c.id.toNat ++ Field.uint 2 c.method.toNat ++ Field.blob 3 c.params
  merge c field := match field.tag with
    | 1 => do
        let id ← field.value.toUInt32?
        some { c with id := id }
    | 2 => do
        let method ← field.value.toUInt32?
        some { c with method := method }
    | 3 => do
        let params ← field.value.toBlob?
        some { c with params := params }
    | _ => some c

instance : Message PublishRequest where
  empty := {}
  fields r := Field.text 1 r.channel ++ Field.blob 2 r.data
  merge r field := match field.tag with
    | 1 => do
        let channel ← field.value.toText?
        some { r with channel := channel }
    | 2 => do
        let data ← field.value.toBlob?
        some { r with data := data }
    | _ => some r

instance : Message BroadcastRequest where
  empty := {}
  fields r := Field.texts 1 r.channels ++ Field.blob 2 r.data
  merge r field := match field.tag with
    | 1 => do
        let channel ← field.value.toText?
        some { r with channels := r.channels ++ [channel] }
    | 2 => do
        let data ← field.value.toBlob?
        some { r with data := data }
    | _ => some r

instance : Message UnsubscribeRequest where
  empty := {}
  fields r := Field.text 1 r.channel ++ Field.text 2 r.user
  merge r field := match field.tag with
    | 1 => do
        let channel ← field.value.toText?
        some { r with channel := channel }
    | 2 => do
        let user ← field.value.toText?
        some { r with user := user }
    | _ => some r

instance : Message DisconnectRequest where
  empty := {}
  fields r := Field.text 1 r.user
  merge r field := match field.tag with
    | 1 => do
        let user ← field.value.toText?
        some { r with user := user }
    | _ => some r

instance : Message ChannelRequest where
  empty := {}
  fields r := Field.text 1 r.channel
  merge r field := match field.tag with
    | 1 => do
        let channel ← field.value.toText?
        some { r with channel := channel }
    | _ => some r

instance : Message RpcRequest where
  empty := {}
  fields r := Field.text 1 r.method ++ Field.blob 2 r.params
  merge r field := match field.tag with
    | 1 => do
        let method ← field.value.toText?
        some { r with method := method }
    | 2 => do
        let params ← field.value.toBlob?
        some { r with params := params }
    | _ => some r

/-! ### Fields of results -/

/-- The eight bytes of a number, the lowest first. -/
def fixed64 (n : UInt64) : Bytes :=
  (List.range 8).map fun i => UInt8.ofNat (n.toNat / 256 ^ i)

/-- Zero with either sign is left out. -/
def isZero (n : F64) : Bool := n.toNat % 2 ^ 63 = 0

def double (tag : Nat) (n : F64) : List Field :=
  if isZero n then [] else [⟨tag, .fixed64 (fixed64 n)⟩]

/-- A message that is given as its fields. -/
def inner (tag : Nat) (fields : List Field) : Field := ⟨tag, .bytes (write fields)⟩

def Publication.fields (p : Publication) : List Field :=
  Field.text 1 p.uid ++ Field.blob 2 p.data ++ Field.embedded 3 p.info

/-- An entry of a map leaves out a key or a value that is the default. -/
def presenceEntry (entry : String × Pb.ClientInfo) : Field :=
  inner 1 (Field.text 1 entry.1 ++
    if entry.2 = {} then [] else Field.embedded 2 (some entry.2))

def Metrics.fields (m : Metrics) : List Field :=
  double 1 m.interval ++
    m.items.map fun entry => inner 2 (Field.text 1 entry.1 ++ double 2 entry.2)

def NodeResult.fields (n : NodeResult) : List Field :=
  Field.text 1 n.uid ++ Field.text 2 n.name ++ Field.text 3 n.version ++
    Field.uint 4 n.numClients.toNat ++ Field.uint 5 n.numUsers.toNat ++
    Field.uint 6 n.numChannels.toNat ++ Field.uint 7 n.uptime.toNat ++
    n.metrics.toList.map fun metrics => inner 8 metrics.fields

end ApiPb

/-! ## Results -/

/-- What a successful call tells. -/
inductive ApiResult
  | presence (presence : List (String × Pb.ClientInfo))
  | presenceStats (numClients numUsers : UInt32)
  | history (publications : List ApiPb.Publication)
  | channels (channels : List String)
  | info (nodes : List ApiPb.NodeResult)
  deriving DecidableEq

/-- As a protobuf message. -/
def ApiResult.encodeToVec : ApiResult → Bytes
  | presence entries => write (entries.map ApiPb.presenceEntry)
  | presenceStats clients users =>
      write (Field.uint 1 clients.toNat ++ Field.uint 2 users.toNat)
  | history publications => write (publications.map fun p => ApiPb.inner 1 p.fields)
  | channels names => write (Field.texts 1 names)
  | info nodes => write (nodes.map fun n => ApiPb.inner 1 n.fields)

/-- A publication as the API gives it: no position. -/
structure ApiPublication where
  uid : String
  data : Option Raw
  info : Option ClientInfo

def ApiPublication.toJson (publication : ApiPublication) : Option RawValue := do
  let data ← nullableRaw "data" publication.data
  let info ← optionalInfo publication.info
  some (.object (skipIf publication.uid.isEmpty "uid" (.string publication.uid) ++ data ++ info))

def Publication.toApi (publication : Publication) : ApiPublication :=
  ⟨publication.uid, publication.data, publication.info⟩

def Publication.toApiPb (publication : Publication) : ApiPb.Publication where
  uid := publication.uid
  data := rawToVec publication.data
  info := publication.info.map ClientInfo.toPb

def NodeMetrics.toApiPb (metrics : NodeMetrics) : ApiPb.Metrics :=
  ⟨metrics.interval, metrics.items.toPairs⟩

def NodeInfoData.toApiPb (info : NodeInfoData) : ApiPb.NodeResult where
  uid := info.uid
  name := info.name
  version := info.version
  numClients := info.numClients
  numUsers := info.numUsers
  numChannels := info.numChannels
  uptime := info.uptime
  metrics := info.metrics.map NodeMetrics.toApiPb

/-- The metrics of a node with the items sorted, the numbers as `printF64` prints them. -/
def NodeMetrics.toJson (printF64 : F64 → RawValue) (metrics : NodeMetrics) : RawValue :=
  let items := metrics.items.toPairs.mergeSort fun a b => a.1 ≤ b.1
  .object [("interval", printF64 metrics.interval),
    ("items", .object (items.map fun entry => (entry.1, printF64 entry.2)))]

def NodeInfoData.toJson (printF64 : F64 → RawValue) (info : NodeInfoData) : RawValue :=
  .object [("uid", .string info.uid), ("name", .string info.name),
    ("version", .string info.version), ("num_clients", u32 info.numClients),
    ("num_users", u32 info.numUsers), ("num_channels", u32 info.numChannels),
    ("uptime", u32 info.uptime),
    ("metrics", (info.metrics.map (NodeMetrics.toJson printF64)).getD .null)]

def historyJson (publications : List ApiPublication) : Option RawValue := do
  let publications ← publications.mapM ApiPublication.toJson
  some (.object [("publications", .array publications)])

def channelsJson (channels : List String) : RawValue :=
  .object [("channels", .array (channels.map .string))]

def infoJson (printF64 : F64 → RawValue) (nodes : List NodeInfoData) : RawValue :=
  .object [("nodes", .array (nodes.map (NodeInfoData.toJson printF64)))]

end Centrifugo
