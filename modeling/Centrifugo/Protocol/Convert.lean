import Centrifugo.Protocol.Wire

/-!
# Conversions of requests and results

The rest of the generated message types and the two conversions of each. The fields of a
generated type have the order of the schema, those of the protocol's own types the order of
the JSON objects, so a conversion goes by names.

The codec of a generated type is not part of the repository. Here it is any pair of functions,
and `pbDecode_pbEncode` asks of it that it reads back the one message that it wrote.
-/

namespace Centrifugo

open Json

/-- Absent or not empty. An empty payload does not survive the wire. -/
def Raw.Filled (raw : Option Raw) : Prop := raw ≠ some ⟨[]⟩

instance (raw : Option Raw) : Decidable (Raw.Filled raw) := inferInstanceAs (Decidable (_ ≠ _))

/-- A filled payload comes out of a message as it went in. -/
theorem Raw.present_of_filled {raw : Option Raw} (filled : Raw.Filled raw) :
    Raw.present raw = raw := by
  cases raw with
  | none => rfl
  | some raw =>
      have nonempty : raw.bytes ≠ [] := by
        intro empty
        exact filled (congrArg some (congrArg Raw.mk empty))
      simp [Raw.present, Option.filter, nonempty]

theorem vecToRaw_of_filled {raw : Option Raw} (filled : Raw.Filled raw) :
    vecToRaw (rawToVec raw) = raw := by
  rw [vecToRaw_rawToVec, Raw.present_of_filled filled]

/-- The result of a command that only succeeds: of PUBLISH, UNSUBSCRIBE and PING. -/
structure EmptyResult where
  deriving DecidableEq

abbrev PublishResult := EmptyResult
abbrev UnsubscribeResult := EmptyResult
abbrev PingResult := EmptyResult

/-! ## Generated types -/

namespace Pb

/-- A request to subscribe, with the position to recover from: an offset, or its two halves. -/
structure SubscribeRequest where
  channel : String
  token : String
  recover : Bool
  seq : UInt32
  gen : UInt32
  epoch : String
  offset : UInt64

/-- The answer to it, with the publications that were missed. -/
structure SubscribeResult where
  expires : Bool
  ttl : UInt32
  recoverable : Bool
  seq : UInt32
  gen : UInt32
  epoch : String
  publications : List Publication
  recovered : Bool
  offset : UInt64

/-- A request to connect, which may ask for subscriptions by their channels. -/
structure ConnectRequest where
  token : String
  data : Bytes
  subs : Map String SubscribeRequest
  name : String
  version : String

structure ConnectResult where
  client : String
  version : String
  expires : Bool
  ttl : UInt32
  data : Bytes
  subs : Map String SubscribeResult

structure PublishRequest where
  channel : String
  data : Bytes

/-- UNSUBSCRIBE, PRESENCE, PRESENCE_STATS and HISTORY have one type each and this field. -/
structure ChannelRequest where
  channel : String

structure RefreshRequest where
  token : String

structure RefreshResult where
  client : String
  version : String
  expires : Bool
  ttl : UInt32

structure SubRefreshRequest where
  channel : String
  token : String

structure SubRefreshResult where
  expires : Bool
  ttl : UInt32

/-- `method` is the second field here and the first one in JSON. -/
structure RpcRequest where
  data : Bytes
  method : String

structure RpcResult where
  data : Bytes

/-- The clients of a channel by their ids. -/
structure PresenceResult where
  presence : Map String ClientInfo

/-- How many clients there are, and how many users. -/
structure PresenceStatsResult where
  numClients : UInt32
  numUsers : UInt32

structure HistoryResult where
  publications : List Publication

structure EmptyResult where

end Pb

/-! ## Conversions -/

namespace SubscribeRequest

def toPb (request : SubscribeRequest) : Pb.SubscribeRequest where
  channel := request.channel
  token := request.token
  recover := request.recover
  seq := request.seq
  gen := request.gen
  epoch := request.epoch
  offset := request.offset

def ofPb (request : Pb.SubscribeRequest) : SubscribeRequest where
  channel := request.channel
  token := request.token
  recover := request.recover
  seq := request.seq
  gen := request.gen
  epoch := request.epoch
  offset := request.offset

end SubscribeRequest

namespace SubscribeResult

/-- The offset is cut to 64 bits. -/
def toPb (result : SubscribeResult) : Pb.SubscribeResult where
  expires := result.expires
  ttl := result.ttl
  recoverable := result.recoverable
  seq := result.seq
  gen := result.gen
  epoch := result.epoch
  publications := result.publications.map Publication.toPb
  recovered := result.recovered
  offset := UInt64.ofNat result.offset

def ofPb (result : Pb.SubscribeResult) : SubscribeResult where
  expires := result.expires
  ttl := result.ttl
  recoverable := result.recoverable
  seq := result.seq
  gen := result.gen
  epoch := result.epoch
  publications := result.publications.map Publication.ofPb
  recovered := result.recovered
  offset := result.offset.toNat

end SubscribeResult

namespace ConnectRequest

/-- Each subscription is converted, and keeps its channel. -/
def toPb (request : ConnectRequest) : Pb.ConnectRequest where
  token := request.token
  data := rawToVec request.data
  subs := Map.mapValues SubscribeRequest.toPb request.subs
  name := request.name
  version := request.version

def ofPb (request : Pb.ConnectRequest) : ConnectRequest where
  token := request.token
  data := vecToRaw request.data
  name := request.name
  version := request.version
  subs := Map.mapValues SubscribeRequest.ofPb request.subs

end ConnectRequest

namespace ConnectResult

def toPb (result : ConnectResult) : Pb.ConnectResult where
  client := result.client
  version := result.version
  expires := result.expires
  ttl := result.ttl
  data := rawToVec result.data
  subs := Map.mapValues SubscribeResult.toPb result.subs

def ofPb (result : Pb.ConnectResult) : ConnectResult where
  client := result.client
  version := result.version
  expires := result.expires
  ttl := result.ttl
  data := vecToRaw result.data
  subs := Map.mapValues SubscribeResult.ofPb result.subs

end ConnectResult

namespace PublishRequest

def toPb (request : PublishRequest) : Pb.PublishRequest where
  channel := request.channel
  data := rawToVec request.data

def ofPb (request : Pb.PublishRequest) : PublishRequest where
  channel := request.channel
  data := vecToRaw request.data

end PublishRequest

namespace ChannelRequest

/-- The same for the four commands. -/
def toPb (request : ChannelRequest) : Pb.ChannelRequest where
  channel := request.channel

def ofPb (request : Pb.ChannelRequest) : ChannelRequest where
  channel := request.channel

end ChannelRequest

namespace RefreshRequest

def toPb (request : RefreshRequest) : Pb.RefreshRequest where
  token := request.token

def ofPb (request : Pb.RefreshRequest) : RefreshRequest where
  token := request.token

end RefreshRequest

namespace RefreshResult

def toPb (result : RefreshResult) : Pb.RefreshResult where
  client := result.client
  version := result.version
  expires := result.expires
  ttl := result.ttl

def ofPb (result : Pb.RefreshResult) : RefreshResult where
  client := result.client
  version := result.version
  expires := result.expires
  ttl := result.ttl

end RefreshResult

namespace SubRefreshRequest

def toPb (request : SubRefreshRequest) : Pb.SubRefreshRequest where
  channel := request.channel
  token := request.token

def ofPb (request : Pb.SubRefreshRequest) : SubRefreshRequest where
  channel := request.channel
  token := request.token

end SubRefreshRequest

namespace SubRefreshResult

def toPb (result : SubRefreshResult) : Pb.SubRefreshResult where
  expires := result.expires
  ttl := result.ttl

def ofPb (result : Pb.SubRefreshResult) : SubRefreshResult where
  expires := result.expires
  ttl := result.ttl

end SubRefreshResult

namespace RpcRequest

def toPb (request : RpcRequest) : Pb.RpcRequest where
  method := request.method
  data := rawToVec request.data

def ofPb (request : Pb.RpcRequest) : RpcRequest where
  method := request.method
  data := vecToRaw request.data

end RpcRequest

namespace RpcResult

def toPb (result : RpcResult) : Pb.RpcResult where
  data := rawToVec result.data

def ofPb (result : Pb.RpcResult) : RpcResult where
  data := vecToRaw result.data

end RpcResult

namespace PresenceResult

/-- Each info is converted, and keeps its client. -/
def toPb (result : PresenceResult) : Pb.PresenceResult where
  presence := Map.mapValues ClientInfo.toPb result.presence

def ofPb (result : Pb.PresenceResult) : PresenceResult where
  presence := Map.mapValues ClientInfo.ofPb result.presence

end PresenceResult

namespace PresenceStatsResult

def toPb (result : PresenceStatsResult) : Pb.PresenceStatsResult where
  numClients := result.numClients
  numUsers := result.numUsers

def ofPb (result : Pb.PresenceStatsResult) : PresenceStatsResult where
  numClients := result.numClients
  numUsers := result.numUsers

end PresenceStatsResult

namespace HistoryResult

def toPb (result : HistoryResult) : Pb.HistoryResult where
  publications := result.publications.map Publication.toPb

def ofPb (result : Pb.HistoryResult) : HistoryResult where
  publications := result.publications.map Publication.ofPb

end HistoryResult

def EmptyResult.toPb (_ : EmptyResult) : Pb.EmptyResult := {}

def EmptyResult.ofPb (_ : Pb.EmptyResult) : EmptyResult := {}

/-! ## What survives -/

namespace ClientInfo

/-- Both infos are absent or not empty. -/
def Filled (info : ClientInfo) : Prop := Raw.Filled info.connInfo ∧ Raw.Filled info.chanInfo

theorem ofPb_toPb_of_filled {info : ClientInfo} (filled : info.Filled) :
    ofPb info.toPb = info := by
  obtain ⟨conn, chan⟩ := filled
  rw [ofPb_toPb, ClientInfo.present, Raw.present_of_filled conn, Raw.present_of_filled chan]

end ClientInfo

namespace Publication

/-- The payloads are filled, and the offset is one that 64 bits can hold. -/
def Filled (publication : Publication) : Prop :=
  Raw.Filled publication.data ∧ (∀ info, publication.info = some info → info.Filled) ∧
    publication.offset < 2 ^ 64

/-- A filled publication survives the two conversions. -/
theorem ofPb_toPb_of_filled {publication : Publication} (filled : publication.Filled) :
    ofPb publication.toPb = publication := by
  obtain ⟨data, info, offset⟩ := filled
  have payload := vecToRaw_of_filled data
  have number : (UInt64.ofNat publication.offset).toNat = publication.offset :=
    UInt64.toNat_ofNat_of_lt' offset
  have same : (publication.info.map ClientInfo.toPb).map ClientInfo.ofPb = publication.info := by
    cases given : publication.info with
    | none => rfl
    | some inner => exact congrArg some (ClientInfo.ofPb_toPb_of_filled (info inner given))
  simp only [ofPb, toPb, payload, number, same]

/-- A list of filled publications, as a history or a recovery has them. -/
theorem map_ofPb_toPb {publications : List Publication}
    (filled : ∀ publication ∈ publications, publication.Filled) :
    (publications.map toPb).map ofPb = publications := by
  rw [List.map_map]
  have same : ∀ publication ∈ publications, (ofPb ∘ toPb) publication = id publication := by
    intro publication mem
    exact ofPb_toPb_of_filled (filled publication mem)
  rw [List.map_congr_left same, List.map_id]

end Publication

namespace SubscribeResult

/-- So are all publications that were missed. -/
def Filled (result : SubscribeResult) : Prop :=
  (∀ publication ∈ result.publications, publication.Filled) ∧ result.offset < 2 ^ 64

theorem ofPb_toPb_of_filled {result : SubscribeResult} (filled : result.Filled) :
    ofPb result.toPb = result := by
  obtain ⟨publications, offset⟩ := filled
  have list := Publication.map_ofPb_toPb publications
  have number : (UInt64.ofNat result.offset).toNat = result.offset :=
    UInt64.toNat_ofNat_of_lt' offset
  simp only [ofPb, toPb, list, number]

end SubscribeResult

namespace ConnectRequest

def Filled (request : ConnectRequest) : Prop := Raw.Filled request.data

theorem ofPb_toPb_of_filled {request : ConnectRequest} (filled : request.Filled) :
    ofPb request.toPb = request := by
  have subs : Map.mapValues SubscribeRequest.ofPb
      (Map.mapValues SubscribeRequest.toPb request.subs) = request.subs :=
    Map.mapValues_mapValues_of fun _ _ => rfl
  simp only [ofPb, toPb, subs, vecToRaw_of_filled filled]

end ConnectRequest

namespace ConnectResult

/-- So are the results of its subscriptions. -/
def Filled (result : ConnectResult) : Prop :=
  Raw.Filled result.data ∧ ∀ pair ∈ result.subs.toPairs, pair.2.Filled

theorem ofPb_toPb_of_filled {result : ConnectResult} (filled : result.Filled) :
    ofPb result.toPb = result := by
  obtain ⟨data, inner⟩ := filled
  have subs : Map.mapValues SubscribeResult.ofPb
      (Map.mapValues SubscribeResult.toPb result.subs) = result.subs :=
    Map.mapValues_mapValues_of fun pair mem =>
      SubscribeResult.ofPb_toPb_of_filled (inner pair mem)
  simp only [ofPb, toPb, subs, vecToRaw_of_filled data]

end ConnectResult

namespace PresenceResult

def Filled (result : PresenceResult) : Prop := ∀ pair ∈ result.presence.toPairs, pair.2.Filled

theorem ofPb_toPb_of_filled {result : PresenceResult} (filled : result.Filled) :
    ofPb result.toPb = result := by
  have presence : Map.mapValues ClientInfo.ofPb
      (Map.mapValues ClientInfo.toPb result.presence) = result.presence :=
    Map.mapValues_mapValues_of fun pair mem =>
      ClientInfo.ofPb_toPb_of_filled (filled pair mem)
  simp only [ofPb, toPb, presence]

end PresenceResult

namespace HistoryResult

def Filled (result : HistoryResult) : Prop :=
  ∀ publication ∈ result.publications, publication.Filled

theorem ofPb_toPb_of_filled {result : HistoryResult} (filled : result.Filled) :
    ofPb result.toPb = result := by
  simp only [ofPb, toPb, Publication.map_ofPb_toPb filled]

end HistoryResult

theorem Join.ofPb_toPb_of_filled {join : Join} (filled : join.info.Filled) :
    ofPb join.toPb = join :=
  congrArg Join.mk (ClientInfo.ofPb_toPb_of_filled filled)

theorem Leave.ofPb_toPb_of_filled {leave : Leave} (filled : leave.info.Filled) :
    ofPb leave.toPb = leave :=
  congrArg Leave.mk (ClientInfo.ofPb_toPb_of_filled filled)

/-! ## Typed params and results -/

/-- The messages that have a generated counterpart, one for each `wire!` line of the codec. -/
inductive WireType
  | connectRequest
  | connectResult
  | subscribeRequest
  | subscribeResult
  | publishRequest
  | publishResult
  | unsubscribeRequest
  | unsubscribeResult
  | pingResult
  | refreshRequest
  | refreshResult
  | subRefreshRequest
  | subRefreshResult
  | rpcRequest
  | rpcResult
  | presenceRequest
  | presenceResult
  | presenceStatsRequest
  | presenceStatsResult
  | join
  | leave
  | historyRequest
  | historyResult
  | publication
  deriving DecidableEq

/-- A codec of a generated type. -/
structure Prost (μ : Type) where
  encodeToVec : μ → Bytes
  decode : Bytes → Option μ

/-- What is read back is what was written. -/
def Prost.Inverts {μ : Type} (prost : Prost μ) (message : μ) : Prop :=
  prost.decode (prost.encodeToVec message) = some message

namespace WireType

/-- The type of the protocol. Commands with the same fields share one. -/
def Domain : WireType → Type
  | connectRequest => ConnectRequest
  | connectResult => ConnectResult
  | subscribeRequest => SubscribeRequest
  | subscribeResult => SubscribeResult
  | publishRequest => PublishRequest
  | publishResult => PublishResult
  | unsubscribeRequest => UnsubscribeRequest
  | unsubscribeResult => UnsubscribeResult
  | pingResult => PingResult
  | refreshRequest => RefreshRequest
  | refreshResult => RefreshResult
  | subRefreshRequest => SubRefreshRequest
  | subRefreshResult => SubRefreshResult
  | rpcRequest => RpcRequest
  | rpcResult => RpcResult
  | presenceRequest => PresenceRequest
  | presenceResult => PresenceResult
  | presenceStatsRequest => PresenceStatsRequest
  | presenceStatsResult => PresenceStatsResult
  | join => Join
  | leave => Leave
  | historyRequest => HistoryRequest
  | historyResult => HistoryResult
  | publication => Publication

/-- The generated type. -/
def Pb : WireType → Type
  | connectRequest => Pb.ConnectRequest
  | connectResult => Pb.ConnectResult
  | subscribeRequest => Pb.SubscribeRequest
  | subscribeResult => Pb.SubscribeResult
  | publishRequest => Pb.PublishRequest
  | publishResult | unsubscribeResult | pingResult => Pb.EmptyResult
  | unsubscribeRequest | presenceRequest | presenceStatsRequest | historyRequest =>
      Pb.ChannelRequest
  | refreshRequest => Pb.RefreshRequest
  | refreshResult => Pb.RefreshResult
  | subRefreshRequest => Pb.SubRefreshRequest
  | subRefreshResult => Pb.SubRefreshResult
  | rpcRequest => Pb.RpcRequest
  | rpcResult => Pb.RpcResult
  | presenceResult => Pb.PresenceResult
  | presenceStatsResult => Pb.PresenceStatsResult
  | join | leave => Pb.Presence
  | historyResult => Pb.HistoryResult
  | publication => Pb.Publication

/-- The conversion of each type to its generated one. -/
def toPb : (type : WireType) → type.Domain → type.Pb
  | connectRequest => ConnectRequest.toPb
  | connectResult => ConnectResult.toPb
  | subscribeRequest => SubscribeRequest.toPb
  | subscribeResult => SubscribeResult.toPb
  | publishRequest => PublishRequest.toPb
  | publishResult | unsubscribeResult | pingResult => EmptyResult.toPb
  | unsubscribeRequest | presenceRequest | presenceStatsRequest | historyRequest =>
      ChannelRequest.toPb
  | refreshRequest => RefreshRequest.toPb
  | refreshResult => RefreshResult.toPb
  | subRefreshRequest => SubRefreshRequest.toPb
  | subRefreshResult => SubRefreshResult.toPb
  | rpcRequest => RpcRequest.toPb
  | rpcResult => RpcResult.toPb
  | presenceResult => PresenceResult.toPb
  | presenceStatsResult => PresenceStatsResult.toPb
  | join => Join.toPb
  | leave => Leave.toPb
  | historyResult => HistoryResult.toPb
  | publication => Publication.toPb

/-- The conversion back. -/
def ofPb : (type : WireType) → type.Pb → type.Domain
  | connectRequest => ConnectRequest.ofPb
  | connectResult => ConnectResult.ofPb
  | subscribeRequest => SubscribeRequest.ofPb
  | subscribeResult => SubscribeResult.ofPb
  | publishRequest => PublishRequest.ofPb
  | publishResult | unsubscribeResult | pingResult => EmptyResult.ofPb
  | unsubscribeRequest | presenceRequest | presenceStatsRequest | historyRequest =>
      ChannelRequest.ofPb
  | refreshRequest => RefreshRequest.ofPb
  | refreshResult => RefreshResult.ofPb
  | subRefreshRequest => SubRefreshRequest.ofPb
  | subRefreshResult => SubRefreshResult.ofPb
  | rpcRequest => RpcRequest.ofPb
  | rpcResult => RpcResult.ofPb
  | presenceResult => PresenceResult.ofPb
  | presenceStatsResult => PresenceStatsResult.ofPb
  | join => Join.ofPb
  | leave => Leave.ofPb
  | historyResult => HistoryResult.ofPb
  | publication => Publication.ofPb

/-- All payloads of a message are absent or not empty, and all offsets fit into 64 bits. -/
def Filled : (type : WireType) → type.Domain → Prop
  | connectRequest => ConnectRequest.Filled
  | connectResult => ConnectResult.Filled
  | subscribeResult => SubscribeResult.Filled
  | publishRequest => fun request => Raw.Filled request.data
  | rpcRequest => fun request => Raw.Filled request.data
  | rpcResult => fun result => Raw.Filled result.data
  | presenceResult => PresenceResult.Filled
  | join => fun join => join.info.Filled
  | leave => fun leave => leave.info.Filled
  | historyResult => HistoryResult.Filled
  | publication => Publication.Filled
  | subscribeRequest | publishResult | unsubscribeRequest | unsubscribeResult | pingResult
  | refreshRequest | refreshResult | subRefreshRequest | subRefreshResult | presenceRequest
  | presenceStatsRequest | presenceStatsResult | historyRequest => fun _ => True

/-- Every filled message survives the two conversions. -/
theorem ofPb_toPb {type : WireType} {value : type.Domain} (filled : type.Filled value) :
    type.ofPb (type.toPb value) = value := by
  cases type with
  | connectRequest => exact ConnectRequest.ofPb_toPb_of_filled filled
  | connectResult => exact ConnectResult.ofPb_toPb_of_filled filled
  | subscribeResult => exact SubscribeResult.ofPb_toPb_of_filled filled
  | publishRequest => exact congrArg (PublishRequest.mk _) (vecToRaw_of_filled filled)
  | rpcRequest => exact congrArg (RpcRequest.mk _) (vecToRaw_of_filled filled)
  | rpcResult => exact congrArg RpcResult.mk (vecToRaw_of_filled filled)
  | presenceResult => exact PresenceResult.ofPb_toPb_of_filled filled
  | join => exact Join.ofPb_toPb_of_filled filled
  | leave => exact Leave.ofPb_toPb_of_filled filled
  | historyResult => exact HistoryResult.ofPb_toPb_of_filled filled
  | publication => exact Publication.ofPb_toPb_of_filled filled
  | subscribeRequest | publishResult | unsubscribeRequest | unsubscribeResult | pingResult
  | refreshRequest | refreshResult | subRefreshRequest | subRefreshResult | presenceRequest
  | presenceStatsRequest | presenceStatsResult | historyRequest => rfl

section Codec

variable {type : WireType} (prost : Prost type.Pb)

def pbEncode (value : type.Domain) : Bytes := prost.encodeToVec (type.toPb value)

def pbDecode (bytes : Bytes) : Option type.Domain := (prost.decode bytes).map type.ofPb

/-- No field of a message is lost, swapped or altered on the way through protobuf. -/
theorem pbDecode_pbEncode {value : type.Domain} (inverts : prost.Inverts (type.toPb value))
    (filled : type.Filled value) : pbDecode prost (pbEncode prost value) = some value := by
  have read : prost.decode (pbEncode prost value) = some (type.toPb value) := inverts
  rw [pbDecode, read, Option.map_some, ofPb_toPb filled]

end Codec

end WireType

/-- The codec of a type with lawful fields. -/
def Prost.ofMessage (μ : Type) [Proto.Message μ] : Prost μ := ⟨Proto.encode, Proto.decode⟩

theorem Prost.inverts_ofMessage {μ : Type} [Proto.Message μ] [Proto.Lawful μ] {message : μ}
    (short : (Proto.encode message).length < 2 ^ 64) :
    (Prost.ofMessage μ).Inverts message :=
  Proto.decode_encode short

/-- A publication of ann with one info. -/
private def posted : Publication where
  uid := "u"
  data := some (.ofText "{}".toList)
  info := some { user := "ann", client := "c1", chanInfo := some (.ofText "1".toList) }
  offset := 7

theorem WireType.pbDecode_pbEncode_publication :
    @WireType.pbDecode .publication (.ofMessage Pb.Publication)
      (@WireType.pbEncode .publication (.ofMessage Pb.Publication) posted) = some posted := by
  have short : (Proto.encode posted.toPb).length < 2 ^ 64 := by decide
  have filled : posted.Filled := by
    refine ⟨by decide, ?_, by decide⟩
    rintro info ⟨⟩
    exact ⟨by decide, by decide⟩
  exact @WireType.pbDecode_pbEncode .publication (.ofMessage Pb.Publication) posted
    (@Prost.inverts_ofMessage Pb.Publication _ _ _ short) filled

end Centrifugo
