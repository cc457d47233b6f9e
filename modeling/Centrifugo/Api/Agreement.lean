import Centrifugo.Api.Batch
import Centrifugo.Protocol.Decode

/-!
# The surfaces agree

The same call can come over any of the three surfaces. The protobuf dispatcher does what the
gRPC service does. The JSON dispatcher differs in two places: it takes `null` for absent data,
and it can only tell payloads that are JSON. Elsewhere all three give the same outcome, and an
error means on each of them that nothing has happened.
-/

namespace Centrifugo

open Json Proto

inductive ApiCall
  | publish (channel : String) (data : RawValue)
  | broadcast (channels : List String) (data : RawValue)
  | unsubscribe (user channel : String)
  | disconnect (user : String)
  | presence (channel : String)
  | presenceStats (channel : String)
  | history (channel : String)
  | historyRemove (channel : String)
  | channels
  | info
  | rpc (method : String) (params : Bytes)

def ApiCall.method : ApiCall → ApiMethod
  | publish .. => .publish
  | broadcast .. => .broadcast
  | unsubscribe .. => .unsubscribe
  | disconnect _ => .disconnect
  | presence _ => .presence
  | presenceStats _ => .presenceStats
  | history _ => .history
  | historyRemove _ => .historyRemove
  | channels => .channels
  | info => .info
  | rpc .. => .rpc

/-- The data of a call in bytes. -/
def dataOf (data : RawValue) : Bytes := encodeUtf8 data.text

/-! ## Requests for a call -/

/-- The command names the method of a call and has its arguments as members. -/
def ApiCommand.Denotes (cmd : ApiCommand) (call : ApiCall) : Prop :=
  cmd.method = call.method.name ∧
    match call with
    | .publish channel data => ∃ field,
        fieldsOf ["channel", "data"] cmd.params = some [field, some data] ∧
          textField field = some channel
    | .broadcast channels data => ∃ field,
        fieldsOf ["channels", "data"] cmd.params = some [field, some data] ∧
          textsField field = some channels
    | .unsubscribe user channel => ∃ field field',
        fieldsOf ["user", "channel"] cmd.params = some [field, field'] ∧
          textField field = some user ∧ textField field' = some channel
    | .disconnect user => parseText "user" cmd.params = some user
    | .presence channel | .presenceStats channel | .history channel | .historyRemove channel =>
        parseText "channel" cmd.params = some channel
    | .channels | .info => True
    | .rpc method _ => parseText "method" cmd.params = some method

def ApiPb.Command.Denotes (cmd : ApiPb.Command) (call : ApiCall) : Prop :=
  ApiMethod.tryFrom cmd.method = some call.method ∧
    match call with
    | .publish channel data =>
        decode cmd.params = some (⟨channel, dataOf data⟩ : ApiPb.PublishRequest)
    | .broadcast channels data =>
        decode cmd.params = some (⟨channels, dataOf data⟩ : ApiPb.BroadcastRequest)
    | .unsubscribe user channel =>
        decode cmd.params = some (⟨channel, user⟩ : ApiPb.UnsubscribeRequest)
    | .disconnect user => decode cmd.params = some (⟨user⟩ : ApiPb.DisconnectRequest)
    | .presence channel | .presenceStats channel | .history channel | .historyRemove channel =>
        decode cmd.params = some (⟨channel⟩ : ApiPb.ChannelRequest)
    | .channels | .info => True
    | .rpc method params => decode cmd.params = some (⟨method, params⟩ : ApiPb.RpcRequest)

variable {σ : Type}

/-- The call as the gRPC service gets it, which is decoded already. -/
def GrpcApi.serve (node : ApiNode σ) : ApiCall → σ → σ × ApiResponse
  | .publish channel data => publish node ⟨channel, dataOf data⟩
  | .broadcast channels data => broadcast node ⟨channels, dataOf data⟩
  | .unsubscribe user channel => unsubscribe node ⟨channel, user⟩
  | .disconnect user => disconnect node ⟨user⟩
  | .presence channel => presence node ⟨channel⟩
  | .presenceStats channel => presenceStats node ⟨channel⟩
  | .history channel => history node ⟨channel⟩
  | .historyRemove channel => historyRemove node ⟨channel⟩
  | .channels => channels node
  | .info => info node
  | .rpc method params => rpc ⟨method, params⟩

/-! ## Replies with the same content -/

def ApiPb.Metrics.toJson (printF64 : F64 → RawValue) (metrics : ApiPb.Metrics) : RawValue :=
  let items := metrics.items.mergeSort fun a b => a.1 ≤ b.1
  .object [("interval", printF64 metrics.interval),
    ("items", .object (items.map fun entry => (entry.1, printF64 entry.2)))]

def ApiPb.NodeResult.toJson (printF64 : F64 → RawValue) (node : ApiPb.NodeResult) : RawValue :=
  .object [("uid", .string node.uid), ("name", .string node.name),
    ("version", .string node.version), ("num_clients", u32 node.numClients),
    ("num_users", u32 node.numUsers), ("num_channels", u32 node.numChannels),
    ("uptime", u32 node.uptime),
    ("metrics", (node.metrics.map (ApiPb.Metrics.toJson printF64)).getD .null)]

def ApiPb.Publication.toApi (publication : ApiPb.Publication) : ApiPublication where
  uid := publication.uid
  data := vecToRaw publication.data
  info := publication.info.map ClientInfo.ofPb

/-- A result as JSON. There is none when it holds a payload that is not JSON. -/
def ApiResult.toJson (printF64 : F64 → RawValue) : ApiResult → Option RawValue
  | presence entries => do
      let members ← entries.mapM fun entry =>
        (ClientInfo.ofPb entry.2).toJson.map fun json => (entry.1, json)
      some (.object [("presence", .object members)])
  | presenceStats clients users => PresenceStatsResult.toJson ⟨clients, users⟩
  | history publications => historyJson (publications.map ApiPb.Publication.toApi)
  | channels names => some (channelsJson names)
  | info nodes => some (.object [("nodes", .array (nodes.map (ApiPb.NodeResult.toJson printF64)))])

/-- The reply tells what a response tells. -/
def ApiReply.Tells (printF64 : F64 → RawValue) (reply : ApiReply) (response : ApiResponse) :
    Prop :=
  reply.error = response.error ∧
    match response.result with
    | none => reply.result = none
    | some result => ∃ value, result.toJson printF64 = some value ∧ reply.result = some value

def PbReplyTells (reply : Pb.Reply) (response : ApiResponse) : Prop :=
  reply.error = response.error.map Error.toPb ∧
    reply.result = (response.result.map ApiResult.encodeToVec).getD []

/-- All surfaces give the same outcome to a call, and an error leaves the node as it was. -/
structure Agreeing (node : ApiNode σ) (printF64 : F64 → RawValue) (call : ApiCall)
    (cmd : ApiCommand) (cmd' : ApiPb.Command) (s : σ) : Prop where
  json : (JsonApi.dispatch node printF64 cmd s).1 = (GrpcApi.serve node call s).1 ∧
    (JsonApi.dispatch node printF64 cmd s).2.Tells printF64 (GrpcApi.serve node call s).2
  protobuf : (PbApi.dispatch node cmd' s).1 = (GrpcApi.serve node call s).1 ∧
    PbReplyTells (PbApi.dispatch node cmd' s).2 (GrpcApi.serve node call s).2
  jsonError : (JsonApi.dispatch node printF64 cmd s).2.error.isSome →
    (JsonApi.dispatch node printF64 cmd s).1 = s
  protobufError : (PbApi.dispatch node cmd' s).2.error.isSome → (PbApi.dispatch node cmd' s).1 = s
  grpcError : (GrpcApi.serve node call s).2.error.isSome → (GrpcApi.serve node call s).1 = s

/-! ## The condition -/

/-- Every payload that is there is JSON. -/
def ClientInfo.Jsonable (info : ClientInfo) : Prop :=
  (∀ raw, info.connInfo = some raw → raw.Valid) ∧ ∀ raw, info.chanInfo = some raw → raw.Valid

def Publication.Jsonable (publication : Publication) : Prop :=
  (∀ raw, publication.data = some raw → raw.Valid) ∧
    ∀ info, publication.info = some info → info.Jsonable

/-- The channel is there and has what a method needs. -/
def ApiNode.Offers (node : ApiNode σ) (cap : Bool × Bool → Bool) (channel : String) : Prop :=
  ∃ caps, GrpcApi.channelCaps node channel = .ok caps ∧ cap caps = true

/-- `null` is published nowhere, and what is told of a channel is JSON. -/
def ApiCall.Plain (node : ApiNode σ) (s : σ) : ApiCall → Prop
  | publish channel data => data ≠ .null ∨ channel = ""
  | broadcast names data => data ≠ .null ∨ names = [] ∨
      (names.findSome? fun channel => GrpcApi.refused (GrpcApi.channelCaps node channel)) =
        some .badRequest
  | presence channel => node.Offers Prod.fst channel →
      ∀ entry ∈ (node.presence channel s).2.toPairs, entry.2.Jsonable
  | history channel => node.Offers Prod.snd channel →
      ∀ publication ∈ (node.history channel s).2, publication.Jsonable
  | _ => True

/-! ## The protobuf dispatcher and the gRPC service -/

section Protobuf

variable {node : ApiNode σ} {call : ApiCall} {cmd : ApiPb.Command} {s : σ}

theorem PbApi.withParams_eq {μ : Type} [Message μ] {serve : μ → σ × Pb.Reply} {req : μ}
    (params : decode cmd.params = some req) : withParams cmd s serve = serve req := by
  rw [withParams, params]

/-- A reply with the content of a response. -/
def PbApi.replyOf (id : UInt32) (served : σ × ApiResponse) : σ × Pb.Reply :=
  (served.1, reply id served.2.error ((served.2.result.map ApiResult.encodeToVec).getD []))

theorem PbApi.withCap_eq {cap : Bool × Bool → Bool} {channel : String}
    {serve : String → σ × Bytes} {served : σ × Option ApiResult}
    (params : decode cmd.params = some (⟨channel⟩ : ApiPb.ChannelRequest))
    (same : serve channel = (served.1, (served.2.map ApiResult.encodeToVec).getD [])) :
    withCap node cap cmd s serve = replyOf cmd.id (GrpcApi.withCap node cap channel s served) := by
  rw [withCap, withParams_eq params, GrpcApi.withCap]
  cases GrpcApi.channelCaps node channel with
  | error error => rfl
  | ok caps =>
      simp only [same]
      split <;> rfl

theorem PbApi.dispatch_eq (denotes : cmd.Denotes call) :
    dispatch node cmd s = replyOf cmd.id (GrpcApi.serve node call s) := by
  obtain ⟨method, params⟩ := denotes
  cases call with
  | publish channel data =>
      simp only [dispatch, method, ApiCall.method, withParams_eq params, GrpcApi.serve,
        GrpcApi.publish]
      split
      · rfl
      · cases GrpcApi.channelCaps node channel <;> rfl
  | broadcast names data =>
      simp only [dispatch, method, ApiCall.method, withParams_eq params, GrpcApi.serve,
        GrpcApi.broadcast]
      split
      · rfl
      · cases names.findSome? fun channel =>
          GrpcApi.refused (GrpcApi.channelCaps node channel) <;> rfl
  | unsubscribe user channel =>
      simp only [dispatch, method, ApiCall.method, withParams_eq params, GrpcApi.serve,
        GrpcApi.unsubscribe]
      split
      · rfl
      split
      · rfl
      · cases GrpcApi.channelCaps node channel <;> rfl
  | disconnect user =>
      simp only [dispatch, method, ApiCall.method, withParams_eq params, GrpcApi.serve,
        GrpcApi.disconnect]
      split <;> rfl
  | presence channel =>
      simp only [dispatch, method, ApiCall.method]
      exact withCap_eq params rfl
  | presenceStats channel =>
      simp only [dispatch, method, ApiCall.method]
      exact withCap_eq params rfl
  | history channel =>
      simp only [dispatch, method, ApiCall.method]
      exact withCap_eq params rfl
  | historyRemove channel =>
      simp only [dispatch, method, ApiCall.method]
      exact withCap_eq params rfl
  | channels =>
      simp only [dispatch, method, ApiCall.method]
      rfl
  | info =>
      simp only [dispatch, method, ApiCall.method]
      rfl
  | rpc name bytes =>
      simp only [dispatch, method, ApiCall.method, withParams_eq params]
      rfl

theorem PbApi.tells (denotes : cmd.Denotes call) :
    (dispatch node cmd s).1 = (GrpcApi.serve node call s).1 ∧
      PbReplyTells (dispatch node cmd s).2 (GrpcApi.serve node call s).2 := by
  rw [dispatch_eq denotes]
  exact ⟨rfl, rfl, rfl⟩

theorem GrpcApi.unchanged_withCap {cap : Bool × Bool → Bool} {channel : String}
    {served : σ × Option ApiResult} (refused : (withCap node cap channel s served).2.error.isSome) :
    (withCap node cap channel s served).1 = s := by
  unfold withCap at refused ⊢
  repeat' split
  all_goals simp_all

/-- A method that first finds its error, and acts when there is none. -/
theorem GrpcApi.unchanged_of_checked {error : Option Error} {after : σ}
    (refused : (if error.isNone then (after, ⟨error, none⟩) else (s, ⟨error, none⟩) :
      σ × ApiResponse).2.error.isSome) :
    (if error.isNone then (after, ⟨error, none⟩) else (s, ⟨error, none⟩) :
      σ × ApiResponse).1 = s := by
  cases error with
  | none => cases refused
  | some error => rfl

/-- An error of the gRPC service leaves the node as it was. -/
theorem GrpcApi.unchanged (call : ApiCall) (refused : (serve node call s).2.error.isSome) :
    (serve node call s).1 = s := by
  cases call with
  | publish channel data =>
      simp only [serve, publish] at refused ⊢
      repeat' split
      all_goals simp_all
  | broadcast names data => exact unchanged_of_checked refused
  | unsubscribe user channel => exact unchanged_of_checked refused
  | disconnect user => exact unchanged_of_checked refused
  | presence channel | presenceStats channel | history channel | historyRemove channel =>
      exact unchanged_withCap refused
  | channels | info | rpc name bytes => rfl

end Protobuf

/-! ## Payloads that are JSON -/

theorem Raw.toJson_isSome {raw : Raw} : raw.toJson.isSome ↔ raw.Valid := by
  constructor
  · intro some
    obtain ⟨value, written⟩ := Option.isSome_iff_exists.mp some
    obtain ⟨text, decoded, eq⟩ := toJson_eq_some.mp written
    exact ⟨text, decoded, eq ▸ value.valid⟩
  · intro valid
    obtain ⟨value, written⟩ := toJson_of_valid valid
    rw [written]
    rfl

theorem optionalRaw_isSome {name : String} {raw : Option Raw} :
    (optionalRaw name raw).isSome ↔ ∀ r, raw = some r → r.Valid := by
  cases raw with
  | none => simp [optionalRaw]
  | some raw => simp [optionalRaw, Raw.toJson_isSome]

theorem nullableRaw_isSome {name : String} {raw : Option Raw} :
    (nullableRaw name raw).isSome ↔ ∀ r, raw = some r → r.Valid := by
  cases raw with
  | none => simp [nullableRaw]
  | some raw => simp [nullableRaw, Raw.toJson_isSome]

namespace ClientInfo

variable {info : ClientInfo}

theorem toJson_isSome : info.toJson.isSome ↔ info.Jsonable := by
  rw [Jsonable, ← @optionalRaw_isSome "conn_info", ← @optionalRaw_isSome "chan_info", toJson]
  cases optionalRaw "conn_info" info.connInfo <;> cases optionalRaw "chan_info" info.chanInfo <;>
    simp

theorem present_of_jsonable (h : info.Jsonable) : info.present = info := by
  rw [present, Raw.present_of_valid h.1, Raw.present_of_valid h.2]

end ClientInfo

namespace Publication

variable {publication : Publication}

theorem toApi_isSome : publication.toApi.toJson.isSome ↔ publication.Jsonable := by
  have info : (optionalInfo publication.info).isSome ↔
      ∀ info, publication.info = some info → info.Jsonable := by
    cases publication.info with
    | none => simp [optionalInfo]
    | some info => simp [optionalInfo, ClientInfo.toJson_isSome]
  rw [Jsonable, ← info, ← @nullableRaw_isSome "data", ApiPublication.toJson, toApi]
  cases nullableRaw "data" publication.data <;> cases optionalInfo publication.info <;> simp

theorem toApi_toApiPb (h : publication.Jsonable) :
    publication.toApiPb.toApi = publication.toApi := by
  have info : (publication.info.map ClientInfo.toPb).map ClientInfo.ofPb = publication.info := by
    cases found : publication.info with
    | none => rfl
    | some info => simp [ClientInfo.present_of_jsonable (h.2 info found)]
  simp only [ApiPb.Publication.toApi, toApiPb, toApi, vecToRaw_rawToVec,
    Raw.present_of_valid h.1, info]

end Publication

theorem historyJson_isSome (publications : List Publication) :
    (historyJson (publications.map Publication.toApi)).isSome ↔
      ∀ publication ∈ publications, publication.Jsonable := by
  have all := mapM_isSome ApiPublication.toJson (publications.map Publication.toApi)
  simp only [List.forall_mem_map, Publication.toApi_isSome] at all
  rw [← all, historyJson]
  cases (publications.map Publication.toApi).mapM ApiPublication.toJson <;> rfl

theorem presenceJson_isSome (presence : Map String ClientInfo) :
    (PresenceResult.toJson ⟨presence⟩).isSome ↔
      ∀ entry ∈ presence.toPairs, entry.2.Jsonable := by
  have all := mapM_isSome (fun entry : String × ClientInfo =>
    entry.2.toJson.map fun json => (entry.1, json)) presence.toPairs
  simp only [Option.isSome_map, ClientInfo.toJson_isSome] at all
  rw [← all, PresenceResult.toJson, mapToJson]
  cases presence.toPairs.mapM (fun entry : String × ClientInfo =>
    entry.2.toJson.map fun json => (entry.1, json)) <;> rfl

/-! ## Results in both encodings -/

section Results

variable {printF64 : F64 → RawValue}

theorem toJson_history {publications : List Publication}
    (plain : ∀ publication ∈ publications, publication.Jsonable) :
    (ApiResult.history (publications.map Publication.toApiPb)).toJson printF64 =
      historyJson (publications.map Publication.toApi) := by
  have same : (publications.map Publication.toApiPb).map ApiPb.Publication.toApi =
      publications.map Publication.toApi := by
    rw [List.map_map]
    exact List.map_congr_left fun publication mem => Publication.toApi_toApiPb (plain _ mem)
  rw [ApiResult.toJson, same]

theorem toJson_presence {presence : Map String ClientInfo}
    (plain : ∀ entry ∈ presence.toPairs, entry.2.Jsonable) :
    (ApiResult.presence (presence.toPairs.map fun entry => (entry.1, entry.2.toPb))).toJson
      printF64 = PresenceResult.toJson ⟨presence⟩ := by
  have same : ∀ entries : List (String × ClientInfo), (∀ entry ∈ entries, entry.2.Jsonable) →
      (entries.map fun entry => (entry.1, entry.2.toPb)).mapM (fun entry =>
        (ClientInfo.ofPb entry.2).toJson.map fun json => (entry.1, json)) =
      entries.mapM fun entry => entry.2.toJson.map fun json => (entry.1, json) := by
    intro entries all
    induction entries with
    | nil => rfl
    | cons entry entries ih =>
        obtain ⟨first, others⟩ := List.forall_mem_cons.mp all
        simp only [List.map_cons, List.mapM_cons, ih others, ClientInfo.ofPb_toPb,
          ClientInfo.present_of_jsonable first]
  rw [ApiResult.toJson, same _ plain, PresenceResult.toJson, mapToJson]
  cases presence.toPairs.mapM (fun entry : String × ClientInfo =>
    entry.2.toJson.map fun json => (entry.1, json)) <;> rfl

theorem toJson_info (nodes : List NodeInfoData) :
    (ApiResult.info (nodes.map NodeInfoData.toApiPb)).toJson printF64 =
      some (infoJson printF64 nodes) := by
  have same : ∀ info : NodeInfoData, info.toApiPb.toJson printF64 = info.toJson printF64 := by
    intro info
    cases found : info.metrics <;>
      simp [ApiPb.NodeResult.toJson, NodeInfoData.toApiPb, NodeInfoData.toJson, found,
        ApiPb.Metrics.toJson, NodeMetrics.toApiPb, NodeMetrics.toJson]
  rw [ApiResult.toJson, infoJson, List.map_map]
  exact congrArg (fun entries => some (RawValue.object [("nodes", .array entries)]))
    (List.map_congr_left fun info _ => same info)

/-- An object is not `null`. -/
theorem object_ne_null (members : List (String × RawValue)) : RawValue.object members ≠ .null := by
  intro same
  cases congrArg RawValue.text same

theorem toJson_ne_null {result : ApiResult} {value : RawValue}
    (written : result.toJson printF64 = some value) : value ≠ .null := by
  cases result with
  | presence entries =>
      obtain ⟨members, -, whole⟩ := Option.bind_eq_some_iff.mp written
      cases whole
      exact object_ne_null _
  | presenceStats clients users =>
      cases written
      exact object_ne_null _
  | history publications =>
      obtain ⟨members, -, whole⟩ := Option.bind_eq_some_iff.mp written
      cases whole
      exact object_ne_null _
  | channels names =>
      cases written
      exact object_ne_null _
  | info nodes =>
      cases written
      exact object_ne_null _

/-- What cannot be written is told as `null`, which tells nothing. -/
theorem ApiReply.tells_ok_iff {id : UInt32} {value : Option RawValue} {result : ApiResult}
    (same : value.isSome → result.toJson printF64 = value) :
    (ApiReply.ok id value).Tells printF64 ⟨none, some result⟩ ↔ value.isSome := by
  cases value with
  | none =>
      constructor
      · rintro ⟨-, value, written, told⟩
        exact absurd (Option.some.inj told).symm (toJson_ne_null written)
      · nofun
  | some value => exact ⟨fun _ => rfl, fun _ => ⟨rfl, value, same rfl, rfl⟩⟩

theorem ApiReply.tells_err_iff {id : UInt32} {error : Error} {response : ApiResponse} :
    (ApiReply.err id error).Tells printF64 response ↔
      response.error = some error ∧ response.result = none := by
  obtain ⟨error', result⟩ := response
  cases result with
  | none => simp [Tells, err, eq_comm]
  | some result => simp [Tells, err]

theorem ApiReply.tells_void_iff {id : UInt32} {response : ApiResponse} :
    (ApiReply.void id).Tells printF64 response ↔
      response.error = none ∧ response.result = none := by
  obtain ⟨error', result⟩ := response
  cases result with
  | none => simp [Tells, void, eq_comm]
  | some result => simp [Tells, void]

end Results

/-! ## The JSON dispatcher -/

namespace JsonApi

variable {node : ApiNode σ} {printF64 : F64 → RawValue} {call : ApiCall} {cmd : ApiCommand}
  {s : σ} {id : UInt32}

theorem channelCaps_eq (channel : String) :
    channelCaps node id channel =
      (GrpcApi.channelCaps node channel).mapError (ApiReply.err id) := by
  unfold channelCaps GrpcApi.channelCaps
  split
  · rfl
  · cases node.channelOptions channel <;> rfl

theorem checkAll_eq (names : List String) :
    checkAll node id names =
      match names.findSome? fun channel => GrpcApi.refused (GrpcApi.channelCaps node channel) with
      | some error => .error (.err id error)
      | none => .ok () := by
  induction names with
  | nil => rfl
  | cons channel names ih =>
      rw [checkAll, channelCaps_eq, List.findSome?_cons]
      cases GrpcApi.channelCaps node channel with
      | error error => rfl
      | ok caps => exact ih

theorem rawField_some (data : RawValue) :
    rawField (some data) = some (if data = .null then none else some data) := by
  by_cases null : data = .null <;> simp [rawField, Codec.decodeOption, null]

theorem dataOf_ne_nil (data : RawValue) : dataOf data ≠ [] := by
  intro nothing
  have back := decodeUtf8_encodeUtf8 data.text
  rw [dataOf] at nothing
  rw [nothing] at back
  exact data.text_ne_nil (Option.some.inj back).symm

/-- Only the empty channel is a bad request. -/
theorem channelCaps_badRequest_iff {channel : String} :
    GrpcApi.channelCaps node channel = .error .badRequest ↔ channel = "" := by
  constructor
  · intro refused
    by_contra named
    rw [GrpcApi.channelCaps, if_neg named] at refused
    split at refused
    · cases refused
    · have codes : Error.namespaceNotFound = Error.badRequest := Except.error.inj refused
      revert codes
      decide
  · rintro rfl
    rfl

theorem parse_publish {channel : String} {data : RawValue} {field : Option RawValue}
    (fields : fieldsOf ["channel", "data"] cmd.params = some [field, some data])
    (named : textField field = some channel) :
    PublishReq.parse cmd.params = some ⟨channel, if data = .null then none else some data⟩ := by
  simp [PublishReq.parse, fields, named, rawField_some]

theorem parse_broadcast {names : List String} {data : RawValue} {field : Option RawValue}
    (fields : fieldsOf ["channels", "data"] cmd.params = some [field, some data])
    (named : textsField field = some names) :
    BroadcastReq.parse cmd.params = some ⟨names, if data = .null then none else some data⟩ := by
  simp [BroadcastReq.parse, fields, named, rawField_some]

theorem parse_unsubscribe {user channel : String} {field field' : Option RawValue}
    (fields : fieldsOf ["user", "channel"] cmd.params = some [field, field'])
    (named : textField field = some user) (named' : textField field' = some channel) :
    UnsubscribeReq.parse cmd.params = some ⟨user, channel⟩ := by
  simp [UnsubscribeReq.parse, fields, named, named']

/-- The same state, and a reply that tells what the response tells. -/
def Matches (printF64 : F64 → RawValue) (json : σ × ApiReply) (grpc : σ × ApiResponse) : Prop :=
  json.1 = grpc.1 ∧ json.2.Tells printF64 grpc.2

theorem matches_publish {channel : String} {data : RawValue}
    (denotes : cmd.Denotes (.publish channel data)) :
    Matches printF64 (dispatch node printF64 cmd s)
      (GrpcApi.serve node (.publish channel data) s) ↔ data ≠ .null ∨ channel = "" := by
  obtain ⟨method, field, fields, named⟩ := denotes
  simp only [dispatch, method, ApiMethod.ofName_name, ApiCall.method,
    parse_publish fields named, GrpcApi.serve, GrpcApi.publish, if_neg (dataOf_ne_nil data)]
  by_cases null : data = .null
  · simp only [null, if_true, ne_eq, not_true_eq_false, false_or]
    rw [← @channelCaps_badRequest_iff σ node, Matches, ApiReply.tells_err_iff]
    cases GrpcApi.channelCaps node channel <;> simp
  · simp only [null, if_false, channelCaps_eq]
    cases GrpcApi.channelCaps node channel with
    | error error => simp [Matches, Except.mapError, ApiReply.tells_err_iff, null]
    | ok caps => simp [Matches, Except.mapError, ApiReply.tells_void_iff, dataOf, Raw.ofText, null]

theorem matches_broadcast {names : List String} {data : RawValue}
    (denotes : cmd.Denotes (.broadcast names data)) :
    Matches printF64 (dispatch node printF64 cmd s)
      (GrpcApi.serve node (.broadcast names data) s) ↔
        data ≠ .null ∨ names = [] ∨
          (names.findSome? fun channel => GrpcApi.refused (GrpcApi.channelCaps node channel)) =
            some .badRequest := by
  obtain ⟨method, field, fields, named⟩ := denotes
  simp only [dispatch, method, ApiMethod.ofName_name, ApiCall.method,
    parse_broadcast fields named, GrpcApi.serve, GrpcApi.broadcast, dataOf_ne_nil, or_false]
  by_cases empty : names = []
  · simp [empty, Matches, ApiReply.tells_err_iff]
  simp only [empty, if_false, false_or]
  by_cases null : data = .null
  · simp only [null, if_true, ne_eq, not_true_eq_false, false_or]
    cases names.findSome? fun channel => GrpcApi.refused (GrpcApi.channelCaps node channel) <;>
      simp [Matches, ApiReply.tells_err_iff]
  · simp only [null, if_false, checkAll_eq]
    cases names.findSome? fun channel => GrpcApi.refused (GrpcApi.channelCaps node channel) with
    | some error => simp [Matches, ApiReply.tells_err_iff, null]
    | none => simp [Matches, ApiReply.tells_void_iff, dataOf, Raw.ofText, null]

theorem matches_unsubscribe {user channel : String}
    (denotes : cmd.Denotes (.unsubscribe user channel)) :
    Matches printF64 (dispatch node printF64 cmd s)
      (GrpcApi.serve node (.unsubscribe user channel) s) := by
  obtain ⟨method, field, field', fields, named, named'⟩ := denotes
  simp only [dispatch, method, ApiMethod.ofName_name, ApiCall.method,
    parse_unsubscribe fields named named', GrpcApi.serve, GrpcApi.unsubscribe, channelCaps_eq]
  by_cases anyone : user = ""
  · simp [anyone, Matches, ApiReply.tells_err_iff]
  by_cases all : channel = ""
  · simp [anyone, all, Matches, ApiReply.tells_void_iff]
  · cases GrpcApi.channelCaps node channel <;>
      simp [anyone, all, Matches, Except.mapError, GrpcApi.refused, ApiReply.tells_err_iff,
        ApiReply.tells_void_iff]

theorem matches_disconnect {user : String} (denotes : cmd.Denotes (.disconnect user)) :
    Matches printF64 (dispatch node printF64 cmd s)
      (GrpcApi.serve node (.disconnect user) s) := by
  obtain ⟨method, named⟩ := denotes
  have req : DisconnectReq.parse cmd.params = some ⟨user⟩ := by
    rw [DisconnectReq.parse, named]
    rfl
  simp only [dispatch, method, ApiMethod.ofName_name, ApiCall.method, req, GrpcApi.serve,
    GrpcApi.disconnect]
  by_cases anyone : user = "" <;>
    simp [anyone, Matches, ApiReply.tells_err_iff, ApiReply.tells_void_iff]

theorem matches_rpc {name : String} {bytes : Bytes} (denotes : cmd.Denotes (.rpc name bytes)) :
    Matches printF64 (dispatch node printF64 cmd s)
      (GrpcApi.serve node (.rpc name bytes) s) := by
  obtain ⟨method, named⟩ := denotes
  have req : RpcReq.parse cmd.params = some ⟨name⟩ := by
    rw [RpcReq.parse, named]
    rfl
  simp only [dispatch, method, ApiMethod.ofName_name, ApiCall.method, req, GrpcApi.serve,
    GrpcApi.rpc]
  by_cases empty : name = "" <;> simp [empty, Matches, ApiReply.tells_err_iff]

/-- A method that needs presence, or a history: either the check refuses it, the same on both
surfaces, or both serve it. -/
theorem matches_withCap {cap : Bool × Bool → Bool} {channel : String}
    {serve : String → σ × ApiReply} {served : σ × Option ApiResult}
    (named : parseText "channel" cmd.params = some channel) :
    Matches printF64 (withCap node cap cmd.id cmd.params s serve)
        (GrpcApi.withCap node cap channel s served) ↔
      (node.Offers cap channel →
        Matches printF64 (serve channel) (served.1, ⟨none, served.2⟩)) := by
  have req : ChannelReq.parse cmd.params = some ⟨channel⟩ := by
    rw [ChannelReq.parse, named]
    rfl
  simp only [withCap, req, GrpcApi.withCap, channelCaps_eq, ApiNode.Offers]
  cases found : GrpcApi.channelCaps node channel with
  | error error => simp [Matches, Except.mapError, ApiReply.tells_err_iff]
  | ok caps =>
      by_cases has : cap caps = true
      · simp [Except.mapError, has]
      · simp [Except.mapError, has, Matches, ApiReply.tells_err_iff]

theorem matches_presence {channel : String} (denotes : cmd.Denotes (.presence channel)) :
    Matches printF64 (dispatch node printF64 cmd s)
      (GrpcApi.serve node (.presence channel) s) ↔
        (ApiCall.presence channel).Plain node s := by
  obtain ⟨method, named⟩ := denotes
  simp only [dispatch, method, ApiMethod.ofName_name, ApiCall.method]
  refine (matches_withCap named).trans (forall_congr' fun _ => ?_)
  rw [← presenceJson_isSome]
  exact (and_iff_right rfl).trans
    (ApiReply.tells_ok_iff fun plain => toJson_presence ((presenceJson_isSome _).mp plain))

theorem matches_history {channel : String} (denotes : cmd.Denotes (.history channel)) :
    Matches printF64 (dispatch node printF64 cmd s)
      (GrpcApi.serve node (.history channel) s) ↔ (ApiCall.history channel).Plain node s := by
  obtain ⟨method, named⟩ := denotes
  simp only [dispatch, method, ApiMethod.ofName_name, ApiCall.method]
  refine (matches_withCap named).trans (forall_congr' fun _ => ?_)
  rw [← historyJson_isSome]
  exact (and_iff_right rfl).trans
    (ApiReply.tells_ok_iff fun plain => toJson_history ((historyJson_isSome _).mp plain))

theorem matches_presenceStats {channel : String}
    (denotes : cmd.Denotes (.presenceStats channel)) :
    Matches printF64 (dispatch node printF64 cmd s)
      (GrpcApi.serve node (.presenceStats channel) s) := by
  obtain ⟨method, named⟩ := denotes
  simp only [dispatch, method, ApiMethod.ofName_name, ApiCall.method]
  exact (matches_withCap named).mpr fun _ => ⟨rfl, rfl, _, rfl, rfl⟩

theorem matches_historyRemove {channel : String}
    (denotes : cmd.Denotes (.historyRemove channel)) :
    Matches printF64 (dispatch node printF64 cmd s)
      (GrpcApi.serve node (.historyRemove channel) s) := by
  obtain ⟨method, named⟩ := denotes
  simp only [dispatch, method, ApiMethod.ofName_name, ApiCall.method]
  exact (matches_withCap named).mpr fun _ => ⟨rfl, rfl, rfl⟩

theorem matches_iff (denotes : cmd.Denotes call) :
    Matches printF64 (dispatch node printF64 cmd s) (GrpcApi.serve node call s) ↔
      call.Plain node s := by
  cases call with
  | publish channel data => exact matches_publish denotes
  | broadcast names data => exact matches_broadcast denotes
  | unsubscribe user channel => exact iff_of_true (matches_unsubscribe denotes) trivial
  | disconnect user => exact iff_of_true (matches_disconnect denotes) trivial
  | presence channel => exact matches_presence denotes
  | presenceStats channel => exact iff_of_true (matches_presenceStats denotes) trivial
  | history channel => exact matches_history denotes
  | historyRemove channel => exact iff_of_true (matches_historyRemove denotes) trivial
  | channels =>
      simp only [dispatch, denotes.1, ApiMethod.ofName_name, ApiCall.method]
      exact iff_of_true ⟨rfl, rfl, _, rfl, rfl⟩ trivial
  | info =>
      simp only [dispatch, denotes.1, ApiMethod.ofName_name, ApiCall.method]
      exact iff_of_true ⟨rfl, rfl, _, toJson_info _, rfl⟩ trivial
  | rpc name bytes => exact iff_of_true (matches_rpc denotes) trivial

/-- An error of the JSON dispatcher leaves the node as it was. -/
theorem unchanged (refused : (dispatch node printF64 cmd s).2.error.isSome) :
    (dispatch node printF64 cmd s).1 = s := by
  have checked : ∀ {cap : Bool × Bool → Bool} {serve : String → σ × ApiReply},
      (∀ channel, (serve channel).2.error = none) →
      (withCap node cap cmd.id cmd.params s serve).2.error.isSome →
      (withCap node cap cmd.id cmd.params s serve).1 = s := by
    intro cap serve good refused
    unfold withCap at refused ⊢
    repeat' split
    all_goals simp_all
  revert refused
  unfold dispatch
  split
  case h_5 | h_6 | h_7 | h_8 => exact checked fun _ => rfl
  all_goals repeat' split
  all_goals first
    | exact fun _ => rfl
    | exact nofun

end JsonApi

/-! ## Agreement -/

/-- The surfaces agree on a call exactly when the call is plain. -/
theorem agreeing_iff {node : ApiNode σ} {printF64 : F64 → RawValue} {call : ApiCall}
    {cmd : ApiCommand} {cmd' : ApiPb.Command} {s : σ} (json : cmd.Denotes call)
    (protobuf : cmd'.Denotes call) :
    Agreeing node printF64 call cmd cmd' s ↔ call.Plain node s := by
  rw [← JsonApi.matches_iff json]
  constructor
  · exact fun agreeing => agreeing.json
  · intro told
    refine ⟨told, PbApi.tells protobuf, JsonApi.unchanged, ?_, GrpcApi.unchanged call⟩
    intro refused
    obtain ⟨state, error, -⟩ := @PbApi.tells σ node call cmd' s protobuf
    rw [state]
    refine GrpcApi.unchanged call ?_
    rw [error, Option.isSome_map] at refused
    exact refused

namespace Sample

/-- A command to publish some data to the channel `news`. -/
def publishJson (data : RawValue) : ApiCommand where
  method := "publish"
  params := some (.object [("channel", .string "news"), ("data", data)])

def publishPb (data : RawValue) : ApiPb.Command where
  params := encode (⟨"news", dataOf data⟩ : ApiPb.PublishRequest)

end Sample

theorem agreeing_iff_one :
    Agreeing (Sample.node.api "first") (fun _ => .null) (.publish "news" (.number 1))
      (Sample.publishJson (.number 1)) (Sample.publishPb (.number 1)) Sample.apiState := by
  have json : (Sample.publishJson (.number 1)).Denotes (.publish "news" (.number 1)) :=
    ⟨rfl, some (.string "news"), by decide +kernel, by decide +kernel⟩
  have protobuf : (Sample.publishPb (.number 1)).Denotes (.publish "news" (.number 1)) :=
    ⟨rfl, by decide +kernel⟩
  exact (agreeing_iff json protobuf).mpr (.inl (by decide +kernel))

/-- `null` is published over protobuf and refused as JSON. -/
theorem not_agreeing_null :
    (Sample.publishJson .null).Denotes (.publish "news" .null) ∧
      (Sample.publishPb .null).Denotes (.publish "news" .null) ∧
      ¬ Agreeing (Sample.node.api "first") (fun _ => .null) (.publish "news" .null)
        (Sample.publishJson .null) (Sample.publishPb .null) Sample.apiState := by
  refine ⟨⟨rfl, some (.string "news"), by decide +kernel, by decide +kernel⟩,
    ⟨rfl, by decide +kernel⟩, ?_⟩
  intro agreeing
  have errors := agreeing.json.2.1
  revert errors
  decide +kernel

end Centrifugo
