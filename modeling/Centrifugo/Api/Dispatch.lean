import Centrifugo.Api.Messages

/-!
# The three surfaces of the API

The JSON dispatcher, the protobuf dispatcher and the gRPC service, each with checks of its
own. A call gives the state of the node after it and the reply.
-/

namespace Centrifugo

open Json Proto

variable {σ : Type} (node : ApiNode σ)

/-! ## JSON -/

namespace ApiReply

def ok (id : UInt32) (value : Option RawValue) : ApiReply := ⟨id, none, some (value.getD .null)⟩

def void (id : UInt32) : ApiReply := ⟨id, none, none⟩

def err (id : UInt32) (error : Error) : ApiReply := ⟨id, some error, none⟩

end ApiReply

namespace JsonApi

/-- Whether a channel has presence and a history. -/
def channelCaps (id : UInt32) (channel : String) : Except ApiReply (Bool × Bool) :=
  if channel = "" then .error (.err id .badRequest)
  else
    match node.channelOptions channel with
    | some options => .ok (options.presence, options.historyEnabled)
    | none => .error (.err id .namespaceNotFound)

/-- The first channel that is refused. -/
def checkAll (id : UInt32) : List String → Except ApiReply Unit
  | [] => .ok ()
  | channel :: channels =>
      match channelCaps node id channel with
      | .error reply => .error reply
      | .ok _ => checkAll id channels

/-- A command that needs presence, or a history. -/
def withCap (cap : Bool × Bool → Bool) (id : UInt32) (params : Option RawValue) (s : σ)
    (serve : String → σ × ApiReply) : σ × ApiReply :=
  match ChannelReq.parse params with
  | none => (s, .err id .badRequest)
  | some req =>
      match channelCaps node id req.channel with
      | .error reply => (s, reply)
      | .ok caps => if cap caps then serve req.channel else (s, .err id .notAvailable)

def dispatch (printF64 : F64 → RawValue) (cmd : ApiCommand) (s : σ) : σ × ApiReply :=
  match ApiMethod.ofName cmd.method with
  | some .publish =>
      match PublishReq.parse cmd.params with
      | none => (s, .err cmd.id .badRequest)
      | some req =>
          match req.data with
          | none => (s, .err cmd.id .badRequest)
          | some data =>
              match channelCaps node cmd.id req.channel with
              | .error reply => (s, reply)
              | .ok _ => (node.publish req.channel (.ofText data.text) s, .void cmd.id)
  | some .broadcast =>
      match BroadcastReq.parse cmd.params with
      | none => (s, .err cmd.id .badRequest)
      | some req =>
          if req.channels = [] then (s, .err cmd.id .badRequest)
          else
            match req.data with
            | none => (s, .err cmd.id .badRequest)
            | some data =>
                match checkAll node cmd.id req.channels with
                | .error reply => (s, reply)
                | .ok _ =>
                    (req.channels.foldl
                      (fun s channel => node.publish channel (.ofText data.text) s) s,
                      .void cmd.id)
  | some .unsubscribe =>
      match UnsubscribeReq.parse cmd.params with
      | none => (s, .err cmd.id .badRequest)
      | some req =>
          if req.user = "" then (s, .err cmd.id .badRequest)
          else if req.channel = "" then
            (node.unsubscribeUser req.user req.channel s, .void cmd.id)
          else
            match channelCaps node cmd.id req.channel with
            | .error reply => (s, reply)
            | .ok _ => (node.unsubscribeUser req.user req.channel s, .void cmd.id)
  | some .disconnect =>
      match DisconnectReq.parse cmd.params with
      | none => (s, .err cmd.id .badRequest)
      | some req =>
          if req.user = "" then (s, .err cmd.id .badRequest)
          else (node.disconnectUser req.user 3012 "force disconnect" s, .void cmd.id)
  | some .presence =>
      withCap node Prod.fst cmd.id cmd.params s fun channel =>
        let (s, presence) := node.presence channel s
        (s, .ok cmd.id (PresenceResult.toJson ⟨presence⟩))
  | some .presenceStats =>
      withCap node Prod.fst cmd.id cmd.params s fun channel =>
        let (s, numClients, numUsers) := node.presenceStats channel s
        (s, .ok cmd.id (PresenceStatsResult.toJson ⟨numClients, numUsers⟩))
  | some .history =>
      withCap node Prod.snd cmd.id cmd.params s fun channel =>
        let (s, pubs) := node.history channel s
        (s, .ok cmd.id (historyJson (pubs.map Publication.toApi)))
  | some .historyRemove =>
      withCap node Prod.snd cmd.id cmd.params s fun channel =>
        (node.removeHistory channel s, .void cmd.id)
  | some .channels => (s, .ok cmd.id (some (channelsJson (node.channels s))))
  | some .info => (s, .ok cmd.id (some (infoJson printF64 (node.infoNodes s))))
  | some .rpc =>
      match RpcReq.parse cmd.params with
      | none => (s, .err cmd.id .badRequest)
      | some req =>
          if req.method = "" then (s, .err cmd.id .badRequest)
          else (s, .err cmd.id .methodNotFound)
  | none => (s, .err cmd.id .methodNotFound)

end JsonApi

/-! ## gRPC -/

/-- A response of any of the methods. -/
structure ApiResponse where
  error : Option Error
  result : Option ApiResult
  deriving DecidableEq

namespace GrpcApi

def channelCaps (channel : String) : Except Error (Bool × Bool) :=
  if channel = "" then .error .badRequest
  else
    match node.channelOptions channel with
    | some options => .ok (options.presence, options.historyEnabled)
    | none => .error .namespaceNotFound

def refused : Except Error (Bool × Bool) → Option Error
  | .error error => some error
  | .ok _ => none

def publish (req : ApiPb.PublishRequest) (s : σ) : σ × ApiResponse :=
  if req.data = [] then (s, ⟨some .badRequest, none⟩)
  else
    match channelCaps node req.channel with
    | .error error => (s, ⟨some error, none⟩)
    | .ok _ => (node.publish req.channel ⟨req.data⟩ s, ⟨none, none⟩)

def broadcast (req : ApiPb.BroadcastRequest) (s : σ) : σ × ApiResponse :=
  let error :=
    if req.channels = [] ∨ req.data = [] then some .badRequest
    else req.channels.findSome? fun channel => refused (channelCaps node channel)
  if error.isNone then
    (req.channels.foldl (fun s channel => node.publish channel ⟨req.data⟩ s) s, ⟨error, none⟩)
  else (s, ⟨error, none⟩)

def unsubscribe (req : ApiPb.UnsubscribeRequest) (s : σ) : σ × ApiResponse :=
  let error :=
    if req.user = "" then some .badRequest
    else if req.channel = "" then none
    else refused (channelCaps node req.channel)
  if error.isNone then (node.unsubscribeUser req.user req.channel s, ⟨error, none⟩)
  else (s, ⟨error, none⟩)

def disconnect (req : ApiPb.DisconnectRequest) (s : σ) : σ × ApiResponse :=
  let error := if req.user = "" then some .badRequest else none
  if error.isNone then (node.disconnectUser req.user 3012 "force disconnect" s, ⟨error, none⟩)
  else (s, ⟨error, none⟩)

/-- A method that needs presence, or a history. -/
def withCap (cap : Bool × Bool → Bool) (channel : String) (s : σ)
    (serve : σ × Option ApiResult) : σ × ApiResponse :=
  match channelCaps node channel with
  | .error error => (s, ⟨some error, none⟩)
  | .ok caps =>
      if cap caps then (serve.1, ⟨none, serve.2⟩) else (s, ⟨some .notAvailable, none⟩)

def presence (req : ApiPb.ChannelRequest) (s : σ) : σ × ApiResponse :=
  withCap node Prod.fst req.channel s <|
    let (s, presence) := node.presence req.channel s
    (s, some (.presence (presence.toPairs.map fun entry => (entry.1, entry.2.toPb))))

def presenceStats (req : ApiPb.ChannelRequest) (s : σ) : σ × ApiResponse :=
  withCap node Prod.fst req.channel s <|
    let (s, numClients, numUsers) := node.presenceStats req.channel s
    (s, some (.presenceStats numClients numUsers))

def history (req : ApiPb.ChannelRequest) (s : σ) : σ × ApiResponse :=
  withCap node Prod.snd req.channel s <|
    let (s, pubs) := node.history req.channel s
    (s, some (.history (pubs.map Publication.toApiPb)))

def historyRemove (req : ApiPb.ChannelRequest) (s : σ) : σ × ApiResponse :=
  withCap node Prod.snd req.channel s (node.removeHistory req.channel s, none)

def channels (s : σ) : σ × ApiResponse := (s, ⟨none, some (.channels (node.channels s))⟩)

def info (s : σ) : σ × ApiResponse :=
  (s, ⟨none, some (.info ((node.infoNodes s).map NodeInfoData.toApiPb))⟩)

def rpc (req : ApiPb.RpcRequest) (s : σ) : σ × ApiResponse :=
  (s, ⟨some (if req.method = "" then .badRequest else .methodNotFound), none⟩)

end GrpcApi

/-! ## Protobuf -/

namespace PbApi

def reply (id : UInt32) (error : Option Error) (result : Bytes) : Pb.Reply :=
  ⟨id, error.map Error.toPb, result⟩

/-- Decode the parameters of a command. -/
def withParams {μ : Type} [Message μ] (cmd : ApiPb.Command) (s : σ)
    (serve : μ → σ × Pb.Reply) : σ × Pb.Reply :=
  match decode cmd.params with
  | none => (s, reply cmd.id (some .badRequest) [])
  | some req => serve req

/-- A command that needs presence, or a history. -/
def withCap (cap : Bool × Bool → Bool) (cmd : ApiPb.Command) (s : σ)
    (serve : String → σ × Bytes) : σ × Pb.Reply :=
  withParams cmd s fun req : ApiPb.ChannelRequest =>
    match GrpcApi.channelCaps node req.channel with
    | .error error => (s, reply cmd.id (some error) [])
    | .ok caps =>
        if cap caps then
          let served := serve req.channel
          (served.1, reply cmd.id none served.2)
        else (s, reply cmd.id (some .notAvailable) [])

def dispatch (cmd : ApiPb.Command) (s : σ) : σ × Pb.Reply :=
  match ApiMethod.tryFrom cmd.method with
  | some .publish =>
      withParams cmd s fun req : ApiPb.PublishRequest =>
        if req.data = [] then (s, reply cmd.id (some .badRequest) [])
        else
          match GrpcApi.channelCaps node req.channel with
          | .error error => (s, reply cmd.id (some error) [])
          | .ok _ => (node.publish req.channel ⟨req.data⟩ s, reply cmd.id none [])
  | some .broadcast =>
      withParams cmd s fun req : ApiPb.BroadcastRequest =>
        if req.channels = [] ∨ req.data = [] then (s, reply cmd.id (some .badRequest) [])
        else
          match req.channels.findSome? fun channel =>
              GrpcApi.refused (GrpcApi.channelCaps node channel) with
          | some error => (s, reply cmd.id (some error) [])
          | none =>
              (req.channels.foldl (fun s channel => node.publish channel ⟨req.data⟩ s) s,
                reply cmd.id none [])
  | some .unsubscribe =>
      withParams cmd s fun req : ApiPb.UnsubscribeRequest =>
        if req.user = "" then (s, reply cmd.id (some .badRequest) [])
        else if req.channel = "" then
          (node.unsubscribeUser req.user req.channel s, reply cmd.id none [])
        else
          match GrpcApi.channelCaps node req.channel with
          | .error error => (s, reply cmd.id (some error) [])
          | .ok _ => (node.unsubscribeUser req.user req.channel s, reply cmd.id none [])
  | some .disconnect =>
      withParams cmd s fun req : ApiPb.DisconnectRequest =>
        if req.user = "" then (s, reply cmd.id (some .badRequest) [])
        else (node.disconnectUser req.user 3012 "force disconnect" s, reply cmd.id none [])
  | some .presence =>
      withCap node Prod.fst cmd s fun channel =>
        let (s, presence) := node.presence channel s
        (s, (ApiResult.presence
          (presence.toPairs.map fun entry => (entry.1, entry.2.toPb))).encodeToVec)
  | some .presenceStats =>
      withCap node Prod.fst cmd s fun channel =>
        let (s, numClients, numUsers) := node.presenceStats channel s
        (s, (ApiResult.presenceStats numClients numUsers).encodeToVec)
  | some .history =>
      withCap node Prod.snd cmd s fun channel =>
        let (s, pubs) := node.history channel s
        (s, (ApiResult.history (pubs.map Publication.toApiPb)).encodeToVec)
  | some .historyRemove =>
      withCap node Prod.snd cmd s fun channel => (node.removeHistory channel s, [])
  | some .channels =>
      (s, reply cmd.id none (ApiResult.channels (node.channels s)).encodeToVec)
  | some .info =>
      (s, reply cmd.id none
        (ApiResult.info ((node.infoNodes s).map NodeInfoData.toApiPb)).encodeToVec)
  | some .rpc =>
      withParams cmd s fun req : ApiPb.RpcRequest =>
        (s, reply cmd.id (some (if req.method = "" then .badRequest else .methodNotFound)) [])
  | none => (s, reply cmd.id (some .methodNotFound) [])

end PbApi

/-! ## A reply has the id of its command -/

theorem JsonApi.channelCaps_id {node : ApiNode σ} {id : UInt32} {channel : String}
    {reply : ApiReply} (h : channelCaps node id channel = .error reply) :
    ∃ error, reply = .err id error := by
  unfold channelCaps at h
  repeat' split at h
  all_goals cases h
  all_goals exact ⟨_, rfl⟩

theorem JsonApi.checkAll_id {node : ApiNode σ} {id : UInt32} {channels : List String}
    {reply : ApiReply} (h : checkAll node id channels = .error reply) :
    ∃ error, reply = .err id error := by
  induction channels with
  | nil => cases h
  | cons channel channels ih =>
      rw [checkAll] at h
      split at h
      next refused =>
        cases h
        exact channelCaps_id refused
      next => exact ih h

namespace JsonApi

variable {node : ApiNode σ} {id : UInt32} {s : σ}

theorem id_of_channelCaps {channel : String} {reply : ApiReply}
    (h : channelCaps node id channel = .error reply) : reply.id = id := by
  obtain ⟨error, rfl⟩ := channelCaps_id h
  rfl

theorem id_withCap {cap : Bool × Bool → Bool} {params : Option RawValue}
    {serve : String → σ × ApiReply} (served : ∀ channel, (serve channel).2.id = id) :
    (withCap node cap id params s serve).2.id = id := by
  unfold withCap
  repeat' split
  next => rfl
  next refused => exact id_of_channelCaps refused
  next => exact served _
  next => rfl

theorem id_dispatch (node : ApiNode σ) (printF64 : F64 → RawValue) (cmd : ApiCommand) (s : σ) :
    (dispatch node printF64 cmd s).2.id = cmd.id := by
  have caps : ∀ {channel : String} {reply : ApiReply},
      channelCaps node cmd.id channel = .error reply → reply.id = cmd.id := id_of_channelCaps
  unfold dispatch
  split
  case h_5 | h_6 | h_7 | h_8 => exact id_withCap fun _ => rfl
  all_goals repeat' split
  all_goals first
    | rfl
    | exact caps ‹_›
    | skip
  obtain ⟨error, rfl⟩ := checkAll_id ‹_›
  rfl

end JsonApi

namespace PbApi

theorem id_withParams {μ : Type} [Message μ] {cmd : ApiPb.Command} {s : σ}
    {serve : μ → σ × Pb.Reply} (served : ∀ req, (serve req).2.id = cmd.id) :
    (withParams cmd s serve).2.id = cmd.id := by
  unfold withParams
  split
  next => rfl
  next => exact served _

theorem id_withCap (node : ApiNode σ) (cap : Bool × Bool → Bool) (cmd : ApiPb.Command) (s : σ)
    (serve : String → σ × Bytes) : (withCap node cap cmd s serve).2.id = cmd.id := by
  refine id_withParams fun req => ?_
  repeat' split
  all_goals rfl

theorem id_dispatch (node : ApiNode σ) (cmd : ApiPb.Command) (s : σ) :
    (dispatch node cmd s).2.id = cmd.id := by
  unfold dispatch
  split
  case h_5 | h_6 | h_7 | h_8 => exact id_withCap node _ cmd s _
  case h_9 | h_10 | h_12 => rfl
  all_goals
    refine id_withParams fun req => ?_
    repeat' split
    all_goals rfl

end PbApi

end Centrifugo
