import Centrifugo.Json.Lines
import Centrifugo.Protocol.Messages

/-!
# JSON encoding

Every message is an object whose members stand in declaration order; a member with
a zero value is left out where its field says so. Payload bytes are written inline,
which fails when they are not a JSON text. That is the only way an encoder can fail.

Replies are framed one per line. A push is a reply with id 0 whose result is the
encoded push, whose data in turn is the encoded inner message.
-/

namespace Centrifugo

open Json

/-- Payload bytes as inline JSON. -/
def Raw.toJson (raw : Raw) : Option RawValue := raw.text?.bind RawValue.fromString

/-- The members that a message leaves out under a condition. -/
def skipIf (skip : Bool) (name : String) (value : RawValue) : List (String × RawValue) :=
  if skip then [] else [(name, value)]

/-- An optional payload that is left out when absent. -/
def optionalRaw (name : String) : Option Raw → Option (List (String × RawValue))
  | none => some []
  | some raw => raw.toJson.map fun value => [(name, value)]

/-- An optional payload that is written as `null` when absent. -/
def nullableRaw (name : String) : Option Raw → Option (List (String × RawValue))
  | none => some [(name, .null)]
  | some raw => raw.toJson.map fun value => [(name, value)]

def u32 (n : UInt32) : RawValue := .number n.toNat

namespace ClientInfo

def toJson (info : ClientInfo) : Option RawValue := do
  let connInfo ← optionalRaw "conn_info" info.connInfo
  let chanInfo ← optionalRaw "chan_info" info.chanInfo
  some (.object ([("user", .string info.user), ("client", .string info.client)] ++
    connInfo ++ chanInfo))

end ClientInfo

def optionalInfo : Option ClientInfo → Option (List (String × RawValue))
  | none => some []
  | some info => info.toJson.map fun value => [("info", value)]

def Publication.toJson (publication : Publication) : Option RawValue := do
  let data ← nullableRaw "data" publication.data
  let info ← optionalInfo publication.info
  some (.object (skipIf (publication.seq == 0) "seq" (u32 publication.seq) ++
    skipIf (publication.gen == 0) "gen" (u32 publication.gen) ++
    skipIf publication.uid.isEmpty "uid" (.string publication.uid) ++
    data ++ info ++
    skipIf (publication.offset == 0) "offset" (.number publication.offset)))

def Join.toJson (join : Join) : Option RawValue := do
  let info ← join.info.toJson
  some (.object [("info", info)])

def Leave.toJson (leave : Leave) : Option RawValue := do
  let info ← leave.info.toJson
  some (.object [("info", info)])

/-! ## Results -/

def SubscribeResult.toJson (result : SubscribeResult) : Option RawValue := do
  let publications ← result.publications.mapM Publication.toJson
  some (.object (skipIf (!result.expires) "expires" (.bool result.expires) ++
    skipIf (result.ttl == 0) "ttl" (u32 result.ttl) ++
    skipIf (!result.recoverable) "recoverable" (.bool result.recoverable) ++
    skipIf (result.seq == 0) "seq" (u32 result.seq) ++
    skipIf (result.gen == 0) "gen" (u32 result.gen) ++
    skipIf result.epoch.isEmpty "epoch" (.string result.epoch) ++
    skipIf result.publications.isEmpty "publications" (.array publications) ++
    skipIf (!result.recovered) "recovered" (.bool result.recovered) ++
    skipIf (result.offset == 0) "offset" (.number result.offset)))

/-- A map as an object, its entries in map order. -/
def mapToJson {ν : Type} (toJson : ν → Option RawValue) (m : Map String ν) :
    Option RawValue := do
  let members ← m.toPairs.mapM fun (key, value) => (toJson value).map fun json => (key, json)
  some (.object members)

def ConnectResult.toJson (result : ConnectResult) : Option RawValue := do
  let data ← optionalRaw "data" result.data
  let subs ← mapToJson SubscribeResult.toJson result.subs
  some (.object ([("client", .string result.client), ("version", .string result.version)] ++
    skipIf (!result.expires) "expires" (.bool result.expires) ++
    skipIf (result.ttl == 0) "ttl" (u32 result.ttl) ++
    data ++
    skipIf result.subs.entries.isEmpty "subs" subs))

def PresenceResult.toJson (result : PresenceResult) : Option RawValue := do
  let presence ← mapToJson ClientInfo.toJson result.presence
  some (.object [("presence", presence)])

def PresenceStatsResult.toJson (result : PresenceStatsResult) : Option RawValue :=
  some (.object [("num_clients", u32 result.numClients), ("num_users", u32 result.numUsers)])

def HistoryResult.toJson (result : HistoryResult) : Option RawValue := do
  let publications ← result.publications.mapM Publication.toJson
  some (.object [("publications", .array publications)])

def RpcResult.toJson (result : RpcResult) : Option RawValue := do
  let data ← optionalRaw "data" result.data
  some (.object data)

def RefreshResult.toJson (result : RefreshResult) : Option RawValue :=
  some (.object ([("client", .string result.client), ("version", .string result.version)] ++
    skipIf (!result.expires) "expires" (.bool result.expires) ++
    skipIf (result.ttl == 0) "ttl" (u32 result.ttl)))

def SubRefreshResult.toJson (result : SubRefreshResult) : Option RawValue :=
  some (.object (skipIf (!result.expires) "expires" (.bool result.expires) ++
    skipIf (result.ttl == 0) "ttl" (u32 result.ttl)))

def Result.toJson : Result → Option RawValue
  | connect result => result.toJson
  | subscribe result => result.toJson
  | publish => some (.object [])
  | unsubscribe => some (.object [])
  | presence result => result.toJson
  | presenceStats result => result.toJson
  | history result => result.toJson
  | rpc result => result.toJson
  | refresh result => result.toJson
  | subRefresh result => result.toJson

/-! ## Which results can be encoded -/

/-- A list is encoded when each of its items is. -/
theorem mapM_isSome {α β : Type} (f : α → Option β) (items : List α) :
    (items.mapM f).isSome ↔ ∀ item ∈ items, (f item).isSome := by
  induction items with
  | nil => simp
  | cons item items ih =>
      rw [List.mapM_cons, List.forall_mem_cons, ← ih]
      cases f item <;> cases items.mapM f <;> simp

/-- Positions have no part in whether a publication can be encoded. -/
theorem Publication.toJson_isSome_congr {a b : Publication} (data : a.data = b.data)
    (info : a.info = b.info) : a.toJson.isSome = b.toJson.isSome := by
  simp only [Publication.toJson, data, info]
  cases nullableRaw "data" b.data <;> cases optionalInfo b.info <;> rfl

theorem SubscribeResult.toJson_isSome (result : SubscribeResult) :
    result.toJson.isSome ↔ ∀ publication ∈ result.publications, publication.toJson.isSome := by
  rw [← mapM_isSome, SubscribeResult.toJson]
  cases result.publications.mapM Publication.toJson <;> rfl

theorem HistoryResult.toJson_isSome (result : HistoryResult) :
    result.toJson.isSome ↔ ∀ publication ∈ result.publications, publication.toJson.isSome := by
  rw [← mapM_isSome, HistoryResult.toJson]
  cases result.publications.mapM Publication.toJson <;> rfl

/-- A connect result is encoded when its data is, and the result of every channel. -/
theorem ConnectResult.toJson_isSome (result : ConnectResult) :
    result.toJson.isSome ↔ (∀ data, result.data = some data → data.toJson.isSome) ∧
      ∀ entry ∈ result.subs.toPairs, entry.2.toJson.isSome := by
  have members := mapM_isSome (fun entry : String × SubscribeResult =>
    entry.2.toJson.map fun json => (entry.1, json)) result.subs.toPairs
  simp only [Option.isSome_map] at members
  rw [← members, ConnectResult.toJson, mapToJson]
  cases result.data with
  | none =>
      cases result.subs.toPairs.mapM (fun entry : String × SubscribeResult =>
        entry.2.toJson.map fun json => (entry.1, json)) <;> simp [optionalRaw]
  | some data =>
      cases encoded : data.toJson <;>
        cases result.subs.toPairs.mapM (fun entry : String × SubscribeResult =>
          entry.2.toJson.map fun json => (entry.1, json)) <;> simp [optionalRaw, encoded]

/-! ## Envelopes -/

def Error.toJson (error : Error) : RawValue :=
  .object [("code", u32 error.code), ("message", .string error.message)]

def Push.toJson (push : Push) : Option RawValue := do
  let data ← nullableRaw "data" push.data
  some (.object (skipIf (push.type == .publication) "type" (.number push.type.toNat) ++
    skipIf push.channel.isEmpty "channel" (.string push.channel) ++ data))

def Reply.toJson (reply : Reply Raw) : Option RawValue := do
  let result ← optionalRaw "result" reply.result
  some (.object (skipIf (reply.id == 0) "id" (u32 reply.id) ++
    (reply.error.toList.map fun error => ("error", error.toJson)) ++ result))

namespace Codec

/-- A message as payload bytes. -/
def encodeRaw (json : Option RawValue) : Option Raw := json.map fun value => .ofText value.text

/-- One reply and a line break. -/
def encodeReply (reply : Reply Raw) : Option Bytes := do
  let value ← reply.toJson
  some (encodeUtf8 value.text ++ [newlineByte])

/-- Many replies in one buffer. -/
def encodeReplies : List (Reply Raw) → Option Bytes
  | [] => some []
  | reply :: replies => do
      let line ← encodeReply reply
      let buf ← encodeReplies replies
      some (line ++ buf)

/-- The reply that carries a push. -/
def pushReply (push : Push) : Option (Reply Raw) := do
  let result ← encodeRaw push.toJson
  some ⟨0, none, some result⟩

def encodePushFrame (push : Push) : Option Bytes := do
  let reply ← pushReply push
  encodeReplies [reply]

/-- The push around an encoded Publication, Join or Leave. -/
def makePush (channel : String) (type : PushType) (inner : Option RawValue) : Option Push := do
  let data ← encodeRaw inner
  some ⟨type, channel, some data⟩

/-- A push frame around an inner message. -/
def makePushFrame (channel : String) (type : PushType) (inner : Option RawValue) :
    Option Bytes := do
  let push ← makePush channel type inner
  encodePushFrame push

end Codec

end Centrifugo
