import Centrifugo.Core.Client.Commands
import Centrifugo.Json.Value
import Centrifugo.Protocol.Requests

/-!
# Payloads sent to the proxies

The publish proxy and the RPC proxy are HTTP endpoints. A payload over JSON is read as a value, and
the value is printed again in the body of the request; what cannot be read, and what comes over
protobuf, goes as base64. Unless the endpoint answers with a payload, the client's own bytes are
published. So endpoint and subscribers see the same value just if reading and printing keeps it.
-/

namespace Centrifugo

open Json Codec

/-- What the base64 package does. -/
structure Base64 where
  encode : Bytes → String
  decode : String → Option Bytes
  decode_encode : ∀ bytes, decode (encode bytes) = some bytes

namespace ProxyOutcome

/-- Another result. -/
def map {σ τ : Type} (f : σ → τ) : ProxyOutcome σ → ProxyOutcome τ
  | .result value => .result (f value)
  | .error code message => .error code message
  | .disconnect code reason => .disconnect code reason

end ProxyOutcome

namespace ProxyHttp

variable (format : FloatFormat) (base64 : Base64)

/-! ## Requests -/

def encoding (protocol : String) : String := if protocol = "protobuf" then "binary" else "json"

/-- Payloads over JSON go as values, all others as base64. -/
def putData (map : List (Text × Value format)) (data : Option Raw) (protocol : String) :
    List (Text × Value format) :=
  match data with
  | none => map
  | some d =>
      match (if protocol ≠ "protobuf" then d.text?.bind (Value.ofText format) else none) with
      | some v => insertMember map ("data".toList, v)
      | none => insertMember map ("b64data".toList, .string (base64.encode d.bytes).toList)

/-- A request about a subject of some name, without its payload. -/
def subjectMap (name subject : String) (req : ProxyRequest) : List (Text × Value format) :=
  mapOf [
    ("client".toList, .string req.client.toList),
    ("user".toList, .string req.user.toList),
    (name.toList, .string subject.toList),
    ("transport".toList, .string req.transport.toList),
    ("protocol".toList, .string req.protocol.toList),
    ("encoding".toList, .string (encoding req.protocol).toList)]

def requestBody (name subject : String) (req : ProxyRequest) : RawValue :=
  Value.toRaw format
    (.object (putData format base64 (subjectMap format name subject req) req.data req.protocol))

def publishBody (req : ProxyRequest) : RawValue :=
  requestBody format base64 "channel" req.channel req

def rpcBody (req : ProxyRequest) : RawValue :=
  requestBody format base64 "method" req.method req

/-! ## Responses -/

structure DataResult where
  data : Option Raw := none
  b64data : Option String := none
  deriving DecidableEq

structure ProxyError where
  code : UInt32 := 0
  message : String := ""
  deriving DecidableEq

structure ProxyDisconnect where
  code : UInt32 := 0
  reason : String := ""
  deriving DecidableEq

structure PublishResponse where
  result : Option DataResult := none
  error : Option ProxyError := none
  disconnect : Option ProxyDisconnect := none
  deriving DecidableEq

def dataResult : StructReader DataResult where
  names := ["data", "b64data"]
  fields
    | [data, b64data] => do
        some { data := ← decodeRaw data, b64data := ← decodeOption decodeText b64data }
    | _ => none

def proxyError : StructReader ProxyError where
  names := ["code", "message"]
  fields
    | [code, message] => do
        some { code := ← decodeOr 0 decodeU32 code, message := ← decodeOr "" decodeText message }
    | _ => none

def proxyDisconnect : StructReader ProxyDisconnect where
  names := ["code", "reason"]
  fields
    | [code, reason] => do
        some { code := ← decodeOr 0 decodeU32 code, reason := ← decodeOr "" decodeText reason }
    | _ => none

def publishResponse : StructReader PublishResponse where
  names := ["result", "error", "disconnect"]
  fields
    | [result, error, disconnect] => do
        some {
          result := ← decodeOption dataResult.decode result
          error := ← decodeOption proxyError.decode error
          disconnect := ← decodeOption proxyDisconnect.decode disconnect }
    | _ => none

/-- A payload in its own text is preferred to one in base64. -/
def decodePublishData (raw : Option Raw) (b64 : Option String) : Option (Option Raw) :=
  match raw with
  | some r => some (some r)
  | none =>
      match b64 with
      | some b => if b ≠ "" then (base64.decode b).map fun bytes => some ⟨bytes⟩ else some none
      | none => some none

/-- What a response says. A disconnect goes before an error, an error before a result. -/
def PublishResponse.outcome (resp : PublishResponse) : Option (ProxyOutcome (Option Raw)) :=
  match resp.disconnect with
  | some d => some (.disconnect d.code d.reason)
  | none =>
      match resp.error with
      | some e => some (.error e.code e.message)
      | none =>
          let r := resp.result.getD {}
          (decodePublishData base64 r.data r.b64data).map .result

/-- The text of a response of status 2xx. -/
abbrev Endpoint := Nat → RawValue → Option Text

def response (endpoint : Endpoint) (attempt : Nat) (body : RawValue) : Option PublishResponse := do
  let text ← endpoint attempt body
  let slots ← readStruct publishResponse.names text
  publishResponse.fields slots

def ask (endpoint : Endpoint) (attempt : Nat) (body : RawValue) :
    Option (ProxyOutcome (Option Raw)) :=
  (response endpoint attempt body).bind (PublishResponse.outcome base64)

def publish (endpoint : Endpoint) : Proxy ProxyRequest (ProxyOutcome PublishData) :=
  fun attempt req =>
    (ask base64 endpoint attempt (publishBody format base64 req)).map (.map PublishData.mk)

def rpc (endpoint : Endpoint) : Proxy ProxyRequest (ProxyOutcome RpcData) :=
  fun attempt req =>
    (ask base64 endpoint attempt (rpcBody format base64 req)).map (.map RpcData.mk)

/-! ## What an endpoint is told -/

/-- A body tells a payload, as the same value or as its bytes. -/
def Conveys (payload : Option Raw) (body : RawValue) : Prop :=
  ∃ members, readObject body.text = some members ∧
    match payload with
    | none => field "data" members = some none ∧ field "b64data" members = some none
    | some raw =>
        (∃ value sent, raw.toJson = some value ∧ field "data" members = some (some sent) ∧
          Value.SameText value sent) ∨
        ∃ text, field "b64data" members = some (some (.string text)) ∧
          base64.decode text = some raw.bytes

/-- A payload that is exact, if it can be read at all. -/
def Kept (raw : Raw) : Prop :=
  ∀ value, raw.toJson = some value → (Value.ofText format value.text).isSome →
    Value.Exact format value

variable {format base64}

theorem readable_iff {raw : Raw} {v : Value format} :
    raw.text?.bind (Value.ofText format) = some v ↔
      ∃ value, raw.toJson = some value ∧ Value.ofText format value.text = some v := by
  simp only [Raw.toJson, Option.bind_eq_some_iff, Value.ofText_eq_some]
  constructor
  · rintro ⟨text, decoded, value, t, made, taken, converted⟩
    exact ⟨value, ⟨text, decoded, made⟩, value, t, RawValue.fromString_text value, taken, converted⟩
  · rintro ⟨value, ⟨text, decoded, made⟩, value', t, made', taken, converted⟩
    rw [RawValue.fromString_text] at made'
    cases made'
    exact ⟨text, decoded, value, t, made, taken, converted⟩

section

variable {map : List (Text × Value format)} {v : Value format} {name other : String}

/-- The members of a map when it is printed. -/
def printed (map : List (Text × Value format)) : List (Text × RawValue) :=
  map.map fun m => (m.1, m.2.toRaw format)

theorem readObject_toRaw :
    readObject (Value.toRaw format (.object map)).text = some (printed map) := by
  rw [Value.toRaw, Tree.print_object, readObject_object]
  simp [printed, Value.toRaw]

theorem names_printed : (printed map).map Prod.fst = map.map Prod.fst := by
  rw [printed, List.map_map]
  rfl

theorem field_printed_absent (absent : name.toList ∉ map.map Prod.fst) :
    field name (printed map) = some none :=
  field_of_notMem (names_printed ▸ absent)

theorem field_printed_insertMember (nodup : (map.map Prod.fst).Nodup) :
    field name (printed (insertMember map (name.toList, v))) = some (some (v.toRaw format)) := by
  have mem : (name.toList, v) ∈ insertMember map (name.toList, v) :=
    (insertMember_perm map _).mem_iff.mpr List.mem_cons_self
  have unique := nodup_insertMember nodup (m := (name.toList, v))
  obtain ⟨front, back, split⟩ := List.append_of_mem mem
  rw [split, List.map_append, List.map_cons, List.nodup_middle, List.nodup_cons,
    ← List.map_append, ← names_printed] at unique
  rw [split, printed, List.map_append, List.map_cons]
  refine field_inserted ?_
  rw [← List.map_append]
  exact unique.1

theorem field_printed_insertMember_ne (differs : name ≠ other)
    (absent : name.toList ∉ map.map Prod.fst) :
    field name (printed (insertMember map (other.toList, v))) = some none := by
  refine field_printed_absent ?_
  rw [mem_names_insertMember, not_or]
  exact ⟨by simpa [String.toList_inj] using differs, absent⟩

end

theorem absent_subjectMap {name subject other : String} {req : ProxyRequest}
    (other_mem : other = "data" ∨ other = "b64data") (apart : name ≠ other) :
    other.toList ∉ (subjectMap format name subject req).map Prod.fst := by
  rw [subjectMap, mem_names_mapOf]
  have differs : other.toList ≠ name.toList := by
    simpa [String.toList_inj] using apart.symm
  obtain rfl | rfl := other_mem <;>
    simp only [List.map_cons, List.map_nil, List.mem_cons, differs, List.not_mem_nil, or_false,
      false_or] <;> decide

/-- Over JSON a body tells its payload just if that is kept. Over protobuf it always does. -/
theorem conveys_requestBody_iff {name subject : String} {req : ProxyRequest}
    (apart : name ≠ "data" ∧ name ≠ "b64data") :
    Conveys base64 req.data (requestBody format base64 name subject req) ↔
      (req.protocol ≠ "protobuf" → ∀ raw ∈ req.data, Kept format raw) := by
  have noData := @absent_subjectMap format name subject "data" req (.inl rfl) apart.1
  have noBase64 := @absent_subjectMap format name subject "b64data" req (.inr rfl) apart.2
  have nodup : ((subjectMap format name subject req).map Prod.fst).Nodup := nodup_mapOf _
  simp only [Conveys, requestBody, readObject_toRaw, Option.some.injEq, exists_eq_left']
  cases given : req.data with
  | none =>
      refine iff_of_true ⟨field_printed_absent noData, field_printed_absent noBase64⟩ ?_
      intro _ raw mem
      cases mem
  | some raw =>
      simp only [Option.mem_some_iff, forall_eq', putData]
      cases readable :
        (if req.protocol ≠ "protobuf" then raw.text?.bind (Value.ofText format) else none) with
      | none =>
          refine iff_of_true (.inr ⟨_, field_printed_insertMember nodup, ?_⟩) ?_
          · rw [String.ofList_toList]
            exact base64.decode_encode raw.bytes
          · intro json value parsed taken
            obtain ⟨v, taken⟩ := Option.isSome_iff_exists.mp taken
            rw [if_pos json] at readable
            cases readable.symm.trans (readable_iff.mpr ⟨value, parsed, taken⟩)
      | some v =>
          obtain ⟨json, read⟩ := Option.ite_none_right_eq_some.mp readable
          obtain ⟨value, parsed, taken⟩ := readable_iff.mp read
          have here : field "data" (printed (insertMember (subjectMap format name subject req)
              ("data".toList, v))) = some (some (v.toRaw format)) :=
            field_printed_insertMember nodup
          have nowhere : field "b64data" (printed (insertMember
              (subjectMap format name subject req) ("data".toList, v))) = some none :=
            field_printed_insertMember_ne (by decide) noBase64
          have same := Value.sameText_toRaw_iff taken
          constructor
          · rintro (⟨value', sent, parsed', found, told⟩ | ⟨text, found, -⟩)
            · cases parsed.symm.trans parsed'
              cases here.symm.trans found
              intro _ value' parsed' _
              cases parsed.symm.trans parsed'
              exact same.mp told
            · cases nowhere.symm.trans found
          · intro kept
            exact .inl ⟨value, _, parsed, here,
              same.mpr (kept json value parsed (Option.isSome_of_eq_some taken))⟩

/-! ## What is published -/

/-- A result in which there is no payload. -/
def PublishResponse.WithoutData (resp : PublishResponse) : Prop :=
  resp.disconnect = none ∧ resp.error = none ∧
    ∀ r ∈ resp.result, r.data = none ∧ (r.b64data = none ∨ r.b64data = some "")

theorem PublishResponse.WithoutData.outcome {resp : PublishResponse} (nothing : resp.WithoutData) :
    resp.outcome base64 = some (.result none) := by
  obtain ⟨noDisconnect, noError, noData⟩ := nothing
  unfold PublishResponse.outcome
  rw [noDisconnect, noError]
  cases given : resp.result with
  | none => rfl
  | some r =>
      obtain ⟨absent, empty⟩ := noData r given
      simp only [Option.getD_some, absent]
      obtain empty | empty := empty <;> rw [empty] <;> rfl

/-- A payload that is forwarded. -/
inductive Forwarded
  | publish (channel : String) (data : Raw)
  | rpc (method : String) (data : Option Raw)

namespace Forwarded

def payload : Forwarded → Option Raw
  | publish _ data => some data
  | rpc _ data => data

variable (format : FloatFormat) (base64 : Base64)

/-- The body with which a session asks its endpoint. -/
def body (s : Session) : Forwarded → RawValue
  | publish channel data => publishBody format base64
      { s.client.proxyRequest with channel := channel, data := some data }
  | rpc method data => rpcBody format base64
      { s.client.proxyRequest with method := method, data := data }

end Forwarded

section

variable (format : FloatFormat) (base64 : Base64) (s : Session) (node : Node) (cmd : Command)
  (endpoint : Endpoint)

/-- The payloads that a command makes a session forward: of every RPC, and over JSON of a PUBLISH
that passes its checks on a channel with `proxy_publish`. -/
inductive Forwards : Forwarded → Prop
  | publish {req : PublishRequest} {data : Raw} {opts : ChannelOptions}
      (configured : node.proxies.publish = some (publish format base64 endpoint))
      (json : s.client.proto = .json)
      (decoded : parseParams node.decoders.publish {} s.client.proto cmd.params = some req)
      (given : req.data = some data) (nonempty : data.bytes ≠ []) (named : req.channel ≠ "")
      (known : node.channelOptions req.channel = some opts)
      (permitted : opts.publish || node.clientInsecure)
      (subscribed : !opts.subscribeToPublish || s.client.isSubscribed req.channel)
      (proxied : opts.proxyPublish) : Forwards (.publish req.channel data)
  | rpc {req : RpcRequest} (configured : node.proxies.rpc = some (rpc format base64 endpoint))
      (decoded : parseParams node.decoders.rpc {} s.client.proto cmd.params = some req) :
      Forwards (.rpc req.method req.data)

/-- The endpoint is told the payload, and what is published when it answers without one is the
payload. -/
def Agrees (f : Forwarded) : Prop :=
  Conveys base64 f.payload (f.body format base64 s) ∧
    ∀ channel data, f = .publish channel data → ∀ readings resp,
      response endpoint readings.attempt (f.body format base64 s) = some resp →
      resp.WithoutData →
      s.onPublish node readings cmd = s.applyPublish node readings cmd channel data

variable {format base64 s node cmd endpoint}

theorem protocol_ne_iff : s.client.proxyRequest.protocol ≠ "protobuf" ↔ s.client.proto = .json := by
  cases proto : s.client.proto <;> simp [Client.proxyRequest, Client.protocolName, proto]

theorem conveys_body_iff {f : Forwarded} :
    Conveys base64 f.payload (f.body format base64 s) ↔
      (s.client.proto = .json → ∀ raw ∈ f.payload, Kept format raw) := by
  rw [← protocol_ne_iff]
  cases f with
  | publish channel data => exact conveys_requestBody_iff (by decide)
  | rpc method data => exact conveys_requestBody_iff (by decide)

/-- A result without a payload leaves the payload that was forwarded. -/
theorem onPublish_of_withoutData {channel : String} {data : Raw} {readings : Readings}
    {resp : PublishResponse}
    (forwards : Forwards format base64 s node cmd endpoint (.publish channel data))
    (answered : response endpoint readings.attempt
      ((Forwarded.publish channel data).body format base64 s) = some resp)
    (nothing : resp.WithoutData) :
    s.onPublish node readings cmd = s.applyPublish node readings cmd channel data := by
  cases forwards with
  | @publish req _ opts configured json decoded given nonempty named known permitted subscribed
      proxied =>
      have asked : s.publishByProxy node readings req.channel data = .ok data := by
        have answer : publish format base64 endpoint readings.attempt
            { s.client.proxyRequest with channel := req.channel, data := some data } =
              some (.result ⟨none⟩) := by
          change ((response endpoint readings.attempt
            ((Forwarded.publish req.channel data).body format base64 s)).bind _).map _ = _
          rw [answered, Option.bind_some, nothing.outcome]
          rfl
        rw [Session.publishByProxy, configured, Guard.require_some_bind]
        dsimp only at answer ⊢
        rw [answer]
        rfl
      have granted : s.checkPublish node readings cmd = .ok (req.channel, data) := by
        refine Guard.require_bind.mpr ⟨req, decoded, Guard.require_bind.mpr ⟨data, ?_, ?_⟩⟩
        · simpa [given] using nonempty
        refine Guard.demand_bind.mpr ⟨decide_eq_true named, ?_⟩
        refine Guard.require_bind.mpr ⟨opts, known, ?_⟩
        refine Guard.demand_bind.mpr ⟨permitted, Guard.demand_bind.mpr ⟨subscribed, ?_⟩⟩
        exact (if_pos proxied).trans (Guard.bind_eq_ok.mpr ⟨data, asked, rfl⟩)
      rw [Session.onPublish, granted]
      rfl

/-- A session and its endpoint agree on what is forwarded over protobuf, and over JSON just if the
payload is kept. -/
theorem forwards_agrees_iff {f : Forwarded}
    (forwards : Forwards format base64 s node cmd endpoint f) :
    Agrees format base64 s node cmd endpoint f ↔
      (s.client.proto = .json → ∀ raw ∈ f.payload, Kept format raw) := by
  rw [← conveys_body_iff, Agrees, and_iff_left]
  rintro channel data rfl readings resp answered nothing
  exact onPublish_of_withoutData forwards answered nothing

end

/-! ## An endpoint that lets everything through -/

namespace Sample

/-- The text of a value, out of some characters. -/
def fraction : RawValue := ⟨"0.10000000000000000001".toList, by decide⟩

/-- One float. -/
def tenth : FloatFormat where
  F := Unit
  parse text := if text = fraction.text then some () else none
  print _ := ⟨"0.1".toList, by decide⟩
  decimal _ := by decide +kernel

/-- A code that can be undone. -/
def bytewise : Base64 where
  encode bytes := String.ofList (bytes.map fun byte => Char.ofNat byte.toNat)
  decode text := some (text.toList.map fun c => UInt8.ofNat c.toNat)
  decode_encode bytes := by
    have all : ∀ n < 256, (Char.ofNat n).toNat = n := by decide +kernel
    have same : ∀ byte : UInt8, UInt8.ofNat (Char.ofNat byte.toNat).toNat = byte := by
      intro byte
      rw [all byte.toNat byte.toNat_lt, UInt8.ofNat_toNat]
    simp [Function.comp_def, same]

def silent : Endpoint := fun _ _ => some "\x7b\"result\":\x7b\x7d\x7d".toList

def node : Node :=
  { Centrifugo.Sample.node with
    namespaces := { default := { publish := true, proxyPublish := true } }
    proxies := { publish := some (publish tenth bytewise silent) }
    decoders := { Centrifugo.Sample.decoders with
      publish := fun _ raw => RequestType.publish.decodeParams (some raw) } }

def session : Session :=
  { Centrifugo.Sample.session with
    client := { Centrifugo.Sample.session.client with proto := .json } }

/-- A PUBLISH to news. -/
def command (data : RawValue) : Command where
  id := 1
  method := .publish
  params := some (.ofText (RawValue.object [("channel", .string "news"), ("data", data)]).text)

theorem decode_command {data : RawValue} (given : data ≠ .null) :
    parseParams node.decoders.publish {} session.client.proto (command data).params =
      some { channel := "news", data := some (.ofText data.text) } := by
  have read : readStruct ["channel", "data"]
      (RawValue.object [("channel", .string "news"), ("data", data)]).text =
        some [some (.string "news"), some data] := by
    rw [readStruct, readObject_object]
    simp [field]
  have channel : decodeOr "" decodeText (some (.string "news")) = some "news" := by
    decide +kernel
  have payload : decodeRaw (some data) = some (some (.ofText data.text)) := if_neg given
  have fields : publishRequest.fields [some (.string "news"), some data] =
      some { channel := "news", data := some (.ofText data.text) } := by
    simp only [publishRequest, channel, payload, Option.bind_eq_bind, Option.bind_some]
  have decoded : publishRequest.decode (.object [("channel", .string "news"), ("data", data)]) =
      some { channel := "news", data := some (.ofText data.text) } := by
    rw [StructReader.decode, publishRequest, read]
    exact fields
  simp only [parseParams, command, node]
  rw [RequestType.decodeParams_ofText]
  exact decoded

theorem forwards {data : RawValue} (given : data ≠ .null) :
    Forwards tenth bytewise session node (command data) silent
      (.publish "news" (.ofText data.text)) := by
  have nonempty : (Raw.ofText data.text).bytes ≠ [] := by
    intro empty
    have decoded := Raw.text?_ofText data.text
    rw [Raw.text?, empty] at decoded
    exact data.text_ne_nil (Option.some.inj decoded).symm
  have known : node.channelOptions "news" = some { publish := true, proxyPublish := true } := by
    decide +kernel
  exact @Forwards.publish tenth bytewise session node (command data) silent
    { channel := "news", data := some (.ofText data.text) } _ _ rfl rfl (decode_command given) rfl
    nonempty (decide_eq_true_iff.mp rfl) known rfl rfl rfl

/-- A name twice. -/
def twice : RawValue := .object [("a", .number 1), ("a", .number 2)]

/-- The reserved name. -/
def reserved : RawValue := .object [("$serde_json::private::RawValue", .string "1")]

theorem read_fraction : Tree.read Value.depthLimit fraction = some (.number fraction.text) :=
  Tree.read_of_readScalar (Tree.readScalar_number (by decide +kernel)) _

theorem read_twice : Tree.read Value.depthLimit twice = some (.object
    [("a".toList, .number "1".toList), ("a".toList, .number "2".toList)]) := by
  have one : Tree.read 126 (.number 1) = some (.number "1".toList) :=
    Tree.read_of_readScalar (Tree.readScalar_number (by decide +kernel)) _
  have two : Tree.read 126 (.number 2) = some (.number "2".toList) :=
    Tree.read_of_readScalar (Tree.readScalar_number (by decide +kernel)) _
  rw [twice, Value.depthLimit, Tree.read_object]
  simp [one, two]

theorem read_reserved : Tree.read Value.depthLimit reserved = some (.object
    [("$serde_json::private::RawValue".toList, .string "1".toList)]) := by
  have one : Tree.read 126 (.string "1") = some (.string "1".toList) :=
    Tree.read_of_readScalar (Tree.readScalar_string ['1']) _
  rw [reserved, Value.depthLimit, Tree.read_object]
  simp [one]

end Sample

theorem forwards_agrees_iff_twice :
    Agrees Sample.tenth Sample.bytewise Sample.session Sample.node (Sample.command Sample.twice)
        Sample.silent (.publish "news" (.ofText Sample.twice.text)) ↔
      (Sample.session.client.proto = .json →
        ∀ raw ∈ some (Raw.ofText Sample.twice.text), Kept Sample.tenth raw) :=
  forwards_agrees_iff (Sample.forwards (by decide))

/-- The endpoint lets a payload through of which it was told something else. -/
def Sample.Diverges (data : RawValue) : Prop :=
  Forwards tenth bytewise session node (command data) silent
      (.publish "news" (.ofText data.text)) ∧
    ¬ Agrees tenth bytewise session node (command data) silent
      (.publish "news" (.ofText data.text))

theorem diverges_of_not_exact {data : RawValue} {t : Json.Tree Text} {v : Value Sample.tenth}
    (given : data ≠ .null) (taken : Tree.read Value.depthLimit data = some t)
    (converted : t.convert (Value.reading Sample.tenth) = some v)
    (differs : ¬ t.Exact Value.token fun text => ∀ x, Number.parse Sample.tenth text =
      some (.float x) → SameNumber text (Sample.tenth.print x).text) : Sample.Diverges data := by
  refine ⟨Sample.forwards given, ?_⟩
  rintro ⟨conveyed, -⟩
  have read : Value.ofText Sample.tenth data.text = some v :=
    Value.ofText_eq_some.mpr ⟨data, t, RawValue.fromString_text data, taken, converted⟩
  have kept := conveys_body_iff.mp conveyed rfl _ rfl data (Raw.toJson_ofText data)
    (Option.isSome_of_eq_some read)
  exact differs (kept t taken)

/-- The endpoint is told 0.1 for a longer fraction, an object of one member for one of two, and 1
for an object that begins with the reserved name. -/
theorem not_forwards_agrees :
    Sample.Diverges Sample.fraction ∧ Sample.Diverges Sample.twice ∧
      Sample.Diverges Sample.reserved := by
  refine ⟨?_, ?_, ?_⟩
  · refine diverges_of_not_exact (by decide) Sample.read_fraction rfl fun exactly => ?_
    obtain ⟨q, long, short⟩ := exactly () rfl
    have differ : readDecimal Sample.fraction.text ≠ readDecimal "0.1".toList := by
      decide +kernel
    exact differ (long.trans short.symm)
  · refine diverges_of_not_exact (by decide) Sample.read_twice rfl fun exactly => ?_
    exact absurd (Tree.exact_object.mp exactly).2.1 (by decide)
  · refine diverges_of_not_exact (by decide) Sample.read_reserved rfl fun exactly => ?_
    exact (Tree.exact_object.mp exactly).1 rfl

end ProxyHttp

end Centrifugo
