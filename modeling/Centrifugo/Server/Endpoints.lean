import Centrifugo.Auth.Claims
import Centrifugo.Server.Config
import Centrifugo.Server.ProxyHttp

/-!
# Identities from endpoints

The connect proxy, the refresh proxy and the subscribe proxy are HTTP endpoints like those for
payloads. A disconnect in a response goes before an error, an error before a result. What is no
response of this form grants nothing, and neither does a status other than 2xx.
-/

namespace Centrifugo

open Json Codec

namespace ProxyHttp

/-! ## Responses -/

structure Response (ρ : Type) where
  result : Option ρ := none
  error : Option ProxyError := none
  disconnect : Option ProxyDisconnect := none

def Response.reader {ρ : Type} (result : StructReader ρ) : StructReader (Response ρ) where
  names := ["result", "error", "disconnect"]
  fields
    | [granted, error, disconnect] => do
        some {
          result := ← decodeOption result.decode granted
          error := ← decodeOption proxyError.decode error
          disconnect := ← decodeOption proxyDisconnect.decode disconnect }
    | _ => none

structure ConnectResult where
  user : String := ""
  expireAt : Int := 0
  info : Option Raw := none
  b64info : Option String := none
  data : Option Raw := none
  b64data : Option String := none
  channels : List String := []

def connectResult : StructReader ConnectResult where
  names := ["user", "expire_at", "info", "b64info", "data", "b64data", "channels"]
  fields
    | [user, expireAt, info, b64info, data, b64data, channels] => do
        some {
          user := ← decodeOr "" decodeText user
          expireAt := ← decodeOr 0 decodeI64 expireAt
          info := ← decodeRaw info
          b64info := ← decodeOption decodeText b64info
          data := ← decodeRaw data
          b64data := ← decodeOption decodeText b64data
          channels := ← decodeOr [] decodeTexts channels }
    | _ => none

structure RefreshResult where
  expired : Bool := false
  expireAt : Int := 0
  info : Option Raw := none
  b64info : Option String := none

def refreshResult : StructReader RefreshResult where
  names := ["expired", "expire_at", "info", "b64info"]
  fields
    | [expired, expireAt, info, b64info] => do
        some {
          expired := ← decodeOr false RawValue.toBool? expired
          expireAt := ← decodeOr 0 decodeI64 expireAt
          info := ← decodeRaw info
          b64info := ← decodeOption decodeText b64info }
    | _ => none

structure SubscribeResult where
  info : Option Raw := none
  b64info : Option String := none

def subscribeResult : StructReader SubscribeResult where
  names := ["info", "b64info"]
  fields
    | [info, b64info] => do
        some { info := ← decodeRaw info, b64info := ← decodeOption decodeText b64info }
    | _ => none

/-- The response to a body, if the endpoint gives one. -/
def post {ρ : Type} (result : StructReader ρ) (endpoint : Endpoint) (attempt : Nat)
    (body : RawValue) : Option (Response ρ) := do
  let text ← endpoint attempt body
  let slots ← readStruct (Response.reader result).names text
  (Response.reader result).fields slots

/-- What a response says, when a result is worth what `granted` makes of it. -/
def Response.outcome {ρ τ : Type} (resp : Response ρ)
    (granted : Option ρ → Option (ProxyOutcome τ)) : Option (ProxyOutcome τ) :=
  match resp.disconnect with
  | some d => some (.disconnect d.code d.reason)
  | none =>
      match resp.error with
      | some e => some (.error e.code e.message)
      | none => granted resp.result

/-! ## Proxies -/

section

variable (format : FloatFormat) (base64 : Base64)

/-- An info or data. A client over JSON takes the raw one only, a client over protobuf only the
one in base64. -/
def decodeGated (raw : Option Raw) (b64 : Option String) (protocol : String) :
    Option (Option Raw) :=
  if protocol = "protobuf" then
    match b64 with
    | some b => if b ≠ "" then (base64.decode b).map fun bytes => some ⟨bytes⟩ else some none
    | none => some none
  else some raw

def connectBody (req : ProxyConnectRequest) : RawValue :=
  Value.toRaw format (.object (putData format base64 (mapOf [
    ("client".toList, .string req.client.toList),
    ("transport".toList, .string req.transport.toList),
    ("protocol".toList, .string req.protocol.toList),
    ("encoding".toList, .string (encoding req.protocol).toList)]) req.data req.protocol))

def refreshBody (req : ProxyRequest) : RawValue :=
  Value.toRaw format (.object (mapOf [
    ("client".toList, .string req.client.toList),
    ("user".toList, .string req.user.toList),
    ("transport".toList, .string req.transport.toList),
    ("protocol".toList, .string req.protocol.toList),
    ("encoding".toList, .string (encoding req.protocol).toList)]))

def subscribeBody (req : ProxyRequest) : RawValue :=
  Value.toRaw format (.object (mapOf [
    ("client".toList, .string req.client.toList),
    ("user".toList, .string req.user.toList),
    ("channel".toList, .string req.channel.toList),
    ("token".toList, .string req.token.toList),
    ("transport".toList, .string req.transport.toList),
    ("protocol".toList, .string req.protocol.toList),
    ("encoding".toList, .string (encoding req.protocol).toList)]))

/-- Without a result there are no credentials. -/
def connect (endpoint : Endpoint) : Proxy ProxyConnectRequest ProxyConnectOutcome :=
  fun attempt req => do
    let resp ← post connectResult endpoint attempt (connectBody format base64 req)
    match resp.disconnect with
    | some d => some (.disconnect d.code d.reason)
    | none =>
        match resp.error with
        | some e => some (.error e.code e.message)
        | none =>
            match resp.result with
            | none => some .noCredentials
            | some result => do
                let info ← decodeGated base64 result.info result.b64info req.protocol
                let data ← decodeGated base64 result.data result.b64data req.protocol
                some (.credentials {
                  user := result.user
                  info := info
                  data := data
                  expireAt := result.expireAt
                  channels := result.channels })

/-- Without a result the session has expired. An info that cannot be decoded is an error of its
own, so that it is not taken for a failed transport. -/
def refresh (endpoint : Endpoint) : Proxy ProxyRequest (ProxyOutcome RefreshCreds) :=
  fun attempt req => do
    let resp ← post refreshResult endpoint attempt (refreshBody format req)
    resp.outcome fun
      | none => some (.result { expired := true })
      | some r =>
          match decodeGated base64 r.info r.b64info req.protocol with
          | some info => some (.result ⟨r.expired, r.expireAt, info⟩)
          | none => some (.error 100 "internal server error")

def subscribe (endpoint : Endpoint) : Proxy ProxyRequest (ProxyOutcome SubscribeCreds) :=
  fun attempt req => do
    let resp ← post subscribeResult endpoint attempt (subscribeBody format req)
    resp.outcome fun result =>
      let r := result.getD {}
      (decodeGated base64 r.info r.b64info req.protocol).map fun info => .result ⟨info⟩

/-- A proxy is there just if its endpoint is not empty. -/
def buildProxies (s : Settings) (http : String → Endpoint) : Proxies :=
  let enabled (endpoint : String) : Option Endpoint :=
    if endpoint ≠ "" then some (http endpoint) else none
  { connect := (enabled s.proxyConnectEndpoint).map (connect format base64)
    refresh := (enabled s.proxyRefreshEndpoint).map (refresh format base64)
    subscribe := (enabled s.proxySubscribeEndpoint).map (subscribe format base64)
    publish := (enabled s.proxyPublishEndpoint).map (publish format base64)
    rpc := (enabled s.proxyRpcEndpoint).map (rpc format base64) }

end

/-! ## What is granted -/

/-- The endpoint answered a body with a result, and neither refused nor disconnected. -/
def Grants {ρ : Type} (reader : StructReader ρ) (endpoint : Endpoint) (attempt : Nat)
    (body : RawValue) (result : ρ) : Prop :=
  ∃ resp, post reader endpoint attempt body = some resp ∧
    resp.disconnect = none ∧ resp.error = none ∧ resp.result = some result

variable {format : FloatFormat} {base64 : Base64} {endpoint : Endpoint} {attempt : Nat}

theorem connect_credentials {req : ProxyConnectRequest} {creds : ProxyConnectReply}
    (granted : connect format base64 endpoint attempt req = some (.credentials creds)) :
    ∃ result, Grants connectResult endpoint attempt (connectBody format base64 req) result ∧
      creds.user = result.user := by
  obtain ⟨resp, posted, granted⟩ := Option.bind_eq_some_iff.mp granted
  split at granted
  next => cases granted
  next noDisconnect =>
    split at granted
    next => cases granted
    next noError =>
      split at granted
      next => cases granted
      next result given =>
        obtain ⟨info, _, granted⟩ := Option.bind_eq_some_iff.mp granted
        obtain ⟨data, _, granted⟩ := Option.bind_eq_some_iff.mp granted
        cases granted
        exact ⟨result, ⟨resp, posted, noDisconnect, noError, given⟩, rfl⟩

theorem refresh_result {req : ProxyRequest} {creds : RefreshCreds}
    (granted : refresh format base64 endpoint attempt req = some (.result creds))
    (valid : creds.expired = false) :
    ∃ result, Grants refreshResult endpoint attempt (refreshBody format req) result ∧
      result.expired = false ∧ result.expireAt = creds.expireAt := by
  obtain ⟨resp, posted, granted⟩ := Option.bind_eq_some_iff.mp granted
  unfold Response.outcome at granted
  split at granted
  next => cases granted
  next noDisconnect =>
    split at granted
    next => cases granted
    next noError =>
      dsimp only at granted
      split at granted
      next =>
        cases granted
        cases valid
      next result given =>
        split at granted
        next =>
          cases granted
          exact ⟨result, ⟨resp, posted, noDisconnect, noError, given⟩, valid, rfl⟩
        next => cases granted

section

variable {s : Settings} {http : String → Endpoint}

/-- The connect proxy of a node that is built from its settings. -/
theorem connect_buildProxies {proxy : Proxy ProxyConnectRequest ProxyConnectOutcome}
    (configured : (buildProxies format base64 s http).connect = some proxy) :
    s.proxyConnectEndpoint ≠ "" ∧ proxy = connect format base64 (http s.proxyConnectEndpoint) := by
  obtain ⟨endpoint, enabled, rfl⟩ := Option.map_eq_some_iff.mp configured
  obtain ⟨named, same⟩ := Option.ite_none_right_eq_some.mp enabled
  cases same
  exact ⟨named, rfl⟩

theorem refresh_buildProxies (named : s.proxyRefreshEndpoint ≠ "") :
    (buildProxies format base64 s http).refresh =
      some (refresh format base64 (http s.proxyRefreshEndpoint)) :=
  congrArg (Option.map (refresh format base64)) (if_pos named)

end

end ProxyHttp

end Centrifugo
