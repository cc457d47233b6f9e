import Centrifugo.Core.Client
import Centrifugo.Data.Guard

/-!
# Commands

One handler for each method. A handler first checks a command, without any effect,
and then applies what the checks granted. A check that fails refuses the command, with
an error reply or with a disconnect.

Parameters are decoded in the format of the connection, and absent parameters stand
for a default request. A result that cannot be encoded becomes an internal error.
-/

namespace Centrifugo

open Guard

/-- The replies to a command, and the disconnect when it closes the connection. -/
structure CommandOutcome where
  replies : List (Reply Result) := []
  disconnect : Option Disconnect := none
  deriving DecidableEq

/-- Why a command is refused. -/
inductive Refusal
  | error (error : Error)
  | close (disconnect : Disconnect)
  deriving DecidableEq

namespace CommandOutcome

def reply (reply : Reply Result) : CommandOutcome := ⟨[reply], none⟩

def refuse (id : UInt32) : Refusal → CommandOutcome
  | .error error => ⟨[.err id error], none⟩
  | .close disconnect => ⟨[], some disconnect⟩

/-- An outcome with an error reply or a disconnect. -/
def failed (outcome : CommandOutcome) : Bool :=
  outcome.disconnect.isSome || outcome.replies.any fun reply => reply.error.isSome

@[simp] theorem failed_refuse (id : UInt32) (refusal : Refusal) : (refuse id refusal).failed := by
  cases refusal <;> rfl

theorem refuse_ne_ok (id : UInt32) (refusal : Refusal) (result : Result) :
    refuse id refusal ≠ reply (.ok id result) := by
  cases refusal <;> simp [refuse, reply, Reply.err, Reply.ok]

end CommandOutcome

/-- A check of a command. -/
abbrev Check := Except Refusal

/-- The request of a command; without parameters it is the default one. -/
def parseParams {ρ : Type} (decode : ProtocolType → Raw → Option ρ) (default : ρ)
    (proto : ProtocolType) : Option Raw → Option ρ
  | none => some default
  | some raw => decode proto raw

/-- Whether a result can be encoded. Protobuf encoding always succeeds. -/
def Result.encodable (proto : ProtocolType) (result : Result) : Bool :=
  proto = .protobuf || result.toJson.isSome

def okReply (proto : ProtocolType) (id : UInt32) (result : Result) : Reply Result :=
  if result.encodable proto then .ok id result else .err id .internal

/-! ## Positions -/

/-- The position a client resumes from, sent as seq and gen or as an offset. -/
def SubscribeRequest.position (req : SubscribeRequest) : Nat :=
  if req.seq > 0 || req.gen > 0 then packOffset req.seq req.gen else req.offset.toNat

/-- Report the top of a stream. -/
def encodePosition (result : SubscribeResult) (offset : Nat) (useSeqGen : Bool) :
    SubscribeResult :=
  if useSeqGen then
    { result with seq := (unpackOffset offset).1, gen := (unpackOffset offset).2 }
  else { result with offset := offset }

@[simp] theorem encodePosition_recovered (result : SubscribeResult) (offset : Nat)
    (useSeqGen : Bool) : (encodePosition result offset useSeqGen).recovered = result.recovered := by
  cases useSeqGen <;> rfl

@[simp] theorem encodePosition_publications (result : SubscribeResult) (offset : Nat)
    (useSeqGen : Bool) :
    (encodePosition result offset useSeqGen).publications = result.publications := by
  cases useSeqGen <;> rfl

@[simp] theorem encodePosition_expires (result : SubscribeResult) (offset : Nat)
    (useSeqGen : Bool) : (encodePosition result offset useSeqGen).expires = result.expires := by
  cases useSeqGen <;> rfl

@[simp] theorem encodePosition_ttl (result : SubscribeResult) (offset : Nat)
    (useSeqGen : Bool) : (encodePosition result offset useSeqGen).ttl = result.ttl := by
  cases useSeqGen <;> rfl

namespace Session

/-- Apply what the check of a command grants. A refused command has no effect. -/
def handle {α : Type} (s : Session) (cmd : Command) (check : Check α)
    (apply : α → Session × CommandOutcome) : Session × CommandOutcome :=
  match check with
  | .ok granted => apply granted
  | .error refusal => (s, .refuse cmd.id refusal)

/-! ## CONNECT -/

/-- The identity of a connection, from a token, from the connect proxy or anonymous. -/
abbrev Creds := ProxyConnectReply

def connectProxyRequest (s : Session) (id : ClientId) (req : ConnectRequest) :
    ProxyConnectRequest where
  client := id
  transport := s.client.transport
  protocol := s.client.protocolName
  data := req.data

/-- A token is verified first, then the connect proxy is asked. -/
def connectCreds (s : Session) (node : Node) (readings : Readings) (req : ConnectRequest) :
    Check (Option Creds) :=
  if req.token ≠ "" then
    match s.world.verifier.verifyConnectToken readings.verifiedAt req.token with
    | .ok ct =>
        .ok (some {
          user := ct.user
          info := ct.info
          expireAt := if node.clientInsecure then 0 else ct.expireAt
          channels := ct.channels })
    | .error .expired => .error (.error .tokenExpired)
    | .error .invalid => .error (.close .invalidToken)
  else
    match node.proxies.connect with
    | none => .ok none
    | some proxy =>
        match proxy readings.attempt (s.connectProxyRequest readings.uuid req) with
        | some (.credentials creds) => .ok (some creds)
        | some (.error code message) => .error (.error ⟨code, message⟩)
        | some (.disconnect code reason) => .error (.close ⟨code, reason, false⟩)
        | some .noCredentials => .ok none
        | none => .error (.error .internal)

/-- The channels to subscribe to on connect, with the personal channel of the user. -/
def connectChannels (node : Node) (creds : Creds) : List String :=
  match node.namespaces.personalChannel creds.user with
  | some personal =>
      if personal ∈ creds.channels then creds.channels else creds.channels ++ [personal]
  | none => creds.channels

/-- A second CONNECT is refused. -/
def parseConnect (s : Session) (node : Node) (cmd : Command) : Check ConnectRequest := do
  demand (!s.client.authenticated) (.close .badRequest)
  require (parseParams node.decoders.connect {} s.client.proto cmd.params) (.close .badRequest)

/-- The checks of CONNECT before the session takes an identity. -/
def checkConnect (s : Session) (node : Node) (readings : Readings) (req : ConnectRequest) :
    Check Creds := do
  let established ← s.connectCreds node readings req
  let fallback := if node.clientAnonymous || node.clientInsecure then some {} else none
  let creds ← require (established.or fallback) (.close .badRequest)
  demand ((connectChannels node creds).all fun channel => (node.channelOptions channel).isSome)
    (.error .unknownChannel)
  return creds

def overConnectionLimit (node : Node) (hub : Hub) (user : String) : Bool :=
  node.limits.userConnectionLimit > 0 && user ≠ "" &&
    (hub.userClients user).length ≥ node.limits.userConnectionLimit

/-- Take an identity. -/
def authenticate (s : Session) (creds : Creds) : Session :=
  { s with client := { s.client with
      user := creds.user
      connInfo := creds.info
      expireAt := creds.expireAt
      authenticated := true } }

def register (s : Session) : Session :=
  let handle : ClientHandle := {
    id := s.client.id
    user := s.client.user
    proto := s.client.proto
    tx := s.client.tx
    ctrl := s.client.ctrl }
  { s with world := { s.world with hub := s.world.hub.add handle } }

/-- The current top of the stream, as a baseline for a later recovery. -/
def reportTop (s : Session) (node : Node) (clock : Clock) (fresh channel : String) :
    Session × SubscribeResult :=
  let (world, _, top) := s.world.history clock fresh channel
  ({ s with world := world },
    encodePosition { recoverable := true, epoch := top.epoch } top.offset node.useSeqGen)

/-- The state of a subscription made on connect. -/
def serverSideState (node : Node) (channel : String) : SubState :=
  let opts := (node.channelOptions channel).getD {}
  { presence := opts.presence
    joinLeave := opts.joinLeave
    recoverable := opts.historyRecover
    serverSide := true }

def serverSideSubscribe (s : Session) (node : Node) (clock : Clock) (fresh channel : String) :
    Session × SubscribeResult :=
  let state := serverSideState node channel
  let s := s.addSubscription channel state
  let (s, result) := if state.recoverable then s.reportTop node clock fresh channel else (s, {})
  let s := if state.joinLeave then s.deferJoin channel s.client.clientInfo else s
  (s, result)

/-- Subscribe to the channels of a connect, one after the other. -/
def serverSideSubscribes (node : Node) (readings : Readings) :
    Session → Map String SubscribeResult → Nat → List String →
      Session × Map String SubscribeResult
  | s, subs, _, [] => (s, subs)
  | s, subs, i, channel :: channels =>
      let (s, sub) := s.serverSideSubscribe node (readings.engine i) (readings.epoch i) channel
      serverSideSubscribes node readings s (subs.insert channel sub) (i + 1) channels

/-- Whether a deadline is reported, and the seconds that remain. -/
def expiry (deadline : Int) (now : UnixTime) : Bool × UInt32 :=
  if deadline > 0 then (true, ttlUntil deadline now) else (false, 0)

/-- What a CONNECT does with the identity it was granted. -/
def applyConnect (s : Session) (node : Node) (readings : Readings) (cmd : Command)
    (creds : Creds) : Session × CommandOutcome :=
  let s := s.authenticate creds
  if overConnectionLimit node s.world.hub creds.user then
    (s, .refuse cmd.id (.close .connectionLimit))
  else
    let (s, subs) :=
      serverSideSubscribes node readings s.register ∅ 0 (connectChannels node creds)
    let (expires, ttl) := expiry creds.expireAt readings.repliedAt
    let result : ConnectResult := {
      client := s.client.id
      version := node.version
      expires := expires
      ttl := ttl
      data := creds.data
      subs := subs }
    (s, .reply (okReply s.client.proto cmd.id (.connect result)))

def identify (s : Session) (id : ClientId) : Session :=
  { s with client := { s.client with id := id } }

/-- The id is assigned before the checks, for the connect proxy to receive it. -/
def onConnect (s : Session) (node : Node) (readings : Readings) (cmd : Command) :
    Session × CommandOutcome :=
  s.handle cmd (s.parseConnect node cmd) fun req =>
    let s := s.identify readings.uuid
    s.handle cmd (s.checkConnect node readings req) fun creds =>
      s.applyConnect node readings cmd creds

/-! ## SUBSCRIBE -/

/-- What a subscription token or the subscribe proxy grants. -/
structure Grant where
  chanInfo : Option Raw := none
  expireAt : Int := 0

/-- A private channel needs a token for this client and channel. -/
def subscribeByToken (s : Session) (readings : Readings) (req : SubscribeRequest) :
    Check Grant := do
  demand (req.token ≠ "") (.error .permissionDenied)
  match s.world.verifier.verifySubscribeToken readings.verifiedAt req.token with
  | .ok t => do
      demand (t.client = s.client.id && t.channel = req.channel) (.error .permissionDenied)
      return ⟨t.info, if t.expireTokenOnly then 0 else t.expireAt⟩
  | .error .expired => .error (.error .tokenExpired)
  | .error .invalid => .error (.error .permissionDenied)

def subscribeByProxy (s : Session) (node : Node) (readings : Readings)
    (req : SubscribeRequest) : Check Grant := do
  let proxy ← require node.proxies.subscribe (.error .notAvailable)
  let preq := { s.client.proxyRequest with channel := req.channel, token := req.token }
  match proxy readings.attempt preq with
  | some (.result creds) => return ⟨creds.info, 0⟩
  | some (.error code message) => .error (.error ⟨code, message⟩)
  | some (.disconnect code reason) => .error (.close ⟨code, reason, false⟩)
  | none => .error (.error .internal)

def authorizeSubscribe (s : Session) (node : Node) (readings : Readings)
    (opts : ChannelOptions) (req : SubscribeRequest) : Check Grant :=
  if node.isPrivate req.channel then s.subscribeByToken readings req
  else if opts.proxySubscribe && !isUserLimited req.channel then
    s.subscribeByProxy node readings req
  else .ok {}

def checkSubscribe (s : Session) (node : Node) (readings : Readings) (cmd : Command) :
    Check (SubscribeRequest × ChannelOptions × Grant) := do
  let req ← require (parseParams node.decoders.subscribe {} s.client.proto cmd.params)
    (.close .badRequest)
  demand (req.channel ≠ "") (.close .badRequest)
  let maxLen := node.limits.channelMaxLength
  demand (maxLen = 0 || byteLength req.channel ≤ maxLen) (.error .limitExceeded)
  let chanLimit := node.limits.clientChannelLimit
  demand (chanLimit = 0 || s.client.subscriptions.entries.length < chanLimit)
    (.error .limitExceeded)
  demand (!s.client.isSubscribed req.channel) (.error .alreadySubscribed)
  let opts ← require (node.channelOptions req.channel) (.error .unknownChannel)
  demand (!opts.serverSide) (.error .permissionDenied)
  demand (opts.anonymous || s.client.user ≠ "" || node.clientInsecure)
    (.error .permissionDenied)
  demand (userAllowed req.channel s.client.user) (.error .permissionDenied)
  let grant ← s.authorizeSubscribe node readings opts req
  return (req, opts, grant)

/-- Recovery of what a client missed since a position, in the order of its mode. -/
def recoverSince (s : Session) (node : Node) (clock : Clock) (fresh : String)
    (req : SubscribeRequest) : Session × SubscribeResult :=
  let offset := req.position
  let (world, pubs, top) := s.world.historySince clock fresh req.channel offset req.epoch
  let next := (offset + 1) % 2 ^ 64
  let recovered := match pubs.head? with
    | some first => first.offset = next && top.epoch = req.epoch
    | none => top.offset = offset && top.epoch = req.epoch
  let result : SubscribeResult := {
    recoverable := true
    recovered := recovered
    epoch := top.epoch
    publications := if node.useSeqGen then (pubs.map Publication.toSeqGen).reverse else pubs }
  ({ s with world := world }, encodePosition result top.offset node.useSeqGen)

/-- The result of a subscription that was registered. -/
def subscribeResult (s : Session) (node : Node) (clock : Clock) (fresh : String)
    (opts : ChannelOptions) (req : SubscribeRequest) : Session × SubscribeResult :=
  if opts.historyRecover then
    if req.recover then s.recoverSince node clock fresh req
    else s.reportTop node clock fresh req.channel
  else (s, {})

/-- The state of a subscription made by a SUBSCRIBE. -/
def grantedState (opts : ChannelOptions) (grant : Grant) : SubState where
  presence := opts.presence
  joinLeave := opts.joinLeave
  recoverable := opts.historyRecover
  expireAt := grant.expireAt
  chanInfo := grant.chanInfo

def applySubscribe (s : Session) (node : Node) (readings : Readings) (cmd : Command)
    (req : SubscribeRequest) (opts : ChannelOptions) (grant : Grant) :
    Session × CommandOutcome :=
  let info := s.client.clientInfoWith grant.chanInfo
  let s := s.addSubscription req.channel (grantedState opts grant)
  let (s, result) := s.subscribeResult node (readings.engine 0) (readings.epoch 0) opts req
  let reply := okReply s.client.proto cmd.id (.subscribe result)
  let s := if opts.joinLeave then s.deferJoin req.channel info else s
  (s, .reply reply)

def onSubscribe (s : Session) (node : Node) (readings : Readings) (cmd : Command) :
    Session × CommandOutcome :=
  s.handle cmd (s.checkSubscribe node readings cmd) fun (req, opts, grant) =>
    s.applySubscribe node readings cmd req opts grant

/-! ## PUBLISH -/

/-- The publish proxy may replace the payload. -/
def publishByProxy (s : Session) (node : Node) (readings : Readings) (channel : String)
    (data : Raw) : Check Raw := do
  let proxy ← require node.proxies.publish (.error .notAvailable)
  let preq := { s.client.proxyRequest with channel := channel, data := some data }
  match proxy readings.attempt preq with
  | some (.result replaced) => return replaced.data.getD data
  | some (.error code message) => .error (.error ⟨code, message⟩)
  | some (.disconnect code reason) => .error (.close ⟨code, reason, false⟩)
  | none => .error (.error .internal)

/-- The checks of PUBLISH, which give the channel and the payload. -/
def checkPublish (s : Session) (node : Node) (readings : Readings) (cmd : Command) :
    Check (String × Raw) := do
  let req ← require (parseParams node.decoders.publish {} s.client.proto cmd.params)
    (.close .badRequest)
  let data ← require (req.data.filter fun raw => !raw.bytes.isEmpty) (.close .badRequest)
  demand (req.channel ≠ "") (.close .badRequest)
  let opts ← require (node.channelOptions req.channel) (.error .unknownChannel)
  demand (opts.publish || node.clientInsecure) (.error .permissionDenied)
  demand (!opts.subscribeToPublish || s.client.isSubscribed req.channel)
    (.error .permissionDenied)
  let data ← if opts.proxyPublish then s.publishByProxy node readings req.channel data
    else .ok data
  return (req.channel, data)

/-- A publication of a client carries the info of its publisher. -/
def applyPublish (s : Session) (node : Node) (readings : Readings) (cmd : Command)
    (channel : String) (data : Raw) : Session × CommandOutcome :=
  let world := s.world.publish node (readings.engine 0) (readings.epoch 0) channel data
    (some s.client.clientInfo)
  ({ s with world := world }, .reply (okReply s.client.proto cmd.id .publish))

def onPublish (s : Session) (node : Node) (readings : Readings) (cmd : Command) :
    Session × CommandOutcome :=
  s.handle cmd (s.checkPublish node readings cmd) fun (channel, data) =>
    s.applyPublish node readings cmd channel data

/-! ## UNSUBSCRIBE -/

def checkUnsubscribe (s : Session) (node : Node) (cmd : Command) : Check String := do
  let req ← require (parseParams node.decoders.channel {} s.client.proto cmd.params)
    (.close .badRequest)
  demand (req.channel ≠ "") (.close .badRequest)
  return req.channel

def applyUnsubscribe (s : Session) (node : Node) (cmd : Command) (channel : String) :
    Session × CommandOutcome :=
  (s.unsubscribeChannel node channel, .reply (okReply s.client.proto cmd.id .unsubscribe))

def onUnsubscribe (s : Session) (node : Node) (cmd : Command) : Session × CommandOutcome :=
  s.handle cmd (s.checkUnsubscribe node cmd) fun channel => s.applyUnsubscribe node cmd channel

/-! ## Reading commands -/

/-- The checks of the commands that read a channel: its options make the information
available, and the client is subscribed. -/
def checkRead (s : Session) (node : Node) (cmd : Command)
    (available : ChannelOptions → Bool) : Check String := do
  let req ← require (parseParams node.decoders.channel {} s.client.proto cmd.params)
    (.close .badRequest)
  let opts ← require (node.channelOptions req.channel) (.error .unknownChannel)
  demand (available opts) (.error .notAvailable)
  demand (s.client.isSubscribed req.channel) (.error .permissionDenied)
  return req.channel

def applyRead (s : Session) (cmd : Command) (read : Session → String → Session × Result)
    (channel : String) : Session × CommandOutcome :=
  let (s, result) := read s channel
  (s, .reply (okReply s.client.proto cmd.id result))

/-- A command that reads a channel. -/
def onRead (s : Session) (node : Node) (cmd : Command) (available : ChannelOptions → Bool)
    (read : Session → String → Session × Result) : Session × CommandOutcome :=
  s.handle cmd (s.checkRead node cmd available) fun channel => s.applyRead cmd read channel

def presenceAvailable (opts : ChannelOptions) : Bool :=
  opts.presence && !opts.presenceDisableForClient

def historyAvailable (opts : ChannelOptions) : Bool :=
  opts.historyEnabled && !opts.historyDisableForClient

def readPresence (s : Session) (channel : String) : Session × Result :=
  (s, .presence ⟨s.world.engine.presenceOf channel⟩)

def readPresenceStats (s : Session) (channel : String) : Session × Result :=
  let (numClients, numUsers) := s.world.engine.presenceStats channel
  (s, .presenceStats ⟨numClients, numUsers⟩)

/-- The offset of a publication stays beside its `seq` and `gen` here. -/
def readHistory (node : Node) (readings : Readings) (s : Session) (channel : String) :
    Session × Result :=
  let (world, pubs, _) := s.world.history (readings.engine 0) (readings.epoch 0) channel
  let withSeqGen := fun publication : Publication =>
    { publication with
      seq := (unpackOffset publication.offset).1
      gen := (unpackOffset publication.offset).2 }
  ({ s with world := world },
    .history ⟨if node.useSeqGen then pubs.map withSeqGen else pubs⟩)

def onPresence (s : Session) (node : Node) (cmd : Command) : Session × CommandOutcome :=
  s.onRead node cmd presenceAvailable readPresence

def onPresenceStats (s : Session) (node : Node) (cmd : Command) : Session × CommandOutcome :=
  s.onRead node cmd presenceAvailable readPresenceStats

def onHistory (s : Session) (node : Node) (readings : Readings) (cmd : Command) :
    Session × CommandOutcome :=
  s.onRead node cmd historyAvailable (readHistory node readings)

/-! ## REFRESH -/

/-- The checks of REFRESH. With a refresh proxy, clients do not refresh themselves. -/
def checkRefresh (s : Session) (node : Node) (readings : Readings) (cmd : Command) :
    Check ConnectToken := do
  let req ← require (parseParams node.decoders.refresh {} s.client.proto cmd.params)
    (.close .badRequest)
  demand (req.token ≠ "") (.close .badRequest)
  demand node.proxies.refresh.isNone (.close .badRequest)
  match s.world.verifier.verifyConnectToken readings.verifiedAt req.token with
  | .ok ct => return ct
  | .error .expired => .error (.close .expired)
  | .error .invalid => .error (.close .invalidToken)

/-- Take the user, the info and the deadline of a new connection token. -/
def renew (s : Session) (ct : ConnectToken) : Session :=
  { s with client := { s.client with
      user := if ct.user ≠ "" then ct.user else s.client.user
      connInfo := ct.info
      expireAt := ct.expireAt } }

/-- The new token is in force before its remaining seconds are checked. -/
def applyRefresh (s : Session) (node : Node) (readings : Readings) (cmd : Command)
    (ct : ConnectToken) : Session × CommandOutcome :=
  let s := s.renew ct
  if ct.expireAt > 0 && i64 (ct.expireAt - readings.repliedAt.seconds) ≤ 0 then
    (s, .refuse cmd.id (.error .expired))
  else
    let (expires, ttl) := expiry ct.expireAt readings.repliedAt
    let result : RefreshResult := ⟨s.client.id, node.version, expires, ttl⟩
    (s, .reply (okReply s.client.proto cmd.id (.refresh result)))

def onRefresh (s : Session) (node : Node) (readings : Readings) (cmd : Command) :
    Session × CommandOutcome :=
  s.handle cmd (s.checkRefresh node readings cmd) fun ct => s.applyRefresh node readings cmd ct

/-! ## RPC -/

def checkRpc (s : Session) (node : Node) (readings : Readings) (cmd : Command) :
    Check RpcData := do
  let proxy ← require node.proxies.rpc (.error .notAvailable)
  let req ← require (parseParams node.decoders.rpc {} s.client.proto cmd.params)
    (.close .badRequest)
  let preq := { s.client.proxyRequest with method := req.method, data := req.data }
  match proxy readings.attempt preq with
  | some (.result answer) => return answer
  | some (.error code message) => .error (.error ⟨code, message⟩)
  | some (.disconnect code reason) => .error (.close ⟨code, reason, false⟩)
  | none => .error (.error .internal)

def onRpc (s : Session) (node : Node) (readings : Readings) (cmd : Command) :
    Session × CommandOutcome :=
  s.handle cmd (s.checkRpc node readings cmd) fun answer =>
    (s, .reply (okReply s.client.proto cmd.id (.rpc ⟨answer.data⟩)))

/-! ## SUB_REFRESH -/

/-- The checks of SUB_REFRESH, which give the channel and its new token. An expired
token passes as no token. -/
def checkSubRefresh (s : Session) (node : Node) (readings : Readings) (cmd : Command) :
    Check (String × Option SubscribeToken) := do
  let req ← require (parseParams node.decoders.subRefresh {} s.client.proto cmd.params)
    (.close .badRequest)
  demand (req.channel ≠ "") (.close .badRequest)
  let state ← require (s.client.subscriptions.lookup req.channel) (.error .permissionDenied)
  demand (!state.serverSide) (.close .badRequest)
  demand (req.token ≠ "") (.error .badRequest)
  match s.world.verifier.verifySubscribeToken readings.verifiedAt req.token with
  | .ok t => do
      demand (t.client = s.client.id && t.channel = req.channel) (.close .invalidToken)
      demand (t.expireAt ≤ 0 || readings.checkedAt.seconds ≤ t.expireAt) (.error .expired)
      return (req.channel, some t)
  | .error .expired => return (req.channel, none)
  | .error .invalid => .error (.close .invalidToken)

/-- Change the state of a subscription that is held. -/
def updateSubscription (s : Session) (channel : String) (change : SubState → SubState) :
    Session :=
  { s with client := { s.client with
      subscriptions := s.client.subscriptions.alter channel (Option.map change) } }

/-- Without a token the deadline is cleared, and the answer is a success. -/
def applySubRefresh (s : Session) (readings : Readings) (cmd : Command) (channel : String) :
    Option SubscribeToken → Session × CommandOutcome
  | some t =>
      let (expires, ttl) := expiry t.expireAt readings.repliedAt
      (s.updateSubscription channel fun state =>
          { state with expireAt := t.expireAt, chanInfo := t.info },
        .reply (okReply s.client.proto cmd.id (.subRefresh ⟨expires, ttl⟩)))
  | none =>
      (s.updateSubscription channel fun state => { state with expireAt := 0 },
        .reply (okReply s.client.proto cmd.id (.subRefresh ⟨false, 0⟩)))

def onSubRefresh (s : Session) (node : Node) (readings : Readings) (cmd : Command) :
    Session × CommandOutcome :=
  s.handle cmd (s.checkSubRefresh node readings cmd) fun (channel, token) =>
    s.applySubRefresh readings cmd channel token

/-! ## Dispatch -/

def dispatch (s : Session) (node : Node) (readings : Readings) (cmd : Command) :
    Session × CommandOutcome :=
  match cmd.method with
  | .connect => s.onConnect node readings cmd
  | .subscribe => s.onSubscribe node readings cmd
  | .publish => s.onPublish node readings cmd
  | .unsubscribe => s.onUnsubscribe node cmd
  | .ping => (s, .reply (.bare cmd.id))
  | .refresh => s.onRefresh node readings cmd
  | .send => (s, {})
  | .rpc => s.onRpc node readings cmd
  | .presence => s.onPresence node cmd
  | .presenceStats => s.onPresenceStats node cmd
  | .history => s.onHistory node readings cmd
  | .subRefresh => s.onSubRefresh node readings cmd
  | .unknown => (s, .refuse cmd.id (.error .methodNotFound))

/-- One command. CONNECT has to be the first one. -/
def handleCommand (s : Session) (node : Node) (readings : Readings) (cmd : Command) :
    Session × CommandOutcome :=
  s.handle cmd (demand (s.client.authenticated || cmd.method = .connect) (.close .badRequest))
    fun _ => s.dispatch node readings cmd

/-! ## What a command can do -/

/-- The effects that a command can have, each with the checks that it passed. -/
inductive Effect (s : Session) (node : Node) (readings : Readings) (cmd : Command) :
    Session × CommandOutcome → Prop
  | refused (refusal : Refusal) : Effect s node readings cmd (s, .refuse cmd.id refusal)
  /-- A refused CONNECT may leave a new client id behind. -/
  | identified (refusal : Refusal) (method : cmd.method = .connect) :
      Effect s node readings cmd (s.identify readings.uuid, .refuse cmd.id refusal)
  | answered (outcome : CommandOutcome)
      (method : cmd.method ∈ [.ping, .send, .rpc, .presence, .presenceStats]) :
      Effect s node readings cmd (s, outcome)
  | connected (req : ConnectRequest) (creds : Creds) (method : cmd.method = .connect)
      (parsed : s.parseConnect node cmd = .ok req)
      (checked : (s.identify readings.uuid).checkConnect node readings req = .ok creds) :
      Effect s node readings cmd
        ((s.identify readings.uuid).applyConnect node readings cmd creds)
  | subscribed (req : SubscribeRequest) (opts : ChannelOptions) (grant : Grant)
      (method : cmd.method = .subscribe) (authenticated : s.client.authenticated)
      (checked : s.checkSubscribe node readings cmd = .ok (req, opts, grant)) :
      Effect s node readings cmd (s.applySubscribe node readings cmd req opts grant)
  | published (channel : String) (data : Raw) (method : cmd.method = .publish)
      (authenticated : s.client.authenticated)
      (checked : s.checkPublish node readings cmd = .ok (channel, data)) :
      Effect s node readings cmd (s.applyPublish node readings cmd channel data)
  | unsubscribed (channel : String) (method : cmd.method = .unsubscribe)
      (authenticated : s.client.authenticated)
      (checked : s.checkUnsubscribe node cmd = .ok channel) :
      Effect s node readings cmd (s.applyUnsubscribe node cmd channel)
  | historyRead (channel : String) (method : cmd.method = .history)
      (authenticated : s.client.authenticated)
      (checked : s.checkRead node cmd historyAvailable = .ok channel) :
      Effect s node readings cmd (s.applyRead cmd (readHistory node readings) channel)
  | refreshed (ct : ConnectToken) (method : cmd.method = .refresh)
      (authenticated : s.client.authenticated)
      (checked : s.checkRefresh node readings cmd = .ok ct) :
      Effect s node readings cmd (s.applyRefresh node readings cmd ct)
  | subRefreshed (channel : String) (token : Option SubscribeToken)
      (method : cmd.method = .subRefresh) (authenticated : s.client.authenticated)
      (checked : s.checkSubRefresh node readings cmd = .ok (channel, token)) :
      Effect s node readings cmd (s.applySubRefresh readings cmd channel token)

/-- A checked command is refused, or what it applies is its effect. -/
theorem Effect.of_handle {α : Type} {s : Session} {node : Node} {readings : Readings}
    {cmd : Command} {check : Check α} {apply : α → Session × CommandOutcome}
    (granted : ∀ a, check = .ok a → Effect s node readings cmd (apply a)) :
    Effect s node readings cmd (s.handle cmd check apply) := by
  cases checked : check with
  | ok a => exact granted a checked
  | error refusal => exact .refused refusal

theorem dispatch_effect {s : Session} {node : Node} {readings : Readings} {cmd : Command}
    (ready : s.client.authenticated ∨ cmd.method = .connect) :
    Effect s node readings cmd (s.dispatch node readings cmd) := by
  have authenticated : cmd.method ≠ .connect → s.client.authenticated := ready.resolve_right
  unfold dispatch
  cases method : cmd.method with
  | connect =>
      apply Effect.of_handle
      intro req parsed
      cases checked : (s.identify readings.uuid).checkConnect node readings req with
      | error refusal =>
          simp only [handle, checked]
          exact .identified refusal method
      | ok creds =>
          simp only [handle, checked]
          exact .connected req creds method parsed checked
  | subscribe =>
      apply Effect.of_handle
      intro granted checked
      exact .subscribed _ _ _ method (authenticated (by simp [method])) checked
  | publish =>
      apply Effect.of_handle
      intro granted checked
      exact .published _ _ method (authenticated (by simp [method])) checked
  | unsubscribe =>
      apply Effect.of_handle
      intro channel checked
      exact .unsubscribed channel method (authenticated (by simp [method])) checked
  | history =>
      apply Effect.of_handle
      intro channel checked
      exact .historyRead channel method (authenticated (by simp [method])) checked
  | refresh =>
      apply Effect.of_handle
      intro ct checked
      exact .refreshed ct method (authenticated (by simp [method])) checked
  | subRefresh =>
      apply Effect.of_handle
      intro granted checked
      exact .subRefreshed _ _ method (authenticated (by simp [method])) checked
  | rpc =>
      apply Effect.of_handle
      intro answer _
      exact .answered _ (by simp [method])
  | presence =>
      apply Effect.of_handle
      intro channel _
      exact .answered _ (by simp [method])
  | presenceStats =>
      apply Effect.of_handle
      intro channel _
      exact .answered _ (by simp [method])
  | ping => exact .answered _ (by simp [method])
  | send => exact .answered _ (by simp [method])
  | unknown => exact .refused _

theorem handleCommand_effect (s : Session) (node : Node) (readings : Readings) (cmd : Command) :
    Effect s node readings cmd (s.handleCommand node readings cmd) := by
  apply Effect.of_handle
  intro _ ready
  apply dispatch_effect
  simpa only [demand_eq_ok, Bool.or_eq_true, decide_eq_true_iff] using ready

/-! ## Commands that pass their checks -/

theorem handleCommand_connect {s : Session} {node : Node} {readings : Readings} {cmd : Command}
    {req : ConnectRequest} {creds : Creds} (method : cmd.method = .connect)
    (parsed : s.parseConnect node cmd = .ok req)
    (checked : (s.identify readings.uuid).checkConnect node readings req = .ok creds) :
    s.handleCommand node readings cmd =
      (s.identify readings.uuid).applyConnect node readings cmd creds := by
  simp [handleCommand, handle, demand, dispatch, method, onConnect, parsed, checked]

theorem handleCommand_subscribe {s : Session} {node : Node} {readings : Readings} {cmd : Command}
    {req : SubscribeRequest} {opts : ChannelOptions} {grant : Grant}
    (method : cmd.method = .subscribe) (authenticated : s.client.authenticated)
    (checked : s.checkSubscribe node readings cmd = .ok (req, opts, grant)) :
    s.handleCommand node readings cmd = s.applySubscribe node readings cmd req opts grant := by
  simp [handleCommand, handle, demand, dispatch, method, authenticated, onSubscribe, checked]

theorem handleCommand_refresh {s : Session} {node : Node} {readings : Readings} {cmd : Command}
    {ct : ConnectToken} (method : cmd.method = .refresh)
    (authenticated : s.client.authenticated)
    (checked : s.checkRefresh node readings cmd = .ok ct) :
    s.handleCommand node readings cmd = s.applyRefresh node readings cmd ct := by
  simp [handleCommand, handle, demand, dispatch, method, authenticated, onRefresh, checked]

/-! ## What the checks establish -/

theorem okReply_eq_ok {proto : ProtocolType} {id : UInt32} {result result' : Result} :
    okReply proto id result = .ok id result' ↔ result.encodable proto ∧ result = result' := by
  unfold okReply
  cases result.encodable proto <;> simp [Reply.ok, Reply.err]

theorem parseConnect_ok {s : Session} {node : Node} {cmd : Command} {req : ConnectRequest}
    (h : s.parseConnect node cmd = .ok req) :
    s.client.authenticated = false ∧
      parseParams node.decoders.connect {} s.client.proto cmd.params = some req := by
  simpa only [parseConnect, demand_bind, require_eq_ok, Bool.not_eq_true'] using h

theorem checkConnect_ok {s : Session} {node : Node} {readings : Readings} {req : ConnectRequest}
    {creds : Creds} (h : s.checkConnect node readings req = .ok creds) :
    ∃ established, s.connectCreds node readings req = .ok established ∧
      (established = some creds ∨ established = none ∧ creds = {}) := by
  simp only [checkConnect, bind_eq_ok, require_eq_ok] at h
  obtain ⟨established, verified, granted, found, -, -, same⟩ := h
  cases same
  refine ⟨established, verified, ?_⟩
  cases established with
  | some creds => exact .inl (by simpa using found)
  | none =>
      right
      refine ⟨rfl, ?_⟩
      rw [Option.none_or] at found
      split at found
      · exact (Option.some.inj found).symm
      · cases found

theorem checkSubscribe_ok {s : Session} {node : Node} {readings : Readings} {cmd : Command}
    {req : SubscribeRequest} {opts : ChannelOptions} {grant : Grant}
    (h : s.checkSubscribe node readings cmd = .ok (req, opts, grant)) :
    parseParams node.decoders.subscribe {} s.client.proto cmd.params = some req ∧
      s.client.subscriptions.lookup req.channel = none ∧
      node.channelOptions req.channel = some opts ∧
      s.authorizeSubscribe node readings opts req = .ok grant := by
  simp only [checkSubscribe, require_bind, demand_bind] at h
  obtain ⟨parsed, params, -, -, -, free, options, known, -, -, -, h⟩ := h
  cases granted : s.authorizeSubscribe node readings options parsed with
  | error refusal =>
      rw [granted] at h
      cases h
  | ok authorized =>
      rw [granted] at h
      cases h
      refine ⟨params, ?_, known, granted⟩
      simpa [Client.isSubscribed] using free

end Session

/-! ## A small node -/

namespace Sample

def decoders : Decoders where
  connect _ _ := none
  subscribe _ _ := none
  publish _ _ := none
  channel _ _ := none
  refresh _ _ := none
  subRefresh _ _ := none
  rpc _ _ := none

def node : Node where
  version := "2.8.6"
  clientInsecure := false
  clientAnonymous := false
  namespaces := {}
  proxies := {}
  useSeqGen := false
  limits := {}
  presencePingInterval := 25
  decoders := decoders

def verifier : TokenVerifier where
  codec := ⟨fun _ => none, fun _ _ _ => none, fun _ _ _ => none, fun _ => none⟩
  hmac := none
  rsa := none
  ecdsa := none
  jwks := ∅

def world : World where
  hub := .new fun _ => 0
  engine := .new 0
  verifier := verifier
  queues := ∅
  closing := []

def noon : UnixTime := .ofNat 43200 (by decide)

def readings (now : UnixTime) : Readings where
  uuid := "2a1f"
  attempt := 0
  verifiedAt := now
  checkedAt := now
  repliedAt := now
  engine _ _ := now
  epoch _ := "xyz"

def connect : Command := ⟨1, .connect, none⟩

/-- A session of user 42 over protobuf. -/
def session : Session where
  client := { id := "2a1f", user := "42", proto := .protobuf, authenticated := true, tx := 0 }
  world := world

end Sample

end Centrifugo
