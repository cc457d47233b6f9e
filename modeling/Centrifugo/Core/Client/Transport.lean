import Centrifugo.Core.Client.Commands

/-!
# The name of the transport

A session tells the name of its transport to the proxies and makes no other use of it. With
proxies that ignore the name, a session under another name does the same.
-/

namespace Centrifugo

open Guard

/-- No proxy looks at the name of the transport. -/
structure Proxies.IgnoreTransport (proxies : Proxies) : Prop where
  connect : ∀ proxy, proxies.connect = some proxy → ∀ attempt req name,
    proxy attempt { req with transport := name } = proxy attempt req
  refresh : ∀ proxy, proxies.refresh = some proxy → ∀ attempt req name,
    proxy attempt { req with transport := name } = proxy attempt req
  subscribe : ∀ proxy, proxies.subscribe = some proxy → ∀ attempt req name,
    proxy attempt { req with transport := name } = proxy attempt req
  publish : ∀ proxy, proxies.publish = some proxy → ∀ attempt req name,
    proxy attempt { req with transport := name } = proxy attempt req
  rpc : ∀ proxy, proxies.rpc = some proxy → ∀ attempt req name,
    proxy attempt { req with transport := name } = proxy attempt req

namespace Session

/-- The same session under another name of its transport. -/
def via (name : String) (s : Session) : Session :=
  { s with client := { s.client with transport := name } }

/-- The outcome of an operation leaves the name out. -/
def viaFirst {β : Type} (name : String) (after : Session × β) : Session × β :=
  (after.1.via name, after.2)

section Via

variable {name : String} (s : Session) (node : Node) (readings : Readings) (cmd : Command)

theorem foldl_via {α : Type} {f : Session → α → Session}
    (each : ∀ s a, f (s.via name) a = (f s a).via name) (items : List α) :
    items.foldl f (s.via name) = (items.foldl f s).via name :=
  List.foldl_hom (via name) each

/-- A choice between two things that are the images of others. -/
theorem ite_image {α β : Type} {f : α → β} {condition : Prop} [Decidable condition] {a b : α}
    {a' b' : β} (yes : a' = f a) (no : b' = f b) :
    (if condition then a' else b') = f (if condition then a else b) := by
  split
  · exact yes
  · exact no

/-! ## Lifecycle operations -/

theorem flushPendingJoins_via :
    (s.via name).flushPendingJoins node = (s.flushPendingJoins node).via name :=
  foldl_via { s with client := { s.client with pendingJoins := [] } } (fun _ _ => rfl) _

theorem refreshPresence_via : (s.via name).refreshPresence = s.refreshPresence.via name := by
  refine ite_image rfl (foldl_via s ?_ _)
  intro s entry
  exact ite_image rfl rfl

theorem addSubscription_via (channel : String) (state : SubState) :
    (s.via name).addSubscription channel state = (s.addSubscription channel state).via name := by
  unfold addSubscription
  cases state.presence <;> rfl

theorem unsubscribeChannel_via (channel : String) :
    (s.via name).unsubscribeChannel node channel =
      (s.unsubscribeChannel node channel).via name := by
  cases held : s.client.subscriptions.lookup channel with
  | none =>
      have held' : (s.via name).client.subscriptions.lookup channel = none := held
      simp only [unsubscribeChannel, held, held']
  | some state =>
      have held' : (s.via name).client.subscriptions.lookup channel = some state := held
      simp only [unsubscribeChannel, held, held']
      cases state.presence <;> cases state.joinLeave <;> rfl

theorem serverUnsubscribe_via (channel : String) :
    (s.via name).serverUnsubscribe node channel = (s.serverUnsubscribe node channel).via name := by
  unfold serverUnsubscribe
  rw [unsubscribeChannel_via]
  exact ite_image rfl (ite_image rfl rfl)

/-- What a session does about one of its channels when it ends. -/
def leaveChannel (s : Session) (entry : Sigma fun _ : String => SubState) : Session :=
  let s := if entry.2.presence then s.removePresence entry.1 else s
  if entry.2.joinLeave then
    s.publishLeave node entry.1 (s.client.clientInfoWith entry.2.chanInfo)
  else s

theorem leaveChannel_via (entry : Sigma fun _ : String => SubState) :
    (s.via name).leaveChannel node entry = (s.leaveChannel node entry).via name := by
  unfold leaveChannel
  cases entry.2.presence <;> cases entry.2.joinLeave <;> rfl

theorem onDisconnect_via : (s.via name).onDisconnect node = (s.onDisconnect node).via name := by
  have left := @foldl_via name { s with client := { s.client with subscriptions := ∅ } } _ _
    (fun s => leaveChannel_via s node) s.client.subscriptions.entries
  exact congrArg (fun s : Session =>
    { s with world := { s.world with hub := (s.world.hub.remove s.client.id).1 } }) left

theorem proactiveRefresh_via (ignores : node.proxies.IgnoreTransport) :
    (s.via name).proactiveRefresh node readings =
      viaFirst name (s.proactiveRefresh node readings) := by
  unfold proactiveRefresh
  cases configured : node.proxies.refresh with
  | none => rfl
  | some proxy =>
      have same : proxy readings.attempt (s.via name).client.proxyRequest =
          proxy readings.attempt s.client.proxyRequest :=
        ignores.refresh proxy configured readings.attempt s.client.proxyRequest name
      refine ite_image rfl (ite_image rfl ?_)
      rw [same]
      generalize proxy readings.attempt s.client.proxyRequest = answer
      match answer with
      | none => rfl
      | some (.disconnect code reason) => rfl
      | some (.error code message) => rfl
      | some (.result creds) => exact ite_image rfl (ite_image (ite_image rfl rfl) rfl)

/-! ## Checks -/

theorem connectCreds_via (ignores : node.proxies.IgnoreTransport) (req : ConnectRequest) :
    (s.via name).connectCreds node readings req = s.connectCreds node readings req := by
  unfold connectCreds
  cases configured : node.proxies.connect with
  | none => rfl
  | some proxy =>
      have same : proxy readings.attempt
          ((s.via name).connectProxyRequest readings.uuid req) =
            proxy readings.attempt (s.connectProxyRequest readings.uuid req) :=
        ignores.connect proxy configured readings.attempt
          (s.connectProxyRequest readings.uuid req) name
      refine @ite_image _ _ id _ _ _ _ _ _ rfl ?_
      simp only [same, id]

theorem checkConnect_via (ignores : node.proxies.IgnoreTransport) (req : ConnectRequest) :
    (s.via name).checkConnect node readings req = s.checkConnect node readings req := by
  unfold checkConnect
  rw [connectCreds_via s node readings ignores]

theorem subscribeByProxy_via (ignores : node.proxies.IgnoreTransport) (req : SubscribeRequest) :
    (s.via name).subscribeByProxy node readings req = s.subscribeByProxy node readings req := by
  unfold subscribeByProxy
  cases configured : node.proxies.subscribe with
  | none => rfl
  | some proxy =>
      have same : proxy readings.attempt { (s.via name).client.proxyRequest with
          channel := req.channel, token := req.token } = proxy readings.attempt
            { s.client.proxyRequest with channel := req.channel, token := req.token } :=
        ignores.subscribe proxy configured readings.attempt
          { s.client.proxyRequest with channel := req.channel, token := req.token } name
      dsimp only at same
      simp only [require_some_bind, same]

theorem checkSubscribe_via (ignores : node.proxies.IgnoreTransport) :
    (s.via name).checkSubscribe node readings cmd = s.checkSubscribe node readings cmd := by
  have authorized : ∀ opts req, (s.via name).authorizeSubscribe node readings opts req =
      s.authorizeSubscribe node readings opts req := by
    intro opts req
    unfold authorizeSubscribe
    rw [subscribeByProxy_via s node readings ignores]
    rfl
  unfold checkSubscribe
  simp only [authorized]
  rfl

theorem publishByProxy_via (ignores : node.proxies.IgnoreTransport) (channel : String)
    (data : Raw) : (s.via name).publishByProxy node readings channel data =
      s.publishByProxy node readings channel data := by
  unfold publishByProxy
  cases configured : node.proxies.publish with
  | none => rfl
  | some proxy =>
      have same : proxy readings.attempt { (s.via name).client.proxyRequest with
          channel := channel, data := some data } = proxy readings.attempt
            { s.client.proxyRequest with channel := channel, data := some data } :=
        ignores.publish proxy configured readings.attempt
          { s.client.proxyRequest with channel := channel, data := some data } name
      dsimp only at same
      simp only [require_some_bind, same]

theorem checkPublish_via (ignores : node.proxies.IgnoreTransport) :
    (s.via name).checkPublish node readings cmd = s.checkPublish node readings cmd := by
  unfold checkPublish
  simp only [publishByProxy_via s node readings ignores]
  rfl

theorem checkRpc_via (ignores : node.proxies.IgnoreTransport) :
    (s.via name).checkRpc node readings cmd = s.checkRpc node readings cmd := by
  unfold checkRpc
  cases configured : node.proxies.rpc with
  | none => rfl
  | some proxy =>
      have same : ∀ req : RpcRequest, proxy readings.attempt { (s.via name).client.proxyRequest with
          method := req.method, data := req.data } = proxy readings.attempt
            { s.client.proxyRequest with method := req.method, data := req.data } :=
        fun req => ignores.rpc proxy configured readings.attempt
          { s.client.proxyRequest with method := req.method, data := req.data } name
      dsimp only at same
      simp only [require_some_bind, same]
      rfl

/-! ## Commands -/

theorem handle_via {α : Type} {check check' : Check α}
    {apply apply' : α → Session × CommandOutcome} (checks : check' = check)
    (each : ∀ a, apply' a = viaFirst name (apply a)) :
    (s.via name).handle cmd check' apply' = viaFirst name (s.handle cmd check apply) := by
  subst checks
  cases check' with
  | ok a => exact each a
  | error refusal => rfl

theorem serverSideSubscribe_via (clock : Clock) (fresh channel : String) :
    (s.via name).serverSideSubscribe node clock fresh channel =
      viaFirst name (s.serverSideSubscribe node clock fresh channel) := by
  unfold serverSideSubscribe
  dsimp only
  rw [addSubscription_via]
  generalize s.addSubscription channel (serverSideState node channel) = t
  cases (serverSideState node channel).recoverable <;>
    cases (serverSideState node channel).joinLeave <;> rfl

theorem serverSideSubscribes_via (channels : List String) (subs : Map String SubscribeResult)
    (i : Nat) : serverSideSubscribes node readings (s.via name) subs i channels =
      viaFirst name (serverSideSubscribes node readings s subs i channels) := by
  induction channels generalizing s subs i with
  | nil => rfl
  | cons channel channels ih =>
      unfold serverSideSubscribes
      rw [serverSideSubscribe_via]
      exact ih _ _ _

theorem applyConnect_via (creds : Creds) : (s.via name).applyConnect node readings cmd creds =
    viaFirst name (s.applyConnect node readings cmd creds) := by
  have subscribed : serverSideSubscribes node readings ((s.via name).authenticate creds).register
      ∅ 0 (connectChannels node creds) = viaFirst name (serverSideSubscribes node readings
        (s.authenticate creds).register ∅ 0 (connectChannels node creds)) :=
    serverSideSubscribes_via (s.authenticate creds).register node readings _ ∅ 0
  unfold applyConnect
  refine ite_image rfl ?_
  rw [subscribed]
  rfl

theorem onConnect_via (ignores : node.proxies.IgnoreTransport) :
    (s.via name).onConnect node readings cmd = viaFirst name (s.onConnect node readings cmd) := by
  refine handle_via s cmd rfl fun req => ?_
  have checks := @checkConnect_via name (s.identify readings.uuid) node readings ignores req
  exact handle_via (s.identify readings.uuid) cmd checks
    fun creds => applyConnect_via (s.identify readings.uuid) node readings cmd creds

theorem applySubscribe_via (req : SubscribeRequest) (opts : ChannelOptions) (grant : Grant) :
    (s.via name).applySubscribe node readings cmd req opts grant =
      viaFirst name (s.applySubscribe node readings cmd req opts grant) := by
  unfold applySubscribe
  dsimp only
  rw [addSubscription_via]
  generalize s.addSubscription req.channel (grantedState opts grant) = t
  unfold subscribeResult
  cases opts.historyRecover <;> cases req.recover <;> cases opts.joinLeave <;> rfl

theorem applyUnsubscribe_via (channel : String) : (s.via name).applyUnsubscribe node cmd channel =
    viaFirst name (s.applyUnsubscribe node cmd channel) := by
  unfold applyUnsubscribe
  rw [unsubscribeChannel_via]
  rfl

theorem applyRefresh_via (ct : ConnectToken) : (s.via name).applyRefresh node readings cmd ct =
    viaFirst name (s.applyRefresh node readings cmd ct) :=
  ite_image rfl rfl

theorem applySubRefresh_via (channel : String) (token : Option SubscribeToken) :
    (s.via name).applySubRefresh readings cmd channel token =
      viaFirst name (s.applySubRefresh readings cmd channel token) := by
  cases token <;> rfl

theorem dispatch_via (ignores : node.proxies.IgnoreTransport) :
    (s.via name).dispatch node readings cmd = viaFirst name (s.dispatch node readings cmd) := by
  unfold dispatch
  cases cmd.method with
  | connect => exact onConnect_via s node readings cmd ignores
  | subscribe =>
      exact handle_via s cmd (checkSubscribe_via s node readings cmd ignores)
        fun granted => applySubscribe_via s node readings cmd _ _ _
  | publish =>
      exact handle_via s cmd (checkPublish_via s node readings cmd ignores) fun granted => rfl
  | unsubscribe =>
      exact handle_via s cmd rfl fun channel => applyUnsubscribe_via s node cmd channel
  | ping => rfl
  | refresh => exact handle_via s cmd rfl fun ct => applyRefresh_via s node readings cmd ct
  | send => rfl
  | rpc => exact handle_via s cmd (checkRpc_via s node readings cmd ignores) fun answer => rfl
  | presence => exact handle_via s cmd rfl fun channel => rfl
  | presenceStats => exact handle_via s cmd rfl fun channel => rfl
  | history => exact handle_via s cmd rfl fun channel => rfl
  | subRefresh =>
      exact handle_via s cmd rfl fun granted => applySubRefresh_via s readings cmd _ _
  | unknown => rfl

theorem handleCommand_via (ignores : node.proxies.IgnoreTransport) :
    (s.via name).handleCommand node readings cmd =
      viaFirst name (s.handleCommand node readings cmd) :=
  handle_via s cmd rfl fun _ => dispatch_via s node readings cmd ignores

end Via

end Session

end Centrifugo
