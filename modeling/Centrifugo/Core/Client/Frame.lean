import Centrifugo.Core.Client.Commands

/-!
# What operations do to a client

For each operation of a session, the client that it leaves, in terms of the client
before. Fan-out and engine accesses change the shared world only.
-/

namespace Centrifugo

namespace Session

/-! ## Lifecycle operations -/

/-- The message that a pending Join becomes. -/
def pendingJoin (join : String × ClientInfo) : NodeMessage := .join join.1 join.2

theorem flushPendingJoins_client (s : Session) (node : Node) :
    (s.flushPendingJoins node).client = { s.client with
      pendingJoins := []
      handed := s.client.handed ++ s.client.pendingJoins.map pendingJoin } := by
  have fold : ∀ (joins : List (String × ClientInfo)) (t : Session),
      (joins.foldl (fun t join => t.publishJoin node join.1 join.2) t).client =
        { t.client with handed := t.client.handed ++ joins.map pendingJoin } := by
    intro joins
    induction joins with
    | nil =>
        intro t
        simp
    | cons join joins ih =>
        intro t
        rw [List.foldl_cons, ih]
        simp [publishJoin, pendingJoin]
  exact fold _ _

@[simp] theorem refreshPresence_client (s : Session) : s.refreshPresence.client = s.client := by
  unfold refreshPresence
  split
  · rfl
  · generalize s.client.subscriptions.entries = entries
    have fold : ∀ t : Session, (entries.foldl (fun t entry =>
        if entry.2.presence then
          t.addPresence entry.1 (t.client.clientInfoWith entry.2.chanInfo)
        else t) t).client = t.client := by
      induction entries with
      | nil =>
          intro t
          rfl
      | cons entry entries ih =>
          intro t
          rw [List.foldl_cons, ih]
          split <;> rfl
    exact fold s

/-- A renewed connection has a new deadline and maybe a new info. -/
theorem proactiveRefresh_client (s : Session) (node : Node) (readings : Readings) :
    ∃ connInfo expireAt, (s.proactiveRefresh node readings).1.client =
      { s.client with connInfo := connInfo, expireAt := expireAt } := by
  unfold proactiveRefresh
  repeat' split
  all_goals exact ⟨_, _, rfl⟩

/-! ## Subscriptions -/

@[simp] theorem addSubscription_client (s : Session) (channel : String) (state : SubState) :
    (s.addSubscription channel state).client =
      { s.client with subscriptions := s.client.subscriptions.insert channel state } := by
  simp only [addSubscription]
  split <;> rfl

theorem unsubscribeChannel_absent {s : Session} {channel : String} (node : Node)
    (absent : s.client.subscriptions.lookup channel = none) :
    s.unsubscribeChannel node channel = s := by
  simp only [unsubscribeChannel, absent]

/-- A subscription that is dropped takes its Leave with it. -/
theorem unsubscribeChannel_client {s : Session} {channel : String} {state : SubState}
    (node : Node) (held : s.client.subscriptions.lookup channel = some state) :
    (s.unsubscribeChannel node channel).client = { s.client with
      subscriptions := s.client.subscriptions.erase channel
      handed := s.client.handed ++ if state.joinLeave then
        [.leave channel (s.client.clientInfoWith state.chanInfo)] else [] } := by
  simp only [unsubscribeChannel, held]
  by_cases presence : state.presence <;> by_cases joinLeave : state.joinLeave <;>
    simp [presence, joinLeave, publishLeave, removePresence, Client.clientInfoWith]

/-- A drop touches nothing of the client but its subscriptions and what it hands over. -/
theorem unsubscribeChannel_frame (s : Session) (node : Node) (channel : String) :
    ∃ subscriptions handed, (s.unsubscribeChannel node channel).client =
      { s.client with subscriptions := subscriptions, handed := handed } := by
  cases held : s.client.subscriptions.lookup channel with
  | none => exact ⟨_, _, by rw [unsubscribeChannel_absent node held]⟩
  | some state => exact ⟨_, _, unsubscribeChannel_client node held⟩

theorem serverUnsubscribe_client (s : Session) (node : Node) (channel : String) :
    (s.serverUnsubscribe node channel).client = (s.unsubscribeChannel node channel).client := by
  unfold serverUnsubscribe
  split
  next free =>
    have absent : s.client.subscriptions.lookup channel = none := by
      simpa [Client.isSubscribed] using free
    rw [unsubscribeChannel_absent node absent]
  · simp only []
    split <;> rfl

/-! ## CONNECT -/

/-- CONNECT subscribes to the channels that the credentials list and to the personal one. -/
theorem mem_connectChannels {node : Node} {creds : Creds} {channel : String}
    (mem : channel ∈ connectChannels node creds) :
    channel ∈ creds.channels ∨ node.namespaces.personalChannel creds.user = some channel := by
  unfold connectChannels at mem
  split at mem
  next own found =>
    split at mem
    next => exact .inl mem
    next =>
      obtain mem | mem := List.mem_append.mp mem
      · exact .inl mem
      · exact .inr (List.mem_singleton.mp mem ▸ found)
  next => exact .inl mem

theorem serverSideSubscribe_client (s : Session) (node : Node) (clock : Clock)
    (fresh channel : String) :
    (s.serverSideSubscribe node clock fresh channel).1.client = { s.client with
      subscriptions := s.client.subscriptions.insert channel (serverSideState node channel)
      pendingJoins := s.client.pendingJoins ++
        if (serverSideState node channel).joinLeave then [(channel, s.client.clientInfo)]
        else [] } := by
  unfold serverSideSubscribe
  generalize serverSideState node channel = state
  by_cases recoverable : state.recoverable <;> by_cases joinLeave : state.joinLeave <;>
    simp [recoverable, joinLeave, deferJoin, reportTop, Client.clientInfo, Client.clientInfoWith]

/-- Subscribing on connect changes subscriptions and pending Joins only. -/
theorem serverSideSubscribes_client (node : Node) (readings : Readings) (channels : List String)
    (s : Session) (subs : Map String SubscribeResult) (i : Nat) :
    ∃ subscriptions pendingJoins,
      (serverSideSubscribes node readings s subs i channels).1.client =
        { s.client with subscriptions := subscriptions, pendingJoins := pendingJoins } := by
  induction channels generalizing s subs i with
  | nil => exact ⟨_, _, rfl⟩
  | cons channel channels ih =>
      obtain ⟨subscriptions, pendingJoins, rest⟩ := ih
        (s.serverSideSubscribe node (readings.engine i) (readings.epoch i) channel).1
        (subs.insert channel
          (s.serverSideSubscribe node (readings.engine i) (readings.epoch i) channel).2) (i + 1)
      refine ⟨subscriptions, pendingJoins, ?_⟩
      rw [serverSideSubscribes, rest, serverSideSubscribe_client]

/-- The session that a granted CONNECT leaves. -/
theorem applyConnect_client (s : Session) (node : Node) (readings : Readings) (cmd : Command)
    (creds : Creds) :
    ∃ subscriptions pendingJoins, (s.applyConnect node readings cmd creds).1.client =
      { (s.authenticate creds).client with
        subscriptions := subscriptions, pendingJoins := pendingJoins } := by
  simp only [applyConnect]
  split
  · exact ⟨_, _, rfl⟩
  · exact serverSideSubscribes_client node readings (connectChannels node creds)
      (s.authenticate creds).register ∅ 0

/-! ## Other commands -/

@[simp] theorem subscribeResult_client (s : Session) (node : Node) (clock : Clock)
    (fresh : String) (opts : ChannelOptions) (req : SubscribeRequest) :
    (s.subscribeResult node clock fresh opts req).1.client = s.client := by
  unfold subscribeResult
  repeat' split
  all_goals rfl

theorem applySubscribe_client (s : Session) (node : Node) (readings : Readings) (cmd : Command)
    (req : SubscribeRequest) (opts : ChannelOptions) (grant : Grant) :
    (s.applySubscribe node readings cmd req opts grant).1.client = { s.client with
      subscriptions := s.client.subscriptions.insert req.channel (grantedState opts grant)
      pendingJoins := s.client.pendingJoins ++ if opts.joinLeave then
        [(req.channel, s.client.clientInfoWith grant.chanInfo)] else [] } := by
  unfold applySubscribe
  by_cases joinLeave : opts.joinLeave <;> simp [joinLeave, deferJoin]

@[simp] theorem readHistory_client (s : Session) (node : Node) (readings : Readings)
    (cmd : Command) (channel : String) :
    (s.applyRead cmd (readHistory node readings) channel).1.client = s.client := rfl

theorem applyRefresh_client (s : Session) (node : Node) (readings : Readings) (cmd : Command)
    (ct : ConnectToken) :
    (s.applyRefresh node readings cmd ct).1.client = (s.renew ct).client := by
  simp only [applyRefresh]
  split <;> rfl

/-- What a SUB_REFRESH makes of a subscription. -/
def SubState.refreshed (state : SubState) : Option SubscribeToken → SubState
  | some t => { state with expireAt := t.expireAt, chanInfo := t.info }
  | none => { state with expireAt := 0 }

theorem applySubRefresh_session (s : Session) (readings : Readings) (cmd : Command)
    (channel : String) (token : Option SubscribeToken) :
    (s.applySubRefresh readings cmd channel token).1 =
      s.updateSubscription channel fun state => SubState.refreshed state token := by
  cases token <;> rfl

end Session

end Centrifugo
