import Centrifugo.Server.System

/-!
# The courses of a session

The operations of a session, seen from outside. Apart from its accesses, a session only
reads histories and queues frames. An event of its loop starts one of a few courses of
operations, which `Reader.Begun` lists, and `Op.Ran` lists the outcomes of an operation.
-/

namespace Centrifugo

/-! ## Reads of a history -/

/-- The engine after a read of a history, or after none. -/
inductive MemoryEngine.Reads (engine : MemoryEngine) : MemoryEngine → Prop
  | nothing : Reads engine engine
  | history (clock : Clock) (fresh channel : String) :
      Reads engine (engine.touch clock fresh channel).1

theorem MemoryEngine.Reads.presence {engine engine' : MemoryEngine} (h : engine.Reads engine') :
    engine'.presence = engine.presence := by
  cases h <;> rfl

/-- Nothing but a read of a history happened to the world. -/
structure World.Reads (w w' : World) : Prop where
  engine : w.engine.Reads w'.engine
  rest : w' = { w with engine := w'.engine }

namespace World.Reads

variable {w w' : World}

theorem refl (w : World) : w.Reads w := ⟨.nothing, rfl⟩

theorem history (w : World) (clock : Clock) (fresh channel : String) :
    w.Reads { w with engine := (w.engine.touch clock fresh channel).1 } :=
  ⟨.history clock fresh channel, rfl⟩

theorem hub (h : w.Reads w') : w'.hub = w.hub := by rw [h.rest]

theorem closing (h : w.Reads w') : w'.closing = w.closing := by rw [h.rest]

theorem queues (h : w.Reads w') : w'.queues = w.queues := by rw [h.rest]

end World.Reads

namespace Session

variable {node : Node} {s : Session} {readings : Readings} {cmd : Command}

theorem reads_subscribeResult (clock : Clock) (fresh : String) (opts : ChannelOptions)
    (req : SubscribeRequest) :
    s.world.Reads (s.subscribeResult node clock fresh opts req).1.world := by
  unfold subscribeResult
  split
  · split
    · simp only [recoverSince, World.historySince, MemoryEngine.historySince_engine]
      exact .history _ clock fresh req.channel
    · exact .history _ clock fresh req.channel
  · exact .refl _

theorem reads_report (clock : Clock) (fresh channel : String) :
    s.world.Reads (s.report node clock fresh channel).1.world := by
  unfold report
  by_cases recoverable : (serverSideState node channel).recoverable <;>
    by_cases joinLeave : (serverSideState node channel).joinLeave <;>
      simp only [recoverable, joinLeave, if_true, if_false, Bool.false_eq_true]
  · exact .history _ clock fresh channel
  · exact .history _ clock fresh channel
  · exact .refl _
  · exact .refl _

theorem reads_finishSubscribe (req : SubscribeRequest) (opts : ChannelOptions) (grant : Grant) :
    s.world.Reads (s.finishSubscribe node readings cmd req opts grant).1.world := by
  have read := @reads_subscribeResult node
    { s with client := s.client.enter req.channel (grantedState opts grant) }
    (readings.engine 0) (readings.epoch 0) opts req
  unfold finishSubscribe
  split <;> exact read

/-- The client that a server-side subscription leaves. -/
theorem report_client (clock : Clock) (fresh channel : String) :
    (s.report node clock fresh channel).1.client = { s.client with
      subscriptions := s.client.subscriptions.insert channel (serverSideState node channel)
      pendingJoins := s.client.pendingJoins ++
        if (serverSideState node channel).joinLeave then [(channel, s.client.clientInfo)]
        else [] } := by
  unfold report
  by_cases recoverable : (serverSideState node channel).recoverable <;>
    by_cases joinLeave : (serverSideState node channel).joinLeave <;>
      simp [recoverable, joinLeave, deferJoin, reportTop, Client.enter, Client.clientInfo,
        Client.clientInfoWith]

theorem finishSubscribe_client (req : SubscribeRequest) (opts : ChannelOptions) (grant : Grant) :
    (s.finishSubscribe node readings cmd req opts grant).1.client = { s.client with
      subscriptions := s.client.subscriptions.insert req.channel (grantedState opts grant)
      pendingJoins := s.client.pendingJoins ++ if opts.joinLeave then
        [(req.channel, s.client.clientInfoWith grant.chanInfo)] else [] } := by
  unfold finishSubscribe
  by_cases joinLeave : opts.joinLeave <;> simp [joinLeave, deferJoin, Client.enter]

end Session

/-! ## Events -/

/-- A client that nobody outside its session tells from another: it has the same
connection. -/
structure Client.Follows (c c' : Client) : Prop where
  tx : c'.tx = c.tx
  ctrl : c'.ctrl = c.ctrl
  proto : c'.proto = c.proto
  id : c.authenticated → c'.id = c.id
  authenticated : c.authenticated → c'.authenticated

theorem Client.Follows.refl (c : Client) : c.Follows c :=
  ⟨rfl, rfl, rfl, fun _ => rfl, fun yes => yes⟩

theorem Client.Follows.trans {c c' c'' : Client} (h : c.Follows c') (h' : c'.Follows c'') :
    c.Follows c'' :=
  ⟨h'.tx.trans h.tx, h'.ctrl.trans h.ctrl, h'.proto.trans h.proto,
    fun yes => (h'.id (h.authenticated yes)).trans (h.id yes),
    fun yes => h'.authenticated (h.authenticated yes)⟩

/-- A method whose commands start no operations. -/
def MethodType.Instant (method : MethodType) : Prop :=
  method ∉ [.connect, .subscribe, .publish, .unsubscribe]

@[simp] theorem Reader.answer_client (r : Reader) (outcome : CommandOutcome)
    (channels : List String) : (r.answer outcome channels).client = r.client := rfl

@[simp] theorem Reader.resume_client (r : Reader) (s : Shared) (after : Session) :
    (r.resume s after).1.client = after.client := rfl

namespace Reader

/-- The courses of a command. -/
inductive Commanded (node : Node) (r : Reader) (s : Shared) (readings : Readings)
    (cmd : Command) : Reader → Shared → List Op → Prop
  | refused (refusal : Refusal) :
      Commanded node r s readings cmd (r.answer (.refuse cmd.id refusal) []) s []
  /-- A refused CONNECT may leave a new client id behind. -/
  | identified (refusal : Refusal) (fresh : r.client.authenticated = false) :
      Commanded node r s readings cmd
        ({ r with client := { r.client with id := readings.uuid } }.answer
          (.refuse cmd.id refusal) []) s []
  | connecting (req : ConnectRequest) (creds : Session.Creds)
      (parsed : (r.session s).parseConnect node cmd = .ok req)
      (checked :
        ((r.session s).identify readings.uuid).checkConnect node readings req = .ok creds) :
      Commanded node r s readings cmd
        { r with client := { r.client with id := readings.uuid } } s
        [.register readings cmd creds]
  | subscribing (req : SubscribeRequest) (opts : ChannelOptions) (grant : Session.Grant)
      (authenticated : r.client.authenticated)
      (checked : (r.session s).checkSubscribe node readings cmd = .ok (req, opts, grant)) :
      Commanded node r s readings cmd r s
        ((r.client.subscribing req.channel (Session.grantedState opts grant)).map .access ++
          [.subscribeReply readings cmd req opts grant])
  | publishing (channel : String) (data : Raw) (authenticated : r.client.authenticated)
      (checked : (r.session s).checkPublish node readings cmd = .ok (channel, data)) :
      Commanded node r s readings cmd r s [
        .access (.append (readings.engine 0) (readings.epoch 0) channel data
          (some r.client.clientInfo)),
        .answer (.reply (okReply r.client.proto cmd.id .publish))]
  | unsubscribing (channel : String) (authenticated : r.client.authenticated) :
      Commanded node r s readings cmd
        { r with client := (r.client.unsubscribing channel).1 } s
        ((r.client.unsubscribing channel).2.map .access ++
          [.answer (.reply (okReply r.client.proto cmd.id .unsubscribe))])
  /-- A command that changes at most the client, and reads at most a history. -/
  | instant (after : Session × CommandOutcome) (authenticated : r.client.authenticated)
      (method : cmd.method.Instant)
      (effect : Session.Effect (r.session s) node readings cmd after) :
      Commanded node r s readings cmd ((r.resume s after.1).1.answer after.2 [])
        (r.resume s after.1).2 []

theorem onCommand_commanded (node : Node) (r : Reader) (s : Shared) (readings : Readings)
    (cmd : Command) {r' : Reader} {s' : Shared} {ops : List Op}
    (h : r.onCommand s node readings cmd = ((r', s'), ops)) :
    Commanded node r s readings cmd r' s' ops := by
  unfold onCommand at h
  split at h
  next =>
    cases h
    exact .refused _
  next first =>
    have ready : r.client.authenticated ∨ cmd.method = .connect := by
      rwa [Bool.not_eq_true, Bool.not_eq_false', Bool.or_eq_true, decide_eq_true_iff] at first
    split at h
    next method =>
      simp only at h
      split at h
      next =>
        cases h
        exact .refused _
      next req parsed =>
        split at h
        next refusal _ =>
          cases h
          exact .identified _ (Session.parseConnect_ok parsed).1
        next creds checked =>
          cases h
          exact .connecting req creds parsed checked
    next method =>
      have authenticated := ready.resolve_right (by simp [method])
      simp only at h
      split at h
      next =>
        cases h
        exact .refused _
      next req opts grant checked =>
        cases h
        exact .subscribing req opts grant authenticated checked
    next method =>
      have authenticated := ready.resolve_right (by simp [method])
      simp only at h
      split at h
      next =>
        cases h
        exact .refused _
      next channel data checked =>
        cases h
        exact .publishing channel data authenticated checked
    next method =>
      have authenticated := ready.resolve_right (by simp [method])
      simp only at h
      split at h
      next =>
        cases h
        exact .refused _
      next channel checked =>
        cases h
        exact .unsubscribing channel authenticated
    next connect subscribe publish unsubscribe =>
      cases h
      refine .instant _ (ready.resolve_right connect) ?_
        ((r.session s).handleCommand_effect node readings cmd)
      simpa [MethodType.Instant] using And.intro connect ⟨subscribe, publish, unsubscribe⟩

/-- The courses of an event. -/
inductive Begun (node : Node) (r : Reader) (s : Shared) : Event → Reader → Shared → List Op → Prop
  /-- Only the phase moves on, or the connection is renewed. -/
  | settled (event : Event) (r' : Reader) (connInfo : Option Raw) (expireAt : Int)
      (client : r'.client = { r.client with connInfo := connInfo, expireAt := expireAt }) :
      Begun node r s event r' s []
  | closing (event : Event) (connInfo : Option Raw) (expireAt : Int) (disconnect : Disconnect) :
      Begun node r s event
        { r with
          client := { r.client with connInfo := connInfo, expireAt := expireAt }
          phase := .leaving } s
        [.access (.put r.client.tx (.close disconnect))]
  | pinged (reading : r.phase = .reading) :
      Begun node r s .presenceTick r s (r.client.refreshing.map .access)
  | dropping (signal : Signal) (channels : List String) (reading : r.phase = .reading) :
      Begun node r s (.signal signal) r s (channels.map .serverUnsubscribe)
  | command (readings : Readings) (cmd : Command) (cmds : List Command)
      (replies : List (Reply Result)) {r' : Reader} {s' : Shared} {ops : List Op}
      (phase : r.phase = .batch (cmd :: cmds) replies)
      (commanded : Commanded node { r with phase := .batch cmds replies } s readings cmd
        r' s' ops) :
      Begun node r s (.command readings) r' s' ops
  | replied (replies : List (Reply Result)) (disconnect : Option Disconnect)
      (phase : r.phase = .replying replies disconnect) (room : s.world.hasRoom r.client.tx) :
      Begun node r s .reply { r with phase := .flushing disconnect } {
        s with
        world := s.world.send r.client.tx (.frame (.replies replies))
        log := s.log ++ [.told r.client.id r.confirmed] } []
  | flushed (disconnect : Option Disconnect) (phase : r.phase = .flushing disconnect)
      (phase' : Phase) :
      Begun node r s .flush { r with client := r.client.flushing.1, phase := phase' } s
        (r.client.flushing.2.map .access ++
          (disconnect.map fun d => Op.access (.put r.client.tx (.close d))).toList)
  | left (phase : r.phase = .leaving) :
      Begun node r s .leave { r with client := r.client.disconnecting.1, phase := .ended } s
        (r.client.disconnecting.2.map .access)

theorem begin_begun {node : Node} {r r' : Reader} {s s' : Shared} {event : Event} {ops : List Op}
    (h : r.begin s node event = some ((r', s'), ops)) : Begun node r s event r' s' ops := by
  unfold Reader.begin at h
  cases event with
  | frame cmds =>
      simp only at h
      split at h
      next => cases h; exact .settled _ _ r.client.connInfo r.client.expireAt rfl
      next => cases h; exact .closing _ r.client.connInfo r.client.expireAt _
      next => cases h
  | hangUp =>
      simp only at h
      split at h
      next => cases h; exact .settled _ _ r.client.connInfo r.client.expireAt rfl
      next => cases h
  | presenceTick =>
      simp only at h
      split at h
      next reading => cases h; exact .pinged reading
      next => cases h
  | expiryTick readings now =>
      simp only at h
      split at h
      next =>
        obtain ⟨connInfo, expireAt, client⟩ :=
          (r.session s).proactiveRefresh_client node readings
        simp only [onExpiryTick] at h
        split at h
        next after disconnect refreshed =>
          rw [refreshed] at client
          cases h
          simp only at client
          rw [close, client]
          exact .closing _ connInfo expireAt disconnect
        next after refreshed =>
          rw [refreshed] at client
          split at h
          next disconnect _ =>
            cases h
            simp only at client
            rw [close, client]
            exact .closing _ connInfo expireAt disconnect
          next =>
            cases h
            exact .settled _ _ connInfo expireAt client
      next => cases h
  | signal signal =>
      simp only at h
      split at h
      next reading =>
        cases signal with
        | unsubscribe channel =>
            simp only [onSignal] at h
            split at h
            · cases h
              exact .dropping _ _ reading
            · cases h
              exact .dropping _ [channel] reading
        | disconnect disconnect =>
            cases h
            exact .closing _ r.client.connInfo r.client.expireAt disconnect
      next => cases h
  | command readings =>
      simp only at h
      split at h
      next cmd cmds replies phase =>
        split at h
        next => cases h; exact .settled _ _ r.client.connInfo r.client.expireAt rfl
        next =>
          exact .command readings cmd cmds replies phase
            (onCommand_commanded node _ s readings cmd (Option.some.inj h))
      next => cases h; exact .settled _ _ r.client.connInfo r.client.expireAt rfl
      next => cases h
  | reply =>
      simp only at h
      split at h
      next replies disconnect phase =>
        unfold onReply at h
        split at h
        next => cases h; exact .settled _ _ r.client.connInfo r.client.expireAt rfl
        next =>
          split at h
          next => cases h; exact .closing _ r.client.connInfo r.client.expireAt _
          next =>
            split at h
            next => cases h; exact .settled _ _ r.client.connInfo r.client.expireAt rfl
            next =>
              split at h
              next room => cases h; exact .replied replies disconnect phase room
              next => cases h
      next => cases h
  | flush =>
      simp only at h
      split at h
      next disconnect phase =>
        cases disconnect with
        | some disconnect => cases h; exact .flushed (some disconnect) phase _
        | none =>
            cases h
            have flushed : Begun node r s .flush
                { r with client := r.client.flushing.1, phase := .reading } s
                (r.client.flushing.2.map .access ++ []) := .flushed none phase _
            rwa [List.append_nil] at flushed
      next => cases h
  | leave =>
      simp only at h
      split at h
      next phase => cases h; exact .left phase
      next => cases h
  | interference world => cases h

end Reader

/-! ## What others see of a session -/

namespace Session.Effect

variable {node : Node} {s : Session} {readings : Readings} {cmd : Command}
  {after : Session × CommandOutcome}

/-- A command without operations reads at most a history. -/
theorem reads (effect : Effect s node readings cmd after) (method : cmd.method.Instant) :
    s.world.Reads after.1.world := by
  cases effect with
  | historyRead channel _ _ _ => exact .history _ (readings.engine 0) (readings.epoch 0) channel
  | refreshed ct _ _ _ =>
      simp only [applyRefresh]
      split <;> exact .refl _
  | subRefreshed channel token _ _ _ =>
      rw [applySubRefresh_session]
      exact .refl _
  | connected _ _ connect _ _ => exact absurd (by simp [connect]) method
  | subscribed _ _ _ subscribe _ _ => exact absurd (by simp [subscribe]) method
  | published _ _ publish _ _ => exact absurd (by simp [publish]) method
  | unsubscribed _ unsubscribe _ _ => exact absurd (by simp [unsubscribe]) method
  | _ => exact .refl _

/-- It does not take or leave channels. -/
theorem client_of_instant (effect : Effect s node readings cmd after)
    (method : cmd.method.Instant) :
    s.client.Follows after.1.client ∧ ∀ channel,
      after.1.client.isSubscribed channel = s.client.isSubscribed channel := by
  cases effect with
  | refused _ => exact ⟨.refl _, fun _ => rfl⟩
  | answered _ _ => exact ⟨.refl _, fun _ => rfl⟩
  | historyRead channel _ _ _ => exact ⟨.refl _, fun _ => rfl⟩
  | refreshed ct _ _ _ =>
      rw [applyRefresh_client]
      exact ⟨⟨rfl, rfl, rfl, fun _ => rfl, fun yes => yes⟩, fun _ => rfl⟩
  | subRefreshed channel token _ _ _ =>
      rw [applySubRefresh_session]
      refine ⟨⟨rfl, rfl, rfl, fun _ => rfl, fun yes => yes⟩, fun other => ?_⟩
      simp only [Client.isSubscribed, updateSubscription, Map.lookup_alter]
      split
      next same => rw [same, Option.isSome_map]
      next => rfl
  | identified _ connect => exact absurd (by simp [connect]) method
  | connected _ _ connect _ _ => exact absurd (by simp [connect]) method
  | subscribed _ _ _ subscribe _ _ => exact absurd (by simp [subscribe]) method
  | published _ _ publish _ _ => exact absurd (by simp [publish]) method
  | unsubscribed _ unsubscribe _ _ => exact absurd (by simp [unsubscribe]) method

end Session.Effect

/-- A fact that is not about an access. -/
def Fact.aside : Fact → Bool
  | .told _ _ | .processed _ _ => true
  | _ => false

/-- No task can tell that something happened, unless it reads a history or a queue. -/
structure Shared.Quiet (s s' : Shared) : Prop where
  hub : s'.world.hub = s.world.hub
  engine : s.world.engine.Reads s'.world.engine
  log : ∃ facts, s'.log = s.log ++ facts ∧ ∀ fact ∈ facts, fact.aside = true

namespace Shared.Quiet

variable {s s' s'' : Shared}

theorem refl (s : Shared) : s.Quiet s := ⟨rfl, .nothing, [], by simp, by simp⟩

theorem presence (h : s.Quiet s') : s'.world.engine.presence = s.world.engine.presence :=
  h.engine.presence

/-- Taking a signal, and then starting an event with it. -/
theorem trans (h : s.Quiet s') (same : s'.world = s.world) (h' : s'.Quiet s'') : s.Quiet s'' := by
  obtain ⟨facts, log, aside⟩ := h.log
  obtain ⟨facts', log', aside'⟩ := h'.log
  refine ⟨h'.hub.trans h.hub, same ▸ h'.engine, facts ++ facts', ?_, ?_⟩
  · rw [log', log, List.append_assoc]
  · intro fact mem
    obtain mem | mem := List.mem_append.mp mem
    · exact aside fact mem
    · exact aside' fact mem

theorem of_reads (h : s.world.Reads s'.world) (log : s'.log = s.log) : s.Quiet s' :=
  ⟨h.hub, h.engine, [], by simp [log], by simp⟩

end Shared.Quiet

theorem World.send_hub (w : World) (tx : QueueId) (item : Out Sent) :
    (w.send tx item).hub = w.hub ∧ (w.send tx item).engine = w.engine := by
  unfold World.send
  split
  · exact ⟨rfl, rfl⟩
  · split <;> exact ⟨rfl, rfl⟩

/-! ## Where accesses come from -/

/-- What a session does in its own name, apart from its registration. -/
def Access.ofClient (client : Client) : Access → Bool
  | .subscribe id _ => id = client.id && client.authenticated
  | .unsubscribe id _ | .addPresence _ id _ | .removePresence _ id
  | .removeConn id none => id = client.id
  | .append _ _ _ _ _ | .fanOut _ => true
  | .put _ item => item.push.isNone
  | _ => false

/-- An operation of a session, apart from its registration. -/
def Op.ofClient (client : Client) : Op → Bool
  | .access a => a.ofClient client
  | .register _ _ _ => false
  | .serverSide _ _ _ _ _ _ | .report _ _ _ _ _ _ _ => client.authenticated
  | _ => true

/-- Only the name of a client and its right to subscribe count. -/
theorem Op.ofClient_congr {client client' : Client} (id : client'.id = client.id)
    (authenticated : client'.authenticated = client.authenticated) :
    ofClient client' = ofClient client := by
  funext op
  simp only [ofClient, Access.ofClient, id, authenticated]

@[simp] theorem Op.all_ofClient_map (client : Client) (accesses : List Access) :
    (accesses.map access).all (ofClient client) = accesses.all (Access.ofClient client) := by
  rw [List.all_map]
  rfl

theorem Op.ofClient_of_mem {client : Client} {ops : List Op} (h : ops.all (ofClient client))
    {a : Access} (mem : a ∈ ops.filterMap access?) : a.ofClient client := by
  obtain ⟨op, member, same⟩ := List.mem_filterMap.mp mem
  have own := List.all_eq_true.mp h op member
  cases op with
  | access b =>
      cases same
      exact own
  | _ => cases same

namespace Client

variable (client : Client) (channel : String) (state : SubState)

theorem own_subscribing (authenticated : client.authenticated) :
    (client.subscribing channel state).all (Access.ofClient client) := by
  unfold subscribing
  split <;> simp [Access.ofClient, authenticated]

theorem own_leaving : (client.leaving channel state).all (Access.ofClient client) := by
  unfold leaving
  split <;> split <;> simp [Access.ofClient]

theorem own_unsubscribing :
    (client.unsubscribing channel).2.all (Access.ofClient client) := by
  unfold unsubscribing
  split
  · rfl
  · rw [List.all_append, own_leaving]
    simp [Access.ofClient]

theorem own_disconnecting : client.disconnecting.2.all (Access.ofClient client) := by
  simp only [disconnecting, List.all_append, List.all_flatMap, own_leaving]
  simp [Access.ofClient]

theorem own_refreshing : client.refreshing.all (Access.ofClient client) := by
  unfold refreshing
  split
  · rw [List.all_map]
    exact List.all_eq_true.mpr fun _ _ => by simp [Access.ofClient]
  · rfl

theorem own_flushing : client.flushing.2.all (Access.ofClient client) := by
  simp only [flushing, List.all_map]
  exact List.all_eq_true.mpr fun _ _ => rfl

/-- A channel that is dropped leaves the connection as it is. -/
theorem unsubscribing_connection : (client.unsubscribing channel).1.id = client.id ∧
    (client.unsubscribing channel).1.authenticated = client.authenticated ∧
      client.Follows (client.unsubscribing channel).1 := by
  unfold unsubscribing
  split <;> exact ⟨rfl, rfl, rfl, rfl, rfl, fun _ => rfl, fun yes => yes⟩

end Client

namespace Op

variable {node : Node} {op : Op} {r r' : Reader} {s s' : Shared} {more : List Op}

theorem exec_report (readings : Readings) (cmd : Command) (creds : Session.Creds)
    (subs : Map String SubscribeResult) (i : Nat) (channel : String) (channels : List String) :
    exec node (.report readings cmd creds subs i channel channels) (r, s) =
      let reported :=
        (r.session s).report node (readings.engine i) (readings.epoch i) channel
      some (r.resume s reported.1,
        [.serverSide readings cmd creds (subs.insert channel reported.2) (i + 1) channels]) :=
  rfl

theorem exec_subscribeReply (readings : Readings) (cmd : Command) (req : SubscribeRequest)
    (opts : ChannelOptions) (grant : Session.Grant) :
    exec node (.subscribeReply readings cmd req opts grant) (r, s) =
      let finished := (r.session s).finishSubscribe node readings cmd req opts grant
      some (((r.resume s finished.1).1.answer finished.2 [req.channel],
        (r.resume s finished.1).2), []) :=
  rfl

/-- The outcomes of an operation. -/
inductive Ran (node : Node) (r : Reader) (s : Shared) : Op → Reader → Shared → List Op → Prop
  | accessed {a : Access} {s' : Shared} {accesses : List Access}
      (ran : a.exec node s = some (s', accesses)) :
      Ran node r s (.access a) r s' (accesses.map access)
  | overLimit (readings : Readings) (cmd : Command) (creds : Session.Creds)
      (limit : Session.overConnectionLimit node s.world.hub creds.user) :
      Ran node r s (.register readings cmd creds)
        ({ r with client := ((r.session s).authenticate creds).client }.answer
          (.refuse cmd.id (.close .connectionLimit)) []) s []
  | registering (readings : Readings) (cmd : Command) (creds : Session.Creds)
      (room : Session.overConnectionLimit node s.world.hub creds.user = false)
      {client : Client} (same : client = ((r.session s).authenticate creds).client) :
      Ran node r s (.register readings cmd creds) { r with client := client } s [
        .access (.insertConn client.handle),
        .access (.indexUser client.user client.id),
        .serverSide readings cmd creds ∅ 0 (Session.connectChannels node creds)]
  | connected (readings : Readings) (cmd : Command) (creds : Session.Creds)
      (subs : Map String SubscribeResult) (i : Nat) :
      Ran node r s (.serverSide readings cmd creds subs i [])
        (r.answer ((r.session s).finishConnect node readings cmd creds subs) subs.keys) s []
  | joining (readings : Readings) (cmd : Command) (creds : Session.Creds)
      (subs : Map String SubscribeResult) (i : Nat) (channel : String)
      (channels : List String) :
      Ran node r s (.serverSide readings cmd creds subs i (channel :: channels)) r s
        ((r.client.subscribing channel (Session.serverSideState node channel)).map access ++
          [.report readings cmd creds subs i channel channels])
  | reported (readings : Readings) (cmd : Command) (creds : Session.Creds)
      (subs : Map String SubscribeResult) (i : Nat) (channel : String)
      (channels : List String) (after : Session × SubscribeResult)
      (read : after = (r.session s).report node (readings.engine i) (readings.epoch i) channel) :
      Ran node r s (.report readings cmd creds subs i channel channels)
        (r.resume s after.1).1 (r.resume s after.1).2
        [.serverSide readings cmd creds (subs.insert channel after.2) (i + 1) channels]
  | subscribed (readings : Readings) (cmd : Command) (req : SubscribeRequest)
      (opts : ChannelOptions) (grant : Session.Grant) (after : Session × CommandOutcome)
      (finished : after = (r.session s).finishSubscribe node readings cmd req opts grant) :
      Ran node r s (.subscribeReply readings cmd req opts grant)
        ((r.resume s after.1).1.answer after.2 [req.channel]) (r.resume s after.1).2 []
  | answered (outcome : CommandOutcome) :
      Ran node r s (.answer outcome) (r.answer outcome []) s []
  | absent (channel : String) (free : r.client.isSubscribed channel = false) :
      Ran node r s (.serverUnsubscribe channel) r s []
  | unsubscribed (channel : String) (held : r.client.isSubscribed channel) (push : List Access)
      (pushed : push = [] ∨ ∃ tx, push = [.put tx (.frame (.unsub channel))]) :
      Ran node r s (.serverUnsubscribe channel)
        { r with client := (r.client.unsubscribing channel).1 } s
        (((r.client.unsubscribing channel).2 ++ push).map access)

theorem exec_ran (h : op.exec node (r, s) = some ((r', s'), more)) :
    Ran node r s op r' s' more := by
  cases op with
  | access a =>
      obtain ⟨⟨s'', accesses⟩, ran, same⟩ := Option.map_eq_some_iff.mp h
      cases same
      exact .accessed ran
  | register readings cmd creds =>
      simp only [exec] at h
      split at h
      next limit => cases h; exact .overLimit readings cmd creds limit
      next room => cases h; exact .registering readings cmd creds (by simpa using room) rfl
  | serverSide readings cmd creds subs i channels =>
      cases channels with
      | nil => cases h; exact .connected readings cmd creds subs i
      | cons channel channels =>
          cases h
          exact .joining readings cmd creds subs i channel channels
  | report readings cmd creds subs i channel channels =>
      rw [exec_report] at h
      obtain ⟨resumed, rfl⟩ := Prod.mk.inj (Option.some.inj h)
      obtain ⟨rfl, rfl⟩ := Prod.mk.inj resumed
      exact .reported readings cmd creds subs i channel channels _ rfl
  | subscribeReply readings cmd req opts grant =>
      rw [exec_subscribeReply] at h
      obtain ⟨resumed, rfl⟩ := Prod.mk.inj (Option.some.inj h)
      obtain ⟨rfl, rfl⟩ := Prod.mk.inj resumed
      exact .subscribed readings cmd req opts grant _ rfl
  | answer outcome => cases h; exact .answered outcome
  | serverUnsubscribe channel =>
      simp only [exec] at h
      split at h
      next free => cases h; exact .absent channel (by simpa using free)
      next held =>
        cases h
        refine .unsubscribed channel (by simpa using held) _ ?_
        split
        · exact .inr ⟨_, rfl⟩
        · exact .inl rfl

/-- What is no access reads at most a history. -/
theorem Ran.reads (h : Ran node r s op r' s' more) (other : op.access? = none) :
    s.world.Reads s'.world ∧ s'.ctrls = s.ctrls ∧ s'.log = s.log := by
  cases h with
  | accessed _ => cases other
  | reported _ _ _ _ _ _ _ after read =>
      subst read
      exact ⟨Session.reads_report (s := r.session s) _ _ _, rfl, rfl⟩
  | subscribed _ _ _ _ _ after finished =>
      subst finished
      exact ⟨Session.reads_finishSubscribe (s := r.session s) _ _ _, rfl, rfl⟩
  | _ => exact ⟨.refl _, rfl, rfl⟩

/-- An operation is an access, or the registration, or it changes its own client and reads at
most a history. -/
inductive Kind (node : Node) (r : Reader) (s : Shared) (r' : Reader) (s' : Shared) :
    Op → List Op → Prop
  | access {a : Access} {accesses : List Access} (ran : a.exec node s = some (s', accesses))
      (reader : r' = r) : Kind node r s r' s' (.access a) (accesses.map access)
  | registering (readings : Readings) (cmd : Command) (creds : Session.Creds)
      (room : Session.overConnectionLimit node s.world.hub creds.user = false)
      (client : r'.client = ((r.session s).authenticate creds).client) (shared : s' = s) :
      Kind node r s r' s' (.register readings cmd creds) [
        .access (.insertConn r'.client.handle),
        .access (.indexUser r'.client.user r'.client.id),
        .serverSide readings cmd creds ∅ 0 (Session.connectChannels node creds)]
  | quiet {op : Op} {more : List Op} (other : op.access? = none) (quiet : s.Quiet s')
      (own : more.all (ofClient r'.client)) : Kind node r s r' s' op more

theorem Ran.kind (h : Ran node r s op r' s' more)
    (able : op.access? = none → op.ofClient r.client ∨
      ∃ readings cmd creds, op = .register readings cmd creds) :
    Kind node r s r' s' op more := by
  have quiet : op.access? = none → s.Quiet s' := fun other =>
    .of_reads (h.reads other).1 (h.reads other).2.2
  cases h with
  | accessed ran => exact .access ran rfl
  | overLimit _ _ _ _ => exact .quiet rfl (quiet rfl) rfl
  | registering readings cmd creds room same => exact .registering readings cmd creds room same rfl
  | connected _ _ _ _ _ => exact .quiet rfl (quiet rfl) rfl
  | joining _ _ _ _ _ channel _ =>
      have authenticated : r.client.authenticated := (able rfl).resolve_right (by simp)
      refine .quiet rfl (quiet rfl) ?_
      rw [List.all_append, all_ofClient_map, Client.own_subscribing _ _ _ authenticated]
      simp [ofClient, authenticated]
  | reported _ _ _ _ _ _ _ after read =>
      have authenticated : r.client.authenticated := (able rfl).resolve_right (by simp)
      refine .quiet rfl (quiet rfl) ?_
      subst read
      rw [Reader.resume_client, Session.report_client]
      exact Bool.and_eq_true_iff.mpr ⟨authenticated, rfl⟩
  | subscribed _ _ _ _ _ after finished => exact .quiet rfl (quiet rfl) rfl
  | answered _ => exact .quiet rfl (quiet rfl) rfl
  | absent _ _ => exact .quiet rfl (quiet rfl) rfl
  | unsubscribed channel _ push pushed =>
      obtain ⟨id, authenticated, _⟩ := r.client.unsubscribing_connection channel
      refine .quiet rfl (quiet rfl) ?_
      rw [ofClient_congr id authenticated, all_ofClient_map, List.all_append,
        Client.own_unsubscribing]
      obtain rfl | ⟨tx, rfl⟩ := pushed <;> rfl

end Op

theorem Shared.Quiet.take {s s' : Shared} {ctrl : QueueId} {signal : Signal}
    (h : s.take ctrl signal = some s') : s.Quiet s' := by
  unfold Shared.take at h
  repeat' split at h
  all_goals cases h
  exact ⟨rfl, .nothing, [.processed ctrl signal], rfl, by simp [Fact.aside]⟩

theorem Reader.prepare_quiet {r : Reader} {s s' : Shared} {event : Event}
    (h : r.prepare s event = some s') : s.Quiet s' ∧ s'.world = s.world := by
  unfold Reader.prepare at h
  split at h
  next signal =>
    obtain ⟨ctrl, _, taken⟩ := Option.bind_eq_some_iff.mp h
    refine ⟨.take taken, ?_⟩
    unfold Shared.take at taken
    repeat' split at taken
    all_goals cases taken
    rfl
  next =>
    cases h
    exact ⟨.refl s, rfl⟩

namespace Reader

variable {node : Node} {r r' : Reader} {s s' : Shared} {event : Event} {ops : List Op}
  {readings : Readings} {cmd : Command}

/-- A command is a CONNECT that goes on to the registration, or its operations are those of
a registered session. -/
theorem Commanded.own (h : Commanded node r s readings cmd r' s' ops) :
    (∃ creds, ops = [.register readings cmd creds] ∧ r'.client.id = readings.uuid ∧
      r'.client.authenticated = false) ∨ ops.all (Op.ofClient r'.client) := by
  cases h with
  | connecting req creds parsed _ =>
      exact .inl ⟨creds, rfl, rfl, (Session.parseConnect_ok parsed).1⟩
  | subscribing req opts grant authenticated _ =>
      right
      rw [List.all_append, Op.all_ofClient_map, Client.own_subscribing _ _ _ authenticated]
      rfl
  | unsubscribing channel _ =>
      obtain ⟨id, authenticated, _⟩ := r.client.unsubscribing_connection channel
      right
      rw [Op.ofClient_congr id authenticated, List.all_append, Op.all_ofClient_map,
        Client.own_unsubscribing]
      rfl
  | _ => exact .inr rfl

theorem Begun.own (h : Begun node r s event r' s' ops) :
    (∃ readings cmd creds, event = .command readings ∧ ops = [.register readings cmd creds] ∧
      r'.client.id = readings.uuid ∧ r'.client.authenticated = false) ∨
    ops.all (Op.ofClient r'.client) := by
  cases h with
  | pinged _ => exact .inr (by rw [Op.all_ofClient_map, Client.own_refreshing])
  | dropping signal channels _ =>
      right
      rw [List.all_map]
      exact List.all_eq_true.mpr fun _ _ => rfl
  | command readings cmd cmds replies _ commanded =>
      obtain ⟨creds, ops, id, fresh⟩ | own := commanded.own
      · exact .inl ⟨readings, cmd, creds, rfl, ops, id, fresh⟩
      · exact .inr own
  | flushed disconnect _ _ =>
      right
      rw [@Op.ofClient_congr r.client r.client.flushing.1 rfl rfl, List.all_append,
        Op.all_ofClient_map, Client.own_flushing]
      cases disconnect <;> rfl
  | left _ =>
      right
      rw [@Op.ofClient_congr r.client r.client.disconnecting.1 rfl rfl, Op.all_ofClient_map,
        Client.own_disconnecting]
  | _ => exact .inr rfl

theorem Begun.quiet (h : Begun node r s event r' s' ops) : s.Quiet s' := by
  cases h with
  | command readings cmd cmds replies _ commanded =>
      cases commanded with
      | instant after _ method effect => exact .of_reads (effect.reads method) rfl
      | _ => exact .refl s
  | replied replies disconnect _ _ =>
      obtain ⟨hub, engine⟩ := s.world.send_hub r.client.tx (.frame (.replies replies))
      exact ⟨hub, engine ▸ .nothing, [.told r.client.id r.confirmed], rfl, by
        simp [Fact.aside]⟩
  | _ => exact .refl s

/-- An event leaves the control queues alone, and tells at most of replies. -/
theorem Begun.told (h : Begun node r s event r' s' ops) : s'.ctrls = s.ctrls ∧
    ∃ facts, s'.log = s.log ++ facts ∧ ∀ fact ∈ facts, ∃ id channels, fact = .told id channels := by
  cases h with
  | command readings cmd cmds replies _ commanded =>
      cases commanded <;> exact ⟨rfl, [], by simp [resume], by simp⟩
  | replied replies disconnect _ _ => exact ⟨rfl, _, rfl, by simp⟩
  | _ => exact ⟨rfl, [], by simp, by simp⟩

end Reader

end Centrifugo
