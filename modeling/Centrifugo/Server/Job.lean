import Centrifugo.Server.Access
import Centrifugo.Server.Loop

/-!
# Session tasks

The reader task of a connection, cut at its accesses to the shared world. An event of the
loop is checked in one piece, and gives the operations that carry it out. Between any two
of them, other tasks run.

What an operation changes in the client itself is invisible to other tasks. It is done
together with the access before or after it.
-/

namespace Centrifugo

namespace Client

def handle (client : Client) : ClientHandle where
  id := client.id
  user := client.user
  proto := client.proto
  tx := client.tx
  ctrl := client.ctrl

def enter (client : Client) (channel : String) (state : SubState) : Client :=
  { client with subscriptions := client.subscriptions.insert channel state }

end Client

namespace Session

/-! ## The ends of handlers, after the registration of a subscription -/

/-- A server-side subscription that is registered. -/
def report (s : Session) (node : Node) (clock : Clock) (fresh channel : String) :
    Session × SubscribeResult :=
  let state := serverSideState node channel
  let s := { s with client := s.client.enter channel state }
  let (s, result) := if state.recoverable then s.reportTop node clock fresh channel else (s, {})
  let s := if state.joinLeave then s.deferJoin channel s.client.clientInfo else s
  (s, result)

/-- A SUBSCRIBE that is registered. -/
def finishSubscribe (s : Session) (node : Node) (readings : Readings) (cmd : Command)
    (req : SubscribeRequest) (opts : ChannelOptions) (grant : Session.Grant) :
    Session × CommandOutcome :=
  let info := s.client.clientInfoWith grant.chanInfo
  let s := { s with client := s.client.enter req.channel (grantedState opts grant) }
  let (s, result) := s.subscribeResult node (readings.engine 0) (readings.epoch 0) opts req
  let reply := okReply s.client.proto cmd.id (.subscribe result)
  let s := if opts.joinLeave then s.deferJoin req.channel info else s
  (s, .reply reply)

/-- A CONNECT with all its subscriptions. -/
def finishConnect (s : Session) (node : Node) (readings : Readings) (cmd : Command)
    (creds : Session.Creds) (subs : Map String SubscribeResult) : CommandOutcome :=
  let (expires, ttl) := expiry creds.expireAt readings.repliedAt
  let result : ConnectResult := {
    client := s.client.id
    version := node.version
    expires := expires
    ttl := ttl
    data := creds.data
    subs := subs }
  .reply (okReply s.client.proto cmd.id (.connect result))

end Session

/-- The reader task of a connection. `confirmed` is a ghost: the channels that the replies
of the frame so far confirm. -/
structure Reader where
  client : Client
  phase : Phase
  confirmed : List String := []

/-- One operation of a session task. -/
inductive Op
  | access (a : Access)
  /-- Count the connections of the user, and go on if there is room for one more. -/
  | register (readings : Readings) (cmd : Command) (creds : Session.Creds)
  /-- The remaining subscriptions of a CONNECT, then its reply. -/
  | serverSide (readings : Readings) (cmd : Command) (creds : Session.Creds)
      (subs : Map String SubscribeResult) (i : Nat) (channels : List String)
  | report (readings : Readings) (cmd : Command) (creds : Session.Creds)
      (subs : Map String SubscribeResult) (i : Nat) (channel : String) (channels : List String)
  | subscribeReply (readings : Readings) (cmd : Command) (req : SubscribeRequest)
      (opts : ChannelOptions) (grant : Session.Grant)
  | answer (outcome : CommandOutcome)
  | serverUnsubscribe (channel : String)

/-! ## Accesses of the handlers -/

namespace Client

/-- Registration of a subscription in the hub, and of its presence. -/
def subscribing (client : Client) (channel : String) (state : SubState) : List Access :=
  .subscribe client.id channel ::
    if state.presence then
      [.addPresence channel client.id (client.clientInfoWith state.chanInfo)]
    else []

/-- What goes before the end of a subscription: presence, then the Leave. -/
def leaving (client : Client) (channel : String) (state : SubState) : List Access :=
  (if state.presence then [.removePresence channel client.id] else []) ++
    if state.joinLeave then
      [.fanOut (.leave channel (client.clientInfoWith state.chanInfo))]
    else []

/-- The Leaves that go with it. -/
def leaves (client : Client) (channel : String) (state : SubState) : List NodeMessage :=
  if state.joinLeave then [.leave channel (client.clientInfoWith state.chanInfo)] else []

/-- Drop one subscription. -/
def unsubscribing (client : Client) (channel : String) : Client × List Access :=
  match client.subscriptions.lookup channel with
  | none => (client, [])
  | some state =>
      ({ client with
          subscriptions := client.subscriptions.erase channel
          handed := client.handed ++ client.leaves channel state },
        client.leaving channel state ++ [.unsubscribe client.id channel])

/-- Drop every subscription and the connection. -/
def disconnecting (client : Client) : Client × List Access :=
  let entries := client.subscriptions.entries
  ({ client with
      subscriptions := ∅
      handed := client.handed ++ entries.flatMap fun entry => client.leaves entry.1 entry.2 },
    (entries.flatMap fun entry => client.leaving entry.1 entry.2) ++ [.removeConn client.id none])

def refreshing (client : Client) : List Access :=
  if client.authenticated then
    (client.subscriptions.entries.filter fun entry => entry.2.presence).map fun entry =>
      .addPresence entry.1 client.id (client.clientInfoWith entry.2.chanInfo)
  else []

/-- Publish the deferred Joins. -/
def flushing (client : Client) : Client × List Access :=
  let joins := client.pendingJoins.map Session.pendingJoin
  ({ client with pendingJoins := [], handed := client.handed ++ joins }, joins.map .fanOut)

end Client

namespace Reader

def session (r : Reader) (s : Shared) : Session := ⟨r.client, s.world⟩

/-- Take the client and the world of a session. -/
def resume (r : Reader) (s : Shared) (after : Session) : Reader × Shared :=
  ({ r with client := after.client }, { s with world := after.world })

/-- Add the replies to a command to those of its frame, which they may end. The channels
are those that a success confirms. -/
def answer (r : Reader) (outcome : CommandOutcome) (channels : List String) : Reader :=
  { r with
    phase := match r.phase, outcome.disconnect with
      | .batch _ replies, some disconnect =>
          .replying (replies ++ outcome.replies) (some disconnect)
      | .batch cmds replies, none => .batch cmds (replies ++ outcome.replies)
      | phase, _ => phase
    confirmed := if outcome.failed then r.confirmed else r.confirmed ++ channels }

/-- Queue a close and leave the loop. -/
def close (r : Reader) (disconnect : Disconnect) : Reader × List Op :=
  ({ r with phase := .leaving }, [.access (.put r.client.tx (.close disconnect))])

end Reader

namespace Op

def exec (node : Node) : Exec (Reader × Shared) Op
  | .access a, (r, s) => (a.exec node s).map fun (s, more) => ((r, s), more.map access)
  | .register readings cmd creds, (r, s) =>
      let r := { r with client := ((r.session s).authenticate creds).client }
      if Session.overConnectionLimit node s.world.hub creds.user then
        some ((r.answer (.refuse cmd.id (.close .connectionLimit)) [], s), [])
      else
        some ((r, s), [
          .access (.insertConn r.client.handle),
          .access (.indexUser r.client.user r.client.id),
          .serverSide readings cmd creds ∅ 0 (Session.connectChannels node creds)])
  | .serverSide readings cmd creds subs _ [], (r, s) =>
      let outcome := (r.session s).finishConnect node readings cmd creds subs
      some ((r.answer outcome subs.keys, s), [])
  | .serverSide readings cmd creds subs i (channel :: channels), (r, s) =>
      some ((r, s),
        (r.client.subscribing channel (Session.serverSideState node channel)).map access ++
          [.report readings cmd creds subs i channel channels])
  | .report readings cmd creds subs i channel channels, (r, s) =>
      let (after, sub) :=
        (r.session s).report node (readings.engine i) (readings.epoch i) channel
      some (r.resume s after,
        [.serverSide readings cmd creds (subs.insert channel sub) (i + 1) channels])
  | .subscribeReply readings cmd req opts grant, (r, s) =>
      let (after, outcome) := (r.session s).finishSubscribe node readings cmd req opts grant
      let (r, s) := r.resume s after
      some ((r.answer outcome [req.channel], s), [])
  | .answer outcome, (r, s) => some ((r.answer outcome [], s), [])
  | .serverUnsubscribe channel, (r, s) =>
      if !r.client.isSubscribed channel then some ((r, s), [])
      else
        let (client, accesses) := r.client.unsubscribing channel
        let push := if (Sent.unsub channel).encodable client.proto then
          [.put client.tx (.frame (.unsub channel))] else []
        some (({ r with client := client }, s), (accesses ++ push).map access)

end Op

namespace Reader

/-! ## Events of the loop -/

/-- Start a command: what is refused is answered at once, and so is what reads only. -/
def onCommand (r : Reader) (s : Shared) (node : Node) (readings : Readings) (cmd : Command) :
    (Reader × Shared) × List Op :=
  let session := r.session s
  let refuse (r : Reader) (refusal : Refusal) : (Reader × Shared) × List Op :=
    ((r.answer (.refuse cmd.id refusal) [], s), [])
  if !(r.client.authenticated || cmd.method = .connect) then refuse r (.close .badRequest)
  else
    match cmd.method with
    | .connect =>
        match session.parseConnect node cmd with
        | .error refusal => refuse r refusal
        | .ok req =>
            let session := session.identify readings.uuid
            let r := { r with client := session.client }
            match session.checkConnect node readings req with
            | .error refusal => refuse r refusal
            | .ok creds => ((r, s), [.register readings cmd creds])
    | .subscribe =>
        match session.checkSubscribe node readings cmd with
        | .error refusal => refuse r refusal
        | .ok (req, opts, grant) =>
            ((r, s),
              (r.client.subscribing req.channel (Session.grantedState opts grant)).map .access ++
                [.subscribeReply readings cmd req opts grant])
    | .publish =>
        match session.checkPublish node readings cmd with
        | .error refusal => refuse r refusal
        | .ok (channel, data) =>
            ((r, s), [
              .access (.append (readings.engine 0) (readings.epoch 0) channel data
                (some r.client.clientInfo)),
              .answer (.reply (okReply r.client.proto cmd.id .publish))])
    | .unsubscribe =>
        match session.checkUnsubscribe node cmd with
        | .error refusal => refuse r refusal
        | .ok channel =>
            let (client, accesses) := r.client.unsubscribing channel
            (({ r with client := client }, s),
              accesses.map .access ++
                [.answer (.reply (okReply r.client.proto cmd.id .unsubscribe))])
    | _ =>
        let (after, outcome) := session.handleCommand node readings cmd
        let (r, s) := r.resume s after
        ((r.answer outcome [], s), [])

/-- Queue the replies of a frame. A full queue makes the task wait. -/
def onReply (r : Reader) (s : Shared) (replies : List (Reply Result))
    (disconnect : Option Disconnect) : Option ((Reader × Shared) × List Op) :=
  if replies.isEmpty then some (({ r with phase := .flushing disconnect }, s), [])
  else if !encodableReplies r.client.proto replies then
    let (r, ops) := r.close .serverError
    some ((r, s), ops)
  else if s.world.gone r.client.tx then some (({ r with phase := .leaving }, s), [])
  else if s.world.hasRoom r.client.tx then
    some (({ r with phase := .flushing disconnect }, {
      s with
      world := s.world.send r.client.tx (.frame (.replies replies))
      log := s.log ++ [.told r.client.id r.confirmed] }), [])
  else none

def onExpiryTick (r : Reader) (s : Shared) (node : Node) (readings : Readings) (now : UnixTime) :
    Reader × List Op :=
  match (r.session s).proactiveRefresh node readings with
  | (after, some disconnect) => { r with client := after.client }.close disconnect
  | (after, none) =>
      match after.client.checkExpired now with
      | some disconnect => { r with client := after.client }.close disconnect
      | none => ({ r with client := after.client }, [])

def onSignal (r : Reader) : Signal → Reader × List Op
  | .unsubscribe channel =>
      if channel = "" then (r, r.client.subscribedChannels.map .serverUnsubscribe)
      else (r, [.serverUnsubscribe channel])
  | .disconnect disconnect => r.close disconnect

/-- Start an event, when it can happen in this phase. -/
def begin (r : Reader) (s : Shared) (node : Node) : Event → Option ((Reader × Shared) × List Op)
  | .frame cmds =>
      match r.phase, cmds with
      | .reading, some cmds => some (({ r with phase := .batch cmds [], confirmed := [] }, s), [])
      | .reading, none =>
          let (r, ops) := r.close .badRequest
          some ((r, s), ops)
      | _, _ => none
  | .hangUp =>
      match r.phase with
      | .reading => some (({ r with phase := .leaving }, s), [])
      | _ => none
  | .presenceTick =>
      match r.phase with
      | .reading => some ((r, s), r.client.refreshing.map .access)
      | _ => none
  | .expiryTick readings now =>
      match r.phase with
      | .reading =>
          let (r, ops) := r.onExpiryTick s node readings now
          some ((r, s), ops)
      | _ => none
  | .signal signal =>
      match r.phase with
      | .reading =>
          let (r, ops) := r.onSignal signal
          some ((r, s), ops)
      | _ => none
  | .command readings =>
      match r.phase with
      | .batch (cmd :: cmds) replies =>
          if cmd.id = 0 ∧ cmd.method ≠ .send then
            some (({ r with phase := .replying replies (some .badRequest) }, s), [])
          else some ({ r with phase := .batch cmds replies }.onCommand s node readings cmd)
      | .batch [] replies => some (({ r with phase := .replying replies none }, s), [])
      | _ => none
  | .reply =>
      match r.phase with
      | .replying replies disconnect => r.onReply s replies disconnect
      | _ => none
  | .flush =>
      match r.phase with
      | .flushing disconnect =>
          let (client, accesses) := r.client.flushing
          let r := { r with client := client }
          match disconnect with
          | some disconnect =>
              let (r, ops) := r.close disconnect
              some ((r, s), accesses.map .access ++ ops)
          | none => some (({ r with phase := .reading }, s), accesses.map .access)
      | _ => none
  | .leave =>
      match r.phase with
      | .leaving =>
          let (client, accesses) := r.client.disconnecting
          some (({ r with client := client, phase := .ended }, s), accesses.map .access)
      | _ => none
  | .interference _ => none

end Reader

end Centrifugo
