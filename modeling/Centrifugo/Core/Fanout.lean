import Centrifugo.Core.Client.Commands
import Centrifugo.Data.Feed
import Centrifugo.Data.Run

/-!
# Concurrent fan-out

A publish takes the history lock for its append, a lock of the hub for a copy of the
subscribers, and no lock for its sends. Between any two of these, other publishes,
subscriptions and writers may come. A SUBSCRIBE and a server-side subscription likewise
register in the hub first and read the history later.

The publishes of a run are numbered in the order of their appends. `Fanout.windows` is a
ghost: for each client and channel it records what became of the last subscription.
-/

namespace Centrifugo

/-- A publish after its append. -/
structure PublishTask where
  channel : String
  publication : Publication
  /-- Who is still to be served, once the subscribers were copied. -/
  rest : Option (List ClientHandle) := none

/-- The push of a publish. -/
def PublishTask.push (task : PublishTask) (node : Node) : Sent :=
  (NodeMessage.publication task.channel task.publication).toPush node.useSeqGen

/-- What a subscription asks the history for. -/
inductive Baseline
  | top (channel : String)
  | since (req : SubscribeRequest)

def Baseline.channel : Baseline → String
  | .top channel => channel
  | .since req => req.channel

/-- What a subscription has read from the history. -/
structure HistoryRead where
  baseline : Baseline
  /-- The stream as it was found. -/
  stream : Stream
  /-- The offsets of the publications that came back. -/
  returned : List Nat
  result : SubscribeResult
  /-- How many publishes had been appended before. -/
  earlier : Nat

/-- The course of one subscription. -/
structure Window where
  /-- The publishes put in the queue, by number and offset. -/
  placed : List (Nat × Nat) := []
  /-- Registered, with the history still to be read. -/
  awaiting : Bool := false
  read : Option HistoryRead := none
  /-- The publishes that copied the subscribers after the end. -/
  missed : List Nat := []
  /-- How many publishes had been appended at the end. -/
  closed : Option Nat := none

structure Fanout where
  world : World
  tasks : List PublishTask := []
  /-- The clients that ever connected. Ids are fresh. -/
  ids : List ClientId := []
  windows : ClientId → String → Window := fun _ _ => {}

/-- The client is in the hub, with a subscription to the channel. -/
def World.subscribed (world : World) (id : ClientId) (channel : String) : Bool :=
  ((world.hub.subscriberIds channel).lookup id).isSome && (world.hub.conns.lookup id).isSome

/-- A send puts its push in the queue. -/
def World.reaches (push : Sent) (world : World) (handle : ClientHandle) : Bool :=
  push.encodable handle.proto && (world.trySend handle.tx (.frame push)).isSome

/-- A SUBSCRIBE that recovers reads what it missed, other subscriptions read the top. -/
def Session.readBaseline (s : Session) (node : Node) (clock : Clock) (fresh : String) :
    Baseline → Session × SubscribeResult
  | .top channel => s.reportTop node clock fresh channel
  | .since req => s.recoverSince node clock fresh req

namespace Fanout

inductive Event
  | append (clock : Clock) (fresh channel : String) (data : Raw) (info : Option ClientInfo)
  /-- Copy the subscribers for a publish. -/
  | snapshot (i : Nat)
  /-- The next send of a publish. -/
  | send (i : Nat)
  | connect (handle : ClientHandle)
  | subscribe (id : ClientId) (channel : String)
  | read (client : Client) (clock : Clock) (fresh : String) (baseline : Baseline)
  | unsubscribe (id : ClientId) (channel : String)
  | disconnect (id : ClientId)
  /-- A send of a Join or a Leave. -/
  | announce (message : NodeMessage) (handle : ClientHandle)
  /-- A reply, a close or another item for one connection. -/
  | put (tx : QueueId) (item : Out Sent)
  /-- A writer takes an item. -/
  | drain (tx : QueueId)
  /-- A writer ends. -/
  | release (tx : QueueId)
  /-- The close for a slow consumer finds room. -/
  | slowClose (tx : QueueId)
  /-- An access to the engine that publishes nothing. -/
  | access (clock : Clock) (fresh : String) (op : MemoryEngine.Op)

/-! ## Steps -/

/-- The next world. Subscriptions that are gone from it have ended. -/
def settle (s : Fanout) (world : World) : Fanout :=
  { s with
    world := world
    windows := fun id channel =>
      if s.world.subscribed id channel && !world.subscribed id channel then
        { s.windows id channel with closed := some s.tasks.length }
      else s.windows id channel }

def updateWindow (s : Fanout) (id : ClientId) (channel : String) (change : Window → Window) :
    Fanout :=
  { s with windows := fun id' channel' =>
      if id' = id ∧ channel' = channel then change (s.windows id channel)
      else s.windows id' channel' }

def append (s : Fanout) (node : Node) (clock : Clock) (fresh channel : String) (data : Raw)
    (info : Option ClientInfo) : Fanout :=
  let opts := ((node.channelOptions channel).map ChannelOptions.publishOptions).getD {}
  let (engine, publication) := s.world.engine.append clock fresh channel data info opts
  { s with
    world := { s.world with engine := engine }
    tasks := s.tasks ++ [{ channel := channel, publication := publication }] }

def snapshot (s : Fanout) (i : Nat) (task : PublishTask) : Fanout :=
  { s with
    tasks := s.tasks.set i { task with rest := some (s.world.hub.subscribers task.channel) }
    windows := fun id channel =>
      let window := s.windows id channel
      if channel = task.channel ∧ s.world.subscribed id channel = false then
        { window with missed := window.missed ++ [i] }
      else window }

def send (s : Fanout) (node : Node) (i : Nat) (task : PublishTask) (handle : ClientHandle)
    (rest : List ClientHandle) : Fanout :=
  let push := task.push node
  let served := { s.settle (World.deliverTo push s.world handle) with
    tasks := s.tasks.set i { task with rest := some rest } }
  if World.reaches push s.world handle then
    served.updateWindow handle.id task.channel fun window =>
      { window with placed := window.placed ++ [(i, task.publication.offset)] }
  else served

/-- A client that a slow queue has cost its place in the hub does not notice, and may still
subscribe. -/
def subscribe (s : Fanout) (id : ClientId) (channel : String) : Fanout :=
  let world := s.world.subscribe id channel
  { s with world := world }.updateWindow id channel fun window =>
    if s.world.subscribed id channel then { window with awaiting := true }
    else if world.subscribed id channel then { awaiting := true }
    else { awaiting := true, closed := some s.tasks.length }

def read (s : Fanout) (node : Node) (client : Client) (clock : Clock) (fresh : String)
    (baseline : Baseline) : Fanout :=
  let channel := baseline.channel
  let answer := (⟨client, s.world⟩ : Session).readBaseline node clock fresh baseline
  let returned := match baseline with
    | .top _ => []
    | .since req => (s.world.historySince clock fresh channel req.position req.epoch).2.1
  { s with world := answer.1.world }.updateWindow client.id channel fun window =>
    { window with
      awaiting := false
      read := some {
        baseline := baseline
        stream := MemoryEngine.streamAt clock fresh s.world.engine.history channel
        returned := returned.map Publication.offset
        result := answer.2
        earlier := s.tasks.length } }

/-- The next send of a publish, and the subscribers after it. -/
def next (s : Fanout) (i : Nat) : Option (PublishTask × ClientHandle × List ClientHandle) :=
  match s.tasks[i]? with
  | some task =>
      match task.rest with
      | some (handle :: rest) => some (task, handle, rest)
      | _ => none
  | none => none

def step (s : Fanout) (node : Node) : Event → Option Fanout
  | .append clock fresh channel data info => some (s.append node clock fresh channel data info)
  | .snapshot i =>
      match s.tasks[i]? with
      | some task => if task.rest.isNone then some (s.snapshot i task) else none
      | none => none
  | .send i => (s.next i).map fun (task, handle, rest) => s.send node i task handle rest
  | .connect handle =>
      if handle.id ∈ s.ids then none
      else some { s with
        world := { s.world with hub := s.world.hub.add handle }
        ids := s.ids ++ [handle.id] }
  | .subscribe id channel => if id ∈ s.ids then some (s.subscribe id channel) else none
  | .read client clock fresh baseline =>
      if (s.windows client.id baseline.channel).awaiting then
        some (s.read node client clock fresh baseline)
      else none
  | .unsubscribe id channel => some (s.settle (s.world.unsubscribe id channel))
  | .disconnect id => some (s.settle { s.world with hub := (s.world.hub.remove id).1 })
  | .announce message handle =>
      match message with
      | .publication _ _ => none
      | message =>
          some (s.settle (World.deliverTo (message.toPush node.useSeqGen) s.world handle))
  | .put tx item => (s.world.trySend tx item).map fun world => { s with world := world }
  | .drain tx => some { s with world := s.world.drain tx }
  | .release tx => some { s with world := s.world.release tx }
  | .slowClose tx =>
      if tx ∈ s.world.closing then
        (s.world.trySend tx (.close .slow)).map fun world =>
          { s with world := { world with closing := world.closing.erase tx } }
      else none
  | .access clock fresh op =>
      match op with
      | .publish _ _ _ _ => none
      | op => some { s with world :=
          { s.world with engine := s.world.engine.apply clock fresh op } }

def Step (node : Node) (s : Fanout) (event : Event) (s' : Fanout) : Prop :=
  s.step node event = some s'

/-- A node without connections, whose streams are empty. -/
def Initial (s : Fanout) : Prop :=
  ∃ hash metaTtl verifier queues,
    s = { world := ⟨.new hash, .new metaTtl, verifier, queues, []⟩ }

end Fanout

end Centrifugo
