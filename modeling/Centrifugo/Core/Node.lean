import Centrifugo.Auth.Verifier
import Centrifugo.Core.Hub
import Centrifugo.Core.Options
import Centrifugo.Core.Proxy
import Centrifugo.Protocol.Encode

/-!
# The node

`Node` is what a node is configured with and never changes. `World` is what it
shares between its connections: the hub, the memory engine, the token keys and the
outgoing queues.

A message from the engine is turned into a push and offered to the queue of every
subscriber. A subscriber whose queue is full or gone is dropped from the hub, and a
close is scheduled for it once.
-/

namespace Centrifugo

/-! ## Positions on the wire -/

/-- `(seq, gen)` of an offset. -/
def unpackOffset (v : Nat) : UInt32 × UInt32 := (UInt32.ofNat v, UInt32.ofNat (v / 2 ^ 32))

/-- The offset of a client's `seq` and `gen`. -/
def packOffset (seq gen : UInt32) : Nat := gen.toNat * (2 ^ 32 - 1) + seq.toNat

/-- A publication with its offset unpacked, as it is sent in seq/gen mode. -/
def Publication.toSeqGen (publication : Publication) : Publication :=
  let (seq, gen) := unpackOffset publication.offset
  { publication with seq := seq, gen := gen, offset := 0 }

/-! ## Configuration -/

/-- The decoders of command parameters in either format. -/
structure Decoders where
  connect : ProtocolType → Raw → Option ConnectRequest
  subscribe : ProtocolType → Raw → Option SubscribeRequest
  publish : ProtocolType → Raw → Option PublishRequest
  channel : ProtocolType → Raw → Option ChannelRequest
  refresh : ProtocolType → Raw → Option RefreshRequest
  subRefresh : ProtocolType → Raw → Option SubRefreshRequest
  rpc : ProtocolType → Raw → Option RpcRequest

structure Node where
  version : String
  clientInsecure : Bool
  clientAnonymous : Bool
  namespaces : Namespaces
  proxies : Proxies
  useSeqGen : Bool
  limits : Limits
  /-- Seconds between presence pings, the lookahead of proactive refresh. -/
  presencePingInterval : Nat
  decoders : Decoders

namespace Node

def channelOptions (node : Node) (channel : String) : Option ChannelOptions :=
  node.namespaces.channelOptions channel

def isPrivate (node : Node) (channel : String) : Bool := node.namespaces.isPrivate channel

end Node

/-! ## Shared state -/

/-- A frame, before it is encoded in the format of its connection. -/
inductive Sent
  | replies (batch : List (Reply Result))
  | publication (channel : String) (body : Publication)
  | join (channel : String) (body : Join)
  | leave (channel : String) (body : Leave)
  | unsub (channel : String)
  deriving DecidableEq

namespace Sent

/-- Whether a push can be encoded. Protobuf encoding always succeeds. -/
def encodable (proto : ProtocolType) : Sent → Bool
  | .replies _ => true
  | .publication ch body =>
      proto = .protobuf || (Codec.makePushFrame ch .publication body.toJson).isSome
  | .join ch body => proto = .protobuf || (Codec.makePushFrame ch .join body.toJson).isSome
  | .leave ch body => proto = .protobuf || (Codec.makePushFrame ch .leave body.toJson).isSome
  | .unsub ch =>
      proto = .protobuf || (Codec.makePushFrame ch .unsub (Result.toJson .unsubscribe)).isSome

end Sent

/-- The outgoing queue of a connection. -/
structure Queue where
  items : List (Out Sent) := []
  closed : Bool := false
  deriving DecidableEq

def writeQueue : Nat := 256

def Queue.hasRoom (queue : Queue) : Bool := !queue.closed && queue.items.length < writeQueue

structure World where
  hub : Hub
  engine : MemoryEngine
  verifier : TokenVerifier
  queues : Map QueueId Queue
  /-- Queues for which a detached task waits to put a Close(3008). -/
  closing : List QueueId

/-- A message of the engine for local fan-out. -/
inductive NodeMessage
  | publication (channel : String) (publication : Publication)
  | join (channel : String) (info : ClientInfo)
  | leave (channel : String) (info : ClientInfo)
  deriving DecidableEq

namespace NodeMessage

def channel : NodeMessage → String
  | .publication ch _ | .join ch _ | .leave ch _ => ch

/-- The push for a message. A publication with an offset is unpacked in seq/gen mode. -/
def toPush (useSeqGen : Bool) : NodeMessage → Sent
  | .publication ch body =>
      if useSeqGen && body.offset ≠ 0 then .publication ch body.toSeqGen
      else .publication ch body
  | .join ch info => .join ch ⟨info⟩
  | .leave ch info => .leave ch ⟨info⟩

end NodeMessage

namespace World

/-- A send to the queue would succeed now. -/
def hasRoom (world : World) (tx : QueueId) : Bool := (world.queues.lookup tx).any Queue.hasRoom

/-- The receiving end of a queue is gone, so that a send fails. -/
def gone (world : World) (tx : QueueId) : Bool :=
  match world.queues.lookup tx with
  | none => true
  | some queue => queue.closed

/-- Offer an item to a queue. `none` when it is full or gone. -/
def trySend (world : World) (tx : QueueId) (item : Out Sent) : Option World :=
  match world.queues.lookup tx with
  | none => none
  | some queue =>
      if queue.hasRoom then
        some { world with
          queues := world.queues.insert tx { queue with items := queue.items ++ [item] } }
      else none

/-- Wait for room in a queue and put an item into it. Nothing happens when the queue is
gone. -/
def send (world : World) (tx : QueueId) (item : Out Sent) : World :=
  match world.queues.lookup tx with
  | none => world
  | some queue =>
      if queue.closed then world
      else
        { world with
          queues := world.queues.insert tx { queue with items := queue.items ++ [item] } }

/-- A writer takes the first item of its queue. -/
def drain (world : World) (tx : QueueId) : World :=
  { world with queues := world.queues.alter tx <| Option.map fun queue =>
      { queue with items := queue.items.tail } }

/-- A writer ends, and sends to its queue fail from now on. -/
def release (world : World) (tx : QueueId) : World :=
  { world with queues := world.queues.alter tx <| Option.map fun queue =>
      { queue with closed := true } }

/-- Drop a slow consumer. Only the broadcast that finds it registered schedules its
close. -/
def dropSlow (world : World) (handle : ClientHandle) : World :=
  let (hub, present) := world.hub.remove handle.id
  { world with
    hub := hub
    closing := if present then world.closing ++ [handle.tx] else world.closing }

/-- One send of a broadcast. -/
def deliverTo (push : Sent) (world : World) (handle : ClientHandle) : World :=
  if push.encodable handle.proto then
    (world.trySend handle.tx (.frame push)).getD (world.dropSlow handle)
  else world

/-- Fan a message out to the subscribers that its channel has now. -/
def route (world : World) (useSeqGen : Bool) (message : NodeMessage) : World :=
  (world.hub.subscribers message.channel).foldl (deliverTo (message.toPush useSeqGen)) world

def publishJoin (world : World) (node : Node) (channel : String) (info : ClientInfo) : World :=
  world.route node.useSeqGen (.join channel info)

def publishLeave (world : World) (node : Node) (channel : String) (info : ClientInfo) : World :=
  world.route node.useSeqGen (.leave channel info)

def addPresence (world : World) (channel : String) (client : ClientId) (info : ClientInfo) :
    World :=
  { world with engine := world.engine.addPresence channel client info }

def removePresence (world : World) (channel : String) (client : ClientId) : World :=
  { world with engine := world.engine.removePresence channel client }

/-- Publish to a channel: append to its history when it has one, then fan out. -/
def publish (world : World) (node : Node) (clock : Clock) (fresh channel : String) (data : Raw)
    (info : Option ClientInfo) : World :=
  let opts := ((node.channelOptions channel).map ChannelOptions.publishOptions).getD {}
  let (engine, publication) := world.engine.append clock fresh channel data info opts
  { world with engine := engine }.route node.useSeqGen (.publication channel publication)

def history (world : World) (clock : Clock) (fresh channel : String) :
    World × List Publication × StreamPosition :=
  let (engine, pubs, top) := world.engine.readHistory clock fresh channel
  ({ world with engine := engine }, pubs, top)

def historySince (world : World) (clock : Clock) (fresh channel : String) (offset : Nat)
    (epoch : String) : World × List Publication × StreamPosition :=
  let (engine, pubs, top) := world.engine.historySince clock fresh channel offset epoch
  ({ world with engine := engine }, pubs, top)

def subscribe (world : World) (id : ClientId) (channel : String) : World :=
  { world with hub := world.hub.subscribe id channel }

def unsubscribe (world : World) (id : ClientId) (channel : String) : World :=
  { world with hub := world.hub.unsubscribe id channel }

/-! ## Fan-out does not touch the engine -/

@[simp] theorem engine_deliverTo (push : Sent) (world : World) (handle : ClientHandle) :
    (deliverTo push world handle).engine = world.engine := by
  unfold deliverTo
  split
  · cases sent : world.trySend handle.tx (.frame push) with
    | none => rfl
    | some after =>
        unfold trySend at sent
        repeat' split at sent
        all_goals cases sent
        rfl
  · rfl

@[simp] theorem engine_route (world : World) (useSeqGen : Bool) (message : NodeMessage) :
    (world.route useSeqGen message).engine = world.engine := by
  unfold route
  induction world.hub.subscribers message.channel generalizing world with
  | nil => rfl
  | cons handle rest ih => rw [List.foldl_cons, ih, engine_deliverTo]

end World

end Centrifugo
