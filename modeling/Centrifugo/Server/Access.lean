import Centrifugo.Core.Control
import Centrifugo.Core.Hub.Locks
import Centrifugo.Core.Node
import Centrifugo.Data.Task

/-!
# Shared accesses

The tasks of a node share its world. An `Access` is one critical section of a task: it
takes one lock, or sends to one queue. What the task has to do next because of what it
found, such as the sends of a broadcast or the rest of a removal, comes back as further
accesses.

`Shared.log` is a ghost. It records the broadcasts, the subscriptions and the signals of a
run in their order; no access reads it, except for the number of a broadcast, which is
its place in the log.
-/

namespace Centrifugo

inductive Access
  -- registration, the two locks of `Hub::add`
  | insertConn (handle : ClientHandle)
  | indexUser (user : String) (id : ClientId)
  -- removal, the locks of `Hub::remove`
  /-- With the queue to close when a broadcast drops a slow consumer. -/
  | removeConn (id : ClientId) (slow : Option QueueId)
  | unindexUser (user : String) (id : ClientId)
  | sweep (id : ClientId) (shard : Fin 16)
  | scheduleClose (tx : QueueId)
  -- subscriptions and presence
  | subscribe (id : ClientId) (channel : String)
  | unsubscribe (id : ClientId) (channel : String)
  | addPresence (channel : String) (id : ClientId) (info : ClientInfo)
  | removePresence (channel : String) (id : ClientId)
  -- history
  | append (clock : Clock) (fresh channel : String) (data : Raw) (info : Option ClientInfo)
  | readHistory (clock : Clock) (fresh channel : String)
  | removeHistory (channel : String)
  -- broadcasts: a copy of the subscribers, then one send for each of them
  | fanOut (message : NodeMessage)
  | offer (broadcast : Nat) (push : Sent) (handle : ClientHandle)
  /-- A send that waits for room. -/
  | put (tx : QueueId) (item : Out Sent)
  -- control commands: a copy of the addressed connections, then one signal for each
  | control (message : ControlMessage)
  | notify (handle : ClientHandle) (signal : Signal)

/-- The push that an item carries, when it is one of a broadcast. -/
def Out.push : Out Sent → Option Sent
  | .frame (.replies _) | .frame (.unsub _) | .close _ => none
  | .frame push => some push

/-- What became of one send of a broadcast. -/
inductive Delivery
  | placed
  /-- The queue was full or gone. -/
  | refused
  /-- The push cannot be encoded for the connection. -/
  | skipped
  deriving DecidableEq

/-- The events that a log keeps. -/
inductive Fact
  | copied (message : NodeMessage) (handles : List ClientHandle)
  | offered (broadcast : Nat) (push : Sent) (handle : ClientHandle) (delivery : Delivery)
  | scheduled (tx : QueueId)
  | subscribed (id : ClientId) (channel : String)
  /-- A frame with the replies that confirm these channels was queued. -/
  | told (id : ClientId) (channels : List String)
  | addressed (handle : ClientHandle) (signal : Signal)
  | notified (handle : ClientHandle) (signal : Signal) (delivered : Bool)
  | processed (ctrl : QueueId) (signal : Signal)
  deriving DecidableEq

/-- The control queue of a connection. -/
structure SignalQueue where
  items : List Signal := []
  closed : Bool := false
  deriving DecidableEq

def ctrlQueue : Nat := 64

def SignalQueue.hasRoom (queue : SignalQueue) : Bool :=
  !queue.closed && queue.items.length < ctrlQueue

structure Shared where
  world : World
  ctrls : Map QueueId SignalQueue := ∅
  log : List Fact := []

def Shared.takes (s : Shared) (ctrl : QueueId) : Bool :=
  (s.ctrls.lookup ctrl).any SignalQueue.hasRoom

/-- What an offer of a push meets. -/
def World.delivery (world : World) (push : Sent) (handle : ClientHandle) : Delivery :=
  if push.encodable handle.proto then
    if world.hasRoom handle.tx then .placed else .refused
  else .skipped

namespace Access

/-! ## What an access changes -/

def hub : Access → Hub → Hub
  | .insertConn handle, hub => hub.insertConn handle
  | .indexUser user id, hub => hub.indexUser user id
  | .removeConn id _, hub => hub.removeConn id
  | .unindexUser user id, hub => hub.unindexUser user id
  | .sweep id shard, hub => hub.sweep id shard
  | .subscribe id channel, hub => hub.subscribe id channel
  | .unsubscribe id channel, hub => hub.unsubscribe id channel
  | _, hub => hub

/-- The options of a channel for a publish to it. -/
def publishOptions (node : Node) (channel : String) : PublishOptions :=
  ((node.channelOptions channel).map ChannelOptions.publishOptions).getD {}

def engine (node : Node) : Access → MemoryEngine → MemoryEngine
  | .addPresence channel id info, engine => engine.addPresence channel id info
  | .removePresence channel id, engine => engine.removePresence channel id
  | .append clock fresh channel data info, engine =>
      (engine.append clock fresh channel data info (publishOptions node channel)).1
  | .readHistory clock fresh channel, engine => (engine.readHistory clock fresh channel).1
  | .removeHistory channel, engine => engine.removeHistory channel
  | _, engine => engine

/-- The world with the registry and the engine changed, and the queues after a send. -/
def world (node : Node) (a : Access) (world : World) : World :=
  let sent := match a with
    | .offer _ push handle =>
        if push.encodable handle.proto then
          (world.trySend handle.tx (.frame push)).getD world
        else world
    | .put tx item => world.send tx item
    | .scheduleClose tx => { world with closing := world.closing ++ [tx] }
    | _ => world
  { sent with hub := a.hub world.hub, engine := a.engine node world.engine }

/-- A signal that finds no room is dropped. -/
def ctrls (a : Access) (s : Shared) : Map QueueId SignalQueue :=
  match a with
  | .notify handle signal =>
      match handle.ctrl with
      | some ctrl =>
          if s.takes ctrl then
            s.ctrls.alter ctrl <| Option.map fun queue =>
              { queue with items := queue.items ++ [signal] }
          else s.ctrls
      | none => s.ctrls
  | _ => s.ctrls

def facts (a : Access) (s : Shared) : List Fact :=
  match a with
  | .scheduleClose tx => [.scheduled tx]
  | .subscribe id channel => [.subscribed id channel]
  | .fanOut message => [.copied message (s.world.hub.subscribers message.channel)]
  | .offer broadcast push handle =>
      [.offered broadcast push handle (s.world.delivery push handle)]
  | .control message =>
      (message.targets s.world.hub).map fun target => .addressed target.1 target.2
  | .notify handle signal => [.notified handle signal (handle.ctrl.any s.takes)]
  | _ => []

/-- The locks of the shards, in their order. -/
def sweeps (id : ClientId) : List Access := (List.finRange 16).map (sweep id)

/-- What the task has to do next. Only the removal that finds a slow consumer registered
schedules its close. -/
def more (node : Node) (a : Access) (s : Shared) : List Access :=
  match a with
  | .removeConn id slow =>
      match s.world.hub.conns.lookup id with
      | some handle =>
          unindexUser handle.user id :: (sweeps id ++ (slow.map scheduleClose).toList)
      | none => sweeps id
  | .append clock fresh channel data info =>
      let publication :=
        (s.world.engine.append clock fresh channel data info (publishOptions node channel)).2
      [.fanOut (.publication channel publication)]
  | .fanOut message =>
      (s.world.hub.subscribers message.channel).map
        (offer s.log.length (message.toPush node.useSeqGen))
  | .offer _ push handle =>
      match s.world.delivery push handle with
      | .refused => [.removeConn handle.id (some handle.tx)]
      | _ => []
  | .control message =>
      (message.targets s.world.hub).map fun target => notify target.1 target.2
  | _ => []

/-- Only a send to a full queue waits. -/
def waits (a : Access) (s : Shared) : Bool :=
  match a with
  | .put tx _ => !s.world.gone tx && !s.world.hasRoom tx
  | _ => false

def perform (node : Node) (a : Access) (s : Shared) : Shared where
  world := a.world node s.world
  ctrls := a.ctrls s
  log := s.log ++ a.facts s

def exec (node : Node) : Exec Shared Access := fun a s =>
  if a.waits s then none else some (a.perform node s, a.more node s)

variable {node : Node} {a : Access} {s s' : Shared} {more : List Access}

theorem exec_eq (h : a.exec node s = some (s', more)) :
    s' = a.perform node s ∧ more = a.more node s := by
  unfold exec at h
  split at h
  · cases h
  · cases h
    exact ⟨rfl, rfl⟩

theorem able_of_exec (h : a.exec node s = some (s', more)) : a.waits s = false := by
  unfold exec at h
  split at h
  next => cases h
  next able => simpa using able

/-- What follows from an access, each with what the access found. -/
inductive Follows (node : Node) (s : Shared) : Access → Access → Prop
  | unindex {id : ClientId} {slow : Option QueueId} {handle : ClientHandle}
      (found : s.world.hub.conns.lookup id = some handle) :
      Follows node s (.removeConn id slow) (.unindexUser handle.user id)
  | sweep {id : ClientId} {slow : Option QueueId} (shard : Fin 16) :
      Follows node s (.removeConn id slow) (.sweep id shard)
  | close {id : ClientId} {tx : QueueId} {handle : ClientHandle}
      (found : s.world.hub.conns.lookup id = some handle) :
      Follows node s (.removeConn id (some tx)) (.scheduleClose tx)
  | route {clock : Clock} {fresh channel : String} {data : Raw} {info : Option ClientInfo} :
      Follows node s (.append clock fresh channel data info) (.fanOut (.publication channel
        (s.world.engine.append clock fresh channel data info (publishOptions node channel)).2))
  | offer {message : NodeMessage} {handle : ClientHandle}
      (copied : handle ∈ s.world.hub.subscribers message.channel) :
      Follows node s (.fanOut message)
        (.offer s.log.length (message.toPush node.useSeqGen) handle)
  | drop {broadcast : Nat} {push : Sent} {handle : ClientHandle}
      (refused : s.world.delivery push handle = .refused) :
      Follows node s (.offer broadcast push handle) (.removeConn handle.id (some handle.tx))
  | notify {message : ControlMessage} {target : ClientHandle × Signal}
      (addressed : target ∈ message.targets s.world.hub) :
      Follows node s (.control message) (.notify target.1 target.2)

theorem follows_of_mem {b : Access} (h : b ∈ a.more node s) : Follows node s a b := by
  unfold Access.more at h
  split at h
  next id slow =>
    have sweeping : b ∈ sweeps id → Follows node s (.removeConn id slow) b := by
      intro swept
      obtain ⟨shard, _, rfl⟩ := List.mem_map.mp swept
      exact .sweep shard
    split at h
    next handle found =>
      obtain rfl | later := List.mem_cons.mp h
      · exact .unindex found
      obtain swept | closing := List.mem_append.mp later
      · exact sweeping swept
      · obtain ⟨tx, rfl, rfl⟩ := Option.map_eq_some_iff.mp (Option.mem_toList.mp closing)
        exact .close found
    next => exact sweeping h
  next =>
    rw [List.mem_singleton.mp h]
    exact .route
  next =>
    obtain ⟨handle, copied, rfl⟩ := List.mem_map.mp h
    exact .offer copied
  next =>
    split at h
    next refused =>
      rw [List.mem_singleton.mp h]
      exact .drop refused
    next => cases h
  next =>
    obtain ⟨target, addressed, rfl⟩ := List.mem_map.mp h
    exact .notify addressed
  next => cases h

@[simp] theorem perform_hub : (a.perform node s).world.hub = a.hub s.world.hub := rfl

@[simp] theorem perform_engine :
    (a.perform node s).world.engine = a.engine node s.world.engine := rfl

@[simp] theorem perform_log : (a.perform node s).log = s.log ++ a.facts s := rfl

@[simp] theorem perform_ctrls : (a.perform node s).ctrls = a.ctrls s := rfl

end Access

end Centrifugo
