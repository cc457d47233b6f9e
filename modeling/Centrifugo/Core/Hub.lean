import Centrifugo.Protocol.Messages

/-!
# The hub

The registry of connections, of users and of channel subscriptions. Subscriber sets
are sharded by a hash of the channel. Lookups copy handles, so that a caller sends
to them without holding a lock.
-/

namespace Centrifugo

abbrev ClientId := String

/-- A set of client ids. -/
abbrev IdSet := Map ClientId Unit

/-- An item for the writer of a connection: a frame, or a request to close. -/
inductive Out (φ : Type)
  | frame (frame : φ)
  | close (disconnect : Disconnect)
  deriving DecidableEq

/-- A control signal for the reader of a connection. -/
inductive Signal
  /-- An empty channel stands for all channels. -/
  | unsubscribe (channel : String)
  | disconnect (disconnect : Disconnect)
  deriving DecidableEq

/-- Senders are identified by the queue they feed. -/
abbrev QueueId := Nat

structure ClientHandle where
  id : ClientId
  user : String
  proto : ProtocolType
  tx : QueueId
  ctrl : Option QueueId
  deriving DecidableEq

/-- Channels with their subscribers. -/
abbrev Shard := Map String IdSet

structure Hub where
  hash : String → Fin 16
  conns : Map ClientId ClientHandle
  users : Map String IdSet
  shards : Fin 16 → Shard

/-- A set without one id, and nothing when it was the last. -/
def withoutId (id : ClientId) : Option IdSet → Option IdSet
  | none => none
  | some set =>
      let set := set.erase id
      if set.entries.isEmpty then none else some set

def withId (id : ClientId) (set : Option IdSet) : Option IdSet := some ((set.getD ∅).insert id ())

theorem mem_withId {id other : ClientId} {set : Option IdSet} :
    other ∈ (withId id set).getD ∅ ↔ other = id ∨ other ∈ set.getD ∅ := by
  simp [withId]

theorem mem_withoutId {id other : ClientId} {set : Option IdSet} :
    other ∈ (withoutId id set).getD ∅ ↔ other ≠ id ∧ other ∈ set.getD ∅ := by
  cases set with
  | none => simp [withoutId]
  | some set =>
      simp only [withoutId]
      split
      next empty =>
        have none : ∀ key, key ∉ set.erase id := by
          intro key mem
          rw [List.isEmpty_iff] at empty
          rw [AList.mem_keys, AList.keys, empty] at mem
          cases mem
        have := none other
        simpa using this
      next => simp

namespace Hub

def new (hash : String → Fin 16) : Hub := ⟨hash, ∅, ∅, fun _ => ∅⟩

def updateShard (hub : Hub) (channel : String) (change : Option IdSet → Option IdSet) : Hub :=
  let shard := (hub.shards (hub.hash channel)).alter channel change
  { hub with shards := Function.update hub.shards (hub.hash channel) shard }

/-- Register a connection. -/
def add (hub : Hub) (handle : ClientHandle) : Hub :=
  { hub with
    conns := hub.conns.insert handle.id handle
    users := hub.users.alter handle.user (withId handle.id) }

/-- Remove a connection with all its subscriptions, and say whether it was there. -/
def remove (hub : Hub) (id : ClientId) : Hub × Bool :=
  let users := match hub.conns.lookup id with
    | some handle => hub.users.alter handle.user (withoutId id)
    | none => hub.users
  ({ hub with
      conns := hub.conns.erase id
      users := users
      shards := fun i => (hub.shards i).filterMap fun set => withoutId id (some set) },
    (hub.conns.lookup id).isSome)

def userClients (hub : Hub) (user : String) : List ClientHandle :=
  match hub.users.lookup user with
  | none => []
  | some ids => ids.keys.filterMap hub.conns.lookup

def subscribe (hub : Hub) (id : ClientId) (channel : String) : Hub :=
  hub.updateShard channel (withId id)

def unsubscribe (hub : Hub) (id : ClientId) (channel : String) : Hub :=
  hub.updateShard channel (withoutId id)

/-- The ids subscribed to a channel. -/
def subscriberIds (hub : Hub) (channel : String) : IdSet :=
  ((hub.shards (hub.hash channel)).lookup channel).getD ∅

/-- A copy of the handles subscribed to a channel. -/
def subscribers (hub : Hub) (channel : String) : List ClientHandle :=
  (hub.subscriberIds channel).keys.filterMap hub.conns.lookup

/-! ## Sizes -/

def numClients (hub : Hub) : Nat := hub.conns.entries.length

def numUsers (hub : Hub) : Nat := hub.users.entries.length

/-- All channels with a subscriber. -/
def channels (hub : Hub) : List String :=
  (List.finRange 16).flatMap fun i => (hub.shards i).keys

def numChannels (hub : Hub) : Nat :=
  ((List.finRange 16).map fun i => (hub.shards i).entries.length).sum

/-! ## Who is subscribed -/

theorem subscriberIds_updateShard (hub : Hub) (channel other : String)
    (change : Option IdSet → Option IdSet) :
    (hub.updateShard channel change).subscriberIds other =
      if other = channel then
        (change ((hub.shards (hub.hash channel)).lookup channel)).getD ∅
      else hub.subscriberIds other := by
  simp only [subscriberIds, updateShard]
  by_cases same : other = channel
  · subst same
    simp
  · rw [if_neg same]
    by_cases shard : hub.hash other = hub.hash channel
    · rw [shard, Function.update_self, Map.lookup_alter_ne same]
    · rw [Function.update_of_ne shard]

theorem mem_subscribe {hub : Hub} {id other : ClientId} {channel name : String} :
    other ∈ (hub.subscribe id channel).subscriberIds name ↔
      (other = id ∧ name = channel) ∨ other ∈ hub.subscriberIds name := by
  rw [subscribe, subscriberIds_updateShard]
  by_cases same : name = channel
  · subst same
    rw [if_pos rfl, mem_withId]
    simp [subscriberIds]
  · simp [same]

theorem mem_unsubscribe {hub : Hub} {id other : ClientId} {channel name : String} :
    other ∈ (hub.unsubscribe id channel).subscriberIds name ↔
      ¬ (other = id ∧ name = channel) ∧ other ∈ hub.subscriberIds name := by
  rw [unsubscribe, subscriberIds_updateShard]
  by_cases same : name = channel
  · subst same
    rw [if_pos rfl, mem_withoutId]
    simp [subscriberIds]
  · simp [same]

theorem mem_remove {hub : Hub} {id other : ClientId} {name : String} :
    other ∈ (hub.remove id).1.subscriberIds name ↔
      other ≠ id ∧ other ∈ hub.subscriberIds name := by
  simp only [subscriberIds, remove, Map.lookup_filterMap]
  cases (hub.shards (hub.hash name)).lookup name with
  | none => simp
  | some set =>
      rw [Option.bind_some]
      exact mem_withoutId

@[simp] theorem conns_subscribe (hub : Hub) (id : ClientId) (channel : String) :
    (hub.subscribe id channel).conns = hub.conns := rfl

@[simp] theorem conns_unsubscribe (hub : Hub) (id : ClientId) (channel : String) :
    (hub.unsubscribe id channel).conns = hub.conns := rfl

@[simp] theorem conns_remove (hub : Hub) (id : ClientId) :
    (hub.remove id).1.conns = hub.conns.erase id := rfl

@[simp] theorem conns_add (hub : Hub) (handle : ClientHandle) :
    (hub.add handle).conns = hub.conns.insert handle.id handle := rfl

@[simp] theorem subscriberIds_add (hub : Hub) (handle : ClientHandle) (channel : String) :
    (hub.add handle).subscriberIds channel = hub.subscriberIds channel := rfl

theorem mem_subscribers {hub : Hub} {channel : String} {handle : ClientHandle} :
    handle ∈ hub.subscribers channel ↔
      ∃ id ∈ hub.subscriberIds channel, hub.conns.lookup id = some handle := by
  simp [subscribers, List.mem_filterMap, AList.mem_keys]

end Hub

end Centrifugo
