import Centrifugo.Core.Control
import Centrifugo.Core.Node

/-!
# What the API asks of a node

The API is served by a node over any engine. `ApiNode` lists what it calls, over a state on
which all answers may depend; `MemoryNode` is the node with the memory engine.
-/

namespace Centrifugo

structure ApiNode (σ : Type) where
  channelOptions : String → Option ChannelOptions
  publish (channel : String) (data : Raw) : σ → σ
  unsubscribeUser (user channel : String) : σ → σ
  disconnectUser (user : String) (code : UInt32) (reason : String) : σ → σ
  presence (channel : String) : σ → σ × Map String ClientInfo
  presenceStats (channel : String) : σ → σ × UInt32 × UInt32
  history (channel : String) : σ → σ × List Publication
  removeHistory (channel : String) : σ → σ
  channels : σ → List String
  infoNodes : σ → List NodeInfoData

/-- What a node reads off its surroundings during one call. -/
structure Moment where
  clock : Clock
  /-- The epoch of a stream that the call creates. -/
  epoch : String
  uptime : UInt32
  metrics : NodeMetrics

/-- A node with the memory engine. -/
structure MemoryNode where
  world : World
  registry : Map String NodeInfoData := ∅
  /-- The signals that its commands have sent to readers. -/
  told : List (ClientHandle × Signal) := []
  /-- One moment for each call to come. -/
  moments : Nat → Moment

namespace MemoryNode

def moment (s : MemoryNode) : Moment := s.moments 0

/-- The state for the next call. -/
def later (s : MemoryNode) (world : World) : MemoryNode :=
  { s with world := world, moments := fun n => s.moments (n + 1) }

def applyControl (s : MemoryNode) (message : ControlMessage) : MemoryNode :=
  { s with told := s.told ++ message.targets s.world.hub }

/-- The known nodes. The counts of this one are those of now. -/
def infoNodes (uid : String) (s : MemoryNode) : List NodeInfoData :=
  s.registry.toPairs.map fun entry =>
    if entry.2.uid = uid then
      { entry.2 with
        numClients := UInt32.ofNat s.world.hub.numClients
        numUsers := UInt32.ofNat s.world.hub.numUsers
        numChannels := UInt32.ofNat s.world.hub.numChannels
        uptime := s.moment.uptime
        metrics := some s.moment.metrics }
    else entry.2

end MemoryNode

/-- The API of a node with the memory engine. Nobody else hears of its commands. -/
def Node.api (node : Node) (uid : String) : ApiNode MemoryNode where
  channelOptions := node.channelOptions
  publish channel data s :=
    s.later (s.world.publish node s.moment.clock s.moment.epoch channel data none)
  unsubscribeUser user channel s := s.applyControl (.unsubscribe user channel)
  disconnectUser user code reason s := s.applyControl (.disconnect user code reason false [])
  presence channel s := (s, s.world.engine.presenceOf channel)
  presenceStats channel s := (s, s.world.engine.presenceStats channel)
  history channel s :=
    let (world, pubs, _) := s.world.history s.moment.clock s.moment.epoch channel
    (s.later world, pubs)
  removeHistory channel s :=
    { s with world := { s.world with engine := s.world.engine.removeHistory channel } }
  channels s := s.world.hub.channels
  infoNodes := MemoryNode.infoNodes uid

end Centrifugo
