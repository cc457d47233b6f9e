import Centrifugo.Core.Hub.Locks

/-!
# Control commands

The commands that nodes send to each other: unsubscribe or disconnect a user, and the
pings by which nodes learn of each other. A node applies a command by signalling the
reader of each connection that it addresses.
-/

namespace Centrifugo

/-- A 64-bit float in its representation. -/
abbrev F64 := UInt64

structure NodeMetrics where
  interval : F64
  items : Map String F64
  deriving DecidableEq

/-- What a node publishes about itself. -/
structure NodeInfoData where
  uid : String
  name : String
  version : String
  numClients : UInt32
  numUsers : UInt32
  numChannels : UInt32
  uptime : UInt32
  metrics : Option NodeMetrics := none
  deriving DecidableEq

inductive ControlMessage
  /-- An empty channel stands for all channels. -/
  | unsubscribe (user channel : String)
  /-- The whitelist holds the clients to spare. -/
  | disconnect (user : String) (code : UInt32) (reason : String) (reconnect : Bool)
      (whitelist : List ClientId)
  | node (info : NodeInfoData)
  deriving DecidableEq

namespace ControlMessage

/-- The connections that a command addresses, with what it tells them. -/
def targets (hub : Hub) : ControlMessage → List (ClientHandle × Signal)
  | .unsubscribe user channel =>
      (hub.userClients user).map fun handle => (handle, .unsubscribe channel)
  | .disconnect user code reason reconnect whitelist =>
      ((hub.userClients user).filter fun handle => handle.id ∉ whitelist).map fun handle =>
        (handle, .disconnect ⟨code, reason, reconnect⟩)
  | .node _ => []

/-- Only registered connections are addressed. -/
theorem mem_targets {hub : Hub} {message : ControlMessage} {target : ClientHandle × Signal}
    (h : target ∈ message.targets hub) : ∃ id, hub.conns.lookup id = some target.1 := by
  have registered : ∀ {user : String} {handle : ClientHandle},
      handle ∈ hub.userClients user → ∃ id, hub.conns.lookup id = some handle := by
    intro user handle mem
    obtain ⟨id, _, found⟩ := Hub.mem_userClients.mp mem
    exact ⟨id, found⟩
  cases message with
  | unsubscribe user channel =>
      obtain ⟨handle, mem, rfl⟩ := List.mem_map.mp h
      exact registered mem
  | disconnect user code reason reconnect whitelist =>
      obtain ⟨handle, mem, rfl⟩ := List.mem_map.mp h
      exact registered (List.mem_filter.mp mem).1
  | node info => cases h

end ControlMessage

end Centrifugo
