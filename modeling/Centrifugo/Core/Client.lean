import Centrifugo.Core.Node

/-!
# Connection sessions

The state machine of one connection. A session is its client together with the world
that it shares with other sessions; every operation takes one session to the next.

What an operation reads from outside, such as clocks, fresh ids and the answers of
proxies, comes with it as a `Readings` record, so that the operations are functions.
`Client.handed` is a ghost field: it records the Join and Leave messages that the
session hands to the engine, and no operation reads it.
-/

namespace Centrifugo

/-- Per-subscription state. The options are those in force at the subscription. -/
structure SubState where
  /-- Unix seconds, zero for no expiry. -/
  expireAt : Int := 0
  recoverable : Bool := false
  presence : Bool := false
  joinLeave : Bool := false
  chanInfo : Option Raw := none
  /-- Subscribed on connect, not by a SUBSCRIBE. -/
  serverSide : Bool := false
  deriving DecidableEq

structure Client where
  id : ClientId := ""
  user : String := ""
  proto : ProtocolType
  transport : String := "websocket"
  authenticated : Bool := false
  connInfo : Option Raw := none
  /-- Unix seconds, zero for no expiry. -/
  expireAt : Int := 0
  subscriptions : Map String SubState := ∅
  /-- Joins to publish after the replies of a batch are flushed. -/
  pendingJoins : List (String × ClientInfo) := []
  tx : QueueId
  ctrl : Option QueueId := none
  handed : List NodeMessage := []

namespace Client

def isSubscribed (client : Client) (channel : String) : Bool :=
  (client.subscriptions.lookup channel).isSome

def subscribedChannels (client : Client) : List String := client.subscriptions.keys

def protocolName (client : Client) : String :=
  match client.proto with
  | .json => "json"
  | .protobuf => "protobuf"

def proxyRequest (client : Client) : ProxyRequest where
  client := client.id
  user := client.user
  transport := client.transport
  protocol := client.protocolName

def clientInfoWith (client : Client) (chanInfo : Option Raw) : ClientInfo where
  user := client.user
  client := client.id
  connInfo := client.connInfo
  chanInfo := chanInfo

def clientInfo (client : Client) : ClientInfo := client.clientInfoWith none

/-- The seconds between a deadline and the close of its connection. -/
def closeDelay : Int := 25

def pastDeadline (now : UnixTime) (deadline : Int) : Bool :=
  deadline > 0 && now.seconds > i64 (deadline + closeDelay)

/-- The disconnect of the expiry timer, when a deadline lies further back than the
grace window. -/
def checkExpired (client : Client) (now : UnixTime) : Option Disconnect :=
  if !client.authenticated then none
  else if pastDeadline now client.expireAt then some .expired
  else if client.subscriptions.entries.any fun entry => pastDeadline now entry.2.expireAt then
    some .subExpired
  else none

end Client

/-- What one operation reads from outside the node. -/
structure Readings where
  /-- A fresh client id. -/
  uuid : String
  /-- Tells one call of a proxy from the next. -/
  attempt : Nat
  /-- The clock at token verification. -/
  verifiedAt : UnixTime
  /-- The clock when a verified deadline is checked once more. -/
  checkedAt : UnixTime
  /-- The clock when the remaining seconds are computed. -/
  repliedAt : UnixTime
  /-- The clock of each access to the engine. -/
  engine : Nat → Clock
  /-- An epoch for the stream that an access to the engine may create. -/
  epoch : Nat → String

structure Session where
  client : Client
  world : World

namespace Session

/-! ## Joins and leaves -/

def publishJoin (s : Session) (node : Node) (channel : String) (info : ClientInfo) : Session where
  client := { s.client with handed := s.client.handed ++ [.join channel info] }
  world := s.world.publishJoin node channel info

def publishLeave (s : Session) (node : Node) (channel : String) (info : ClientInfo) :
    Session where
  client := { s.client with handed := s.client.handed ++ [.leave channel info] }
  world := s.world.publishLeave node channel info

/-- Publish the Joins deferred from subscriptions. -/
def flushPendingJoins (s : Session) (node : Node) : Session :=
  s.client.pendingJoins.foldl (fun s (channel, info) => s.publishJoin node channel info)
    { s with client := { s.client with pendingJoins := [] } }

/-! ## Presence -/

def addPresence (s : Session) (channel : String) (info : ClientInfo) : Session :=
  { s with world := s.world.addPresence channel s.client.id info }

def removePresence (s : Session) (channel : String) : Session :=
  { s with world := s.world.removePresence channel s.client.id }

/-- Assert the presence of every subscription again. -/
def refreshPresence (s : Session) : Session :=
  if !s.client.authenticated then s
  else
    s.client.subscriptions.entries.foldl (fun s entry =>
      if entry.2.presence then
        s.addPresence entry.1 (s.client.clientInfoWith entry.2.chanInfo)
      else s) s

/-! ## Subscriptions -/

/-- Register a subscription in the hub and in the session. -/
def addSubscription (s : Session) (channel : String) (state : SubState) : Session :=
  let s := { s with world := s.world.subscribe s.client.id channel }
  let s := if state.presence then
    s.addPresence channel (s.client.clientInfoWith state.chanInfo) else s
  { s with client :=
    { s.client with subscriptions := s.client.subscriptions.insert channel state } }

def deferJoin (s : Session) (channel : String) (info : ClientInfo) : Session :=
  { s with client :=
    { s.client with pendingJoins := s.client.pendingJoins ++ [(channel, info)] } }

/-- Presence and Leave go first, so that the leaving client receives its own Leave. -/
def unsubscribeChannel (s : Session) (node : Node) (channel : String) : Session :=
  match s.client.subscriptions.lookup channel with
  | none => s
  | some state =>
      let s := { s with client :=
        { s.client with subscriptions := s.client.subscriptions.erase channel } }
      let info := s.client.clientInfoWith state.chanInfo
      let s := if state.presence then s.removePresence channel else s
      let s := if state.joinLeave then s.publishLeave node channel info else s
      { s with world := s.world.unsubscribe s.client.id channel }

/-- Unsubscribe by the server. The push is queued unless the queue is gone; a full
queue only delays it. -/
def serverUnsubscribe (s : Session) (node : Node) (channel : String) : Session :=
  if !s.client.isSubscribed channel then s
  else
    let s := s.unsubscribeChannel node channel
    if (Sent.unsub channel).encodable s.client.proto then
      { s with world := s.world.send s.client.tx (.frame (.unsub channel)) }
    else s

/-- Leave every channel and unregister from the hub. The order of the channels is
that of a hash map; here it is that of the list of entries. -/
def onDisconnect (s : Session) (node : Node) : Session :=
  let channels := s.client.subscriptions.entries
  let s := { s with client := { s.client with subscriptions := ∅ } }
  let s := channels.foldl (fun s entry =>
    let s := if entry.2.presence then s.removePresence entry.1 else s
    if entry.2.joinLeave then
      s.publishLeave node entry.1 (s.client.clientInfoWith entry.2.chanInfo)
    else s) s
  { s with world := { s.world with hub := (s.world.hub.remove s.client.id).1 } }

/-! ## Server-side refresh -/

/-- Renew an expiring connection through the refresh proxy. -/
def proactiveRefresh (s : Session) (node : Node) (readings : Readings) :
    Session × Option Disconnect :=
  match node.proxies.refresh with
  | none => (s, none)
  | some proxy =>
      if !s.client.authenticated || s.client.expireAt ≤ 0 then (s, none)
      else if i64 (s.client.expireAt - readings.checkedAt.seconds) >
          i64 node.presencePingInterval then
        (s, none)
      else
        match proxy readings.attempt s.client.proxyRequest with
        | some (.result creds) =>
            if creds.expired then (s, some .expired)
            else
              let connInfo := if creds.info.isSome then creds.info else s.client.connInfo
              let s := { s with client := { s.client with connInfo := connInfo } }
              if creds.expireAt > 0 then
                let s := { s with client := { s.client with expireAt := creds.expireAt } }
                if i64 (creds.expireAt - readings.repliedAt.seconds) ≤ 0 then (s, some .expired)
                else (s, none)
              else (s, some .expired)
        | some (.disconnect code reason) => (s, some ⟨code, reason, false⟩)
        | some (.error _ _) | none => (s, some .serverError)

end Session

end Centrifugo
