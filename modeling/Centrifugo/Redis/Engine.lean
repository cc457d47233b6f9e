import Centrifugo.Core.Node
import Centrifugo.Redis.Control
import Centrifugo.Redis.Store
import Mathlib.Data.List.Sort

/-!
# The Redis engine

Nodes that share a Redis server. A publication is one script, which appends it to the history
of its channel and publishes it, or a plain PUBLISH without a history. Every node subscribes
to all topics and turns what it receives into the messages that it routes.

The history of a channel is a list, the newest first, and beside it a hash with the offset
and the epoch. Presence is a hash of infos and a sorted set of their deadlines.
-/

namespace Centrifugo

open Json Proto Redis

structure RedisOptions where
  keyPrefix : String := ""
  /-- In seconds. Zero for no expiry. -/
  historyMetaTtl : Nat := 0

def defaultPrefix : String := "centrifugo"

def RedisOptions.prefixOrDefault (opts : RedisOptions) : String :=
  if opts.keyPrefix = "" then defaultPrefix else opts.keyPrefix

structure RedisEngine where
  nodeUid : String
  keyPrefix : String
  historyMetaTtl : Nat

/-! ## Framing -/

def marker : Bytes := [95, 95]

inductive PushKind
  | publication
  | join
  | leave
  deriving DecidableEq

def dropPlus : Text → Text
  | '+' :: digits => digits
  | text => text

/-- A number of 64 bits, with an optional sign. -/
def parseU64 (text : Text) : Option Nat :=
  let digits := dropPlus text
  if digits ≠ [] ∧ digits.all Char.isDigit then
    let n := Nat.ofDigitChars 10 digits 0
    if n < 2 ^ 64 then some n else none
  else none

/-- Cut some bytes at the first marker. -/
def cutMarker : Bytes → Option (Bytes × Bytes)
  | [] | [_] => none
  | a :: b :: rest =>
      if a = 95 ∧ b = 95 then some ([], rest)
      else (cutMarker (b :: rest)).map fun cut => (a :: cut.1, cut.2)

/-- The kind and the offset that a name between markers stands for. -/
def readMarker : Bytes → PushKind × Nat
  | [106] => (.join, 0)
  | [108] => (.leave, 0)
  | name => (.publication, ((decodeUtf8 name).bind parseU64).getD 0)

/-- The kind, the offset and the body of a frame. -/
def extractPush (data : Bytes) : PushKind × Nat × Bytes :=
  match (marker.isPrefixOf? data).bind cutMarker with
  | none => (.publication, 0, data)
  | some (name, body) => ((readMarker name).1, (readMarker name).2, body)

/-- A publication as it comes out of a frame. -/
def Publication.received (offset : Nat) (publication : Pb.Publication) : Publication where
  data := some ⟨publication.data⟩
  info := publication.info.map ClientInfo.ofPb
  offset := offset

/-! ## Scripts -/

namespace Scripts

open Script

/-- An epoch begins now when there is none. -/
def epochFrom (metaKey : String) : Option Bytes → Script Bytes
  | some epoch => pure epoch
  | none => do
      let now ← time
      hset metaKey "e" (decimal now)
      return decimal now

/-- The epoch of a stream. -/
def epochOf (metaKey : String) : Script Bytes := do
  let there ← present metaKey
  let epoch ← (if there then hget metaKey "e" else pure none)
  epochFrom metaKey epoch

/-- The next offset of a stream, with its epoch. -/
def nextOffset (metaKey : String) (metaTtl : Nat) : Script (Nat × Bytes) := do
  let epoch ← epochOf metaKey
  let offset ← hincrby metaKey "s" 1
  onlyIf (metaTtl ≠ 0) (expire metaKey metaTtl)
  return (offset, epoch)

/-- Put an item in front of a list, and keep so many items after it. -/
def keepItem (listKey : String) (item : Bytes) (last listTtl : Nat) : Script Unit := do
  lpush listKey item
  ltrim listKey 0 last
  expire listKey listTtl

/-- ADD_HISTORY: append to a list and publish what was appended. -/
def addHistory (listKey metaKey : String) (message : Bytes) (last listTtl : Nat) (topic : String)
    (metaTtl : Nat) : Script (Nat × Bytes) := do
  let (count, epoch) ← nextOffset metaKey metaTtl
  -- The reply of HINCRBY becomes a number of Lua.
  let offset := luaNumber count
  let payload := marker ++ luaText offset ++ marker ++ message
  keepItem listKey payload last listTtl
  onlyIf (topic ≠ "") (publish topic payload)
  return (offset, epoch)

/-- HISTORY: the offset, the epoch and the whole list. -/
def history (listKey metaKey : String) (metaTtl : Nat) :
    Script (Option Bytes × Bytes × List Bytes) := do
  let offset ← hget metaKey "s"
  let epoch ← epochOf metaKey
  onlyIf (metaTtl ≠ 0) (expire metaKey metaTtl)
  let pubs ← lrange listKey 0 (-1)
  return (offset, epoch, pubs)

def presenceAdd (setKey dataKey : String) (ttl expireAt : Nat) (client : String) (info : Bytes) :
    Script Unit := do
  zadd setKey client expireAt
  hset dataKey client info
  expire setKey ttl
  expire dataKey ttl

def presenceRem (setKey dataKey client : String) : Script Unit := do
  hdel dataKey client
  zrem setKey client

def presenceRead (setKey dataKey : String) (now : Nat) : Script (List (String × Bytes)) := do
  let expired ← zrangebyscore setKey now
  forAll (hdel dataKey) expired
  onlyIf (expired ≠ []) (zremrangebyscore setKey now)
  hgetall dataKey

end Scripts

/-! ## Operations -/

namespace RedisEngine

def connect (nodeUid : String) (opts : RedisOptions) : RedisEngine where
  nodeUid := nodeUid
  keyPrefix := opts.prefixOrDefault
  historyMetaTtl := opts.historyMetaTtl

-- `nowSecs` below is the clock of the node, which is not that of the server.
variable (engine : RedisEngine)

def clientKey (channel : String) : String := engine.keyPrefix ++ ".client." ++ channel
def metaKey (channel : String) : String := engine.keyPrefix ++ ".list.meta." ++ channel
def listKey (channel : String) : String := engine.keyPrefix ++ ".list." ++ channel
def presenceDataKey (channel : String) : String :=
  engine.keyPrefix ++ ".presence.data." ++ channel
def presenceSetKey (channel : String) : String :=
  engine.keyPrefix ++ ".presence.expire." ++ channel
def controlKey : String := engine.keyPrefix ++ ".control"

def publishFrame (channel : String) (payload : Bytes) : Script Unit :=
  Script.publish (engine.clientKey channel) payload

def publish (channel : String) (data : Raw) (info : Option ClientInfo) (opts : PublishOptions) :
    Script Unit :=
  let payload := encode
    ({ data := data.bytes, info := info.map ClientInfo.toPb } : Pb.Publication)
  if opts.historyEnabled then do
    let _ ← Scripts.addHistory (engine.listKey channel) (engine.metaKey channel) payload
      (opts.historySize - 1) opts.historyLifetime (engine.clientKey channel) engine.historyMetaTtl
    return ()
  else engine.publishFrame channel payload

def publishControl (message : ControlMessage) : Script Unit :=
  Script.publish engine.controlKey (encodeControl engine.nodeUid message)

def publishJoin (channel : String) (info : ClientInfo) : Script Unit :=
  engine.publishFrame channel (marker ++ [106] ++ marker ++ encode info.toPb)

def publishLeave (channel : String) (info : ClientInfo) : Script Unit :=
  engine.publishFrame channel (marker ++ [108] ++ marker ++ encode info.toPb)

/-- A bulk string as a number of 64 bits. -/
def offsetOf : Option Bytes → Script Nat
  | none => pure 0
  | some bytes =>
      match (decodeUtf8 bytes).bind parseU64 with
      | some offset => pure offset
      | none => Script.fail .notInteger

/-- A bulk string as a text. -/
def textOf (bytes : Bytes) : Script String :=
  match decodeUtf8 bytes with
  | some text => pure (String.ofList text)
  | none => Script.fail .notText

/-- An item of a history list. One that cannot be decoded is skipped. -/
def readItem (item : Bytes) : Option Publication :=
  let (_, offset, body) := extractPush item
  (decode body).map (Publication.received offset)

/-- Ascending by offset, where items with the same one keep their order. -/
def byOffset : List Publication → List Publication :=
  List.insertionSort fun a b => a.offset ≤ b.offset

def readHistory (channel : String) : Script (List Publication × StreamPosition) := do
  let (offset, epoch, pubs) ← Scripts.history (engine.listKey channel) (engine.metaKey channel)
    engine.historyMetaTtl
  let offset ← offsetOf offset
  let epoch ← textOf epoch
  return (byOffset (pubs.filterMap readItem), ⟨offset, epoch⟩)

def history (channel : String) : Script (List Publication × StreamPosition) :=
  engine.readHistory channel

def historySince (channel : String) (offset : Nat) (epoch : String) :
    Script (List Publication × StreamPosition) := do
  let (all, top) ← engine.readHistory channel
  if top.offset = offset ∧ top.epoch = epoch then return ([], top)
  else return (all.filter fun publication => offset < publication.offset, top)

def removeHistory (channel : String) : Script Unit := Script.del (engine.listKey channel)

def addPresence (channel client : String) (info : ClientInfo) (ttlMs nowSecs : Nat) :
    Script Unit :=
  Scripts.presenceAdd (engine.presenceSetKey channel) (engine.presenceDataKey channel)
    (ttlMs / 1000) (nowSecs + ttlMs / 1000) client (encode info.toPb)

def removePresence (channel client : String) : Script Unit :=
  Scripts.presenceRem (engine.presenceSetKey channel) (engine.presenceDataKey channel) client

/-- The infos of the clients that are present. One that cannot be decoded is skipped. -/
def presence (channel : String) (nowSecs : Nat) : Script (Map String ClientInfo) := do
  let entries ← Scripts.presenceRead (engine.presenceSetKey channel)
    (engine.presenceDataKey channel) nowSecs
  return entries.foldl (fun out entry =>
    match (decode entry.2 : Option Pb.ClientInfo) with
    | some info => out.insert entry.1 (ClientInfo.ofPb info)
    | none => out) ∅

def presenceStats (channel : String) (nowSecs : Nat) : Script (UInt32 × UInt32) := do
  let clients ← engine.presence channel nowSecs
  return (UInt32.ofNat clients.entries.length,
    UInt32.ofNat (clients.entries.map fun entry => entry.2.user).dedup.length)

end RedisEngine

/-! ## Receiving -/

/-- What a node does with a message of the bus. -/
inductive Incoming
  | route (message : NodeMessage)
  | control (message : ControlMessage)
  deriving DecidableEq

/-- The rest of a text after its front part. -/
def stripPrefix (front text : String) : Option String :=
  (front.toList.isPrefixOf? text.toList).map String.ofList

/-- The message in a frame on the topic of a channel. -/
def routeOf (channel : String) (payload : Bytes) : Option NodeMessage :=
  match extractPush payload with
  | (.join, _, body) => do
      let info : Pb.ClientInfo ← decode body
      some (.join channel (ClientInfo.ofPb info))
  | (.leave, _, body) => do
      let info : Pb.ClientInfo ← decode body
      some (.leave channel (ClientInfo.ofPb info))
  | (.publication, offset, body) => do
      let publication : Pb.Publication ← decode body
      some (.publication channel (Publication.received offset publication))

/-- A message of the bus. One that cannot be decoded is dropped. -/
def dispatchMessage (selfUid keyPrefix topic : String) (payload : Bytes) : Option Incoming :=
  if topic = keyPrefix ++ ".control" then (decodeControl payload selfUid).map .control
  else
    (stripPrefix (keyPrefix ++ ".client.") topic).bind fun channel =>
      (routeOf channel payload).map .route

end Centrifugo
