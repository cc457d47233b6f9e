import Centrifugo.Core.Client.Run

/-!
# The transport loop

The read loop of a connection. It takes frames, control signals and timer ticks in any
order. The commands of a frame are handled one after the other; their replies go out in
one piece, the pending Joins follow them, and a disconnect closes the connection last.
After the loop, the session leaves its channels.

Each step stands for what happens between two points where the loop waits. Others may
change the shared world at any of those points.
-/

namespace Centrifugo

/-- Where the loop is. -/
inductive Phase
  | reading
  /-- In a frame: the commands to handle, and the replies so far. -/
  | batch (cmds : List Command) (replies : List (Reply Result))
  | replying (replies : List (Reply Result)) (disconnect : Option Disconnect)
  | flushing (disconnect : Option Disconnect)
  /-- Out of the loop, with `on_disconnect` to come. -/
  | leaving
  | ended

/-- The loop is working on a frame. -/
def Phase.inFrame : Phase → Bool
  | .batch _ _ | .replying _ _ | .flushing _ => true
  | .reading | .leaving | .ended => false

structure Connection where
  session : Session
  phase : Phase

inductive Event
  /-- The commands of a frame, `none` when it is empty or malformed. -/
  | frame (cmds : Option (List Command))
  | hangUp
  | presenceTick
  | expiryTick (readings : Readings) (now : UnixTime)
  | signal (signal : Signal)
  /-- The next command of the frame, or its end. -/
  | command (readings : Readings)
  | reply
  | flush
  | leave
  | interference (world : World)

def Session.send (s : Session) (item : Out Sent) : Session :=
  { s with world := s.world.send s.client.tx item }

@[simp] theorem Session.send_client (s : Session) (item : Out Sent) :
    (s.send item).client = s.client := rfl

/-- The replies of a batch can be encoded when each result can. -/
def encodableReplies (proto : ProtocolType) (replies : List (Reply Result)) : Bool :=
  replies.all fun reply => reply.result.all (Result.encodable proto)

namespace Connection

/-- Queue a close and leave the loop. -/
def close (c : Connection) (disconnect : Disconnect) : Connection :=
  ⟨c.session.send (.close disconnect), .leaving⟩

def onFrame (c : Connection) : Option (List Command) → Connection
  | none => c.close .badRequest
  | some cmds => { c with phase := .batch cmds [] }

def onExpiryTick (c : Connection) (node : Node) (readings : Readings) (now : UnixTime) :
    Connection :=
  match c.session.proactiveRefresh node readings with
  | (s, some disconnect) => { c with session := s }.close disconnect
  | (s, none) =>
      match s.client.checkExpired now with
      | some disconnect => { c with session := s }.close disconnect
      | none => { c with session := s }

def onSignal (c : Connection) (node : Node) : Signal → Connection
  | .unsubscribe channel =>
      if channel = "" then
        let channels := c.session.client.subscribedChannels
        { c with session :=
          channels.foldl (fun s channel => s.serverUnsubscribe node channel) c.session }
      else { c with session := c.session.serverUnsubscribe node channel }
  | .disconnect disconnect => c.close disconnect

/-- A command that expects a reply needs an id. -/
def onCommand (c : Connection) (node : Node) (readings : Readings) (cmd : Command)
    (cmds : List Command) (replies : List (Reply Result)) : Connection :=
  if cmd.id = 0 ∧ cmd.method ≠ .send then
    { c with phase := .replying replies (some .badRequest) }
  else
    let (s, outcome) := c.session.handleCommand node readings cmd
    let replies := replies ++ outcome.replies
    match outcome.disconnect with
    | some disconnect => ⟨s, .replying replies (some disconnect)⟩
    | none => ⟨s, .batch cmds replies⟩

/-- The replies are lost when they cannot be encoded or the queue is gone. -/
def losesReplies (c : Connection) (replies : List (Reply Result)) : Bool :=
  !replies.isEmpty &&
    (!encodableReplies c.session.client.proto replies ||
      c.session.world.gone c.session.client.tx)

def onReply (c : Connection) (replies : List (Reply Result)) (disconnect : Option Disconnect) :
    Connection :=
  if replies.isEmpty then { c with phase := .flushing disconnect }
  else if !encodableReplies c.session.client.proto replies then c.close .serverError
  else if c.session.world.gone c.session.client.tx then { c with phase := .leaving }
  else ⟨c.session.send (.frame (.replies replies)), .flushing disconnect⟩

def onFlush (c : Connection) (node : Node) (disconnect : Option Disconnect) : Connection :=
  let s := c.session.flushPendingJoins node
  match disconnect with
  | some disconnect => { c with session := s }.close disconnect
  | none => ⟨s, .reading⟩

/-- One step of the loop, when the event can happen in its phase. -/
def step (c : Connection) (node : Node) : Event → Option Connection
  | .interference world => some { c with session := { c.session with world := world } }
  | .frame cmds =>
      match c.phase with
      | .reading => some (c.onFrame cmds)
      | _ => none
  | .hangUp =>
      match c.phase with
      | .reading => some { c with phase := .leaving }
      | _ => none
  | .presenceTick =>
      match c.phase with
      | .reading => some { c with session := c.session.refreshPresence }
      | _ => none
  | .expiryTick readings now =>
      match c.phase with
      | .reading => some (c.onExpiryTick node readings now)
      | _ => none
  | .signal signal =>
      match c.phase with
      | .reading => some (c.onSignal node signal)
      | _ => none
  | .command readings =>
      match c.phase with
      | .batch (cmd :: cmds) replies => some (c.onCommand node readings cmd cmds replies)
      | .batch [] replies => some { c with phase := .replying replies none }
      | _ => none
  | .reply =>
      match c.phase with
      | .replying replies disconnect => some (c.onReply replies disconnect)
      | _ => none
  | .flush =>
      match c.phase with
      | .flushing disconnect => some (c.onFlush node disconnect)
      | _ => none
  | .leave =>
      match c.phase with
      | .leaving => some ⟨c.session.onDisconnect node, .ended⟩
      | _ => none

def Step (node : Node) (c : Connection) (event : Event) (c' : Connection) : Prop :=
  c.step node event = some c'

/-- A connection that was just accepted. -/
def Accepted (c : Connection) : Prop := c.session.Fresh ∧ c.phase = .reading

end Connection

end Centrifugo
