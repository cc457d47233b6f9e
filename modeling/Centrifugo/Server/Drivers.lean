import Centrifugo.Core.Client.Answers
import Centrifugo.Core.Client.Run
import Centrifugo.Core.Client.Transport
import Centrifugo.Server.Unknown

/-!
# Two drivers of a session

A JSON connection is driven by the loop of its WebSocket or by that of a SockJS session. The loops
are written twice. They differ in the name of the transport, in the size of the messages that reach
them, and in what they do about replies that cannot be encoded, of which there are none.
-/

namespace Centrifugo

open Json

/-- The most bytes of a message on a WebSocket. A longer one ends the stream with an error. -/
def maxMessageSize : Nat := 65536

/-- What a driver of a JSON connection meets with, and how far it gets before the next. -/
inductive Stimulus
  | text (text : String)
  | hangUp
  | presenceTick
  | expiryTick (readings : Readings) (now : UnixTime)
  | signal (signal : Signal)
  | command (readings : Readings)
  | reply
  | flush
  | leave
  | interference (world : World)

/-- The text of a message fits into a WebSocket message. -/
def Stimulus.Fits : Stimulus → Prop
  | .text message => byteLength message ≤ maxMessageSize
  | _ => True

namespace Connection

def onText (c : Connection) (text : String) : Connection :=
  c.onFrame (Codec.decodeFrame .json (encodeUtf8 text.toList))

/-- One step of the WebSocket loop. -/
def handleSocket (c : Connection) (node : Node) : Stimulus → Option Connection
  | .text text =>
      match c.phase with
      | .reading =>
          some (if maxMessageSize < byteLength text then { c with phase := .leaving }
            else c.onText text)
      | _ => none
  | .hangUp => c.step node .hangUp
  | .presenceTick => c.step node .presenceTick
  | .expiryTick readings now => c.step node (.expiryTick readings now)
  | .signal signal => c.step node (.signal signal)
  | .command readings => c.step node (.command readings)
  | .reply => c.step node .reply
  | .flush => c.step node .flush
  | .leave => c.step node .leave
  | .interference world => c.step node (.interference world)

/-- A SockJS session leaves replies out that it cannot encode. -/
def onSessionReply (c : Connection) (replies : List (Reply Result))
    (disconnect : Option Disconnect) : Connection :=
  if replies.isEmpty then { c with phase := .flushing disconnect }
  else if !encodableReplies .json replies then { c with phase := .flushing disconnect }
  else if c.session.world.gone c.session.client.tx then { c with phase := .leaving }
  else ⟨c.session.send (.frame (.replies replies)), .flushing disconnect⟩

/-- One step of the loop of a SockJS session. -/
def runSession (c : Connection) (node : Node) : Stimulus → Option Connection
  | .text text =>
      match c.phase with
      | .reading => some (c.onText text)
      | _ => none
  | .hangUp => c.step node .hangUp
  | .presenceTick => c.step node .presenceTick
  | .expiryTick readings now => c.step node (.expiryTick readings now)
  | .signal signal => c.step node (.signal signal)
  | .command readings => c.step node (.command readings)
  | .reply =>
      match c.phase with
      | .replying replies disconnect => some (c.onSessionReply replies disconnect)
      | _ => none
  | .flush => c.step node .flush
  | .leave => c.step node .leave
  | .interference world => c.step node (.interference world)

/-! ## The name of the transport -/

/-- The same connection under another name of its transport. -/
def via (name : String) (c : Connection) : Connection := ⟨c.session.via name, c.phase⟩

section Via

variable {name : String} {node : Node} (c : Connection)

theorem onExpiryTick_via (ignores : node.proxies.IgnoreTransport) (readings : Readings)
    (now : UnixTime) : (c.via name).onExpiryTick node readings now =
      (c.onExpiryTick node readings now).via name := by
  have same : (c.via name).session.proactiveRefresh node readings =
      Session.viaFirst name (c.session.proactiveRefresh node readings) :=
    c.session.proactiveRefresh_via node readings ignores
  unfold onExpiryTick
  rw [same]
  generalize c.session.proactiveRefresh node readings = after
  obtain ⟨s, closed⟩ := after
  cases closed with
  | some disconnect => rfl
  | none =>
      have checked : (s.via name).client.checkExpired now = s.client.checkExpired now := rfl
      simp only [Session.viaFirst, checked]
      cases s.client.checkExpired now <;> rfl

theorem onSignal_via (signal : Signal) :
    (c.via name).onSignal node signal = (c.onSignal node signal).via name := by
  cases signal with
  | unsubscribe channel =>
      refine Session.ite_image ?_ ?_
      · exact congrArg (fun s => Connection.mk s c.phase) (Session.foldl_via c.session
          (fun s channel => s.serverUnsubscribe_via node channel) _)
      · exact congrArg (fun s => Connection.mk s c.phase)
          (c.session.serverUnsubscribe_via node channel)
  | disconnect disconnect => rfl

theorem onCommand_via (ignores : node.proxies.IgnoreTransport) (readings : Readings)
    (cmd : Command) (cmds : List Command) (replies : List (Reply Result)) :
    (c.via name).onCommand node readings cmd cmds replies =
      (c.onCommand node readings cmd cmds replies).via name := by
  refine Session.ite_image rfl ?_
  have same : (c.via name).session.handleCommand node readings cmd =
      Session.viaFirst name (c.session.handleCommand node readings cmd) :=
    c.session.handleCommand_via node readings cmd ignores
  rw [same]
  generalize c.session.handleCommand node readings cmd = after
  obtain ⟨s, outcome⟩ := after
  obtain ⟨new, closed⟩ := outcome
  cases closed <;> rfl

theorem onReply_via (replies : List (Reply Result)) (disconnect : Option Disconnect) :
    (c.via name).onReply replies disconnect = (c.onReply replies disconnect).via name :=
  Session.ite_image rfl (Session.ite_image rfl (Session.ite_image rfl rfl))

theorem onFlush_via (disconnect : Option Disconnect) :
    (c.via name).onFlush node disconnect = (c.onFlush node disconnect).via name := by
  have same : (c.via name).session.flushPendingJoins node =
      (c.session.flushPendingJoins node).via name :=
    c.session.flushPendingJoins_via node
  unfold onFlush
  rw [same]
  cases disconnect <;> rfl

/-- A step does the same under another name. -/
theorem step_via (ignores : node.proxies.IgnoreTransport) (event : Event) :
    (c.via name).step node event = (c.step node event).map (via name) := by
  obtain ⟨s, phase⟩ := c
  cases event with
  | interference world => rfl
  | frame cmds => cases phase <;> cases cmds <;> rfl
  | hangUp => cases phase <;> rfl
  | presenceTick =>
      cases phase with
      | reading =>
          exact congrArg (fun s => some (Connection.mk s .reading)) s.refreshPresence_via
      | _ => rfl
  | expiryTick readings now =>
      cases phase with
      | reading => exact congrArg some (onExpiryTick_via _ ignores readings now)
      | _ => rfl
  | signal signal =>
      cases phase with
      | reading => exact congrArg some (onSignal_via _ signal)
      | _ => rfl
  | command readings =>
      cases phase with
      | batch cmds replies =>
          cases cmds with
          | nil => rfl
          | cons cmd cmds =>
              exact congrArg some (onCommand_via _ ignores readings cmd cmds replies)
      | _ => rfl
  | reply =>
      cases phase with
      | replying replies disconnect => exact congrArg some (onReply_via _ replies disconnect)
      | _ => rfl
  | flush =>
      cases phase with
      | flushing disconnect => exact congrArg some (onFlush_via _ disconnect)
      | _ => rfl
  | leave =>
      cases phase with
      | leaving =>
          exact congrArg (fun s => some (Connection.mk s .ended)) (s.onDisconnect_via node)
      | _ => rfl

end Via

end Connection

/-! ## Replies can be encoded -/

theorem CommandOutcome.Answers.encodable {proto : ProtocolType} {cmd : Command}
    {outcome : CommandOutcome} (answers : outcome.Answers proto cmd) :
    encodableReplies proto outcome.replies := by
  cases answers with
  | replied _ answers =>
      simp only [encodableReplies, CommandOutcome.reply, List.all_cons, List.all_nil,
        Bool.and_true, Option.all_eq_true]
      exact answers.encodable
  | closed disconnect => rfl
  | silent _ => rfl

theorem encodableReplies_append {proto : ProtocolType} {replies more : List (Reply Result)}
    (front : encodableReplies proto replies) (back : encodableReplies proto more) :
    encodableReplies proto (replies ++ more) := by
  unfold encodableReplies at front back ⊢
  rw [List.all_append, front, back]
  rfl

theorem Session.onDisconnect_proto (s : Session) (node : Node) :
    (s.onDisconnect node).client.proto = s.client.proto := by
  have left : ∀ (entries : List (Sigma fun _ : String => SubState)) (s : Session),
      (entries.foldl (fun s entry => s.leaveChannel node entry) s).client.proto =
        s.client.proto := by
    intro entries
    induction entries with
    | nil => exact fun s => rfl
    | cons entry entries ih =>
        intro s
        rw [List.foldl_cons, ih]
        unfold leaveChannel
        cases entry.2.presence <;> cases entry.2.joinLeave <;> rfl
  exact left _ _

namespace Connection

variable {node : Node} {c c' : Connection}

/-- A JSON connection with replies that can be encoded. -/
structure Encodable (c : Connection) : Prop where
  json : c.session.client.proto = .json
  replies : encodableReplies .json c.phase.replies

theorem Accepted.encodable (accepted : c.Accepted) (json : c.session.client.proto = .json) :
    c.Encodable := by
  refine ⟨json, ?_⟩
  rw [accepted.2]
  rfl

theorem Encodable.close (h : c.Encodable) (disconnect : Disconnect) :
    (c.close disconnect).Encodable :=
  ⟨h.json, rfl⟩

theorem Encodable.onExpiryTick (h : c.Encodable) (readings : Readings) (now : UnixTime) :
    (c.onExpiryTick node readings now).Encodable := by
  have proto := (c.session.act_kept node (.proactiveRefresh readings)).1
  unfold Connection.onExpiryTick
  rw [Session.act] at proto
  generalize c.session.proactiveRefresh node readings = after at proto
  obtain ⟨s, closed⟩ := after
  have kept : Encodable ⟨s, c.phase⟩ := ⟨proto.trans h.json, h.replies⟩
  cases closed with
  | some disconnect => exact kept.close disconnect
  | none =>
      dsimp only
      split
      · exact kept.close _
      · exact kept

theorem Encodable.onSignal (h : c.Encodable) (signal : Signal) :
    (c.onSignal node signal).Encodable := by
  have dropped : ∀ (channels : List String) (s : Session), s.client.proto = .json →
      (channels.foldl (fun s channel => s.serverUnsubscribe node channel) s).client.proto =
        .json := by
    intro channels
    induction channels with
    | nil => exact fun s json => json
    | cons channel channels ih =>
        intro s json
        exact ih _ ((s.act_kept node (.serverUnsubscribe channel)).1.trans json)
  cases signal with
  | disconnect disconnect => exact h.close disconnect
  | unsubscribe channel =>
      unfold Connection.onSignal
      dsimp only
      split
      · exact ⟨dropped _ _ h.json, h.replies⟩
      · exact ⟨(c.session.act_kept node (.serverUnsubscribe channel)).1.trans h.json, h.replies⟩

theorem Encodable.onCommand (h : c.Encodable) {readings : Readings} {cmd : Command}
    {cmds : List Command} {replies : List (Reply Result)} (phase : c.phase.replies = replies) :
    (c.onCommand node readings cmd cmds replies).Encodable := by
  subst phase
  unfold Connection.onCommand
  split
  · exact ⟨h.json, h.replies⟩
  · have proto := (c.session.act_kept node (.command readings cmd)).1
    have answers := @Session.handleCommand_answers cmd c.session node readings
    rw [Session.act] at proto
    generalize c.session.handleCommand node readings cmd = after at proto answers
    obtain ⟨s, outcome⟩ := after
    rw [h.json] at proto answers
    have more := encodableReplies_append h.replies answers.encodable
    dsimp only
    split
    · exact ⟨proto, more⟩
    · exact ⟨proto, more⟩

theorem Encodable.onReply (h : c.Encodable) (replies : List (Reply Result))
    (disconnect : Option Disconnect) : (c.onReply replies disconnect).Encodable := by
  unfold Connection.onReply
  split
  · exact ⟨h.json, rfl⟩
  split
  · exact h.close .serverError
  split
  · exact ⟨h.json, rfl⟩
  · exact ⟨h.json, rfl⟩

theorem Encodable.onFlush (h : c.Encodable) (disconnect : Option Disconnect) :
    (c.onFlush node disconnect).Encodable := by
  have proto := (c.session.act_kept node .flushPendingJoins).1.trans h.json
  cases disconnect with
  | some disconnect => exact ⟨proto, rfl⟩
  | none => exact ⟨proto, rfl⟩

/-- The loop answers only with what it can encode. -/
theorem Encodable.step (h : c.Encodable) (node : Node) (event : Event)
    (move : c.step node event = some c') : c'.Encodable := by
  obtain ⟨s, phase⟩ := c
  cases event with
  | interference world =>
      cases move
      exact ⟨h.json, h.replies⟩
  | frame cmds =>
      cases phase <;> cases move
      cases cmds with
      | none => exact h.close .badRequest
      | some cmds => exact ⟨h.json, rfl⟩
  | hangUp =>
      cases phase <;> cases move
      exact ⟨h.json, rfl⟩
  | presenceTick =>
      cases phase <;> cases move
      exact ⟨(s.act_kept node .refreshPresence).1.trans h.json, rfl⟩
  | expiryTick readings now =>
      cases phase <;> cases move
      exact h.onExpiryTick readings now
  | signal signal =>
      cases phase <;> cases move
      exact h.onSignal signal
  | command readings =>
      cases phase with
      | batch cmds replies =>
          cases cmds with
          | nil =>
              cases move
              exact ⟨h.json, h.replies⟩
          | cons cmd cmds =>
              cases move
              exact h.onCommand rfl
      | _ => cases move
  | reply =>
      cases phase <;> cases move
      exact h.onReply _ _
  | flush =>
      cases phase <;> cases move
      exact h.onFlush _
  | leave =>
      cases phase <;> cases move
      exact ⟨(s.onDisconnect_proto node).trans h.json, rfl⟩

theorem Encodable.handleSocket (h : c.Encodable) {stimulus : Stimulus}
    (move : c.handleSocket node stimulus = some c') : c'.Encodable := by
  cases stimulus with
  | text text =>
      obtain ⟨s, phase⟩ := c
      cases phase with
      | reading =>
          cases move
          split
          · exact ⟨h.json, rfl⟩
          · exact h.step node (.frame (Codec.decodeFrame .json (encodeUtf8 text.toList))) rfl
      | _ => cases move
  | hangUp => exact h.step node .hangUp move
  | presenceTick => exact h.step node .presenceTick move
  | expiryTick readings now => exact h.step node (.expiryTick readings now) move
  | signal signal => exact h.step node (.signal signal) move
  | command readings => exact h.step node (.command readings) move
  | reply => exact h.step node .reply move
  | flush => exact h.step node .flush move
  | leave => exact h.step node .leave move
  | interference world => exact h.step node (.interference world) move

/-! ## Both loops do the same -/

theorem runSession_via (ignores : node.proxies.IgnoreTransport) (h : c.Encodable) {name : String}
    {stimulus : Stimulus} (fits : Stimulus.Fits stimulus) :
    (c.via name).runSession node stimulus = (c.handleSocket node stimulus).map (via name) := by
  obtain ⟨s, phase⟩ := c
  cases stimulus with
  | text text =>
      cases phase with
      | reading =>
          simp only [handleSocket, if_neg (not_lt.mpr fits)]
          exact step_via ⟨s, .reading⟩ ignores
            (.frame (Codec.decodeFrame .json (encodeUtf8 text.toList)))
      | _ => rfl
  | reply =>
      cases phase with
      | replying replies disconnect =>
          have able : encodableReplies .json replies = true := h.replies
          have same : (via name ⟨s, .replying replies disconnect⟩).onSessionReply replies
              disconnect = (via name ⟨s, .replying replies disconnect⟩).onReply replies
              disconnect := by
            have json : (via name ⟨s, .replying replies disconnect⟩).session.client.proto = .json :=
              h.json
            simp only [onSessionReply, onReply, json, able, Bool.not_true, Bool.false_eq_true,
              if_false]
          exact congrArg some (same.trans (onReply_via _ replies disconnect))
      | _ => rfl
  | hangUp => exact step_via ⟨s, phase⟩ ignores .hangUp
  | presenceTick => exact step_via ⟨s, phase⟩ ignores .presenceTick
  | expiryTick readings now => exact step_via ⟨s, phase⟩ ignores (.expiryTick readings now)
  | signal signal => exact step_via ⟨s, phase⟩ ignores (.signal signal)
  | command readings => exact step_via ⟨s, phase⟩ ignores (.command readings)
  | flush => exact step_via ⟨s, phase⟩ ignores .flush
  | leave => exact step_via ⟨s, phase⟩ ignores .leave
  | interference world => exact step_via ⟨s, phase⟩ ignores (.interference world)

/-- Both loops go through the same script alike, from wherever one of them is. -/
theorem runSession_run (ignores : node.proxies.IgnoreTransport) {name : String}
    {script : List Stimulus} (fits : ∀ stimulus ∈ script, Stimulus.Fits stimulus)
    (h : c.Encodable) :
    script.foldlM (fun (c : Connection) stimulus => c.runSession node stimulus) (c.via name) =
      (script.foldlM (fun (c : Connection) stimulus => c.handleSocket node stimulus) c).map
        (via name) := by
  induction script generalizing c with
  | nil => rfl
  | cons stimulus script ih =>
      obtain ⟨first, rest⟩ := List.forall_mem_cons.mp fits
      rw [List.foldlM_cons, List.foldlM_cons, runSession_via ignores h first]
      cases move : c.handleSocket node stimulus with
      | none => rfl
      | some c' => exact ih rest (h.handleSocket move)

/-- With proxies that ignore the name of the transport, and messages that fit into a WebSocket
message, the loop of a SockJS session goes on exactly when that of a WebSocket does, and it leaves
the same node and the same queues behind. -/
theorem drivers_agree (ignores : node.proxies.IgnoreTransport) (accepted : c.Accepted)
    (json : c.session.client.proto = .json) {name : String} {script : List Stimulus}
    (fits : ∀ stimulus ∈ script, Stimulus.Fits stimulus) :
    (script.foldlM (fun (c : Connection) stimulus => c.runSession node stimulus)
        (c.via name)).map (fun c => (c.phase, c.session.world)) =
      (script.foldlM (fun (c : Connection) stimulus => c.handleSocket node stimulus) c).map
        (fun c => (c.phase, c.session.world)) := by
  rw [runSession_run ignores fits (accepted.encodable json), Option.map_map]
  rfl

end Connection

namespace Sample

/-- A connection that was just accepted. -/
def arrived : Connection where
  session := {
    client := { proto := .json, tx := 0 }
    world := { world with queues := world.queues.insert 0 {} } }
  phase := .reading

theorem arrived_accepted : arrived.Accepted := ⟨⟨_, _, _, _, rfl⟩, rfl⟩

theorem node_ignores : node.proxies.IgnoreTransport :=
  ⟨nofun, nofun, nofun, nofun, nofun⟩

/-- A CONNECT without credentials, up to the end of the connection. -/
def refusal : List Stimulus :=
  [.text "\x7b\"id\":1\x7d", .command (readings noon), .reply, .flush, .leave]

theorem refusal_fits : ∀ stimulus ∈ refusal, Stimulus.Fits stimulus := by
  have short : byteLength "\x7b\"id\":1\x7d" ≤ maxMessageSize := by decide
  simp [refusal, Stimulus.Fits, short]

/-- A message of `n` bytes that is not JSON. -/
def garbage (n : Nat) : String := String.ofList (List.replicate n ']')

theorem byteLength_garbage (n : Nat) : byteLength (garbage n) = n := by
  have size : Char.utf8Size ']' = 1 := by decide
  simp only [garbage, byteLength, String.toList_ofList, List.map_replicate, size,
    List.sum_replicate_nat, Nat.mul_one]

theorem decodeFrame_garbage (n : Nat) :
    Codec.decodeFrame .json (encodeUtf8 (garbage n).toList) = none := by
  rw [garbage, String.toList_ofList]
  cases n with
  | zero => rfl
  | succ n =>
      rw [List.replicate_succ]
      generalize List.replicate n ']' = rest
      have malformed : (values Codec.decodeCommand).next (']' :: rest) = .malformed := by
        have start : skipSpace (']' :: rest) = ']' :: rest := skipSpace_cons rfl rest
        have none : readValue (']' :: rest) = none := by
          rw [readValue, start]
          rfl
        simp only [values, nextValue, start, none]
        rfl
      rw [Codec.decodeFrame, ite_eq_left_iff]
      intro nonempty
      rw [Codec.decodeCommands, decodeUtf8_encodeUtf8, Option.bind_some, Codec.whole,
        Source.items_of_malformed _ malformed]
      rfl

end Sample

open Sample

theorem Connection.drivers_agree_refused :
    (refusal.foldlM (fun (c : Connection) stimulus => c.runSession node stimulus)
        (arrived.via "sockjs")).map (fun c => (c.phase, c.session.world)) =
      (refusal.foldlM (fun (c : Connection) stimulus => c.handleSocket node stimulus)
        arrived).map (fun c => (c.phase, c.session.world)) :=
  drivers_agree node_ignores arrived_accepted rfl refusal_fits

/-- A message that is too long for a WebSocket ends its loop without a word. -/
theorem Connection.not_drivers_agree :
    ¬ ∀ (node : Node) (c : Connection) (script : List Stimulus),
      node.proxies.IgnoreTransport → c.Accepted → c.session.client.proto = .json →
      (script.foldlM (fun (c : Connection) stimulus => c.runSession node stimulus)
          (c.via "sockjs")).map (fun c => (c.phase, c.session.world)) =
        (script.foldlM (fun (c : Connection) stimulus => c.handleSocket node stimulus) c).map
          (fun c => (c.phase, c.session.world)) := by
  intro all
  have session : (arrived.via "sockjs").runSession node (.text (garbage 65537)) =
      some ((arrived.via "sockjs").close .badRequest) :=
    congrArg (fun cmds => some ((arrived.via "sockjs").onFrame cmds)) (decodeFrame_garbage 65537)
  have socket : arrived.handleSocket node (.text (garbage 65537)) =
      some { arrived with phase := .leaving } := by
    refine congrArg some (if_pos ?_)
    rw [byteLength_garbage]
    decide
  have same := all node arrived [.text (garbage 65537)] node_ignores arrived_accepted rfl
  rw [List.foldlM_cons, List.foldlM_cons, session, socket] at same
  have queued := congrArg (Option.map fun view => (view.2.queues.lookup 0)) same
  exact absurd queued (by decide)

end Centrifugo
