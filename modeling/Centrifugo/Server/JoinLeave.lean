import Centrifugo.Server.Loop
import Mathlib.Data.List.Chain

/-!
# Joins and leaves of a connection

For one channel, what a session hands to the engine is a sequence of Joins and Leaves.
A Join waits until the replies of its frame are flushed, a Leave does not. The sequence
alternates as long as no subscription ends while its Join still waits.
-/

namespace Centrifugo

/-! ## Alternating sequences -/

inductive Move
  | join
  | leave
  deriving DecidableEq

/-- Joins and Leaves in turn, beginning with a Join. -/
def Alternates (moves : List Move) : Prop :=
  moves.IsChain (· ≠ ·) ∧ moves.head? ≠ some .leave

namespace Alternates

variable {moves : List Move}

theorem nil : Alternates [] := ⟨.nil, by simp⟩

theorem join (h : Alternates moves) (outside : moves.getLast? ≠ some .join) :
    Alternates (moves ++ [.join]) := by
  refine ⟨List.isChain_append.mpr ⟨h.1, .singleton _, ?_⟩, ?_⟩
  · intro last mem first head
    cases head
    rintro rfl
    exact outside mem
  · cases moves with
    | nil => simp
    | cons first moves => exact h.2

theorem leave (h : Alternates moves) (inside : moves.getLast? = some .join) :
    Alternates (moves ++ [.leave]) := by
  refine ⟨List.isChain_append.mpr ⟨h.1, .singleton _, ?_⟩, ?_⟩
  · intro last mem first head
    cases head
    rintro rfl
    rw [inside] at mem
    cases mem
  · cases moves with
    | nil => cases inside
    | cons first moves => exact h.2

end Alternates

/-! ## One channel of a session -/

/-- What a message tells about a channel. -/
def NodeMessage.moveIn (channel : String) : NodeMessage → Option Move
  | .join ch _ => if ch = channel then some .join else none
  | .leave ch _ => if ch = channel then some .leave else none
  | .publication _ _ => none

namespace Client

/-- The Joins and Leaves of a channel that were handed to the engine. -/
def moves (client : Client) (channel : String) : List Move :=
  client.handed.filterMap (NodeMessage.moveIn channel)

/-- The Joins of a channel that wait to be flushed. -/
def waiting (client : Client) (channel : String) : Nat :=
  client.pendingJoins.countP fun join => join.1 = channel

/-- The client is in a channel with Join and Leave messages. -/
def joined (client : Client) (channel : String) : Bool :=
  (client.subscriptions.lookup channel).any SubState.joinLeave

/-- The waiting Joins and the moves of a channel fit its subscription. -/
structure Orderly (client : Client) (channel : String) : Prop where
  alternates : Alternates (client.moves channel)
  fits : client.waiting channel = 0 ∧
      (client.joined channel ↔ (client.moves channel).getLast? = some .join) ∨
    client.waiting channel = 1 ∧ client.joined channel ∧
      (client.moves channel).getLast? ≠ some .join

variable {client : Client} {channel : String}

/-- A client in no channel and without waiting Joins has left what it joined. -/
theorem Orderly.outside (h : client.Orderly channel) (free : client.joined channel = false) :
    client.waiting channel = 0 ∧ (client.moves channel).getLast? ≠ some .join := by
  obtain ⟨none, settled⟩ | ⟨_, joined, _⟩ := h.fits
  · refine ⟨none, ?_⟩
    intro inside
    rw [free] at settled
    exact absurd (settled.mpr inside) (by simp)
  · rw [free] at joined
    cases joined

/-- The same client, as far as a channel is concerned. -/
structure SameIn (channel : String) (client client' : Client) : Prop where
  joined : client'.joined channel = client.joined channel
  waiting : client'.waiting channel = client.waiting channel
  moves : client'.moves channel = client.moves channel

theorem Orderly.congr {client' : Client} (h : client.Orderly channel)
    (same : SameIn channel client client') : client'.Orderly channel := by
  refine ⟨?_, ?_⟩
  · rw [same.moves]
    exact h.alternates
  · rw [same.moves, same.waiting, same.joined]
    exact h.fits

/-- A new subscription, whose Join has to wait. -/
theorem Orderly.subscribe (h : client.Orderly channel) {name : String} (state : SubState)
    (info : ClientInfo) (free : name = channel → client.joined channel = false) :
    Orderly { client with
      subscriptions := client.subscriptions.insert name state
      pendingJoins := client.pendingJoins ++ if state.joinLeave then [(name, info)] else [] }
      channel := by
  by_cases same : name = channel
  · subst same
    obtain ⟨settled, outside⟩ := h.outside (free rfl)
    refine ⟨h.alternates, ?_⟩
    by_cases joinLeave : state.joinLeave
    · right
      refine ⟨?_, ?_, outside⟩
      · simpa [waiting, joinLeave] using settled
      · simp [joined, joinLeave]
    · left
      refine ⟨?_, ?_⟩
      · simpa [waiting, joinLeave] using settled
      · simpa [joined, moves, joinLeave] using outside
  · refine h.congr ⟨?_, ?_, rfl⟩
    · simp [joined, Ne.symm same]
    · by_cases joinLeave : state.joinLeave <;> simp [waiting, joinLeave, same]

theorem moves_flushed (pendingJoins : List (String × ClientInfo)) (channel : String) :
    (pendingJoins.map Session.pendingJoin).filterMap (NodeMessage.moveIn channel) =
      List.replicate (pendingJoins.countP fun join => join.1 = channel) .join := by
  induction pendingJoins with
  | nil => rfl
  | cons join pendingJoins ih =>
      by_cases same : join.1 = channel <;>
        simp [Session.pendingJoin, NodeMessage.moveIn, same, ih, List.replicate_succ]

/-- After a flush no Join waits. -/
theorem Orderly.flush (h : client.Orderly channel) :
    Orderly { client with
      pendingJoins := []
      handed := client.handed ++ client.pendingJoins.map Session.pendingJoin } channel := by
  have moved : moves { client with
      pendingJoins := []
      handed := client.handed ++ client.pendingJoins.map Session.pendingJoin } channel =
        client.moves channel ++ List.replicate (client.waiting channel) .join := by
    simp only [moves, List.filterMap_append, moves_flushed]
    rfl
  obtain ⟨none, settled⟩ | ⟨one, inside, outside⟩ := h.fits
  · rw [none, List.replicate_zero, List.append_nil] at moved
    refine ⟨?_, .inl ⟨rfl, ?_⟩⟩
    · rw [moved]
      exact h.alternates
    · rw [moved]
      exact settled
  · rw [one, List.replicate_one] at moved
    refine ⟨?_, .inl ⟨rfl, ?_⟩⟩
    · rw [moved]
      exact h.alternates.join outside
    · rw [moved, List.getLast?_concat]
      exact iff_of_true inside rfl

/-- The Leave of a channel follows its Join. -/
theorem Orderly.leave (h : client.Orderly channel) (settled : client.waiting channel = 0) :
    Alternates (client.moves channel ++ if client.joined channel then [Move.leave] else []) ∧
      (client.moves channel ++ if client.joined channel then [Move.leave] else []).getLast? ≠
        some .join := by
  obtain ⟨_, fits⟩ | ⟨one, _⟩ := h.fits
  · cases joined : client.joined channel with
    | true => exact ⟨h.alternates.leave (fits.mp joined), by simp⟩
    | false =>
        rw [joined] at fits
        simpa using And.intro h.alternates (by simpa using fits)
  · omega

end Client

namespace Session

variable {s : Session} {node : Node} {channel : String}

/-! ## Leaving -/

theorem orderly_unsubscribeChannel (h : s.client.Orderly channel) {name : String}
    (settled : name = channel → s.client.waiting channel = 0) :
    (s.unsubscribeChannel node name).client.Orderly channel := by
  cases held : s.client.subscriptions.lookup name with
  | none =>
      rw [unsubscribeChannel_absent node held]
      exact h
  | some state =>
      rw [unsubscribeChannel_client node held]
      by_cases same : name = channel
      · subst same
        have left := h.leave (settled rfl)
        have joined : s.client.joined name = state.joinLeave := by simp [Client.joined, held]
        have moved : Client.moves { s.client with
            subscriptions := s.client.subscriptions.erase name
            handed := s.client.handed ++ if state.joinLeave then
              [.leave name (s.client.clientInfoWith state.chanInfo)] else [] } name =
            s.client.moves name ++ if state.joinLeave then [.leave] else [] := by
          by_cases joinLeave : state.joinLeave <;>
            simp [Client.moves, joinLeave, NodeMessage.moveIn]
        rw [joined] at left
        refine ⟨?_, .inl ⟨settled rfl, ?_⟩⟩
        · rw [moved]
          exact left.1
        · rw [moved]
          simpa [Client.joined] using left.2
      · refine h.congr ⟨?_, rfl, ?_⟩
        · simp [Client.joined, Ne.symm same]
        · by_cases joinLeave : state.joinLeave <;>
            simp [Client.moves, joinLeave, NodeMessage.moveIn, same]

theorem waiting_unsubscribeChannel (s : Session) (node : Node) (name channel : String) :
    (s.unsubscribeChannel node name).client.waiting channel = s.client.waiting channel := by
  cases held : s.client.subscriptions.lookup name with
  | none => rw [unsubscribeChannel_absent node held]
  | some state =>
      rw [unsubscribeChannel_client node held]
      rfl

/-- One channel of a disconnect. -/
def leaveOf (s : Session) (entry : Sigma fun _ : String => SubState) : Option NodeMessage :=
  if entry.2.joinLeave then some (.leave entry.1 (s.client.clientInfoWith entry.2.chanInfo))
  else none

/-- The Leaves that the end of a connection hands over. -/
theorem onDisconnect_client (s : Session) (node : Node) :
    (s.onDisconnect node).client = { s.client with
      subscriptions := ∅
      handed := s.client.handed ++ s.client.subscriptions.entries.filterMap s.leaveOf } := by
  unfold onDisconnect
  generalize s.client.subscriptions.entries = entries
  have fold : ∀ t : Session, (∀ chanInfo, t.client.clientInfoWith chanInfo =
      s.client.clientInfoWith chanInfo) →
      (entries.foldl (fun t entry =>
        let t := if entry.2.presence then t.removePresence entry.1 else t
        if entry.2.joinLeave then
          t.publishLeave node entry.1 (t.client.clientInfoWith entry.2.chanInfo)
        else t) t).client =
      { t.client with handed := t.client.handed ++ entries.filterMap s.leaveOf } := by
    induction entries with
    | nil =>
        intro t _
        simp
    | cons entry entries ih =>
        intro t info
        rw [List.foldl_cons, ih]
        · by_cases presence : entry.2.presence <;> by_cases joinLeave : entry.2.joinLeave <;>
            simp [presence, joinLeave, leaveOf, publishLeave, removePresence, info]
        · by_cases presence : entry.2.presence <;> by_cases joinLeave : entry.2.joinLeave <;>
            simpa [presence, joinLeave, publishLeave, removePresence, Client.clientInfoWith]
              using info
  exact fold _ fun _ => rfl

/-- Among entries with distinct channels, one channel leaves at most once. -/
theorem moves_leaving (s : Session) (channel : String)
    (entries : List (Sigma fun _ : String => SubState)) (nodup : entries.NodupKeys) :
    (entries.filterMap s.leaveOf).filterMap (NodeMessage.moveIn channel) =
      if (List.dlookup channel entries : Option SubState).any SubState.joinLeave then
        [Move.leave] else [] := by
  induction entries with
  | nil => rfl
  | cons entry entries ih =>
      obtain ⟨fresh, rest⟩ := List.nodupKeys_cons.mp nodup
      have others := ih rest
      by_cases same : channel = entry.1
      · subst same
        have absent : (List.dlookup entry.1 entries : Option SubState) = none :=
          List.dlookup_eq_none.mpr fresh
        rw [absent] at others
        rw [show List.dlookup entry.1 (entry :: entries) = some entry.2 from
          List.dlookup_cons_eq entries entry.1 entry.2]
        by_cases joinLeave : entry.2.joinLeave
        · have left : s.leaveOf entry =
              some (.leave entry.1 (s.client.clientInfoWith entry.2.chanInfo)) := by
            simp [leaveOf, joinLeave]
          have move : NodeMessage.moveIn entry.1
              (.leave entry.1 (s.client.clientInfoWith entry.2.chanInfo)) = some .leave := by
            simp [NodeMessage.moveIn]
          rw [List.filterMap_cons_some left, List.filterMap_cons_some move, others]
          simp [joinLeave]
        · have silent : s.leaveOf entry = none := by simp [leaveOf, joinLeave]
          rw [List.filterMap_cons_none silent, others]
          simp [joinLeave]
      · rw [List.dlookup_cons_ne _ _ same, ← others]
        by_cases joinLeave : entry.2.joinLeave <;>
          simp [leaveOf, joinLeave, NodeMessage.moveIn, Ne.symm same]

theorem moves_onDisconnect (s : Session) (node : Node) (channel : String) :
    (s.onDisconnect node).client.moves channel =
      s.client.moves channel ++ if s.client.joined channel then [Move.leave] else [] := by
  rw [onDisconnect_client]
  simp only [Client.moves, List.filterMap_append]
  rw [moves_leaving s channel _ s.client.subscriptions.nodupKeys]
  rfl

/-! ## Subscribing -/

/-- The channels of a CONNECT, when it has the channel at most once. -/
theorem orderly_serverSideSubscribes (readings : Readings) (channels : List String)
    (h : s.client.Orderly channel)
    (once : (serverSideState node channel).joinLeave → channels.count channel ≤ 1)
    (free : channel ∈ channels → s.client.joined channel = false)
    (subs : Map String SubscribeResult) (i : Nat) :
    (serverSideSubscribes node readings s subs i channels).1.client.Orderly channel := by
  induction channels generalizing s subs i with
  | nil => exact h
  | cons name channels ih =>
      have client := s.serverSideSubscribe_client node (readings.engine i) (readings.epoch i) name
      apply ih
        (s := (s.serverSideSubscribe node (readings.engine i) (readings.epoch i) name).1)
      · rw [client]
        exact h.subscribe _ _ fun same => free (by simp [same])
      · intro joinLeave
        have bound := once joinLeave
        have more : channels.count channel ≤ (name :: channels).count channel :=
          List.count_le_count_cons
        omega
      · intro again
        rw [client]
        by_cases same : name = channel
        · subst same
          have silent : (serverSideState node name).joinLeave = false := by
            by_contra joinLeave
            have bound := once (by simpa using joinLeave)
            rw [List.count_cons_self] at bound
            have present := List.count_pos_iff.mpr again
            omega
          simp [Client.joined, silent]
        · simpa [Client.joined, Ne.symm same] using free (List.mem_cons_of_mem _ again)

variable {readings : Readings} {cmd : Command}

theorem orderly_applyConnect {creds : Creds} (h : s.client.Orderly channel)
    (none : ∀ name, s.client.subscriptions.lookup name = none)
    (once : overConnectionLimit node s.world.hub creds.user = false →
      (serverSideState node channel).joinLeave →
        (connectChannels node creds).count channel ≤ 1) :
    (s.applyConnect node readings cmd creds).1.client.Orderly channel := by
  have kept : (s.authenticate creds).client.Orderly channel := h.congr ⟨rfl, rfl, rfl⟩
  cases exceeded : overConnectionLimit node s.world.hub creds.user with
  | true =>
      have exceeded' : overConnectionLimit node (s.authenticate creds).world.hub creds.user :=
        exceeded
      simp only [applyConnect, exceeded', if_true]
      exact kept
  | false =>
      have exceeded' :
          overConnectionLimit node (s.authenticate creds).world.hub creds.user = false :=
        exceeded
      simp only [applyConnect, exceeded']
      apply orderly_serverSideSubscribes readings _ (s := (s.authenticate creds).register) kept
      · exact once exceeded
      · intro _
        simp [Client.joined, register, authenticate, none]

/-- An accepted SUBSCRIBE is for a channel the client is not in. -/
theorem orderly_applySubscribe {req : SubscribeRequest} {opts : ChannelOptions} {grant : Grant}
    (h : s.client.Orderly channel)
    (checked : s.checkSubscribe node readings cmd = .ok (req, opts, grant)) :
    (s.applySubscribe node readings cmd req opts grant).1.client.Orderly channel := by
  obtain ⟨-, free, -, -⟩ := checkSubscribe_ok checked
  rw [applySubscribe_client]
  apply h.subscribe (grantedState opts grant)
  rintro rfl
  simp [Client.joined, free]

/-- A new token leaves it as it is whether a subscription tells of its Joins. -/
theorem sameIn_updateSubscription (s : Session) (name channel : String)
    (change : SubState → SubState) (kept : ∀ state, (change state).joinLeave = state.joinLeave) :
    Client.SameIn channel s.client (s.updateSubscription name change).client := by
  refine ⟨?_, rfl, rfl⟩
  simp only [Client.joined, updateSubscription, Map.lookup_alter]
  split
  next same =>
    subst same
    cases s.client.subscriptions.lookup channel with
    | none => rfl
    | some state => exact kept state
  next => rfl

end Session

namespace Connection

/-! ## Steps that may break the order -/

/-- The steps after which a channel may be joined twice, or left before it is joined. -/
inductive Hasty (node : Node) (channel : String) (c : Connection) : Event → Prop
  /-- A CONNECT is granted the channel more than once. -/
  | twice {readings : Readings} {cmd : Command} {cmds : List Command}
      {replies : List (Reply Result)} (req : ConnectRequest) (creds : Session.Creds)
      (phase : c.phase = .batch (cmd :: cmds) replies)
      (method : cmd.method = .connect)
      (parsed : c.session.parseConnect node cmd = .ok req)
      (checked : (c.session.identify readings.uuid).checkConnect node readings req = .ok creds)
      (below : Session.overConnectionLimit node c.session.world.hub creds.user = false)
      (joinLeave : (Session.serverSideState node channel).joinLeave)
      (repeated : 1 < (Session.connectChannels node creds).count channel) :
      Hasty node channel c (.command readings)
  /-- An UNSUBSCRIBE comes in the frame of the subscription. -/
  | overtaken {readings : Readings} {cmd : Command} {cmds : List Command}
      {replies : List (Reply Result)} (phase : c.phase = .batch (cmd :: cmds) replies)
      (method : cmd.method = .unsubscribe)
      (checked : c.session.checkUnsubscribe node cmd = .ok channel)
      (waiting : c.session.client.waiting channel ≠ 0) :
      Hasty node channel c (.command readings)
  /-- The replies of the subscription's frame cannot be sent. -/
  | unsent {replies : List (Reply Result)} {disconnect : Option Disconnect}
      (phase : c.phase = .replying replies disconnect) (lost : c.losesReplies replies)
      (waiting : c.session.client.waiting channel ≠ 0) : Hasty node channel c .reply

/-! ## Connections in order -/

/-- Between frames no Join waits, and in the end no subscription is left. -/
structure InOrder (channel : String) (c : Connection) : Prop where
  idle : c.session.Idle
  orderly : c.session.client.Orderly channel
  settled : c.phase.inFrame = false → c.session.client.waiting channel = 0
  outside : c.phase = .ended → c.session.client.joined channel = false

variable {c c' : Connection} {node : Node} {channel : String}

/-- After a command, whatever the rest of the frame is. -/
theorem InOrder.handleCommand {readings : Readings} {cmd : Command} {cmds : List Command}
    {replies : List (Reply Result)} (h : InOrder channel c)
    (phase : c.phase = .batch (cmd :: cmds) replies)
    (careful : ¬ Hasty node channel c (.command readings)) :
    (c.session.handleCommand node readings cmd).1.client.Orderly channel := by
  have effect := c.session.handleCommand_effect node readings cmd
  generalize c.session.handleCommand node readings cmd = after at effect
  cases effect with
  | refused refusal => exact h.orderly
  | identified refusal method => exact h.orderly.congr ⟨rfl, rfl, rfl⟩
  | answered outcome method => exact h.orderly
  | connected req creds method parsed checked =>
      apply Session.orderly_applyConnect (s := c.session.identify readings.uuid)
      · exact h.orderly.congr ⟨rfl, rfl, rfl⟩
      · exact h.idle (Session.parseConnect_ok parsed).1
      · intro below joinLeave
        by_contra repeated
        exact careful (.twice req creds phase method parsed checked below joinLeave
          (Nat.lt_of_not_le repeated))
  | subscribed req opts grant method authenticated checked =>
      exact Session.orderly_applySubscribe h.orderly checked
  | published name data method authenticated checked => exact h.orderly
  | unsubscribed name method authenticated checked =>
      apply Session.orderly_unsubscribeChannel h.orderly
      rintro rfl
      by_contra waiting
      exact careful (.overtaken phase method checked waiting)
  | historyRead name method authenticated checked => exact h.orderly
  | refreshed ct method authenticated checked =>
      rw [Session.applyRefresh_client]
      exact h.orderly.congr ⟨rfl, rfl, rfl⟩
  | subRefreshed name token method authenticated checked =>
      rw [Session.applySubRefresh_session]
      apply h.orderly.congr
      apply Session.sameIn_updateSubscription
      intro state
      cases token <;> rfl

theorem InOrder.onCommand {readings : Readings} {cmd : Command} {cmds : List Command}
    {replies : List (Reply Result)} (h : InOrder channel c)
    (phase : c.phase = .batch (cmd :: cmds) replies)
    (careful : ¬ Hasty node channel c (.command readings)) :
    InOrder channel (c.onCommand node readings cmd cmds replies) := by
  have orderly := h.handleCommand phase careful
  have idle := @Session.act_idle _ node h.idle (.command readings cmd)
  unfold Connection.onCommand
  split
  · refine ⟨h.idle, h.orderly, ?_, ?_⟩ <;> intro next <;> cases next
  · simp only []
    split
    all_goals
      refine ⟨idle, orderly, ?_, ?_⟩ <;> intro next <;> cases next

/-- A connection that closes between frames. -/
theorem InOrder.close (idle : c.session.Idle) (orderly : c.session.client.Orderly channel)
    (settled : c.session.client.waiting channel = 0) (disconnect : Disconnect) :
    InOrder channel (c.close disconnect) := by
  refine ⟨idle, orderly, fun _ => settled, ?_⟩
  intro ended
  cases ended

theorem InOrder.onReply {replies : List (Reply Result)} {disconnect : Option Disconnect}
    (h : InOrder channel c) (phase : c.phase = .replying replies disconnect)
    (careful : ¬ Hasty node channel c .reply) :
    InOrder channel (c.onReply replies disconnect) := by
  have settled : c.losesReplies replies → c.session.client.waiting channel = 0 := by
    intro lost
    by_contra waiting
    exact careful (.unsent phase lost waiting)
  unfold losesReplies at settled
  unfold Connection.onReply
  split
  next empty =>
    refine ⟨h.idle, h.orderly, ?_, ?_⟩ <;> intro next <;> cases next
  next some =>
    split
    next unencodable =>
      exact .close h.idle h.orderly (settled (by simp_all)) _
    next =>
      split
      next gone =>
        refine ⟨h.idle, h.orderly, ?_, ?_⟩
        · intro _
          exact settled (by simp_all)
        · intro ended
          cases ended
      next =>
        refine ⟨h.idle, h.orderly, ?_, ?_⟩ <;> intro next <;> cases next

theorem InOrder.onFlush (h : InOrder channel c) (disconnect : Option Disconnect) :
    InOrder channel (c.onFlush node disconnect) := by
  have idle := @Session.act_idle _ node h.idle .flushPendingJoins
  have orderly : (c.session.flushPendingJoins node).client.Orderly channel := by
    rw [Session.flushPendingJoins_client]
    exact h.orderly.flush
  have settled : (c.session.flushPendingJoins node).client.waiting channel = 0 := by
    rw [Session.flushPendingJoins_client]
    rfl
  unfold Connection.onFlush
  cases disconnect with
  | some disconnect => exact .close idle orderly settled disconnect
  | none =>
      refine ⟨idle, orderly, fun _ => settled, ?_⟩
      intro ended
      cases ended

/-- The server unsubscribes between frames. -/
theorem InOrder.serverUnsubscribes (channels : List String) (h : InOrder channel c)
    (reading : c.phase = .reading) :
    InOrder channel
      ⟨channels.foldl (fun s name => s.serverUnsubscribe node name) c.session, c.phase⟩ := by
  induction channels generalizing c with
  | nil => exact h
  | cons name channels ih =>
      have settled := h.settled (by rw [reading]; rfl)
      apply ih (c := { c with session := c.session.serverUnsubscribe node name })
      · refine ⟨Session.act_idle h.idle (.serverUnsubscribe name), ?_, ?_, ?_⟩
        · rw [Session.serverUnsubscribe_client]
          exact Session.orderly_unsubscribeChannel h.orderly fun _ => settled
        · intro _
          rw [Session.serverUnsubscribe_client, Session.waiting_unsubscribeChannel]
          exact settled
        · intro ended
          rw [reading] at ended
          cases ended
      · exact reading

theorem InOrder.onSignal (h : InOrder channel c) (reading : c.phase = .reading)
    (signal : Signal) : InOrder channel (c.onSignal node signal) := by
  cases signal with
  | unsubscribe name =>
      unfold Connection.onSignal
      simp only []
      split
      · exact h.serverUnsubscribes _ reading
      · exact h.serverUnsubscribes [name] reading
  | disconnect disconnect =>
      exact .close h.idle h.orderly (h.settled (by rw [reading]; rfl)) disconnect

theorem InOrder.onExpiryTick (h : InOrder channel c) (reading : c.phase = .reading)
    (readings : Readings) (now : UnixTime) :
    InOrder channel (c.onExpiryTick node readings now) := by
  have settled := h.settled (by rw [reading]; rfl)
  have idle := @Session.act_idle _ node h.idle (.proactiveRefresh readings)
  obtain ⟨connInfo, expireAt, client⟩ := c.session.proactiveRefresh_client node readings
  have orderly : (c.session.proactiveRefresh node readings).1.client.Orderly channel := by
    rw [client]
    exact h.orderly.congr ⟨rfl, rfl, rfl⟩
  have settled' : (c.session.proactiveRefresh node readings).1.client.waiting channel = 0 := by
    rw [client]
    exact settled
  rw [Session.act] at idle
  unfold Connection.onExpiryTick
  generalize c.session.proactiveRefresh node readings = refreshed at idle orderly settled'
  obtain ⟨s, _ | disconnect⟩ := refreshed
  · simp only []
    split
    · exact .close idle orderly settled' _
    · refine ⟨idle, orderly, fun _ => settled', ?_⟩
      intro ended
      rw [reading] at ended
      cases ended
  · exact .close idle orderly settled' disconnect

theorem InOrder.leave (h : InOrder channel c) (leaving : c.phase = .leaving) :
    InOrder channel ⟨c.session.onDisconnect node, .ended⟩ := by
  have settled := h.settled (by rw [leaving]; rfl)
  have left := h.orderly.leave settled
  have outside : (c.session.onDisconnect node).client.joined channel = false := by
    rw [Session.onDisconnect_client]
    rfl
  have still : (c.session.onDisconnect node).client.waiting channel = 0 := by
    rw [Session.onDisconnect_client]
    exact settled
  refine ⟨?_, ⟨?_, .inl ⟨still, ?_⟩⟩, fun _ => still, fun _ => outside⟩
  · intro _ name
    rw [Session.onDisconnect_client]
    rfl
  · rw [Session.moves_onDisconnect]
    exact left.1
  · rw [Session.moves_onDisconnect, outside]
    simpa using left.2

theorem InOrder.step {event : Event} (h : InOrder channel c)
    (careful : ¬ Hasty node channel c event) (move : Step node c event c') :
    InOrder channel c' := by
  unfold Step Connection.step at move
  cases event with
  | interference world =>
      cases move
      exact ⟨h.idle, h.orderly, h.settled, h.outside⟩
  | frame cmds =>
      cases phase : c.phase <;> rw [phase] at move <;> cases move
      cases cmds with
      | none => exact .close h.idle h.orderly (h.settled (by rw [phase]; rfl)) _
      | some cmds => refine ⟨h.idle, h.orderly, ?_, ?_⟩ <;> intro next <;> cases next
  | hangUp =>
      cases phase : c.phase <;> rw [phase] at move <;> cases move
      refine ⟨h.idle, h.orderly, fun _ => h.settled (by rw [phase]; rfl), ?_⟩
      intro ended
      cases ended
  | presenceTick =>
      cases phase : c.phase <;> rw [phase] at move <;> cases move
      have idle := @Session.act_idle _ node h.idle .refreshPresence
      refine ⟨idle, ?_, ?_, ?_⟩
      · rw [Session.refreshPresence_client]
        exact h.orderly
      · intro _
        rw [Session.refreshPresence_client]
        exact h.settled (by rw [phase]; rfl)
      · intro ended
        cases ended
  | expiryTick readings now =>
      cases phase : c.phase <;> rw [phase] at move <;> cases move
      exact h.onExpiryTick phase readings now
  | signal signal =>
      cases phase : c.phase <;> rw [phase] at move <;> cases move
      exact h.onSignal phase signal
  | command readings =>
      cases phase : c.phase with
      | batch cmds replies =>
          rw [phase] at move
          cases cmds with
          | nil =>
              cases move
              refine ⟨h.idle, h.orderly, ?_, ?_⟩ <;> intro next <;> cases next
          | cons cmd cmds =>
              cases move
              exact h.onCommand phase careful
      | _ =>
          rw [phase] at move
          cases move
  | reply =>
      cases phase : c.phase <;> rw [phase] at move <;> cases move
      exact h.onReply phase careful
  | flush =>
      cases phase : c.phase <;> rw [phase] at move <;> cases move
      exact h.onFlush _
  | leave =>
      cases phase : c.phase <;> rw [phase] at move <;> cases move
      exact h.leave phase

theorem InOrder.of_accepted (h : Accepted c) : InOrder channel c := by
  obtain ⟨⟨proto, transport, tx, ctrl, client⟩, reading⟩ := h
  refine ⟨?_, ⟨?_, .inl ⟨?_, ?_⟩⟩, ?_, ?_⟩
  · intro _ name
    rw [client]
    rfl
  · rw [client]
    exact .nil
  · rw [client]
    rfl
  · rw [client]
    simp [Client.joined, Client.moves]
  · intro _
    rw [client]
    rfl
  · intro ended
    rw [reading] at ended
    cases ended

/-- As long as no step is hasty, Joins and Leaves take turns, and a connection that ended
has left what it joined. -/
theorem joins_and_leaves_alternate {node : Node} {channel : String} {c : Connection}
    (run : Reachable Accepted
      (guarded (Step node) fun c event => ¬ Hasty node channel c event) c) :
    Alternates (c.session.client.moves channel) ∧
      (c.phase = .ended → (c.session.client.moves channel).getLast? ≠ some .join) := by
  have inOrder : InOrder channel c := by
    refine run.invariant _ (fun _ => InOrder.of_accepted) ?_
    intro c event c' h move
    exact h.step move.1 move.2
  refine ⟨inOrder.orderly.alternates, ?_⟩
  intro ended
  exact (inOrder.orderly.outside (inOrder.outside ended)).2

end Connection

/-! ## A connection to one channel -/

namespace Sample

/-- Every client is user 42, and connects to the channel `news`. -/
def newsCreds : Session.Creds := { user := "42", channels := ["news"] }

def newsNode : Node :=
  { node with
    namespaces := { default := { joinLeave := true } }
    proxies := { connect := some fun _ _ => some (.credentials newsCreds) }
    decoders := { decoders with channel := fun _ _ => some ⟨"news"⟩ } }

def accepted : Connection where
  session := ⟨{ proto := .protobuf, tx := 0 },
    { world with queues := (∅ : Map QueueId Queue).insert 0 {} }⟩
  phase := .reading

theorem accepted_accepted : accepted.Accepted := ⟨⟨_, _, _, _, rfl⟩, rfl⟩

/-- The connection after some events. -/
def visit (events : List Event) : Connection :=
  (events.foldlM (fun c : Connection => c.step newsNode) accepted).getD accepted

def command : Event := .command (readings noon)

end Sample

namespace Connection

open Sample

/-- The channels of the CONNECT are distinct. -/
theorem careful_connect :
    ¬ Hasty newsNode "news" (visit [.frame (some [connect])]) command := by
  intro hasty
  cases hasty with
  | twice req creds phase method parsed checked below joinLeave repeated =>
      cases phase
      cases parsed
      cases checked
      exact absurd repeated (by decide)
  | overtaken phase method checked waiting =>
      cases phase
      cases method

/-- The reply to the CONNECT can be sent. -/
theorem careful_reply :
    ¬ Hasty newsNode "news" (visit [.frame (some [connect]), command, command]) .reply := by
  intro hasty
  cases hasty with
  | unsent phase lost waiting =>
      cases phase
      exact absurd lost (by decide +kernel)

/-- A client that connects and hangs up. -/
theorem joins_and_leaves_alternate_visit :
    let c := visit [.frame (some [connect]), command, command, .reply, .flush, .hangUp, .leave]
    Alternates (c.session.client.moves "news") ∧
      (c.phase = .ended → (c.session.client.moves "news").getLast? ≠ some .join) := by
  intro c
  have run : Steps (guarded (Step newsNode) fun c event => ¬ Hasty newsNode "news" c event)
      accepted [.frame (some [connect]), command, command, .reply, .flush, .hangUp, .leave] c := by
    refine .cons (m := visit [.frame (some [connect])]) ⟨nofun, rfl⟩ ?_
    refine .cons ⟨careful_connect, rfl⟩ ?_
    refine .cons (m := visit [.frame (some [connect]), command, command]) ⟨?_, rfl⟩ ?_
    · rintro (⟨_, _, ⟨⟩⟩ | ⟨⟨⟩⟩)
    refine .cons ⟨careful_reply, rfl⟩ ?_
    refine .cons ⟨nofun, rfl⟩ (.cons ⟨nofun, rfl⟩ (.cons ⟨nofun, rfl⟩ ?_))
    exact .nil c
  exact joins_and_leaves_alternate (run.reachable (.start accepted_accepted))

/-- A client that leaves `news` in the frame in which it connects. -/
theorem not_joins_and_leaves_alternate_overtaken :
    ¬ ∀ (node : Node) (channel : String) (c : Connection), Reachable Accepted (Step node) c →
      Alternates (c.session.client.moves channel) ∧
        (c.phase = .ended → (c.session.client.moves channel).getLast? ≠ some .join) := by
  intro all
  have run : Steps (Step newsNode) accepted
      [.frame (some [connect, ⟨2, .unsubscribe, some ⟨[10, 4, 110, 101, 119, 115]⟩⟩]),
        command, command, command, .reply, .flush] _ :=
    .of_foldlM (fun _ _ _ move => move) rfl
  obtain ⟨⟨-, first⟩, -⟩ := all newsNode "news" _ (run.reachable (.start accepted_accepted))
  exact first rfl

end Connection

end Centrifugo
