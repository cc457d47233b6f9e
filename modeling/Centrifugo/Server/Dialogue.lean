import Centrifugo.Server.Answers
import Centrifugo.Server.Push
import Centrifugo.Server.Unsubscribe

/-!
# The dialogue with a client

A client tells replies from pushes by their ids. Every reply frame in a queue has ids only, every
push frame has none, and the replies to a frame answer its commands one by one.

`Conversing` is the invariant. It says what the sessions have still to put into their queues, and
what the queues hold.
-/

namespace Centrifugo

open Server Codec

/-! ## Frames of replies and of pushes -/

/-- A reply frame has replies with ids, and a push frame is one reply without an id. -/
def Sent.Tagged (proto : ProtocolType) : Sent → Prop
  | .replies batch => batch ≠ [] ∧ ∀ reply ∈ batch, reply.id ≠ 0
  | push => ∃ frame, push.pushFrame proto = some frame ∧
      (frame.length < 2 ^ 64 → ∃ result, decodeReplies proto frame = some [⟨0, none, result⟩])

/-- A push that can be encoded. -/
theorem Sent.tagged_of_encodable {proto : ProtocolType} {push : Sent}
    (other : ∀ batch, push ≠ .replies batch) (encodable : push.encodable proto) :
    push.Tagged proto := by
  have whole : ∀ {channel type json pb},
      (proto = .protobuf ∨ (makePushFrame channel type json).isSome) →
      ∃ frame, makePushFrameIn proto channel type json pb = some frame ∧
        (frame.length < 2 ^ 64 →
          ∃ result, decodeReplies proto frame = some [⟨0, none, result⟩]) := by
    intro channel type json pb able
    obtain ⟨frame, framed⟩ : ∃ frame, makePushFrameIn proto channel type json pb = some frame := by
      cases proto with
      | json => exact Option.isSome_iff_exists.mp (able.resolve_left nofun)
      | protobuf => exact ⟨_, rfl⟩
    exact ⟨frame, framed, decodeReplies_makePushFrameIn framed⟩
  cases push with
  | replies batch => exact absurd rfl (other batch)
  | _ =>
      apply whole
      simpa [Sent.encodable] using encodable

/-! ## What sessions put into queues -/

def Access.puts : Access → Bool
  | .put _ _ => true
  | _ => false

theorem Access.puts_more {node : Node} {a b : Access} {s : Shared} (h : b ∈ a.more node s) :
    b.puts = false := by
  cases follows_of_mem h <;> rfl

namespace Client

variable (client : Client) (channel : String) (state : SubState)

theorem puts_subscribing : (client.subscribing channel state).any Access.puts = false := by
  unfold subscribing
  split <;> rfl

theorem puts_leaving : (client.leaving channel state).any Access.puts = false := by
  unfold leaving
  split <;> split <;> rfl

theorem puts_unsubscribing : (client.unsubscribing channel).2.any Access.puts = false := by
  unfold unsubscribing
  split
  · rfl
  · rw [List.any_append, puts_leaving]
    rfl

theorem puts_disconnecting : client.disconnecting.2.any Access.puts = false := by
  simp only [disconnecting, List.any_append, List.any_flatMap, puts_leaving]
  simp [Access.puts]

theorem puts_refreshing : client.refreshing.any Access.puts = false := by
  unfold refreshing
  split
  · simp [Access.puts]
  · rfl

theorem puts_flushing : client.flushing.2.any Access.puts = false := by
  simp [flushing, Access.puts]

end Client

/-- What the operation puts into a queue goes to the client of its session: an Unsub push that
can be encoded, or a close after the loop. -/
def Op.Sends (r : Reader) : Op → Prop
  | .access (.put tx (.close _)) => tx = r.client.tx ∧ r.phase = .leaving
  | .access (.put tx (.frame push)) =>
      tx = r.client.tx ∧ (∃ channel, push = .unsub channel) ∧ push.encodable r.client.proto
  | _ => True

def Job.Sends (job : Job) : Prop := ∀ op ∈ job.work, op.Sends job.reader

namespace Op

variable {node : Node} {op : Op} {r r' : Reader} {s s' : Shared} {more : List Op}

theorem sends_map {accesses : List Access} (nothing : accesses.any Access.puts = false) :
    ∀ op ∈ accesses.map access, op.Sends r := by
  intro op mem
  obtain ⟨a, inside, rfl⟩ := List.mem_map.mp mem
  have free : ¬ a.puts := List.any_eq_false.mp nothing a inside
  cases a with
  | put tx item => exact absurd rfl free
  | _ => trivial

theorem sends_append {front back : List Op} (h : ∀ op ∈ front, op.Sends r)
    (h' : ∀ op ∈ back, op.Sends r) : ∀ op ∈ front ++ back, op.Sends r := by
  intro op mem
  exact (List.mem_append.mp mem).elim (h op) (h' op)

theorem sends_single (h : op.Sends r) : ∀ other ∈ [op], other.Sends r := by
  intro other mem
  rw [List.mem_singleton.mp mem]
  exact h

theorem Sends.follows (h : op.Sends r) (follows : r.client.Follows r'.client)
    (phase : r.phase = .leaving → r'.phase = .leaving) : op.Sends r' := by
  unfold Sends at h ⊢
  split
  · exact ⟨h.1.trans follows.tx.symm, phase h.2⟩
  · exact ⟨h.1.trans follows.tx.symm, h.2.1, follows.proto ▸ h.2.2⟩
  · trivial

/-- What follows from an operation. -/
theorem sends_more (ran : op.exec node (r, s) = some ((r', s'), more)) :
    ∀ next ∈ more, next.Sends r' := by
  by_cases dropping : ∃ channel, op = .serverUnsubscribe channel
  · obtain ⟨channel, rfl⟩ := dropping
    simp only [exec] at ran
    split at ran
    next =>
      cases ran
      simp
    next =>
      cases ran
      rw [List.map_append]
      apply sends_append (sends_map (r.client.puts_unsubscribing channel))
      split
      next able => exact sends_single ⟨rfl, ⟨channel, rfl⟩, able⟩
      next => simp
  · cases exec_ran ran with
    | accessed performed =>
        obtain ⟨_, rfl⟩ := Access.exec_eq performed
        apply sends_map
        rw [List.any_eq_false]
        intro b mem
        simp [Access.puts_more mem]
    | joining _ _ _ _ _ channel _ =>
        exact sends_append (sends_map (r.client.puts_subscribing channel _)) (sends_single trivial)
    | registering _ _ _ _ _ =>
        intro next mem
        simp only [List.mem_cons, List.not_mem_nil, or_false] at mem
        obtain rfl | rfl | rfl := mem <;> trivial
    | reported _ _ _ _ _ _ _ _ _ => exact sends_single trivial
    | absent channel _ => exact absurd ⟨channel, rfl⟩ dropping
    | unsubscribed channel _ _ _ => exact absurd ⟨channel, rfl⟩ dropping
    | _ => simp

end Op

namespace Job.Sends

variable {node : Node} {r r' : Reader} {s s' : Shared}

theorem exec {op : Op} {rest more : List Op} (h : Job.Sends ⟨r, op :: rest⟩)
    (ran : op.exec node (r, s) = some ((r', s'), more)) : Job.Sends ⟨r', more ++ rest⟩ := by
  apply Op.sends_append (Op.sends_more ran)
  intro next mem
  have ran := Op.exec_ran ran
  apply (h next (List.mem_cons_of_mem _ mem)).follows ran.client.2
  intro leaving
  exact (ran.phase_outside (by rw [leaving]; rfl)).trans leaving

theorem begin {event : Event} {ops : List Op}
    (begun : r.begin s node event = some ((r', s'), ops)) : Job.Sends ⟨r', ops⟩ := by
  unfold Job.Sends
  cases Reader.begin_begun begun with
  | closing _ _ _ disconnect => exact Op.sends_single ⟨rfl, rfl⟩
  | pinged _ => exact Op.sends_map r.client.puts_refreshing
  | dropping _ channels _ =>
      intro op mem
      obtain ⟨channel, _, rfl⟩ := List.mem_map.mp mem
      trivial
  | command readings cmd cmds replies _ commanded =>
      cases commanded with
      | connecting _ _ _ _ => exact Op.sends_single trivial
      | subscribing req opts grant _ _ =>
          exact Op.sends_append (Op.sends_map (r.client.puts_subscribing _ _))
            (Op.sends_single trivial)
      | publishing channel data _ _ =>
          intro op mem
          simp only [List.mem_cons, List.not_mem_nil, or_false] at mem
          obtain rfl | rfl := mem <;> trivial
      | unsubscribing channel _ =>
          exact Op.sends_append (Op.sends_map (r.client.puts_unsubscribing channel))
            (Op.sends_single trivial)
      | _ => simp
  | flushed disconnect phase phase' =>
      apply Op.sends_append (Op.sends_map r.client.puts_flushing)
      cases disconnect with
      | none => simp
      | some disconnect =>
          have leaving : Phase.leaving = phase' := by
            simp only [Reader.begin, phase, Reader.close, Option.some.injEq, Prod.mk.injEq,
              Reader.mk.injEq] at begun
            exact begun.1.1.2.1
          exact Op.sends_single ⟨rfl, leaving.symm⟩
  | left _ => exact Op.sends_map r.client.puts_disconnecting
  | _ => simp

end Job.Sends

/-! ## What is new in a queue -/

namespace World

variable {world : World} {tx other : QueueId} {item new : Out Sent} {queue' : Queue}

theorem mem_send (found : (world.send tx new).queues.lookup other = some queue')
    (mem : item ∈ queue'.items) :
    (∃ queue, world.queues.lookup other = some queue ∧ item ∈ queue.items) ∨
      other = tx ∧ item = new := by
  obtain ⟨queue, found', rfl | ⟨same, items⟩⟩ := lookup_send found
  · exact .inl ⟨_, found', mem⟩
  · rw [items] at mem
    obtain old | now := List.mem_append.mp mem
    · exact .inl ⟨queue, found', old⟩
    · exact .inr ⟨same, List.mem_singleton.mp now⟩

end World

/-- What a turn adds to a queue. -/
inductive Enqueued (node : Node) (s : Server) : QueueId → Out Sent → Prop
  | replies {i : Nat} {r : Reader} {replies : List (Reply Result)} {disconnect : Option Disconnect}
      (found : s.jobs[i]? = some ⟨r, []⟩) (phase : r.phase = .replying replies disconnect)
      (some : replies ≠ []) : Enqueued node s r.client.tx (.frame (.replies replies))
  | put {tx : QueueId} {item : Out Sent} (pending : .put tx item ∈ s.pending) :
      Enqueued node s tx item
  | offered {n : Nat} {push : Sent} {handle : ClientHandle}
      (pending : .offer n push handle ∈ s.pending) (encodable : push.encodable handle.proto) :
      Enqueued node s handle.tx (.frame push)
  | slow (tx : QueueId) : Enqueued node s tx (.close .slow)

/-- The item is in the queue. -/
def Server.Carries (s : Server) (tx : QueueId) (item : Out Sent) : Prop :=
  ∃ queue, s.shared.world.queues.lookup tx = some queue ∧ item ∈ queue.items

theorem Enqueued.of_access {node : Node} {s : Server} {a : Access} {tx : QueueId}
    {item : Out Sent} {queue' : Queue} (pending : a ∈ s.pending)
    (found : (a.perform node s.shared).world.queues.lookup tx = some queue')
    (mem : item ∈ queue'.items) : s.Carries tx item ∨ Enqueued node s tx item := by
  cases a with
  | offer n push handle =>
      have found : ((Access.offer n push handle).world node s.shared.world).queues.lookup tx =
          some queue' := found
      rw [World.offered_eq] at found
      split at found
      next placed =>
        refine (World.mem_send found mem).imp_right fun new => ?_
        obtain ⟨rfl, rfl⟩ := new
        exact .offered pending (World.delivery_eq_placed.mp placed).1
      next => exact .inl ⟨queue', found, mem⟩
  | put other new =>
      have found : (s.shared.world.send other new).queues.lookup tx = some queue' := found
      refine (World.mem_send found mem).imp_right fun new => ?_
      obtain ⟨rfl, rfl⟩ := new
      exact .put pending
  | _ => exact .inl ⟨queue', found, mem⟩

theorem Server.Step.enqueued {node : Node} {s s' : Server} {turn : Turn} {tx : QueueId}
    {item : Out Sent} {queue' : Queue} (move : Server.Step node s turn s')
    (found : s'.shared.world.queues.lookup tx = some queue') (mem : item ∈ queue'.items) :
    s.Carries tx item ∨ Enqueued node s tx item := by
  cases move.moved with
  | accepted proto transport =>
      simp only [Server.onAccept, Map.lookup_insert_eq] at found
      split at found
      next =>
        cases found
        cases mem
      next => exact .inl ⟨queue', found, mem⟩
  | began there _ prepared begun =>
      have same := (Reader.prepare_quiet prepared).2
      rw [Server.Carries, ← same]
      cases Reader.begin_begun begun with
      | command readings cmd cmds replies _ commanded =>
          cases commanded with
          | instant after _ method effect =>
              have reads := (effect.reads method).queues
              exact .inl ⟨queue', reads ▸ found, mem⟩
          | _ => exact .inl ⟨queue', found, mem⟩
      | replied replies disconnect phase _ =>
          simp only [Reader.begin, phase] at begun
          obtain ⟨_, _, unsent, _⟩ | ⟨_, phase⟩ | ⟨_, _, unsent, _⟩ | ⟨some, _⟩ :=
            Reader.onReply_cases begun
          · exact .inl ⟨queue', by rw [← unsent]; exact found, mem⟩
          · cases phase
          · exact .inl ⟨queue', by rw [← unsent]; exact found, mem⟩
          · refine (World.mem_send found mem).imp_right fun new => ?_
            obtain ⟨rfl, rfl⟩ := new
            exact .replies there phase some
      | _ => exact .inl ⟨queue', found, mem⟩
  | @worked _ _ _ op _ _ _ there ran =>
      cases kind : op.access? with
      | none =>
          obtain ⟨reads, _, _⟩ := (Op.exec_ran ran).reads kind
          exact .inl ⟨queue', reads.queues ▸ found, mem⟩
      | some a =>
          cases Op.exec_ran ran with
          | accessed performed =>
              obtain ⟨rfl, _⟩ := Access.exec_eq performed
              have pending := Seated.mem_pending.mpr (.inl ⟨_, _, there, List.mem_cons_self⟩)
              exact Enqueued.of_access pending found mem
          | _ => cases kind
  | advanced there ran =>
      obtain ⟨rfl, _⟩ := Access.exec_eq ran
      have pending := Seated.mem_pending.mpr
        (.inr ⟨_, List.mem_of_getElem? there, List.mem_cons_self⟩)
      exact Enqueued.of_access pending found mem
  | drained other =>
      simp only [World.drain, Map.lookup_alter] at found
      split at found
      next same =>
        obtain ⟨before, found', rfl⟩ := Option.map_eq_some_iff.mp found
        exact .inl ⟨before, same ▸ found', List.mem_of_mem_tail mem⟩
      next => exact .inl ⟨queue', found, mem⟩
  | released other =>
      simp only [World.release, Map.lookup_alter] at found
      split at found
      next same =>
        obtain ⟨before, found', rfl⟩ := Option.map_eq_some_iff.mp found
        exact .inl ⟨before, same ▸ found', mem⟩
      next => exact .inl ⟨queue', found, mem⟩
  | slowClosed _ _ =>
      refine (World.mem_send found mem).imp_right fun new => ?_
      obtain ⟨rfl, rfl⟩ := new
      exact .slow _
  | _ => exact .inl ⟨queue', found, mem⟩

/-! ## The dialogue of a node -/

/-- Every frame in a queue is tagged. -/
def Server.Tagged (s : Server) : Prop :=
  ∀ {i sent}, s.Carries i (.frame sent) →
    ∃ job, s.jobs[i]? = some job ∧ sent.Tagged job.reader.client.proto

/-- What the sessions say is an answer to what they were asked. -/
structure Conversing (node : Node) (s : Server) : Prop where
  serving : ∀ {i : Nat} {job : Job}, s.jobs[i]? = some job → ∃ cmds, Serving node cmds job
  sends : ∀ {i : Nat} {job : Job}, s.jobs[i]? = some job → job.Sends
  tasks : ∀ task ∈ s.tasks, ∀ a ∈ task, a.puts = false
  tagged : s.Tagged

theorem Serving.replied {node : Node} {cmds : List Command} {r : Reader}
    {replies : List (Reply Result)} {disconnect : Option Disconnect}
    (h : Serving node cmds ⟨r, []⟩) (phase : r.phase = .replying replies disconnect) :
    ∃ done left, cmds = done ++ left ∧ Replied r.client.proto done replies ∧
      Stops node left disconnect := by
  cases h with
  | between batch _ _ =>
      rw [phase] at batch
      cases batch
  | handling _ _ _ _ _ _ same => simp at same
  | replying same all replied stops =>
      rw [phase] at same
      cases same
      exact ⟨_, _, all, replied, stops⟩
  | outside outside =>
      rw [phase] at outside
      cases outside

namespace Conversing

variable {node : Node} {s s' : Server} {turn : Turn}

theorem tasks_step (h : Conversing node s) (move : Server.Step node s turn s') :
    ∀ task ∈ s'.tasks, ∀ a ∈ task, a.puts = false := by
  intro task mem a inside
  cases move.moved with
  | @spawned b external =>
      obtain old | new := List.mem_append.mp mem
      · exact h.tasks task old a inside
      · rw [List.mem_singleton.mp new, List.mem_singleton] at inside
        subst inside
        cases a <;> first | rfl | cases external
  | advanced found ran =>
      obtain ⟨_, rfl⟩ := Access.exec_eq ran
      obtain rfl | old := mem_of_set mem
      · obtain next | rest := List.mem_append.mp inside
        · exact Access.puts_more next
        · exact h.tasks _ (List.mem_of_getElem? found) a (List.mem_cons_of_mem _ rest)
      · exact h.tasks task old a inside
  | _ => exact h.tasks task mem a inside

theorem enqueued (h : Conversing node s) (registry : Registry s) (offered : Offered node s)
    {i : QueueId} {sent : Sent} (new : Enqueued node s i (.frame sent)) :
    ∃ job, s.jobs[i]? = some job ∧ sent.Tagged job.reader.client.proto := by
  generalize item : Out.frame sent = out at new
  cases new with
  | @replies i r replies disconnect found phase some =>
      cases item
      obtain ⟨cmds, serving⟩ := h.serving found
      obtain ⟨done, left, _, replied, _⟩ := serving.replied phase
      have place : r.client.tx = i := (registry.seated.seat found).tx
      exact ⟨_, place ▸ found, some, replied.tagged⟩
  | put pending =>
      cases item
      obtain ⟨j, job, found, work⟩ | ⟨task, there, inside⟩ := Seated.mem_pending.mp pending
      · obtain ⟨rfl, ⟨channel, rfl⟩, encodable⟩ := h.sends found _ work
        rw [(registry.seated.seat found).tx]
        exact ⟨job, found, Sent.tagged_of_encodable nofun encodable⟩
      · cases h.tasks task there _ inside
  | @offered n push handle pending encodable =>
      cases item
      obtain ⟨job, found, _, _, proto, _⟩ := registry.pending _ pending
      obtain ⟨message, _, _, _, rfl⟩ := offered.pending pending
      refine ⟨job, found, Sent.tagged_of_encodable ?_ (proto ▸ encodable)⟩
      intro batch same
      have plain := message.push_toPush node.useSeqGen
      rw [same] at plain
      cases plain
  | slow tx => cases item

theorem step (h : Conversing node s) (registry : Registry s) (offered : Offered node s)
    (move : Server.Step node s turn s') : Conversing node s' := by
  refine ⟨fun found => ?_, fun found => ?_, h.tasks_step move, fun holds => ?_⟩
  · refine move.each h.serving (fun _ => ⟨[], .outside rfl⟩) ?_ ?_ found
    · intro r r' shared shared' event ops here begun
      obtain ⟨cmds, serving⟩ := here
      obtain same | ⟨next, _, other⟩ := serving.begin begun
      · exact ⟨cmds, same⟩
      · exact ⟨next, other⟩
    · intro r r' shared shared' op rest more here ran
      obtain ⟨cmds, serving⟩ := here
      exact ⟨cmds, serving.exec ran⟩
  · refine move.each h.sends (fun _ => ?_) (fun _ begun => .begin begun)
      (fun here ran => here.exec ran) found
    simp [Job.Sends]
  · obtain ⟨queue, found, mem⟩ := holds
    obtain ⟨job, there, tagged⟩ := (move.enqueued found mem).elim h.tagged
      (h.enqueued registry offered)
    obtain ⟨job', found', follows⟩ := move.follows there
    exact ⟨job', found', follows.proto ▸ tagged⟩

theorem initial (h : s.Initial) : Conversing node s := by
  obtain ⟨hash, ttl, verifier, rfl⟩ := h
  refine ⟨by simp, by simp, by simp, fun holds => ?_⟩
  obtain ⟨queue, found, _⟩ := holds
  cases found

theorem of_reached (h : Server.Reached node s) : Conversing node s := by
  have all : Registry s ∧ Offered node s ∧ Conversing node s :=
    h.invariant (fun s => Registry s ∧ Offered node s ∧ Conversing node s)
      (fun _ start => ⟨.initial start, .initial start, initial start⟩)
      fun _ _ _ ⟨registry, offered, conversing⟩ move =>
        ⟨registry.step move, offered.step registry move, conversing.step registry offered move⟩
  exact all.2.2

end Conversing

/-! ## Runs of a session -/

/-- A session goes on with a frame until it takes the next one. -/
theorem Serving.step {node : Node} {s s' : Server} {turn : Turn} {i : Nat} {cmds : List Command}
    (h : ∃ job, s.jobs[i]? = some job ∧ Serving node cmds job)
    (other : ∀ next, turn ≠ .event i (.frame next)) (move : Server.Step node s turn s') :
    ∃ job, s'.jobs[i]? = some job ∧ Serving node cmds job := by
  obtain ⟨job, found, serving⟩ := h
  obtain ⟨job', found', _⟩ := move.follows found
  refine ⟨job', found', ?_⟩
  cases move.became found' with
  | accepted _ _ last =>
      rw [last, List.getElem?_eq_none (le_refl _)] at found
      cases found
  | began there _ begun =>
      rw [found] at there
      cases there
      obtain same | ⟨next, rfl, _⟩ := serving.begin begun
      · exact same
      · exact absurd rfl (other _)
  | worked there ran =>
      rw [found] at there
      cases there
      exact serving.exec ran
  | stayed there =>
      rw [found] at there
      cases there
      exact serving

/-- On its way out, a session takes no frames and handles no commands. -/
theorem Reader.event_of_closing {node : Node} {r r' : Reader} {s s' : Shared} {event : Event}
    {ops : List Op} (h : r.begin s node event = some ((r', s'), ops))
    (closing : r.phase.closing) : event = .reply ∨ event = .flush ∨ event = .leave := by
  unfold Reader.begin at h
  cases phase : r.phase with
  | reading =>
      rw [phase] at closing
      cases closing
  | batch cmds replies =>
      rw [phase] at closing
      cases closing
  | _ =>
      rw [phase] at h
      cases event with
      | reply => exact .inl rfl
      | flush => exact .inr (.inl rfl)
      | leave => exact .inr (.inr rfl)
      | _ => cases h

theorem World.send_of_hasRoom {world : World} {tx : QueueId} (room : world.hasRoom tx)
    (item : Out Sent) : ∃ queue, world.queues.lookup tx = some queue ∧
      (world.send tx item).queues.lookup tx =
        some { queue with items := queue.items ++ [item] } := by
  obtain ⟨queue, found, able⟩ := (Option.any_eq_true _ _).mp room
  have opened : queue.closed = false := by
    unfold Queue.hasRoom at able
    simp_all
  refine ⟨queue, found, ?_⟩
  simp [World.send, found, opened]

/-- The session waits for its next event in this phase. -/
def Server.Rests (s : Server) (i : Nat) (phase : Phase) : Prop :=
  ∃ reader, s.jobs[i]? = some ⟨reader, []⟩ ∧ reader.phase = phase

/-- What a session does with the replies to a frame. -/
inductive Delivered (i : Nat) (replies : List (Reply Result)) (disconnect : Option Disconnect)
    (s s' : Server) : Prop
  /-- Without replies there is no frame. -/
  | nothing (none : replies = []) (same : s'.shared = s.shared)
      (next : s'.Rests i (.flushing disconnect))
  | queued {queue : Queue} (found : s.shared.world.queues.lookup i = some queue)
      (placed : s'.shared.world.queues.lookup i =
        some { queue with items := queue.items ++ [.frame (.replies replies)] })
      (next : s'.Rests i (.flushing disconnect))
  /-- The queue is gone, and the session leaves its loop. -/
  | lost (gone : s.shared.world.gone i) (same : s'.shared = s.shared) (next : s'.Rests i .leaving)

/-- The session sends the replies to the commands of a frame, up to the one that stops it. -/
inductive Answered (node : Node) (i : Nat) (cmds : List Command) (s s' : Server) : Prop
  | intro {reader : Reader} {done left : List Command} {replies : List (Reply Result)}
      {disconnect : Option Disconnect} (found : s.jobs[i]? = some ⟨reader, []⟩)
      (phase : reader.phase = .replying replies disconnect) (all : cmds = done ++ left)
      (replied : Replied reader.client.proto done replies) (stops : Stops node left disconnect)
      (delivered : Delivered i replies disconnect s s')

theorem Serving.answered {node : Node} {s s' : Server} {i : Nat} {cmds : List Command}
    (h : ∃ job, s.jobs[i]? = some job ∧ Serving node cmds job) (seated : Seated s)
    (move : Server.Step node s (.event i .reply) s') : Answered node i cmds s s' := by
  obtain ⟨job, found, serving⟩ := h
  cases move.moved with
  | @began _ _ reader reader' shared shared' ops ids there _ prepared begun =>
      rw [found] at there
      cases there
      cases prepared
      have place : reader.client.tx = i := (seated.seat found).tx
      have rests : ∀ {phase}, reader'.phase = phase → ops = [] →
          Server.Rests { s with shared := shared', jobs := s.jobs.set i ⟨reader', ops⟩, ids := ids }
            i phase := by
        intro phase same none
        subst none
        exact ⟨reader', List.getElem?_set_self (List.getElem?_eq_some_iff.mp found).1, same⟩
      simp only [Reader.begin] at begun
      split at begun
      next replies disconnect phase =>
        obtain ⟨done, left, all, replied, stops⟩ := serving.replied phase
        refine .intro found phase all replied stops ?_
        obtain ⟨none, rfl, rfl, rfl⟩ | ⟨garbled, _⟩ | ⟨gone, rfl, rfl, rfl⟩ |
          ⟨_, room, rfl, rfl, rfl⟩ :=
          Reader.onReply_cases begun
        · exact .nothing none rfl (rests rfl rfl)
        · rw [replied.encodable] at garbled
          cases garbled
        · exact .lost (place ▸ gone) rfl (rests rfl rfl)
        · obtain ⟨queue, before, after⟩ := World.send_of_hasRoom room (.frame (.replies replies))
          rw [place] at before after
          exact .queued before (place ▸ after) (rests rfl rfl)
      next => cases begun

/-! ## Commands and replies -/

/-- What clients and sessions say to each other, from a state of the node on. -/
structure Dialogue (node : Node) (s : Server) : Prop where
  tagged : s.Tagged
  /-- A session that takes a frame sends the replies to it before it takes another one. -/
  answered : ∀ {i cmds s₁ turns s₂ s₃}, Server.Step node s (.event i (.frame (some cmds))) s₁ →
    Steps (guarded (Server.Step node) fun _ turn => ∀ next, turn ≠ .event i (.frame next))
      s₁ turns s₂ →
    Server.Step node s₂ (.event i .reply) s₃ → Answered node i cmds s₂ s₃
  /-- A session queues a close only after its loop, so that the replies are before it. -/
  closes : ∀ {i : Nat} {job : Job} {tx disconnect}, s.jobs[i]? = some job →
    .access (.put tx (.close disconnect)) ∈ job.work → tx = i ∧ job.reader.phase = .leaving
  /-- After a command that closes the connection, no command is handled. -/
  last : ∀ {i turns s₁ event s₂}, s.Closing i → Steps (Server.Step node) s turns s₁ →
    Server.Step node s₁ (.event i event) s₂ → event = .reply ∨ event = .flush ∨ event = .leave

theorem commands_answered {node : Node} {s : Server} (reached : Server.Reached node s) :
    Dialogue node s := by
  have conversing := Conversing.of_reached reached
  refine ⟨conversing.tagged, ?_, ?_, ?_⟩
  · intro i cmds s₁ turns s₂ s₃ taken run reply
    have start : ∃ job, s₁.jobs[i]? = some job ∧ Serving node cmds job := by
      cases taken.moved with
      | began there _ _ begun =>
          have inside := (List.getElem?_eq_some_iff.mp there).1
          exact ⟨_, List.getElem?_set_self inside, .framed begun⟩
    have serving := run.invariant
      (fun k => Server.Reached node k ∧ ∃ job, k.jobs[i]? = some job ∧ Serving node cmds job)
      (fun _ _ _ here move => ⟨.next here.1 move.2, Serving.step here.2 move.1 move.2⟩)
      ⟨.next reached taken, start⟩
    exact Serving.answered serving.2 (Registry.of_reached serving.1).seated reply
  · intro i job tx disconnect found work
    obtain ⟨same, leaving⟩ := conversing.sends found _ work
    have seat := (Registry.of_reached reached).seated.seat found
    exact ⟨same.trans seat.tx, leaving⟩
  · intro i turns s₁ event s₂ closing run move
    have still : s₁.Closing i := run.invariant (fun k => k.Closing i)
      (fun _ _ _ here move => move.closing here) closing
    cases move.moved with
    | began there _ _ begun =>
        rw [Server.Closing, there] at still
        exact Reader.event_of_closing begun still

/-! ## A PING -/

namespace Sample

def ping : Command := ⟨2, .ping, none⟩

/-- A SEND, a PING and an RPC, then a PING without an id. -/
def chatter : List Command := [⟨0, .send, none⟩, ping, ⟨3, .rpc, none⟩, { ping with id := 0 }, ping]

/-- The reader sends a frame of commands. -/
def asked : List Turn := settledReader ++ [.event 0 (.frame (some chatter))]

def handled : List Turn := [.event 0 (commandAs "a1"), .event 0 (commandAs "a2"),
  .event 0 (commandAs "a3"), .event 0 (commandAs "a4")]

theorem handled_steps : Steps (guarded (Server.Step pressNode)
      fun _ turn => ∀ next, turn ≠ .event 0 (.frame next))
    (after pressNode asked) handled (after pressNode (asked ++ handled)) := by
  refine .cons (m := after pressNode (asked ++ handled.take 1)) ⟨nofun, rfl⟩ ?_
  refine .cons (m := after pressNode (asked ++ handled.take 2)) ⟨nofun, rfl⟩ ?_
  refine .cons (m := after pressNode (asked ++ handled.take 3)) ⟨nofun, rfl⟩ ?_
  exact .cons ⟨nofun, rfl⟩ (.nil _)

end Sample

open Sample

theorem commands_answered_chatter : Answered pressNode 0 chatter
    (after pressNode (asked ++ handled))
    (after pressNode (asked ++ handled ++ [.event 0 .reply])) := by
  have dialogue : Dialogue pressNode (after pressNode settledReader) :=
    commands_answered (after_reached (by decide +kernel))
  exact dialogue.answered rfl handled_steps rfl

/-- The reply to a PING has neither an error nor a result. -/
theorem not_commands_answered_ping :
    ¬ ∀ (node : Node) (s : Server) (i : Nat) (replies : List (Reply Result)),
      Server.Reached node s → s.Carries i (.frame (.replies replies)) →
      ∀ reply ∈ replies, reply.error.isSome ≠ reply.result.isSome := by
  intro all
  have holds : (after pressNode (asked ++ handled ++ [.event 0 .reply])).Carries 0
      (.frame (.replies [.bare 2, .err 3 .notAvailable])) := by
    refine ⟨{ items := _ }, rfl, ?_⟩
    decide +kernel
  exact all pressNode _ 0 _ (after_reached (by decide +kernel)) holds (.bare 2)
    List.mem_cons_self rfl

end Centrifugo
