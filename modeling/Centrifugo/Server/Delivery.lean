import Centrifugo.Server.Index

/-!
# Broadcasts

A broadcast copies the subscribers of its channel and offers its push to each of them. In the
log, the broadcast is the place of its copy, so that its offers can be counted: those that
are done, and those still to do.

`Offered` says that every copied subscriber is offered the push once, and `Queued` that a
queue holds what was placed in it and not taken yet.
-/

namespace Centrifugo

/-! ## The offers of a broadcast -/

def Access.offers (n : Nat) (handle : ClientHandle) : Access → Bool
  | .offer broadcast _ other => broadcast = n && other = handle
  | _ => false

def Fact.offers (n : Nat) (handle : ClientHandle) : Fact → Bool
  | .offered broadcast _ other _ => broadcast = n && other = handle
  | _ => false

/-- The offers of a broadcast to a connection, done or to do. -/
def Server.offers (s : Server) (n : Nat) (handle : ClientHandle) : Nat :=
  s.pending.countP (Access.offers n handle) + s.shared.log.countP (Fact.offers n handle)

/-- The broadcast with this number sends this push to the connection. -/
def Shared.Sends (node : Node) (s : Shared) (n : Nat) (push : Sent) (handle : ClientHandle) :
    Prop :=
  ∃ message handles, s.log[n]? = some (.copied message handles) ∧ handle ∈ handles ∧
    push = message.toPush node.useSeqGen

namespace Hub

/-- A copy names each subscriber once. -/
theorem nodup_subscribers {hub : Hub} (channel : String)
    (named : ∀ {id handle}, hub.conns.lookup id = some handle → handle.id = id) :
    (hub.subscribers channel).Nodup := by
  refine List.Nodup.filterMap ?_ (hub.subscriberIds channel).nodupKeys
  intro id other handle found found'
  rw [← named found, named found']

end Hub

namespace Access

variable {node : Node} {a b : Access} {s : Shared} {n : Nat} {handle : ClientHandle}

/-- Only a copy of subscribers leads to offers. -/
theorem offers_more (other : ∀ message, a ≠ .fanOut message) :
    (a.more node s).countP (offers n handle) = 0 := by
  rw [List.countP_eq_zero]
  intro b mem
  cases follows_of_mem mem with
  | offer _ => exact absurd rfl (other _)
  | _ => simp [offers]

/-- A copy leads to one offer to each subscriber, under its own number. -/
theorem offers_fanOut {message : NodeMessage}
    (distinct : (s.world.hub.subscribers message.channel).Nodup) :
    ((fanOut message).more node s).countP (offers n handle) =
      if n = s.log.length ∧ handle ∈ s.world.hub.subscribers message.channel then 1 else 0 := by
  rw [more, List.countP_map]
  split
  next here =>
    calc (s.world.hub.subscribers message.channel).countP
          (offers n handle ∘ .offer s.log.length (message.toPush node.useSeqGen))
        = (s.world.hub.subscribers message.channel).count handle := by
          refine List.countP_congr fun other _ => ?_
          simp [offers, here.1]
      _ = 1 := List.count_eq_one_of_mem distinct here.2
  next apart =>
    rw [List.countP_eq_zero]
    intro other mem mine
    simp only [Function.comp_apply, offers, Bool.and_eq_true, decide_eq_true_eq] at mine
    exact apart ⟨mine.1.symm, mine.2 ▸ mem⟩

/-- An offer leaves its fact, and no other access does. -/
theorem offers_facts : (a.facts s).countP (Fact.offers n handle) =
    if a.offers n handle then 1 else 0 := by
  cases a with
  | offer broadcast push other => simp [facts, offers, Fact.offers, List.countP_singleton]
  | control message => simp [facts, offers, Fact.offers, List.countP_eq_zero]
  | _ => rfl

theorem copied_of_facts {message : NodeMessage} {handles : List ClientHandle}
    (h : Fact.copied message handles ∈ a.facts s) : a = .fanOut message ∧
      a.facts s = [.copied message handles] ∧
        handles = s.world.hub.subscribers message.channel := by
  cases a with
  | fanOut other =>
      cases List.mem_singleton.mp h
      exact ⟨rfl, rfl, rfl⟩
  | control other => simp [facts] at h
  | _ => simp [facts] at h

end Access

namespace Server

variable {node : Node} {s s' : Server} {a : Access} {others new : List Access} {n : Nat}
  {handle : ClientHandle}

theorem offers_access (here : s.pending.Perm (a :: others))
    (shared : s'.shared = a.perform node s.shared)
    (there : s'.pending.Perm (a.more node s.shared ++ others)) :
    s'.offers n handle = s.offers n handle +
      (a.more node s.shared).countP (Access.offers n handle) := by
  rw [offers, offers, shared, Access.perform_log, there.countP_eq, here.countP_eq,
    List.countP_append, List.countP_append, List.countP_cons, Access.offers_facts]
  omega

theorem offers_registering {inserted : ClientHandle} {user : String} {id : ClientId}
    (shared : s'.shared = s.shared)
    (pending : s'.pending.Perm (.insertConn inserted :: .indexUser user id :: s.pending)) :
    s'.offers n handle = s.offers n handle := by
  rw [offers, offers, shared, pending.countP_eq, List.countP_cons_of_neg,
    List.countP_cons_of_neg] <;> simp [Access.offers]

/-- A task does not start with an offer. -/
theorem not_offer_of_starts (starts : ∀ a ∈ new, (∃ client, a.ofClient client) ∨ a.external)
    {push : Sent} : .offer n push handle ∉ new := by
  intro mem
  obtain ⟨client, own⟩ | external := starts _ mem
  · cases own
  · cases external

theorem offers_quiet (pending : s'.pending.Perm (new ++ s.pending))
    (starts : ∀ a ∈ new, (∃ client, a.ofClient client) ∨ a.external)
    (quiet : s.shared.Quiet s'.shared) : s'.offers n handle = s.offers n handle := by
  obtain ⟨facts, log, aside⟩ := quiet.log
  have silent : new.countP (Access.offers n handle) = 0 := by
    rw [List.countP_eq_zero]
    intro a mem mine
    cases a with
    | offer broadcast push other => exact not_offer_of_starts starts mem
    | _ => cases mine
  have silent' : facts.countP (Fact.offers n handle) = 0 := by
    rw [List.countP_eq_zero]
    intro fact mem mine
    have apart := aside fact mem
    cases fact with
    | offered _ _ _ _ => cases apart
    | _ => cases mine
  rw [offers, offers, log, pending.countP_eq, List.countP_append, List.countP_append, silent,
    silent']
  omega

end Server

/-- Every copied subscriber is offered the push of the broadcast once. -/
structure Offered (node : Node) (s : Server) : Prop where
  pending : ∀ {n push handle}, .offer n push handle ∈ s.pending → s.shared.Sends node n push handle
  logged : ∀ {n push handle delivery}, .offered n push handle delivery ∈ s.shared.log →
    s.shared.Sends node n push handle
  once : ∀ {n message handles handle}, s.shared.log[n]? = some (.copied message handles) →
    handle ∈ handles → s.offers n handle = 1

namespace Offered

variable {node : Node} {s s' : Server} {turn : Turn} {n : Nat} {handle : ClientHandle}

/-- A broadcast to come has no offers. -/
theorem fresh (h : Offered node s) : s.offers s.shared.log.length handle = 0 := by
  have beyond : ∀ push handle, ¬ s.shared.Sends node s.shared.log.length push handle := by
    intro push handle sends
    obtain ⟨message, handles, found, _⟩ := sends
    rw [List.getElem?_eq_none (le_refl _)] at found
    cases found
  rw [Server.offers, Nat.add_eq_zero_iff, List.countP_eq_zero, List.countP_eq_zero]
  constructor
  · intro a mem mine
    cases a with
    | offer broadcast push other =>
        simp only [Access.offers, Bool.and_eq_true, decide_eq_true_eq] at mine
        obtain ⟨rfl, rfl⟩ := mine
        exact beyond _ _ (h.pending mem)
    | _ => cases mine
  · intro fact mem mine
    cases fact with
    | offered broadcast push other delivery =>
        simp only [Fact.offers, Bool.and_eq_true, decide_eq_true_eq] at mine
        obtain ⟨rfl, rfl⟩ := mine
        exact beyond _ _ (h.logged mem)
    | _ => cases mine

theorem sends_append {s s' : Shared} {push : Sent} {facts : List Fact}
    (log : s'.log = s.log ++ facts) (h : s.Sends node n push handle) :
    s'.Sends node n push handle := by
  obtain ⟨message, handles, found, rest⟩ := h
  refine ⟨message, handles, ?_, rest⟩
  rw [log, List.getElem?_append_left (List.getElem?_eq_some_iff.mp found).1, found]

theorem step (h : Offered node s) (registry : Registry s) (move : Server.Step node s turn s') :
    Offered node s' := by
  cases move.outline registry.seated with
  | @access a others _ here place able shared there =>
      have log : s'.shared.log = s.shared.log ++ a.facts s.shared := by
        rw [shared, Access.perform_log]
      have before : ∀ {b}, b ∈ others → b ∈ s.pending := fun mem =>
        here.mem_iff.mpr (List.mem_cons_of_mem _ mem)
      have mem : a ∈ s.pending := here.mem_iff.mpr List.mem_cons_self
      refine ⟨?_, ?_, ?_⟩
      · intro n push handle mem'
        obtain next | old := List.mem_append.mp (there.mem_iff.mp mem')
        · cases Access.follows_of_mem next with
          | @offer message _ copied =>
              refine ⟨message, s.shared.world.hub.subscribers message.channel, ?_, copied, rfl⟩
              rw [log, List.getElem?_append_right (le_refl _), Nat.sub_self]
              rfl
        · exact sends_append log (h.pending (before old))
      · intro n push handle delivery mem'
        rw [log] at mem'
        obtain old | new := List.mem_append.mp mem'
        · exact sends_append log (h.logged old)
        · cases a with
          | offer broadcast push' other =>
              cases List.mem_singleton.mp new
              exact sends_append log (h.pending mem)
          | control message => simp [Access.facts] at new
          | _ => simp [Access.facts] at new
      · intro n message handles handle found copied
        have distinct : ∀ channel, (s.shared.world.hub.subscribers channel).Nodup := fun channel =>
          s.shared.world.hub.nodup_subscribers channel fun found => (registry.conns found).1
        rw [Server.offers_access here shared there]
        rw [log] at found
        by_cases inside : n < s.shared.log.length
        · -- An earlier copy: only its own offers carry its number.
          rw [List.getElem?_append_left inside] at found
          rw [h.once found copied]
          by_cases fanOut : ∃ message, a = .fanOut message
          · obtain ⟨message', rfl⟩ := fanOut
            rw [Access.offers_fanOut (distinct _), if_neg fun here => inside.ne here.1]
          · rw [Access.offers_more fun message' same => fanOut ⟨message', same⟩]
        · -- The copy that this access has just made.
          rw [List.getElem?_append_right (not_lt.mp inside)] at found
          obtain ⟨rfl, facts, rfl⟩ := Access.copied_of_facts (List.mem_of_getElem? found)
          have last : n = s.shared.log.length := by
            have bound := (List.getElem?_eq_some_iff.mp found).1
            rw [facts, List.length_singleton] at bound
            omega
          subst last
          rw [h.fresh, Access.offers_fanOut (distinct _), if_pos ⟨rfl, copied⟩]
  | registering _ _ _ _ _ shared pending =>
      refine ⟨?_, ?_, ?_⟩
      · intro n push handle mem
        rw [shared]
        exact h.pending (by simpa using pending.mem_iff.mp mem)
      · intro n push handle delivery mem
        rw [shared] at mem ⊢
        exact h.logged mem
      · intro n message handles handle found copied
        rw [Server.offers_registering shared pending]
        exact h.once (shared ▸ found) copied
  | @quiet new pending starts quiet =>
      obtain ⟨facts, log, aside⟩ := quiet.log
      refine ⟨?_, ?_, ?_⟩
      · intro n push handle mem
        refine sends_append log (h.pending ?_)
        exact (List.mem_append.mp (pending.mem_iff.mp mem)).resolve_left
          (Server.not_offer_of_starts starts)
      · intro n push handle delivery mem
        rw [log] at mem
        obtain old | new := List.mem_append.mp mem
        · exact sends_append log (h.logged old)
        · cases aside _ new
      · intro n message handles handle found copied
        rw [Server.offers_quiet pending starts quiet]
        rw [log] at found
        by_cases inside : n < s.shared.log.length
        · rw [List.getElem?_append_left inside] at found
          exact h.once found copied
        · rw [List.getElem?_append_right (not_lt.mp inside)] at found
          cases aside _ (List.mem_of_getElem? found)

theorem initial (h : s.Initial) : Offered node s := by
  obtain ⟨hash, ttl, verifier, rfl⟩ := h
  refine ⟨?_, ?_, ?_⟩
  · intro n push handle mem
    cases mem
  · intro n push handle delivery mem
    cases mem
  · intro n message handles handle found
    cases found

theorem of_reached (h : Server.Reached node s) : Offered node s := by
  have both : Registry s ∧ Offered node s :=
    h.invariant (fun s => Registry s ∧ Offered node s)
      (fun _ start => ⟨.initial start, initial start⟩)
      fun _ _ _ here move => ⟨here.1.step move, here.2.step here.1 move⟩
  exact both.2

end Offered

/-! ## What the queues hold -/

/-- The push that a fact places in a queue. -/
def Fact.placedTo (tx : QueueId) : Fact → Option Sent
  | .offered _ push handle .placed => if handle.tx = tx then some push else none
  | _ => none

def Queue.pushes (queue : Queue) : List Sent := queue.items.filterMap Out.push

theorem NodeMessage.push_toPush (message : NodeMessage) (useSeqGen : Bool) :
    (Out.frame (message.toPush useSeqGen)).push = some (message.toPush useSeqGen) := by
  cases message with
  | publication channel body =>
      simp only [toPush]
      split <;> rfl
  | _ => rfl

namespace World

variable {world : World} {tx other : QueueId} {item : Out Sent} {queue' : Queue}

/-- A send adds its item to one queue, or does nothing. -/
theorem lookup_send (h : (world.send tx item).queues.lookup other = some queue') :
    ∃ queue, world.queues.lookup other = some queue ∧
      (queue' = queue ∨ other = tx ∧ queue'.items = queue.items ++ [item]) := by
  unfold send at h
  split at h
  next => exact ⟨queue', h, .inl rfl⟩
  next queue found =>
    split at h
    next => exact ⟨queue', h, .inl rfl⟩
    next =>
      rw [Map.lookup_insert_eq] at h
      split at h
      next same =>
        cases h
        exact ⟨queue, same ▸ found, .inr ⟨same, rfl⟩⟩
      next => exact ⟨queue', h, .inl rfl⟩

/-- With room, it adds it. -/
theorem lookup_send_of_hasRoom (room : world.hasRoom tx)
    (h : (world.send tx item).queues.lookup tx = some queue') :
    ∃ queue, world.queues.lookup tx = some queue ∧ queue'.items = queue.items ++ [item] := by
  unfold send at h
  unfold hasRoom at room
  cases found : world.queues.lookup tx with
  | none => simp [found] at room
  | some queue =>
      have opened : queue.closed = false := by
        rw [found] at room
        simp_all [Queue.hasRoom]
      simp only [found, opened, Bool.false_eq_true, if_false, AList.lookup_insert] at h
      cases h
      exact ⟨queue, rfl, rfl⟩

theorem delivery_eq_placed {push : Sent} {handle : ClientHandle} :
    world.delivery push handle = .placed ↔
      push.encodable handle.proto ∧ world.hasRoom handle.tx := by
  unfold delivery
  by_cases encodable : push.encodable handle.proto <;>
    by_cases room : world.hasRoom handle.tx <;> simp [encodable, room]

/-- An offer that finds room is a send. -/
theorem trySend_eq (world : World) (tx : QueueId) (item : Out Sent) :
    world.trySend tx item = if world.hasRoom tx then some (world.send tx item) else none := by
  unfold trySend hasRoom send
  cases world.queues.lookup tx with
  | none => rfl
  | some queue =>
      rw [Option.any_some]
      by_cases room : queue.hasRoom
      · have opened : queue.closed = false := by
          unfold Queue.hasRoom at room
          simp_all
        simp [room, opened]
      · simp [room]

/-- An offer changes no queue unless it is placed. -/
theorem offered_eq (node : Node) (world : World) (n : Nat) (push : Sent) (handle : ClientHandle) :
    ((Access.offer n push handle).world node world).queues =
      if world.delivery push handle = .placed then (world.send handle.tx (.frame push)).queues
      else world.queues := by
  simp only [Access.world, delivery, trySend_eq]
  by_cases encodable : push.encodable handle.proto <;>
    by_cases room : world.hasRoom handle.tx <;> simp [encodable, room]

end World

/-- Of the pushes placed in a queue, it holds the last ones, in their order. -/
def Queued (s : Server) : Prop :=
  ∀ tx queue, s.shared.world.queues.lookup tx = some queue →
    queue.pushes <:+ s.shared.log.filterMap (Fact.placedTo tx)

namespace Queued

variable {node : Node} {s s' : Server} {turn : Turn}

/-- What is neither a placed offer nor an item with a push only takes from the queues. -/
theorem of_taken (h : Queued s) {shared : Shared}
    (log : ∀ tx, shared.log.filterMap (Fact.placedTo tx) =
      s.shared.log.filterMap (Fact.placedTo tx))
    (taken : ∀ {tx queue'}, shared.world.queues.lookup tx = some queue' →
      ∃ queue, s.shared.world.queues.lookup tx = some queue ∧ queue'.pushes <:+ queue.pushes)
    {tx : QueueId} {queue : Queue} (found : shared.world.queues.lookup tx = some queue) :
    queue.pushes <:+ shared.log.filterMap (Fact.placedTo tx) := by
  obtain ⟨before, found', suffix⟩ := taken found
  rw [log]
  exact suffix.trans (h tx before found')

theorem silent {log facts : List Fact} {tx : QueueId}
    (nothing : ∀ fact ∈ facts, fact.placedTo tx = none) :
    (log ++ facts).filterMap (Fact.placedTo tx) = log.filterMap (Fact.placedTo tx) := by
  rw [List.filterMap_append, List.filterMap_eq_nil_iff.mpr nothing, List.append_nil]

theorem placedTo_of_aside {fact : Fact} (h : fact.aside = true) (tx : QueueId) :
    fact.placedTo tx = none := by
  cases fact <;> first | rfl | cases h

/-- A send of what is no push. -/
theorem pushes_send {world : World} {tx other : QueueId} {item : Out Sent} {queue' : Queue}
    (plain : item.push = none) (found : (world.send tx item).queues.lookup other = some queue') :
    ∃ queue, world.queues.lookup other = some queue ∧ queue'.pushes <:+ queue.pushes := by
  obtain ⟨queue, found', same⟩ := World.lookup_send found
  refine ⟨queue, found', ?_⟩
  obtain rfl | ⟨_, items⟩ := same
  · exact List.suffix_refl _
  · rw [Queue.pushes, Queue.pushes, items, List.filterMap_append]
    simp [plain]

/-- A placed offer goes to the end of its queue. -/
theorem placed (h : Queued s) (offered : Offered node s) {n : Nat} {push : Sent}
    {handle : ClientHandle} (mem : .offer n push handle ∈ s.pending)
    (placed : s.shared.world.delivery push handle = .placed) {tx : QueueId} {queue : Queue}
    (found : (s.shared.world.send handle.tx (.frame push)).queues.lookup tx = some queue) :
    queue.pushes <:+ (s.shared.log ++ [Fact.offered n push handle .placed]).filterMap
      (Fact.placedTo tx) := by
  obtain ⟨message, handles, _, _, same⟩ := offered.pending mem
  have carries : (Out.frame push).push = some push := same ▸ message.push_toPush _
  by_cases mine : handle.tx = tx
  · subst mine
    obtain ⟨before, found', items⟩ :=
      World.lookup_send_of_hasRoom (World.delivery_eq_placed.mp placed).2 found
    obtain ⟨front, whole⟩ := h _ before found'
    refine ⟨front, ?_⟩
    rw [List.filterMap_append, ← whole, Queue.pushes, items, List.filterMap_append,
      List.append_assoc]
    simp [carries, Fact.placedTo, Queue.pushes]
  · obtain ⟨before, found', rfl | ⟨same, _⟩⟩ := World.lookup_send found
    · rw [silent (by simp [Fact.placedTo, mine])]
      exact h tx _ found'
    · exact absurd same.symm mine

theorem access (h : Queued s) (registry : Registry s) (offered : Offered node s) {a : Access}
    (mem : a ∈ s.pending) {tx : QueueId} {queue : Queue}
    (found : (a.perform node s.shared).world.queues.lookup tx = some queue) :
    queue.pushes <:+ (a.perform node s.shared).log.filterMap (Fact.placedTo tx) := by
  cases a with
  | offer n push handle =>
      have found : ((Access.offer n push handle).world node s.shared.world).queues.lookup tx =
          some queue := found
      have log : ((Access.offer n push handle).perform node s.shared).log =
          s.shared.log ++ [.offered n push handle (s.shared.world.delivery push handle)] := rfl
      rw [World.offered_eq] at found
      rw [log]
      split at found
      next room =>
        rw [room]
        exact h.placed offered mem room found
      next refused =>
        rw [silent]
        · exact h tx queue found
        · intro fact mem
          rw [List.mem_singleton.mp mem]
          cases delivery : s.shared.world.delivery push handle with
          | placed => exact absurd delivery refused
          | _ => rfl
  | put other item =>
      have found : (s.shared.world.send other item).queues.lookup tx = some queue := found
      rw [Access.perform_log]
      obtain ⟨before, found', suffix⟩ := pushes_send (registry.pending _ mem) found
      rw [silent (by simp [Access.facts])]
      exact suffix.trans (h tx before found')
  | control message =>
      rw [Access.perform_log, silent]
      · exact h tx queue found
      · intro fact addressed
        obtain ⟨target, _, rfl⟩ := List.mem_map.mp addressed
        rfl
  | _ =>
      rw [Access.perform_log, silent (by simp [Access.facts, Fact.placedTo])]
      exact h tx queue found

/-- An event of a session takes nothing, and puts at most replies. -/
theorem begun {r r' : Reader} {shared' : Shared} {event : Event} {ops : List Op} (h : Queued s)
    {shared : Shared} (log : ∃ facts, shared.log = s.shared.log ++ facts ∧
      ∀ fact ∈ facts, fact.aside = true) (same : shared.world = s.shared.world)
    (begun : r.Begun node shared event r' shared' ops) {tx : QueueId} {queue : Queue}
    (found : shared'.world.queues.lookup tx = some queue) :
    queue.pushes <:+ shared'.log.filterMap (Fact.placedTo tx) := by
  obtain ⟨facts, log, aside⟩ := log
  obtain ⟨facts', log', aside'⟩ := begun.quiet.log
  have nothing : ∀ tx, shared'.log.filterMap (Fact.placedTo tx) =
      s.shared.log.filterMap (Fact.placedTo tx) := by
    intro tx
    rw [log', silent fun fact mem => placedTo_of_aside (aside' fact mem) tx, log,
      silent fun fact mem => placedTo_of_aside (aside fact mem) tx]
  refine h.of_taken nothing ?_ found
  intro tx queue' found
  cases begun with
  | command readings cmd cmds replies _ commanded =>
      cases commanded with
      | instant after _ method effect =>
          refine ⟨queue', ?_, List.suffix_refl _⟩
          have reads := (effect.reads method).queues
          rw [← same]
          exact reads ▸ found
      | _ => exact ⟨queue', same ▸ found, List.suffix_refl _⟩
  | replied replies disconnect _ _ => exact same ▸ pushes_send rfl found
  | _ => exact ⟨queue', same ▸ found, List.suffix_refl _⟩

theorem step (h : Queued s) (registry : Registry s) (offered : Offered node s)
    (move : Server.Step node s turn s') : Queued s' := by
  intro tx queue found
  cases move.moved with
  | accepted proto transport =>
      simp only [Server.onAccept, Map.lookup_insert_eq] at found
      split at found
      next =>
        cases found
        exact List.nil_suffix
      next => exact h tx queue found
  | began _ _ prepared begun =>
      obtain ⟨quiet, same⟩ := Reader.prepare_quiet prepared
      exact h.begun quiet.log same (Reader.begin_begun begun) found
  | @worked _ _ _ op _ _ _ there ran =>
      cases kind : op.access? with
      | none =>
          obtain ⟨reads, _, log⟩ := (Op.exec_ran ran).reads kind
          refine h.of_taken (fun _ => by rw [log]) ?_ found
          exact fun found => ⟨_, reads.queues ▸ found, List.suffix_refl _⟩
      | some a =>
          cases Op.exec_ran ran with
          | accessed performed =>
              obtain ⟨rfl, _⟩ := Access.exec_eq performed
              have mem := Seated.mem_pending.mpr (.inl ⟨_, _, there, List.mem_cons_self⟩)
              exact h.access registry offered mem found
          | _ => cases kind
  | advanced there ran =>
      obtain ⟨rfl, _⟩ := Access.exec_eq ran
      have mem := Seated.mem_pending.mpr
        (.inr ⟨_, List.mem_of_getElem? there, List.mem_cons_self⟩)
      exact h.access registry offered mem found
  | spawned _ => exact h tx queue found
  | drained other =>
      simp only [World.drain, Map.lookup_alter] at found
      split at found
      next same =>
        obtain ⟨before, found', rfl⟩ := Option.map_eq_some_iff.mp found
        exact ((List.tail_suffix _).filterMap _).trans (h tx before (same ▸ found'))
      next => exact h tx queue found
  | released other =>
      simp only [World.release, Map.lookup_alter] at found
      split at found
      next same =>
        obtain ⟨before, found', rfl⟩ := Option.map_eq_some_iff.mp found
        exact h tx before (same ▸ found')
      next => exact h tx queue found
  | slowClosed _ _ =>
      obtain ⟨before, found', suffix⟩ := pushes_send rfl found
      exact suffix.trans (h tx before found')
  | retired _ _ => exact h tx queue found
  | rekeyed _ => exact h tx queue found

theorem initial (h : s.Initial) : Queued s := by
  obtain ⟨hash, ttl, verifier, rfl⟩ := h
  intro tx queue found
  cases found

theorem of_reached (h : Server.Reached node s) : Queued s := by
  have all : Registry s ∧ Offered node s ∧ Queued s :=
    h.invariant (fun s => Registry s ∧ Offered node s ∧ Queued s)
      (fun _ start => ⟨.initial start, .initial start, initial start⟩)
      fun _ _ _ ⟨registry, offered, queued⟩ move =>
        ⟨registry.step move, offered.step registry move, queued.step registry offered move⟩
  exact all.2.2

end Queued

end Centrifugo
