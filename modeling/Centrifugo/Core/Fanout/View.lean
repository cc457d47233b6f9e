import Centrifugo.Core.Fanout
import Centrifugo.Data.Task

/-!
# Fan-out as feeds

For one client and one channel, concurrent fan-out is a feed: the offset of the stream,
the offsets of the publishes on their way to the client, and those that were put in its
queue since it subscribed. Each step of the fan-out is a step of the feed.
-/

namespace Centrifugo

/-! ## Offsets of the memory engine -/

namespace MemoryEngine

variable {engine : MemoryEngine} {clock : Clock} {fresh channel other : String}

/-- The offset of the last publication of a stream. -/
def top (engine : MemoryEngine) (channel : String) : Nat :=
  ((engine.history.lookup channel).map Stream.offset).getD 0

/-- An access finds the stream past its deadline, and drops it. -/
def resets (engine : MemoryEngine) (clock : Clock) (channel : String) : Bool :=
  (engine.history.lookup channel).any fun stream => (clock 0).seconds > stream.metaExpireAt

/-- Eviction of the buffer keeps the offset, a reset does not. -/
theorem streamAt_offset : (streamAt clock fresh engine.history channel).offset =
    if engine.resets clock channel then 0 else engine.top channel := by
  unfold streamAt evictIfExpired resets top
  cases found : engine.history.lookup channel with
  | none => simp [found, Stream.new]
  | some stream =>
      by_cases expired : (clock 0).seconds > stream.metaExpireAt
      · simp [expired, Stream.new]
      · by_cases old : (clock 1).seconds > stream.expireAt
        · simp [expired, old, Stream.clear]
        · simp [expired, old, found]

theorem top_touch : (engine.touch clock fresh channel).1.top other =
    if other = channel then if engine.resets clock channel then 0 else engine.top channel
    else engine.top other := by
  split
  next same =>
    subst same
    rw [← @streamAt_offset engine clock fresh]
    simp [touch, top]
  next differs => simp [touch, top, differs, lookup_evict_ne]

theorem top_append_ne {data : Raw} {info : Option ClientInfo} {opts : PublishOptions}
    (h : other ≠ channel) :
    (engine.append clock fresh channel data info opts).1.top other = engine.top other := by
  unfold append
  split
  · simp [addToHistory, top, h, lookup_evict_ne]
  · rfl

/-- With a history, a publication gets the next offset of its stream. -/
theorem top_append {data : Raw} {info : Option ClientInfo} {opts : PublishOptions}
    (enabled : opts.historyEnabled) :
    (engine.append clock fresh channel data info opts).1.top channel =
        (if engine.resets clock channel then 0 else engine.top channel) + 1 ∧
      (engine.append clock fresh channel data info opts).2.offset =
        (if engine.resets clock channel then 0 else engine.top channel) + 1 := by
  rw [← @streamAt_offset engine clock fresh]
  simp [append, enabled, addToHistory, top, Stream.push]

end MemoryEngine

/-! ## Subscribers -/

namespace World

variable {world : World} {id other : ClientId} {channel name : String}

theorem subscribed_iff : world.subscribed id channel ↔
    id ∈ world.hub.subscriberIds channel ∧ (world.hub.conns.lookup id).isSome := by
  simp [subscribed, AList.lookup_isSome]

theorem subscribed_subscribe : (world.subscribe other name).subscribed id channel ↔
    (id = other ∧ channel = name ∧ (world.hub.conns.lookup id).isSome) ∨
      world.subscribed id channel := by
  rw [subscribed_iff, subscribed_iff, subscribe, Hub.mem_subscribe, Hub.conns_subscribe]
  tauto

theorem subscribed_remove {hub : Hub} (same : hub = (world.hub.remove other).1) :
    subscribed { world with hub := hub } id channel ↔
      id ≠ other ∧ world.subscribed id channel := by
  subst same
  rw [subscribed_iff, subscribed_iff, Hub.mem_remove, Hub.conns_remove, Map.lookup_erase_eq]
  by_cases same : id = other <;> simp [same]

theorem hub_trySend {tx : QueueId} {item : Out Sent} {world' : World}
    (sent : world.trySend tx item = some world') :
    world'.hub = world.hub ∧ world'.engine = world.engine := by
  unfold trySend at sent
  repeat' split at sent
  all_goals cases sent
  exact ⟨rfl, rfl⟩

theorem subscribed_congr {world' : World} (same : world'.hub = world.hub) :
    world'.subscribed id channel = world.subscribed id channel := by
  simp only [subscribed, same]

/-- A send costs at most its own receiver the place in the hub, and only when it fails. -/
theorem subscribed_deliverTo (push : Sent) (world : World) (handle : ClientHandle) :
    (deliverTo push world handle).subscribed id channel = true ↔
      world.subscribed id channel ∧
        ¬ (id = handle.id ∧ push.encodable handle.proto ∧ world.reaches push handle = false) := by
  unfold deliverTo reaches
  cases encodable : push.encodable handle.proto with
  | false => simp
  | true =>
      cases sent : world.trySend handle.tx (.frame push) with
      | some world' => simp [subscribed_congr (hub_trySend sent).1]
      | none =>
          have dropped : (world.dropSlow handle).subscribed id channel =
              subscribed { world with hub := (world.hub.remove handle.id).1 } id channel := rfl
          simp only [if_true, Option.getD_none, dropped, subscribed_remove rfl]
          simp [and_comm]

end World

namespace Hub

/-- A handle is found under its own id. -/
def Keyed (hub : Hub) : Prop := ∀ id handle, hub.conns.lookup id = some handle → handle.id = id

/-- A copy of the subscribers has one handle of each. -/
theorem countP_subscribers {hub : Hub} (keyed : hub.Keyed) (id : ClientId) (channel : String) :
    (hub.subscribers channel).countP (fun handle => handle.id = id) =
      if id ∈ hub.subscriberIds channel ∧ (hub.conns.lookup id).isSome then 1 else 0 := by
  have nodup : (hub.subscriberIds channel).keys.Nodup := AList.keys_nodup _
  simp only [AList.mem_keys, subscribers]
  generalize (hub.subscriberIds channel).keys = keys at nodup
  induction keys with
  | nil => simp
  | cons key keys ih =>
      obtain ⟨fresh, rest⟩ := List.nodup_cons.mp nodup
      have others := ih rest
      cases found : hub.conns.lookup key with
      | none =>
          rw [List.filterMap_cons, found, others]
          by_cases same : id = key
          · subst same
            simp [found]
          · simp [same]
      | some handle =>
          rw [List.filterMap_cons, found, List.countP_cons, others, keyed key handle found]
          by_cases same : id = key
          · subst same
            simp [found, fresh]
          · simp [same, Ne.symm same]

/-- The second hub has no more than the first. -/
structure Within (hub hub' : Hub) : Prop where
  conns : ∀ id handle, hub'.conns.lookup id = some handle → hub.conns.lookup id = some handle
  subscribers : ∀ id channel, id ∈ hub'.subscriberIds channel → id ∈ hub.subscriberIds channel

theorem Within.refl (hub : Hub) : hub.Within hub := ⟨fun _ _ h => h, fun _ _ h => h⟩

theorem Within.of_eq {hub hub' : Hub} (same : hub' = hub) : hub.Within hub' := same ▸ .refl hub

theorem within_unsubscribe (hub : Hub) (id : ClientId) (channel : String) :
    hub.Within (hub.unsubscribe id channel) :=
  ⟨fun _ _ h => h, fun _ _ h => (mem_unsubscribe.mp h).2⟩

theorem within_remove (hub : Hub) (id : ClientId) : hub.Within (hub.remove id).1 := by
  refine ⟨?_, fun _ _ h => (mem_remove.mp h).2⟩
  intro other handle found
  rw [conns_remove, Map.lookup_erase_eq] at found
  split at found
  · cases found
  · exact found

theorem within_deliverTo (push : Sent) (world : World) (handle : ClientHandle) :
    world.hub.Within (World.deliverTo push world handle).hub := by
  unfold World.deliverTo
  split
  · cases sent : world.trySend handle.tx (.frame push) with
    | some world' =>
        rw [Option.getD_some, (World.hub_trySend sent).1]
        exact .refl _
    | none => exact within_remove world.hub handle.id
  · exact .refl _

end Hub

theorem World.subscribed_of_within {world world' : World} {id : ClientId} {channel : String}
    (within : world.hub.Within world'.hub) (h : world'.subscribed id channel) :
    world.subscribed id channel := by
  obtain ⟨listed, registered⟩ := subscribed_iff.mp h
  obtain ⟨handle, found⟩ := Option.isSome_iff_exists.mp registered
  refine subscribed_iff.mpr ⟨within.subscribers id channel listed, ?_⟩
  rw [within.conns id handle found]
  rfl

/-! ## Publishes on their way -/

/-- The sends of a publish that one client is still to get; before the subscribers are
copied, one. -/
def PublishTask.dueTo (id : ClientId) (channel : String) (task : PublishTask) : List Nat :=
  if task.channel = channel then
    match task.rest with
    | none => [task.publication.offset]
    | some rest =>
        List.replicate (rest.countP fun handle => handle.id = id) task.publication.offset
  else []

/-- Publications of the channel get an offset. -/
def Node.keepsHistory (node : Node) (channel : String) : Prop :=
  (((node.channelOptions channel).map ChannelOptions.publishOptions).getD {}).historyEnabled

namespace Fanout

variable {s s' : Fanout} {node : Node} {id : ClientId} {channel : String}

/-- The feed of a client from a channel. -/
def feed (s : Fanout) (id : ClientId) (channel : String) : Feed where
  top := s.world.engine.top channel
  due := ↑(s.tasks.flatMap (PublishTask.dueTo id channel))
  placed := (s.windows id channel).placed.map Prod.snd
  returned := ((s.windows id channel).read.map HistoryRead.returned).getD []

/-- A publish goes on, and this client gets as much from it as before. -/
theorem due_set {tasks : List PublishTask} {i : Nat} {task new : PublishTask}
    (h : tasks[i]? = some task) (same : task.dueTo id channel = new.dueTo id channel) :
    (↑((tasks.set i new).flatMap (PublishTask.dueTo id channel)) : Multiset Nat) =
      ↑(tasks.flatMap (PublishTask.dueTo id channel)) := by
  obtain ⟨others, before, after⟩ := pull_out (PublishTask.dueTo id channel) h
  rw [same] at before
  exact Multiset.coe_eq_coe.mpr ((after new).trans before.symm)

/-- The client gets one push less from the publish. -/
theorem due_set_cons {tasks : List PublishTask} {i n : Nat} {task new : PublishTask}
    (h : tasks[i]? = some task) (less : task.dueTo id channel = n :: new.dueTo id channel) :
    (↑(tasks.flatMap (PublishTask.dueTo id channel)) : Multiset Nat) =
      n ::ₘ ↑((tasks.set i new).flatMap (PublishTask.dueTo id channel)) := by
  obtain ⟨others, before, after⟩ := pull_out (PublishTask.dueTo id channel) h
  rw [less] at before
  rw [Multiset.cons_coe, Multiset.coe_eq_coe]
  exact before.trans ((after new).symm.cons n)

/-! ## Sends -/

section Send

variable {i : Nat} {task : PublishTask} {handle : ClientHandle} {rest : List ClientHandle}

theorem tasks_send : (s.send node i task handle rest).tasks =
    s.tasks.set i { task with rest := some rest } := by
  simp only [send]
  split
  next => rfl
  next => rfl

theorem world_send : (s.send node i task handle rest).world =
    World.deliverTo (task.push node) s.world handle := by
  simp only [send]
  split
  next => rfl
  next => rfl

theorem ids_send : (s.send node i task handle rest).ids = s.ids := by
  simp only [send]
  split
  next => rfl
  next => rfl

end Send

/-! ## What the steps keep -/

/-- What a step does to the hub. -/
inductive HubStep (s s' : Fanout) : Prop
  | within : s.world.hub.Within s'.world.hub → s'.ids = s.ids → HubStep s s'
  | connected {handle : ClientHandle} : handle.id ∉ s.ids →
      s'.world.hub = s.world.hub.add handle → s'.ids = s.ids ++ [handle.id] → HubStep s s'
  | subscribed {id : ClientId} {channel : String} : id ∈ s.ids →
      s'.world.hub = s.world.hub.subscribe id channel → s'.ids = s.ids → HubStep s s'

/-- The engine of a session is all that a read of the history changes. -/
theorem readBaseline_world (client : Client) (world : World) (clock : Clock) (fresh : String)
    (baseline : Baseline) :
    ((⟨client, world⟩ : Session).readBaseline node clock fresh baseline).1.world =
      { world with engine := (world.engine.touch clock fresh baseline.channel).1 } := by
  cases baseline with
  | top channel => rfl
  | since req =>
      simp only [Session.readBaseline, Session.recoverSince, World.historySince,
        MemoryEngine.historySince_engine]
      rfl

theorem hub_step {event : Event} (move : Step node s event s') : HubStep s s' := by
  unfold Step Fanout.step at move
  cases event with
  | append clock fresh channel data info =>
      cases move
      exact .within (.refl _) rfl
  | snapshot i =>
      simp only [] at move
      split at move
      next =>
        split at move
        next =>
          cases move
          exact .within (.refl _) rfl
        next => cases move
      next => cases move
  | send i =>
      obtain ⟨⟨task, handle, rest⟩, _, rfl⟩ := Option.map_eq_some_iff.mp move
      refine .within ?_ ids_send
      rw [world_send]
      exact Hub.within_deliverTo _ _ _
  | connect handle =>
      simp only [] at move
      split at move
      next => cases move
      next fresh =>
        cases move
        exact .connected fresh rfl rfl
  | subscribe id channel =>
      simp only [] at move
      split at move
      next known =>
        cases move
        exact .subscribed known rfl rfl
      next => cases move
  | read client clock fresh baseline =>
      simp only [] at move
      split at move
      next =>
        cases move
        refine .within ?_ rfl
        show s.world.hub.Within (Session.readBaseline _ _ _ _ _).1.world.hub
        rw [readBaseline_world]
        exact .refl _
      next => cases move
  | unsubscribe id channel =>
      cases move
      exact .within (Hub.within_unsubscribe _ id channel) rfl
  | disconnect id =>
      cases move
      exact .within (Hub.within_remove _ id) rfl
  | announce message handle =>
      cases message with
      | publication _ _ => cases move
      | join _ _ =>
          cases move
          exact .within (Hub.within_deliverTo _ _ _) rfl
      | leave _ _ =>
          cases move
          exact .within (Hub.within_deliverTo _ _ _) rfl
  | put tx item =>
      obtain ⟨world, sent, rfl⟩ := Option.map_eq_some_iff.mp move
      exact .within (.of_eq (World.hub_trySend sent).1) rfl
  | drain tx =>
      cases move
      exact .within (.refl _) rfl
  | release tx =>
      cases move
      exact .within (.refl _) rfl
  | slowClose tx =>
      simp only [] at move
      split at move
      next =>
        obtain ⟨world, sent, rfl⟩ := Option.map_eq_some_iff.mp move
        exact .within (.of_eq (World.hub_trySend sent).1) rfl
      next => cases move
  | access clock fresh op =>
      cases op with
      | publish _ _ _ _ => cases move
      | history _ => cases move; exact .within (.refl _) rfl
      | historySince _ _ _ => cases move; exact .within (.refl _) rfl
      | removeHistory _ => cases move; exact .within (.refl _) rfl
      | addPresence _ _ _ => cases move; exact .within (.refl _) rfl
      | removePresence _ _ => cases move; exact .within (.refl _) rfl

theorem consistent_step {event : Event} (move : Step node s event s')
    (h : s.world.engine.history.Consistent) : s'.world.engine.history.Consistent := by
  unfold Step Fanout.step at move
  cases event with
  | append clock fresh channel data info =>
      cases move
      exact MemoryEngine.consistent_append h clock fresh channel data info _
  | snapshot i =>
      simp only [] at move
      split at move
      next =>
        split at move
        next =>
          cases move
          exact h
        next => cases move
      next => cases move
  | send i =>
      obtain ⟨⟨task, handle, rest⟩, _, rfl⟩ := Option.map_eq_some_iff.mp move
      rw [world_send, World.engine_deliverTo]
      exact h
  | connect handle =>
      simp only [] at move
      split at move
      next => cases move
      next =>
        cases move
        exact h
  | subscribe id channel =>
      simp only [] at move
      split at move
      next =>
        cases move
        exact h
      next => cases move
  | read client clock fresh baseline =>
      simp only [] at move
      split at move
      next =>
        cases move
        show (Session.readBaseline _ _ _ _ _).1.world.engine.history.Consistent
        rw [readBaseline_world]
        exact MemoryEngine.consistent_touch h clock fresh _
      next => cases move
  | announce message handle =>
      cases message with
      | publication _ _ => cases move
      | join _ _ =>
          cases move
          show (World.deliverTo _ _ _).engine.history.Consistent
          rwa [World.engine_deliverTo]
      | leave _ _ =>
          cases move
          show (World.deliverTo _ _ _).engine.history.Consistent
          rwa [World.engine_deliverTo]
  | put tx item =>
      obtain ⟨world, sent, rfl⟩ := Option.map_eq_some_iff.mp move
      show world.engine.history.Consistent
      rwa [(World.hub_trySend sent).2]
  | slowClose tx =>
      simp only [] at move
      split at move
      next =>
        obtain ⟨world, sent, rfl⟩ := Option.map_eq_some_iff.mp move
        show world.engine.history.Consistent
        rwa [(World.hub_trySend sent).2]
      next => cases move
  | access clock fresh op =>
      have kept := MemoryEngine.consistent_apply h clock fresh op
      cases op with
      | publish _ _ _ _ => cases move
      | history _ => cases move; exact kept
      | historySince _ _ _ => cases move; exact kept
      | removeHistory _ => cases move; exact kept
      | addPresence _ _ _ => cases move; exact kept
      | removePresence _ _ => cases move; exact kept
  | unsubscribe id channel => cases move; exact h
  | disconnect id => cases move; exact h
  | drain tx => cases move; exact h
  | release tx => cases move; exact h

/-- The hub, the ids and the streams fit together. -/
structure Sane (s : Fanout) : Prop where
  keyed : s.world.hub.Keyed
  known : ∀ id channel, id ∈ s.world.hub.subscriberIds channel → id ∈ s.ids
  consistent : s.world.engine.history.Consistent

theorem Sane.initial (h : s.Initial) : s.Sane := by
  obtain ⟨hash, ttl, verifier, queues, rfl⟩ := h
  exact ⟨nofun, nofun, nofun⟩

theorem Sane.step {event : Event} (h : s.Sane) (move : Step node s event s') : s'.Sane := by
  have consistent := consistent_step move h.consistent
  cases hub_step move with
  | within within ids =>
      refine ⟨?_, ?_, consistent⟩
      · intro id handle found
        exact h.keyed id handle (within.conns id handle found)
      · intro id channel mem
        rw [ids]
        exact h.known id channel (within.subscribers id channel mem)
  | @connected handle fresh hub ids =>
      refine ⟨?_, ?_, consistent⟩
      · intro id found lookup
        rw [hub, Hub.conns_add, Map.lookup_insert_eq] at lookup
        split at lookup
        next same =>
          cases lookup
          exact same.symm
        next => exact h.keyed id found lookup
      · intro id channel mem
        rw [hub] at mem
        rw [ids]
        exact List.mem_append_left _ (h.known id channel mem)
  | subscribed known hub ids =>
      refine ⟨?_, ?_, consistent⟩
      · rw [hub]
        exact h.keyed
      · intro id name mem
        rw [hub] at mem
        rw [ids]
        obtain ⟨rfl, rfl⟩ | before := Hub.mem_subscribe.mp mem
        · exact known
        · exact h.known id name before

/-! ## What the steps do to a feed -/

/-- The offsets that a read of the history returns. -/
def returnedTo (s : Fanout) (clock : Clock) (fresh : String) : Baseline → List Nat
  | .top _ => []
  | .since req =>
      (s.world.historySince clock fresh req.channel req.position req.epoch).2.1.map
        Publication.offset

/-- The stream of the channel is not dropped. -/
def keepsStream (s : Fanout) (channel : String) : Event → Prop
  | .append clock _ name _ _ => name = channel → s.world.engine.resets clock channel = false
  | .read _ clock _ baseline =>
      baseline.channel = channel → s.world.engine.resets clock channel = false
  | .access clock _ (.history name) | .access clock _ (.historySince name _ _) =>
      name = channel → s.world.engine.resets clock channel = false
  | .access _ _ (.removeHistory name) => name ≠ channel
  | _ => True

/-- What a step does to a feed, as long as the stream is kept. -/
inductive Shift (node : Node) (s : Fanout) (id : ClientId) (channel : String) :
    Event → Fanout → Prop
  | same {event : Event} {s' : Fanout} : s'.feed id channel = s.feed id channel →
      (s'.world.subscribed id channel → s.world.subscribed id channel) →
      Shift node s id channel event s'
  | issued {event : Event} {s' : Fanout} : s'.feed id channel = (s.feed id channel).issue →
      s'.world.subscribed id channel = s.world.subscribed id channel →
      Shift node s id channel event s'
  /-- The subscribers were copied without the client. -/
  | passed {i : Nat} {task : PublishTask} {due : Multiset Nat} {s' : Fanout} :
      s.tasks[i]? = some task → task.channel = channel →
      s.world.subscribed id channel = false → s'.world.subscribed id channel = false →
      (s.feed id channel).due = task.publication.offset ::ₘ due →
      s'.feed id channel = { s.feed id channel with due := due } →
      Shift node s id channel (.snapshot i) s'
  /-- A send that reaches the queue. -/
  | arrived {i : Nat} {task : PublishTask} {handle : ClientHandle} {rest : List ClientHandle}
      {due : Multiset Nat} {s' : Fanout} :
      s.next i = some (task, handle, rest) → task.channel = channel → handle.id = id →
      s'.world.subscribed id channel = s.world.subscribed id channel →
      (s.feed id channel).due = task.publication.offset ::ₘ due →
      s'.feed id channel = (s.feed id channel).arrive task.publication.offset due →
      Shift node s id channel (.send i) s'
  /-- A send that does not. The client is dropped, or skipped. -/
  | lost {i : Nat} {task : PublishTask} {handle : ClientHandle} {rest : List ClientHandle}
      {due : Multiset Nat} {s' : Fanout} :
      s.next i = some (task, handle, rest) → task.channel = channel → handle.id = id →
      (s'.world.subscribed id channel → s.world.subscribed id channel ∧
        (task.push node).encodable handle.proto = false) →
      (s.feed id channel).due = task.publication.offset ::ₘ due →
      s'.feed id channel = { s.feed id channel with due := due } →
      Shift node s id channel (.send i) s'
  | began {s' : Fanout} : s.world.subscribed id channel = false →
      (s'.world.subscribed id channel → (s.world.hub.conns.lookup id).isSome) →
      s'.feed id channel = (s.feed id channel).begin →
      Shift node s id channel (.subscribe id channel) s'
  | caught {client : Client} {clock : Clock} {fresh : String} {baseline : Baseline}
      {s' : Fanout} : client.id = id → baseline.channel = channel →
      s'.feed id channel = (s.feed id channel).catchUp
        (s.returnedTo clock fresh baseline) →
      s'.world.subscribed id channel = s.world.subscribed id channel →
      Shift node s id channel (.read client clock fresh baseline) s'

variable {i : Nat} {task : PublishTask}

/-- One more publication on its way to everybody. -/
theorem feed_append (history : node.keepsHistory channel) {clock : Clock}
    (keeps : s.world.engine.resets clock channel = false) {fresh : String} {data : Raw}
    {info : Option ClientInfo} :
    (s.append node clock fresh channel data info).feed id channel =
      (s.feed id channel).issue := by
  obtain ⟨top, offset⟩ := @MemoryEngine.top_append s.world.engine clock fresh channel data info _
    history
  rw [keeps, if_neg Bool.false_ne_true] at top offset
  simp only [feed, Feed.issue, append, Feed.mk.injEq, top, true_and, and_true]
  rw [List.flatMap_append, List.flatMap_singleton, PublishTask.dueTo, if_pos rfl, offset,
    ← Multiset.coe_add, Multiset.coe_singleton, Multiset.add_comm]
  rfl

theorem feed_append_ne {name : String} (other : channel ≠ name) {clock : Clock} {fresh : String}
    {data : Raw} {info : Option ClientInfo} :
    (s.append node clock fresh name data info).feed id channel = s.feed id channel := by
  have top := @MemoryEngine.top_append_ne s.world.engine clock fresh name channel data info
    (((node.channelOptions name).map ChannelOptions.publishOptions).getD {}) other
  simp only [feed, append, top]
  rw [List.flatMap_append, List.flatMap_singleton, PublishTask.dueTo, if_neg (Ne.symm other),
    List.append_nil]

/-- Once the subscribers are copied, a publication is on its way to those only. -/
theorem dueTo_copied (keyed : s.world.hub.Keyed) :
    ({ task with rest := some (s.world.hub.subscribers task.channel) } : PublishTask).dueTo
        id channel =
      if task.channel = channel ∧ s.world.subscribed id channel then [task.publication.offset]
      else [] := by
  simp only [PublishTask.dueTo, Hub.countP_subscribers keyed]
  by_cases same : task.channel = channel
  · subst same
    simp only [if_true, true_and, World.subscribed_iff]
    split
    next => rfl
    next => rfl
  · simp [same]

theorem dueTo_uncopied (uncopied : task.rest = none) :
    task.dueTo id channel = if task.channel = channel then [task.publication.offset] else [] := by
  rw [PublishTask.dueTo, uncopied]

@[simp] theorem placed_snapshot :
    ((s.snapshot i task).windows id channel).placed = (s.windows id channel).placed := by
  simp only [snapshot]
  split
  next => rfl
  next => rfl

@[simp] theorem read_snapshot :
    ((s.snapshot i task).windows id channel).read = (s.windows id channel).read := by
  simp only [snapshot]
  split
  next => rfl
  next => rfl

theorem feed_congr (top : s'.world.engine.top channel = s.world.engine.top channel)
    (due : (s'.feed id channel).due = (s.feed id channel).due)
    (placed : (s'.windows id channel).placed = (s.windows id channel).placed)
    (read : (s'.windows id channel).read = (s.windows id channel).read) :
    s'.feed id channel = s.feed id channel := by
  have due : (↑(s'.tasks.flatMap (PublishTask.dueTo id channel)) : Multiset Nat) =
    ↑(s.tasks.flatMap (PublishTask.dueTo id channel)) := due
  simp only [feed, top, due, placed, read]

section Send

variable {handle : ClientHandle} {rest : List ClientHandle}

theorem next_eq_some : s.next i = some (task, handle, rest) ↔
    s.tasks[i]? = some task ∧ task.rest = some (handle :: rest) := by
  unfold next
  constructor
  · intro next
    split at next
    next found =>
      split at next
      next copied =>
        cases next
        exact ⟨found, copied⟩
      next => cases next
    next => cases next
  · rintro ⟨found, copied⟩
    rw [found]
    simp only [copied]

theorem dueTo_send (copied : task.rest = some (handle :: rest)) : task.dueTo id channel =
    if task.channel = channel ∧ handle.id = id then
      task.publication.offset :: { task with rest := some rest }.dueTo id channel
    else { task with rest := some rest }.dueTo id channel := by
  simp only [PublishTask.dueTo, copied, List.countP_cons, decide_eq_true_eq]
  by_cases same : task.channel = channel
  · by_cases mine : handle.id = id
    · simp [same, mine, List.replicate_succ]
    · simp [same, mine]
  · simp [same]

@[simp] theorem read_settle {world : World} :
    ((s.settle world).windows id channel).read = (s.windows id channel).read := by
  simp only [settle]
  split
  next => rfl
  next => rfl

@[simp] theorem placed_settle {world : World} :
    ((s.settle world).windows id channel).placed = (s.windows id channel).placed := by
  simp only [settle]
  split
  next => rfl
  next => rfl

theorem placed_send : ((s.send node i task handle rest).windows id channel).placed =
    if World.reaches (task.push node) s.world handle ∧ id = handle.id ∧ channel = task.channel then
      (s.windows id channel).placed ++ [(i, task.publication.offset)]
    else (s.windows id channel).placed := by
  simp only [send]
  split
  next reaches =>
    simp only [updateWindow, reaches, true_and]
    split
    next here =>
      obtain ⟨rfl, rfl⟩ := here
      exact congrArg (· ++ _) placed_settle
    next => exact placed_settle
  next missed =>
    rw [if_neg fun reaches => missed reaches.1]
    exact placed_settle

theorem read_send : ((s.send node i task handle rest).windows id channel).read =
    (s.windows id channel).read := by
  simp only [send]
  split
  next =>
    simp only [updateWindow]
    split
    next here =>
      obtain ⟨rfl, rfl⟩ := here
      exact read_settle
    next => exact read_settle
  next => exact read_settle

end Send

theorem top_touch {clock : Clock} {fresh name : String}
    (keeps : name = channel → s.world.engine.resets clock channel = false) :
    (s.world.engine.touch clock fresh name).1.top channel = s.world.engine.top channel := by
  rw [MemoryEngine.top_touch]
  split
  next same =>
    rw [← same, keeps same.symm]
    rfl
  next => rfl

/-- A client that is new has no subscription. -/
theorem subscribed_connect (sane : s.Sane) {handle : ClientHandle} (fresh : handle.id ∉ s.ids)
    (now : World.subscribed { s.world with hub := s.world.hub.add handle } id channel) :
    s.world.subscribed id channel := by
  obtain ⟨listed, registered⟩ := World.subscribed_iff.mp now
  have known : id ∈ s.ids := sane.known id channel listed
  have other : id ≠ handle.id := fun same => fresh (same ▸ known)
  refine World.subscribed_iff.mpr ⟨listed, ?_⟩
  rwa [← AList.lookup_insert_ne other]

namespace Shift

/-- Steps that at most end subscriptions. -/
theorem of_within {event : Event} (within : s.world.hub.Within s'.world.hub)
    (top : s'.world.engine.top channel = s.world.engine.top channel) (tasks : s'.tasks = s.tasks)
    (placed : (s'.windows id channel).placed = (s.windows id channel).placed)
    (read : (s'.windows id channel).read = (s.windows id channel).read) :
    Shift node s id channel event s' := by
  refine .same (feed_congr top ?_ placed read) (World.subscribed_of_within within)
  simp only [feed, tasks]

theorem snapshot (sane : s.Sane) (found : s.tasks[i]? = some task) (uncopied : task.rest = none) :
    Shift node s id channel (.snapshot i) (s.snapshot i task) := by
  have due : task.dueTo id channel = _ := dueTo_uncopied uncopied
  have left := @dueTo_copied s id channel task sane.keyed
  have kept : (s.snapshot i task).world.subscribed id channel = s.world.subscribed id channel := rfl
  by_cases same : task.channel = channel
  · rw [if_pos same] at due
    cases now : s.world.subscribed id channel with
    | true =>
        rw [if_pos ⟨same, now⟩] at left
        exact .same (feed_congr rfl (due_set found (due.trans left.symm)) placed_snapshot
          read_snapshot) fun now => kept ▸ now
    | false =>
        rw [if_neg fun both => Bool.false_ne_true (now.symm.trans both.2)] at left
        have less := due_set_cons found (due.trans (congrArg _ left.symm))
        refine .passed found same now (kept.trans now) less ?_
        simp only [feed, placed_snapshot, read_snapshot]
        rfl
  · rw [if_neg same] at due
    rw [if_neg fun both => same both.1] at left
    exact .same (feed_congr rfl (due_set found (due.trans left.symm)) placed_snapshot
      read_snapshot) fun now => kept ▸ now

theorem send {handle : ClientHandle} {rest : List ClientHandle}
    (next : s.next i = some (task, handle, rest)) :
    Shift node s id channel (.send i) (s.send node i task handle rest) := by
  obtain ⟨found, copied⟩ := next_eq_some.mp next
  have engine : (s.send node i task handle rest).world.engine = s.world.engine := by
    rw [world_send, World.engine_deliverTo]
  have top := congrArg (MemoryEngine.top · channel) engine
  have subscribed := @World.subscribed_deliverTo id channel (task.push node) s.world handle
  rw [← @world_send s node i task handle rest] at subscribed
  have due := @dueTo_send id channel task handle rest copied
  by_cases mine : task.channel = channel ∧ handle.id = id
  · rw [if_pos mine] at due
    obtain ⟨same, rfl⟩ := mine
    have less := due_set_cons found due
    have placed := @placed_send s node handle.id channel i task handle rest
    cases reaches : World.reaches (task.push node) s.world handle with
    | true =>
        rw [if_pos ⟨reaches, rfl, same.symm⟩] at placed
        refine .arrived next same rfl ?_ less ?_
        · rw [Bool.eq_iff_iff, subscribed]
          simp [reaches]
        · simp only [feed, top, tasks_send, placed, read_send, Feed.arrive, List.map_append,
            List.map_cons, List.map_nil]
    | false =>
        rw [reaches, if_neg fun both => Bool.false_ne_true both.1] at placed
        refine .lost next same rfl ?_ less ?_
        · intro now
          obtain ⟨live, served⟩ := subscribed.mp now
          refine ⟨live, Bool.eq_false_iff.mpr fun encodable => served ⟨rfl, encodable, reaches⟩⟩
        · simp only [feed, top, tasks_send, placed, read_send]
  · rw [if_neg mine] at due
    refine .same (feed_congr top ?_ ?_ read_send) fun now => (subscribed.mp now).1
    · simp only [feed, tasks_send]
      exact due_set found due
    · rw [placed_send, if_neg]
      rintro ⟨-, rfl, rfl⟩
      exact mine ⟨rfl, rfl⟩

theorem subscribe (name : String) (other : ClientId) :
    Shift node s id channel (.subscribe other name) (s.subscribe other name) := by
  have subscribed := @World.subscribed_subscribe s.world id other channel name
  by_cases mine : id = other ∧ channel = name ∧ s.world.subscribed other name = false
  · obtain ⟨rfl, rfl, idle⟩ := mine
    refine .began idle (fun now => (World.subscribed_iff.mp now).2) ?_
    simp only [feed, Fanout.subscribe, updateWindow, and_self, if_true, idle, Bool.false_eq_true,
      if_false]
    split
    next => rfl
    next => rfl
  · have window : ((s.subscribe other name).windows id channel).placed =
        (s.windows id channel).placed ∧ ((s.subscribe other name).windows id channel).read =
          (s.windows id channel).read := by
      simp only [Fanout.subscribe, updateWindow]
      split
      next here =>
        obtain ⟨rfl, rfl⟩ := here
        have live : s.world.subscribed id channel = true :=
          Bool.not_eq_false _ |>.mp fun idle => mine ⟨rfl, rfl, idle⟩
        rw [if_pos live]
        exact ⟨rfl, rfl⟩
      next => exact ⟨rfl, rfl⟩
    refine .same (feed_congr rfl rfl window.1 window.2) ?_
    intro now
    obtain ⟨rfl, rfl, -⟩ | live := subscribed.mp now
    · exact Bool.not_eq_false _ |>.mp fun idle => mine ⟨rfl, rfl, idle⟩
    · exact live

theorem connect (sane : s.Sane) {handle : ClientHandle} (fresh : handle.id ∉ s.ids)
    {event : Event} : Shift node s id channel event { s with
      world := { s.world with hub := s.world.hub.add handle }
      ids := s.ids ++ [handle.id] } :=
  .same (feed_congr rfl rfl rfl rfl) (subscribed_connect sane fresh)

theorem read {client : Client} {clock : Clock} {fresh : String} {baseline : Baseline}
    (keeps : baseline.channel = channel → s.world.engine.resets clock channel = false) :
    Shift node s id channel (.read client clock fresh baseline)
      (s.read node client clock fresh baseline) := by
  have world : (s.read node client clock fresh baseline).world =
      { s.world with engine := (s.world.engine.touch clock fresh baseline.channel).1 } :=
    readBaseline_world client s.world clock fresh baseline
  have top : (s.read node client clock fresh baseline).world.engine.top channel =
      s.world.engine.top channel := by
    rw [world]
    exact top_touch keeps
  have kept : (s.read node client clock fresh baseline).world.subscribed id channel =
      s.world.subscribed id channel := by
    rw [world]
    rfl
  by_cases mine : id = client.id ∧ channel = baseline.channel
  · refine .caught mine.1.symm mine.2.symm ?_ kept
    simp only [feed, top]
    simp only [Fanout.read, updateWindow, if_pos mine, Feed.catchUp, Feed.mk.injEq, true_and]
    obtain ⟨rfl, rfl⟩ := mine
    refine ⟨rfl, ?_⟩
    cases baseline with
    | top _ => rfl
    | since _ => rfl
  · refine .same (feed_congr top rfl ?_ ?_) fun now => kept ▸ now
    · simp only [Fanout.read, updateWindow, if_neg mine]
    · simp only [Fanout.read, updateWindow, if_neg mine]

end Shift

/-- Every step does one of these things to the feed of a client. -/
theorem shift {event : Event} (sane : s.Sane) (history : node.keepsHistory channel)
    (keeps : s.keepsStream channel event) (move : Step node s event s') (id : ClientId) :
    Shift node s id channel event s' := by
  unfold Step Fanout.step at move
  cases event with
  | append clock fresh name data info =>
      cases move
      by_cases same : name = channel
      · subst same
        exact .issued (feed_append history (keeps rfl)) rfl
      · exact .same (feed_append_ne (Ne.symm same)) fun now => now
  | snapshot i =>
      simp only [] at move
      split at move
      next task found =>
        split at move
        next uncopied =>
          cases move
          exact .snapshot sane found (Option.isNone_iff_eq_none.mp uncopied)
        next => cases move
      next => cases move
  | send i =>
      obtain ⟨⟨task, handle, rest⟩, next, rfl⟩ := Option.map_eq_some_iff.mp move
      exact .send next
  | connect handle =>
      simp only [] at move
      split at move
      next => cases move
      next fresh =>
        cases move
        exact .connect sane fresh
  | subscribe other name =>
      simp only [] at move
      split at move
      next =>
        cases move
        exact .subscribe name other
      next => cases move
  | read client clock fresh baseline =>
      simp only [] at move
      split at move
      next =>
        cases move
        exact .read keeps
      next => cases move
  | unsubscribe other name =>
      cases move
      exact .of_within (Hub.within_unsubscribe _ other name) rfl rfl placed_settle read_settle
  | disconnect other =>
      cases move
      exact .of_within (Hub.within_remove _ other) rfl rfl placed_settle read_settle
  | announce message handle =>
      have top : ∀ push, (World.deliverTo push s.world handle).engine.top channel =
          s.world.engine.top channel := by
        intro push
        rw [World.engine_deliverTo]
      cases message with
      | publication _ _ => cases move
      | join _ _ =>
          cases move
          exact .of_within (Hub.within_deliverTo _ _ _) (top _) rfl placed_settle read_settle
      | leave _ _ =>
          cases move
          exact .of_within (Hub.within_deliverTo _ _ _) (top _) rfl placed_settle read_settle
  | put tx item =>
      obtain ⟨world, sent, rfl⟩ := Option.map_eq_some_iff.mp move
      obtain ⟨hub, engine⟩ := World.hub_trySend sent
      exact .of_within (.of_eq hub) (congrArg (MemoryEngine.top · channel) engine) rfl rfl rfl
  | drain tx =>
      cases move
      exact .of_within (.refl _) rfl rfl rfl rfl
  | release tx =>
      cases move
      exact .of_within (.refl _) rfl rfl rfl rfl
  | slowClose tx =>
      simp only [] at move
      split at move
      next =>
        obtain ⟨world, sent, rfl⟩ := Option.map_eq_some_iff.mp move
        obtain ⟨hub, engine⟩ := World.hub_trySend sent
        exact .of_within (.of_eq hub) (congrArg (MemoryEngine.top · channel) engine) rfl rfl rfl
      next => cases move
  | access clock fresh op =>
      cases op with
      | publish _ _ _ _ => cases move
      | history name =>
          cases move
          exact .of_within (.refl _) (top_touch keeps) rfl rfl rfl
      | historySince name offset epoch =>
          cases move
          refine .of_within (.refl _) ?_ rfl rfl rfl
          show (s.world.engine.historySince clock fresh name offset epoch).1.top channel = _
          rw [MemoryEngine.historySince_engine]
          exact top_touch keeps
      | removeHistory name =>
          cases move
          refine .of_within (.refl _) ?_ rfl rfl rfl
          show (s.world.engine.removeHistory name).top channel = _
          simp only [MemoryEngine.top, MemoryEngine.removeHistory,
            AList.lookup_erase_ne (Ne.symm keeps)]
      | addPresence _ _ _ =>
          cases move
          exact .of_within (.refl _) rfl rfl rfl rfl
      | removePresence _ _ =>
          cases move
          exact .of_within (.refl _) rfl rfl rfl rfl

end Fanout

end Centrifugo
