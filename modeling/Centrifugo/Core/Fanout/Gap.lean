import Centrifugo.Core.Client.Recovery
import Centrifugo.Core.Fanout.Once

/-!
# No gap before the live publications

A publish is in the history before it copies the subscribers, and a subscription is in the hub
before it reads the history. So a publication that the read does not find is sent to the client
later. Nothing after the position of the read is lost, as long as every send finds room. The
publications whose subscribers are copied after the end of the subscription do not come, also
where the publication was appended before.
-/

namespace Centrifugo

/-- The position from which on the reply promises everything: the one that was recovered from,
or the top that is reported. -/
def HistoryRead.basis (read : HistoryRead) : Option Nat :=
  match read.baseline with
  | .top _ => some read.stream.offset
  | .since req => if read.result.recovered then some req.position else none

/-- The reply has what the stream had after the basis. -/
def HistoryRead.Whole (read : HistoryRead) : Prop :=
  ∀ basis, read.basis = some basis → ∀ offset, basis < offset → offset ≤ read.stream.offset →
    offset ∈ read.returned

/-- The publish is still to send to the client, unless it copies the subscribers without it. -/
def PublishTask.awaits (id : ClientId) (task : PublishTask) : Prop :=
  ∀ rest, task.rest = some rest → ∃ handle ∈ rest, handle.id = id

/-- A reply that says recovered passed the test by the first entry, for every position. -/
theorem Session.caughtUp_of_recovered {s : Session} {node : Node} {clock : Clock}
    {fresh : String} {req : SubscribeRequest} (consistent : s.world.engine.history.Consistent)
    (recovered : (s.recoverSince node clock fresh req).2.recovered) :
    let stream := MemoryEngine.streamAt clock fresh s.world.engine.history req.channel
    Log.caughtUp Publication.offset
      (stream.pubs.filter fun publication => req.position < publication.offset)
      req.position stream.log.length := by
  intro stream
  have offset_eq : stream.offset = stream.log.length :=
    (MemoryEngine.consistent_streamAt consistent clock fresh req.channel).offset_eq
  have pubs := MemoryEngine.historySince_pubs consistent clock fresh req.channel req.position
    req.epoch
  simp only [recoverSince, World.historySince, encodePosition_recovered, pubs,
    MemoryEngine.historySince_position] at recovered
  simp only [Log.caughtUp]
  cases head : (stream.pubs.filter fun publication =>
      req.position < publication.offset).head? with
  | none =>
      rw [head, Bool.and_eq_true] at recovered
      rw [← offset_eq]
      exact recovered.1
  | some first =>
      rw [head, Bool.and_eq_true, decide_eq_true_iff] at recovered
      have later := (List.mem_filter.mp (List.mem_of_head? head)).2
      rw [decide_eq_true_iff] at later ⊢
      -- the successor does not wrap, as it is the offset of a later publication
      have bound := Nat.mod_le (req.position + 1) (2 ^ 64)
      omega

namespace Fanout

variable {s s' : Fanout} {node : Node} {channel : String} {id : ClientId} {i : Nat}
  {task : PublishTask} {event : Event}

/-- What a read finds and returns. -/
def readAt (s : Fanout) (node : Node) (client : Client) (clock : Clock) (fresh : String)
    (baseline : Baseline) : HistoryRead where
  baseline := baseline
  stream := MemoryEngine.streamAt clock fresh s.world.engine.history baseline.channel
  returned := s.returnedTo clock fresh baseline
  result := ((⟨client, s.world⟩ : Session).readBaseline node clock fresh baseline).2
  earlier := s.tasks.length

theorem whole_readAt (sane : s.Sane) (client : Client) (clock : Clock) (fresh : String)
    (baseline : Baseline) : (s.readAt node client clock fresh baseline).Whole := by
  intro basis asked offset after upTo
  cases baseline with
  | top channel =>
      cases asked
      exact absurd after upTo.not_gt
  | since req =>
      obtain ⟨recovered, same⟩ := Option.ite_none_right_eq_some.mp asked
      cases same
      have stream := MemoryEngine.consistent_streamAt sane.consistent clock fresh req.channel
      have test := @Session.caughtUp_of_recovered ⟨client, s.world⟩ node clock fresh req
        sane.consistent recovered
      obtain ⟨-, all⟩ := (Log.caughtUp_iff stream.numbered stream.suffix req.position).mp test
      have top : offset ≤ 0 + _ := upTo.trans (stream.offset_eq.trans (Nat.zero_add _).symm).le
      obtain ⟨publication, mem, rfl⟩ := stream.numbered.exists_mem (Nat.zero_lt_of_lt after) top
      refine List.mem_map_of_mem ?_
      show publication ∈ (s.world.engine.historySince clock fresh req.channel req.position
        req.epoch).2.1
      rw [MemoryEngine.historySince_pubs sane.consistent, List.mem_filter, decide_eq_true_iff]
      exact ⟨all publication mem after, after⟩

/-! ## What becomes of the later publications -/

/-- The publication came to the client, is on its way, or was passed by after the end. -/
def Settled (s : Fanout) (id : ClientId) (channel : String) (i : Nat) (task : PublishTask) :
    Prop :=
  i ∈ (s.windows id channel).missed ∨
    (i, task.publication.offset) ∈ (s.windows id channel).placed ∨ task.awaits id

/-- Nothing is lost between what the read returned and the live publications. -/
structure Gapless (s : Fanout) (id : ClientId) (channel : String) : Prop where
  missed : s.world.subscribed id channel → (s.windows id channel).missed = []
  whole : ∀ read, (s.windows id channel).read = some read → read.Whole
  later : ∀ read, (s.windows id channel).read = some read → ∀ i task, s.tasks[i]? = some task →
    task.channel = channel → read.earlier ≤ i → s.Settled id channel i task

/-- The sends of the channel to the client find room, and its format can carry them. -/
def Arrives (node : Node) (id : ClientId) (channel : String) (s : Fanout) : Event → Prop
  | .send i => ∀ task handle rest, s.next i = some (task, handle, rest) →
      task.channel = channel → handle.id = id → World.reaches (task.push node) s.world handle
  | _ => True

@[simp] theorem missed_settle {world : World} :
    ((s.settle world).windows id channel).missed = (s.windows id channel).missed := by
  simp only [settle]
  split
  next => rfl
  next => rfl

theorem missed_snapshot : ((s.snapshot i task).windows id channel).missed =
    if channel = task.channel ∧ s.world.subscribed id channel = false then
      (s.windows id channel).missed ++ [i]
    else (s.windows id channel).missed := by
  simp only [snapshot]
  split
  next => rfl
  next => rfl

theorem missed_send {handle : ClientHandle} {rest : List ClientHandle} :
    ((s.send node i task handle rest).windows id channel).missed =
      (s.windows id channel).missed := by
  simp only [send]
  split
  next =>
    simp only [updateWindow]
    split
    next here =>
      obtain ⟨rfl, rfl⟩ := here
      exact missed_settle
    next => exact missed_settle
  next => exact missed_settle

/-- The subscribers that are copied have the client, when it is subscribed. -/
theorem awaits_copied (sane : s.Sane) (now : s.world.subscribed id channel) :
    ({ task with rest := some (s.world.hub.subscribers channel) } : PublishTask).awaits id := by
  intro rest copied
  cases copied
  have count := Hub.countP_subscribers sane.keyed id channel
  rw [if_pos (World.subscribed_iff.mp now)] at count
  obtain ⟨handle, mem, same⟩ := List.countP_pos_iff.mp (count ▸ Nat.one_pos)
  exact ⟨handle, mem, of_decide_eq_true same⟩

namespace Gapless

/-- Steps that leave the publishes and the course of the subscription alone. -/
theorem of_same (h : s.Gapless id channel) (tasks : s'.tasks = s.tasks)
    (placed : (s'.windows id channel).placed = (s.windows id channel).placed)
    (read : (s'.windows id channel).read = (s.windows id channel).read)
    (missed : (s'.windows id channel).missed = (s.windows id channel).missed)
    (less : s'.world.subscribed id channel → s.world.subscribed id channel) :
    s'.Gapless id channel := by
  refine ⟨?_, ?_, ?_⟩
  · intro now
    rw [missed]
    exact h.missed (less now)
  · rw [read]
    exact h.whole
  · unfold Settled
    rw [read, tasks, placed, missed]
    exact h.later

theorem of_within (h : s.Gapless id channel) (within : s.world.hub.Within s'.world.hub)
    (tasks : s'.tasks = s.tasks)
    (windows : s'.windows = s.windows ∨ s'.windows = (s.settle s'.world).windows) :
    s'.Gapless id channel := by
  have less := @World.subscribed_of_within _ _ id channel within
  obtain same | same := windows
  · refine h.of_same tasks ?_ ?_ ?_ less
    all_goals rw [same]
  · refine h.of_same tasks ?_ ?_ ?_ less
    · rw [same, placed_settle]
    · rw [same, read_settle]
    · rw [same, missed_settle]

theorem append (h : s.Gapless id channel) {clock : Clock} {fresh name : String} {data : Raw}
    {info : Option ClientInfo} :
    (s.append node clock fresh name data info).Gapless id channel := by
  refine ⟨h.missed, h.whole, ?_⟩
  intro read found j task there same late
  obtain old | ⟨-, rfl⟩ := getElem?_append_singleton there
  · exact h.later read found j task old same late
  · exact .inr (.inr nofun)

theorem snapshot (h : s.Gapless id channel) (sane : s.Sane) (uncopied : s.tasks[i]? = some task) :
    (s.snapshot i task).Gapless id channel := by
  refine ⟨?_, ?_, ?_⟩
  · intro now
    have now : s.world.subscribed id channel = true := now
    rw [missed_snapshot, if_neg fun passed => Bool.false_ne_true (passed.2.symm.trans now)]
    exact h.missed now
  · rw [read_snapshot]
    exact h.whole
  · rw [read_snapshot]
    intro read found j other there same late
    unfold Settled
    rw [missed_snapshot, placed_snapshot]
    obtain ⟨rfl, rfl⟩ | ⟨_, old⟩ := getElem?_set_of_some there
    · obtain rfl : task.channel = channel := same
      cases now : s.world.subscribed id task.channel with
      | true => exact .inr (.inr (awaits_copied sane now))
      | false =>
          rw [if_pos ⟨rfl, rfl⟩]
          exact .inl (List.mem_append_right _ (List.mem_singleton_self j))
    · obtain passed | settled := h.later read found j other old same late
      · left
        split
        next => exact List.mem_append_left _ passed
        next => exact passed
      · exact .inr settled

theorem send {handle : ClientHandle} {rest : List ClientHandle} (h : s.Gapless id channel)
    (next : s.next i = some (task, handle, rest))
    (arrives : s.Arrives node id channel (.send i)) :
    (s.send node i task handle rest).Gapless id channel := by
  obtain ⟨there, copied⟩ := next_eq_some.mp next
  have subscribed := @World.subscribed_deliverTo id channel (task.push node) s.world handle
  rw [← @world_send s node i task handle rest] at subscribed
  have kept : ∀ entry ∈ (s.windows id channel).placed,
      entry ∈ ((s.send node i task handle rest).windows id channel).placed := by
    intro entry mem
    rw [placed_send]
    split
    next => exact List.mem_append_left _ mem
    next => exact mem
  refine ⟨?_, ?_, ?_⟩
  · intro now
    rw [missed_send]
    exact h.missed (subscribed.mp now).1
  · rw [read_send]
    exact h.whole
  · rw [read_send, tasks_send]
    intro read found j other now same late
    unfold Settled
    rw [missed_send]
    obtain ⟨rfl, rfl⟩ | ⟨_, old⟩ := getElem?_set_of_some now
    · obtain passed | placed | awaits := h.later read found j task there same late
      · exact .inl passed
      · exact .inr (.inl (kept _ placed))
      · by_cases mine : handle.id = id
        · have reaches := arrives task handle rest next same mine
          rw [placed_send, if_pos ⟨reaches, mine.symm, Eq.symm same⟩]
          exact .inr (.inl (List.mem_append_right _ (List.mem_singleton_self _)))
        · refine .inr (.inr ?_)
          intro left equal
          cases equal
          obtain ⟨found, inside, his⟩ := awaits _ copied
          obtain rfl | inside := List.mem_cons.mp inside
          · exact absurd his mine
          · exact ⟨found, inside, his⟩
    · obtain passed | placed | awaits := h.later read found j other old same late
      · exact .inl passed
      · exact .inr (.inl (kept _ placed))
      · exact .inr (.inr awaits)

theorem connect (h : s.Gapless id channel) (sane : s.Sane) {handle : ClientHandle}
    (fresh : handle.id ∉ s.ids) : Gapless { s with
      world := { s.world with hub := s.world.hub.add handle }
      ids := s.ids ++ [handle.id] } id channel :=
  h.of_same rfl rfl rfl rfl (subscribed_connect sane fresh)

theorem subscribe (h : s.Gapless id channel) (other : ClientId) (name : String) :
    (s.subscribe other name).Gapless id channel := by
  by_cases here : id = other ∧ channel = name
  · obtain ⟨rfl, rfl⟩ := here
    cases live : s.world.subscribed id channel with
    | true =>
        have window : (s.subscribe id channel).windows id channel =
            { s.windows id channel with awaiting := true } := by
          simp only [Fanout.subscribe, updateWindow, and_self, if_true, live]
        refine h.of_same rfl ?_ ?_ ?_ fun _ => live
        all_goals rw [window]
    | false =>
        have window : ((s.subscribe id channel).windows id channel).read = none ∧
            ((s.subscribe id channel).windows id channel).missed = [] := by
          simp only [Fanout.subscribe, updateWindow, and_self, if_true, live, Bool.false_eq_true,
            if_false]
          split
          next => exact ⟨rfl, rfl⟩
          next => exact ⟨rfl, rfl⟩
        refine ⟨fun _ => window.2, ?_, ?_⟩
        · intro read found
          rw [window.1] at found
          cases found
        · intro read found
          rw [window.1] at found
          cases found
  · have window : (s.subscribe other name).windows id channel = s.windows id channel := by
      simp only [Fanout.subscribe, updateWindow, if_neg here]
    refine h.of_same rfl ?_ ?_ ?_ ?_
    iterate 3 rw [window]
    intro now
    obtain ⟨same, same', -⟩ | live := World.subscribed_subscribe.mp now
    · exact absurd ⟨same, same'⟩ here
    · exact live

theorem read (h : s.Gapless id channel) (sane : s.Sane) (client : Client) (clock : Clock)
    (fresh : String) (baseline : Baseline) :
    (s.read node client clock fresh baseline).Gapless id channel := by
  have kept : (s.read node client clock fresh baseline).world.subscribed id channel =
      s.world.subscribed id channel := by
    refine World.subscribed_congr ?_
    show (Session.readBaseline _ _ _ _ _).1.world.hub = _
    rw [readBaseline_world]
  by_cases here : id = client.id ∧ channel = baseline.channel
  · have window : (s.read node client clock fresh baseline).windows id channel =
        { s.windows id channel with
          awaiting := false
          read := some (s.readAt node client clock fresh baseline) } := by
      simp only [Fanout.read, updateWindow, if_pos here]
      obtain ⟨rfl, rfl⟩ := here
      cases baseline with
      | top _ => rfl
      | since _ => rfl
    refine ⟨?_, ?_, ?_⟩
    · rw [kept, window]
      exact h.missed
    · rw [window]
      intro read found
      cases found
      exact whole_readAt sane client clock fresh baseline
    · rw [window]
      intro read found j task there _ late
      cases found
      -- no publish was appended since
      have inside := (List.getElem?_eq_some_iff.mp there).1
      exact absurd inside (Nat.not_lt.mpr late)
  · have window : (s.read node client clock fresh baseline).windows id channel =
        s.windows id channel := by
      simp only [Fanout.read, updateWindow, if_neg here]
    refine h.of_same rfl ?_ ?_ ?_ fun now => kept ▸ now
    all_goals rw [window]

theorem initial (h : s.Initial) : s.Gapless id channel := by
  obtain ⟨hash, ttl, verifier, queues, rfl⟩ := h
  exact ⟨fun _ => rfl, nofun, nofun⟩

theorem step (h : s.Gapless id channel) (sane : s.Sane) (move : Step node s event s')
    (arrives : s.Arrives node id channel event) : s'.Gapless id channel := by
  unfold Step Fanout.step at move
  cases event with
  | append clock fresh name data info =>
      cases move
      exact h.append
  | snapshot i =>
      simp only [] at move
      split at move
      next task found =>
        split at move
        next =>
          cases move
          exact h.snapshot sane found
        next => cases move
      next => cases move
  | send i =>
      obtain ⟨⟨task, handle, rest⟩, next, rfl⟩ := Option.map_eq_some_iff.mp move
      exact h.send next arrives
  | connect handle =>
      simp only [] at move
      split at move
      next => cases move
      next fresh =>
        cases move
        exact h.connect sane fresh
  | subscribe other name =>
      simp only [] at move
      split at move
      next =>
        cases move
        exact h.subscribe other name
      next => cases move
  | read client clock fresh baseline =>
      simp only [] at move
      split at move
      next =>
        cases move
        exact h.read sane client clock fresh baseline
      next => cases move
  | unsubscribe other name =>
      cases move
      exact h.of_within (Hub.within_unsubscribe _ other name) rfl (.inr rfl)
  | disconnect other =>
      cases move
      exact h.of_within (Hub.within_remove _ other) rfl (.inr rfl)
  | announce message handle =>
      cases message with
      | publication _ _ => cases move
      | join _ _ =>
          cases move
          exact h.of_within (Hub.within_deliverTo _ _ _) rfl (.inr rfl)
      | leave _ _ =>
          cases move
          exact h.of_within (Hub.within_deliverTo _ _ _) rfl (.inr rfl)
  | put tx item =>
      obtain ⟨world, sent, rfl⟩ := Option.map_eq_some_iff.mp move
      exact h.of_within (.of_eq (World.hub_trySend sent).1) rfl (.inl rfl)
  | drain tx =>
      cases move
      exact h.of_within (.refl _) rfl (.inl rfl)
  | release tx =>
      cases move
      exact h.of_within (.refl _) rfl (.inl rfl)
  | slowClose tx =>
      simp only [] at move
      split at move
      next =>
        obtain ⟨world, sent, rfl⟩ := Option.map_eq_some_iff.mp move
        exact h.of_within (.of_eq (World.hub_trySend sent).1) rfl (.inl rfl)
      next => cases move
  | access clock fresh op =>
      cases op with
      | publish _ _ _ _ => cases move
      | _ =>
          cases move
          exact h.of_within (.refl _) rfl (.inl rfl)

end Gapless

/-- Every publication after the basis of the last read came to the client, once its publish is
through. Those that were appended before the read are of the stream that it found. -/
def Lossless (s : Fanout) (id : ClientId) (channel : String) (among : Nat → Prop) : Prop :=
  ∀ read basis, (s.windows id channel).read = some read → read.basis = some basis →
    ∀ i task, s.tasks[i]? = some task → task.channel = channel → task.rest = some [] →
      among i → (read.earlier ≤ i ∨ task.publication.offset ≤ read.stream.offset) →
        basis < task.publication.offset →
          task.publication.offset ∈ read.returned ∨
            (i, task.publication.offset) ∈ (s.windows id channel).placed

/-- The publish was appended before the subscription ended. -/
def appendedBefore (s : Fanout) (id : ClientId) (channel : String) (i : Nat) : Prop :=
  ∀ ending, (s.windows id channel).closed = some ending → i < ending

/-- The publish copied the subscribers before the subscription ended. -/
def copiedBefore (s : Fanout) (id : ClientId) (channel : String) (i : Nat) : Prop :=
  i ∉ (s.windows id channel).missed

/-- Nothing is lost of the publishes that copied the subscribers before the subscription
ended, which all of them do as long as it lasts. -/
theorem lossless_of_arrives
    (run : Reachable Initial (guarded (Step node) (Arrives node id channel)) s) :
    s.Lossless id channel (s.copiedBefore id channel) ∧
      (s.world.subscribed id channel → ∀ i, s.copiedBefore id channel i) := by
  have both : s.Sane ∧ s.Gapless id channel := by
    refine run.invariant (fun s => s.Sane ∧ s.Gapless id channel) ?_ ?_
    · intro s start
      exact ⟨.initial start, .initial start⟩
    · intro s event s' here move
      exact ⟨here.1.step move.2, here.2.step here.1 move.2 move.1⟩
  obtain ⟨-, gapless⟩ := both
  refine ⟨?_, ?_⟩
  · intro read basis found asked i task there same through copied placed after
    obtain late | inside := placed
    · obtain missed | placed | awaits := gapless.later read found i task there same late
      · exact absurd missed copied
      · exact .inr placed
      · obtain ⟨handle, mem, -⟩ := awaits [] through
        cases mem
    · exact .inl (gapless.whole read found basis asked _ after inside)
  · intro now i
    rw [copiedBefore, gapless.missed now]
    exact List.not_mem_nil

open Sample

/-- One publication in the reply, and one that follows. -/
theorem lossless_of_arrives_recovered : ∃ s read,
    Reachable Initial (guarded (Step historyNode) (Arrives historyNode "c1" "news")) s ∧
      (s.windows "c1" "news").read = some read ∧ read.basis = some 0 ∧
      s.received "c1" "news" = [1, 2] ∧
      (s.Lossless "c1" "news" (s.copiedBefore "c1" "news") ∧
        (s.world.subscribed "c1" "news" → ∀ i, s.copiedBefore "c1" "news" i)) := by
  have answered : Reachable Initial
      (guarded (Step historyNode) (Arrives historyNode "c1" "news")) _ :=
    .next (.next (.next (.next (.next (.start emptyFanout_initial)
      (a := .connect listener) ⟨trivial, rfl⟩) (a := published) ⟨trivial, rfl⟩)
      (a := .snapshot 0) ⟨trivial, rfl⟩) (a := .subscribe "c1" "news") ⟨trivial, rfl⟩)
      (a := recovering) ⟨trivial, rfl⟩
  have copied : Reachable Initial
      (guarded (Step historyNode) (Arrives historyNode "c1" "news")) _ :=
    .next (.next answered (a := published) ⟨trivial, rfl⟩) (a := .snapshot 1) ⟨trivial, rfl⟩
  have ends : ∃ s read,
      Reachable Initial (guarded (Step historyNode) (Arrives historyNode "c1" "news")) s ∧
        (s.windows "c1" "news").read = some read ∧ read.basis = some 0 ∧
        s.received "c1" "news" = [1, 2] := by
    refine ⟨_, _, copied.next (a := .send 1) ⟨?_, rfl⟩, rfl, rfl, rfl⟩
    intro task handle rest next _ _
    cases next
    rfl
  obtain ⟨s, read, run, found, basis, received⟩ := ends
  exact ⟨s, read, run, found, basis, received, lossless_of_arrives run⟩

/-- The subscription ends between the append and the copy of the subscribers. -/
theorem not_lossless : ¬ ∀ (node : Node) (channel : String) (s : Fanout) (id : ClientId),
    Reachable Initial (guarded (Step node) (Arrives node id channel)) s →
      s.Lossless id channel (s.appendedBefore id channel) := by
  intro all
  have ended : Reachable Initial
      (guarded (Step historyNode) (Arrives historyNode "c1" "news")) _ :=
    .next (.next (.next (.next (.next (.next (.start emptyFanout_initial)
      (a := .connect listener) ⟨trivial, rfl⟩) (a := .subscribe "c1" "news") ⟨trivial, rfl⟩)
      (a := .read listenerClient (fun _ => noon) "xyz" (.top "news")) ⟨trivial, rfl⟩)
      (a := published) ⟨trivial, rfl⟩) (a := .unsubscribe "c1" "news") ⟨trivial, rfl⟩)
      (a := .snapshot 0) ⟨trivial, rfl⟩
  have lossless := all historyNode "news" _ "c1" ended
  have came := lossless _ 0 rfl rfl 0 _ rfl rfl rfl
    (fun ending closed => by cases closed; exact Nat.one_pos) (.inl (Nat.le_refl 0)) Nat.one_pos
  obtain returned | placed := came
  · cases returned
  · cases placed

end Fanout

end Centrifugo
