import Centrifugo.Core.Fanout.View

/-!
# Live publications in order

Publishes to one channel overtake each other between the append and the sends, and a client
then gets their offsets out of order, or with a gap. It gets them one after the other in every
run in which no publish passes an earlier one on the way to the same client.
-/

namespace Centrifugo

open Feed

namespace Fanout

/-- No earlier publication is on its way to the client. -/
def isOldest (s : Fanout) (id : ClientId) (channel : String) (offset : Nat) : Prop :=
  ∀ earlier ∈ (s.feed id channel).due, offset ≤ earlier

/-- What is on its way to the client are the last publications of the stream. -/
def isTail (s : Fanout) (id : ClientId) (channel : String) : Prop :=
  ∃ count ≤ s.world.engine.top channel, (s.feed id channel).due =
    ↑(List.range' (s.world.engine.top channel + 1 - count) count)

/-- No publish passes an earlier one on the way to a subscriber, and a client that subscribes is
not passed by one while an earlier one is still to come. A stream that has subscribers is kept. -/
def InTurn (node : Node) (channel : String) (s : Fanout) : Event → Prop
  | .subscribe id name => name = channel → (s.world.hub.conns.lookup id).isSome →
      s.world.subscribed id channel = false → s.isTail id channel
  | .send i => ∀ task handle rest, s.next i = some (task, handle, rest) →
      task.channel = channel → s.world.subscribed handle.id channel →
        s.isOldest handle.id channel task.publication.offset ∧
          (task.push node).encodable handle.proto
  | event => s.keepsStream channel event ∨ ∀ id, s.world.subscribed id channel = false

/-- What a subscriber got and what is on its way to it make up the end of the stream. -/
structure Rolling (s : Fanout) (channel : String) : Prop where
  sane : s.Sane
  inStep : ∀ id, s.world.subscribed id channel → (s.feed id channel).InStep

variable {s s' : Fanout} {node : Node} {channel : String} {id : ClientId} {i : Nat}
  {task : PublishTask} {event : Event}

theorem isOldest.rest {n : Nat} {due : Multiset Nat} (h : s.isOldest id channel n)
    (split : (s.feed id channel).due = n ::ₘ due) : ∀ m ∈ due, n ≤ m := by
  intro m mem
  exact h m (split ▸ Multiset.mem_cons_of_mem mem)

theorem isTail.begin (h : s.isTail id channel) : (s.feed id channel).begin.InStep := by
  obtain ⟨count, short, due⟩ := h
  refine ⟨s.world.engine.top channel + 1 - count, count, rfl, due, ?_⟩
  show s.world.engine.top channel + 1 - count + 0 + count = s.world.engine.top channel + 1
  omega

theorem keepsStream_of_inTurn (turn : s.InTurn node channel event) :
    s.keepsStream channel event ∨ ∀ id, s.world.subscribed id channel = false := by
  cases event with
  | subscribe _ _ => exact .inl trivial
  | send _ => exact .inl trivial
  | _ => exact turn

/-- A step that drops the stream leaves the subscriptions alone. -/
theorem subscribed_of_resets (move : Step node s event s')
    (resets : ¬ s.keepsStream channel event) (id : ClientId) :
    s'.world.subscribed id channel = s.world.subscribed id channel := by
  unfold Step Fanout.step at move
  cases event with
  | append clock fresh name data info =>
      cases move
      rfl
  | read client clock fresh baseline =>
      simp only [] at move
      split at move
      next =>
        cases move
        have world : (s.read node client clock fresh baseline).world =
            { s.world with engine := (s.world.engine.touch clock fresh baseline.channel).1 } :=
          readBaseline_world client s.world clock fresh baseline
        rw [world]
        rfl
      next => cases move
  | access clock fresh op =>
      cases op with
      | publish _ _ _ _ => cases move
      | _ =>
          cases move
          rfl
  | _ => exact absurd trivial resets

namespace Rolling

theorem initial (h : s.Initial) : s.Rolling channel := by
  refine ⟨.initial h, fun id now => ?_⟩
  obtain ⟨hash, ttl, verifier, queues, rfl⟩ := h
  cases now

theorem step (h : s.Rolling channel) (history : node.keepsHistory channel)
    (move : Step node s event s') (turn : s.InTurn node channel event) : s'.Rolling channel := by
  refine ⟨h.sane.step move, fun id now => ?_⟩
  by_cases keeps : s.keepsStream channel event
  · cases shift h.sane history keeps move id with
    | same feed less =>
        rw [feed]
        exact h.inStep id (less now)
    | issued feed kept =>
        rw [feed]
        exact (h.inStep id (kept ▸ now)).issue
    | passed _ _ _ idle =>
        rw [idle] at now
        cases now
    | arrived next same mine kept split feed =>
        subst mine
        rw [kept] at now
        obtain ⟨oldest, -⟩ := turn _ _ _ next same now
        rw [feed]
        exact (h.inStep _ now).arrive split (oldest.rest split)
    | lost next same mine skipped =>
        -- a subscriber that is skipped could not be sent the push
        subst mine
        obtain ⟨live, garbled⟩ := skipped now
        obtain ⟨-, encodes⟩ := turn _ _ _ next same live
        rw [encodes] at garbled
        cases garbled
    | began idle registered feed =>
        rw [feed]
        exact (turn rfl (registered now) idle).begin
    | caught _ _ feed kept =>
        rw [feed]
        exact (h.inStep id (kept ▸ now)).of_eq rfl rfl rfl
  · have idle := (keepsStream_of_inTurn turn).resolve_left keeps id
    rw [subscribed_of_resets move keeps id, idle] at now
    cases now

end Rolling

/-- What a subscriber got since it subscribed has consecutive offsets. -/
def Ordered (s : Fanout) (channel : String) : Prop :=
  ∀ id, s.world.subscribed id channel →
    Consecutive ((s.windows id channel).placed.map Prod.snd)

/-- Subscribers get the publications of a stream without a gap and in order, in every run in
which no publish passes an earlier one. -/
theorem ordered_of_inTurn (history : node.keepsHistory channel)
    (run : Reachable Initial (guarded (Step node) (InTurn node channel)) s) :
    s.Ordered channel := by
  have rolling : s.Rolling channel :=
    run.invariant (fun s => s.Rolling channel) (fun _ start => .initial start)
      fun _ _ _ here move => here.step history move.2 move.1
  intro id now
  exact (rolling.inStep id now).consecutive

end Fanout

/-! ## Two publishes -/

namespace Sample

/-- Every channel has a history. -/
def historyNode : Node :=
  { node with
    namespaces := { default :=
      { historySize := 10, historyLifetime := 60, historyRecover := true } } }

def listener : ClientHandle := ⟨"c1", "42", .protobuf, 0, none⟩

def emptyFanout : Fanout where
  world := { world with queues := (∅ : Map QueueId Queue).insert 0 {} }

theorem emptyFanout_initial : emptyFanout.Initial := ⟨_, _, _, _, rfl⟩

/-- A publish up to its append. -/
def published : Fanout.Event := .append (fun _ => noon) "xyz" "news" ⟨[123, 125]⟩ none

def latecomer : ClientHandle := ⟨"c2", "43", .json, 1, none⟩

def onward (s : Fanout) (event : Fanout.Event) : Fanout := (s.step historyNode event).getD s

/-- The second publish copies the subscribers before the first one does. -/
def overlapped : Fanout :=
  [.connect listener, .subscribe "c1" "news", published, published, .snapshot 1, .snapshot 0,
    .send 0, .connect latecomer, .subscribe "c2" "news", .send 1].foldl onward emptyFanout

end Sample

namespace Fanout

open Sample

theorem onward_inTurn {s : Fanout}
    (run : Reachable Initial (guarded (Step historyNode) (InTurn historyNode "news")) s)
    (event : Event) (turn : s.InTurn historyNode "news" event)
    (moves : (s.step historyNode event).isSome) :
    Reachable Initial (guarded (Step historyNode) (InTurn historyNode "news"))
      (onward s event) := by
  obtain ⟨s', found⟩ := Option.isSome_iff_exists.mp moves
  have next : onward s event = s' := by rw [onward, found, Option.getD_some]
  rw [next]
  exact run.next ⟨turn, found⟩

theorem inTurn_send {s : Fanout} {i : Nat} (handle : ClientHandle) (offset : Nat) (due : List Nat)
    (next : (s.next i).map (fun found => (found.2.1, found.1.publication.offset,
      (found.1.push historyNode).encodable found.2.1.proto)) = some (handle, offset, true))
    (waiting : (s.feed handle.id "news").due = ↑due) (oldest : ∀ n ∈ due, offset ≤ n) :
    s.InTurn historyNode "news" (.send i) := by
  intro task handle' rest found _ _
  rw [found, Option.map_some, Option.some.injEq, Prod.mk.injEq, Prod.mk.injEq] at next
  obtain ⟨rfl, rfl, encodable⟩ := next
  refine ⟨fun earlier mem => ?_, encodable⟩
  rw [waiting] at mem
  exact oldest earlier mem

/-- Two publishes overlap, and another client comes between their sends. -/
theorem ordered_of_inTurn_overlapping :
    (overlapped.windows "c1" "news").placed = [(0, 1), (1, 2)] ∧ overlapped.Ordered "news" := by
  have subscribed := onward_inTurn (onward_inTurn (.start emptyFanout_initial)
    (.connect listener) (.inl trivial) rfl) (.subscribe "c1" "news")
    (fun _ _ _ => ⟨0, Nat.zero_le _, rfl⟩) rfl
  have appended := onward_inTurn (onward_inTurn subscribed published (.inl fun _ => rfl) rfl)
    published (.inl fun _ => rfl) rfl
  have copied := onward_inTurn (onward_inTurn appended (.snapshot 1) (.inl trivial) rfl)
    (.snapshot 0) (.inl trivial) rfl
  have sent := onward_inTurn copied (.send 0)
    (inTurn_send listener 1 [1, 2] rfl rfl (by decide)) rfl
  have joined := onward_inTurn (onward_inTurn sent (.connect latecomer) (.inl trivial) rfl)
    (.subscribe "c2" "news") (fun _ _ _ => ⟨0, Nat.zero_le _, rfl⟩) rfl
  have run := onward_inTurn joined (.send 1) (inTurn_send listener 2 [2] rfl rfl (by decide)) rfl
  have history : historyNode.keepsHistory "news" := rfl
  exact ⟨rfl, ordered_of_inTurn history run⟩

/-- The second publish sends before the first. -/
theorem not_ordered : ¬ ∀ (node : Node) (channel : String) (s : Fanout),
    node.keepsHistory channel → Reachable Initial (Step node) s → s.Ordered channel := by
  intro all
  let events : List Event := [.connect listener, .subscribe "c1" "news", published, published,
    .snapshot 0, .snapshot 1, .send 1, .send 0]
  have ends : (events.foldlM (fun (s : Fanout) event => s.step historyNode event) emptyFanout).any
      (fun s => s.world.subscribed "c1" "news" ∧
        (s.windows "c1" "news").placed = [(1, 2), (0, 1)]) := by
    decide +kernel
  obtain ⟨s, found, last⟩ := (Option.any_eq_true _ _).mp ends
  obtain ⟨subscribed, placed⟩ := of_decide_eq_true last
  have run : Steps (Step historyNode) emptyFanout events s :=
    .of_foldlM (fun _ _ _ move => move) found
  have ordered := all historyNode "news" s rfl (run.reachable (.start emptyFanout_initial)) "c1"
    subscribed
  rw [placed] at ordered
  simp [Consecutive] at ordered

end Fanout

end Centrifugo
