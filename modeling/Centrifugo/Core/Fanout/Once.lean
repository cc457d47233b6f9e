import Centrifugo.Core.Fanout.Order

/-!
# Publications that come once

A SUBSCRIBE that recovers is registered before it reads the history. A publication that is
appended before the read can come both ways, in the reply and as a push. Nothing comes twice
in every run in which no read finds a publication that was pushed to the client, or is on its
way.
-/

namespace Centrifugo

namespace Fanout

variable {s s' : Fanout} {node : Node} {channel : String} {id : ClientId} {event : Event}
  {clock : Clock} {fresh : String} {req : SubscribeRequest}

/-- What a client got from its last subscription: the offsets in the reply, and those of the
pushes since it was registered. -/
def received (s : Fanout) (id : ClientId) (channel : String) : List Nat :=
  (s.feed id channel).returned ++ (s.feed id channel).placed

/-- A read finds nothing after the position that came to the queue of the client since it was
registered, or is on its way. -/
def ReadsFirst (channel : String) (s : Fanout) : Event → Prop
  | .read client clock fresh (.since req) => req.channel = channel →
      s.world.engine.resets clock channel = false ∧
        ∀ publication ∈ (MemoryEngine.streamAt clock fresh s.world.engine.history channel).pubs,
          req.position < publication.offset →
            publication.offset ∉ (s.feed client.id channel).placed ∧
              publication.offset ∉ (s.feed client.id channel).due
  | event => s.keepsStream channel event

/-- The publications of the reply are those of which `returned` has the offsets. -/
theorem publications_recoverSince (client : Client) (world : World) :
    ∃ pubs : List Publication,
      ((⟨client, world⟩ : Session).recoverSince node clock fresh req).2.publications =
          (if node.useSeqGen then (pubs.map Publication.toSeqGen).reverse else pubs) ∧
        pubs.map Publication.offset = (world.historySince clock fresh req.channel req.position
          req.epoch).2.1.map Publication.offset := by
  refine ⟨_, ?_, rfl⟩
  simp only [Session.recoverSince, encodePosition]
  split
  next => rfl
  next => rfl

theorem returnedTo_sublist : (s.returnedTo clock fresh (.since req)).Sublist
    (((MemoryEngine.streamAt clock fresh s.world.engine.history req.channel).pubs.filter
      fun publication => req.position < publication.offset).map Publication.offset) := by
  refine List.Sublist.map _ ?_
  show (s.world.engine.historySince clock fresh req.channel req.position req.epoch).2.1.Sublist _
  simp only [MemoryEngine.historySince]
  split
  next => exact List.nil_sublist _
  next => exact List.Sublist.refl _

theorem mem_returnedTo {n : Nat} (mem : n ∈ s.returnedTo clock fresh (.since req)) :
    ∃ publication ∈ (MemoryEngine.streamAt clock fresh s.world.engine.history req.channel).pubs,
      req.position < publication.offset ∧ publication.offset = n := by
  obtain ⟨publication, kept, rfl⟩ := List.mem_map.mp (returnedTo_sublist.subset mem)
  obtain ⟨inside, later⟩ := List.mem_filter.mp kept
  exact ⟨publication, inside, of_decide_eq_true later, rfl⟩

/-- The reply has no offset twice. -/
theorem nodup_returnedTo (sane : s.Sane) : (s.returnedTo clock fresh (.since req)).Nodup := by
  have stream := MemoryEngine.consistent_streamAt sane.consistent clock fresh req.channel
  refine List.Nodup.sublist returnedTo_sublist ?_
  have increasing := stream.numbered.increasing.sublist stream.suffix.sublist
  exact List.pairwise_map.mpr ((increasing.filter _).imp fun less => Nat.ne_of_lt less)

theorem returnedTo_le_top (sane : s.Sane) (same : req.channel = channel)
    (keeps : s.world.engine.resets clock channel = false) {n : Nat}
    (mem : n ∈ s.returnedTo clock fresh (.since req)) : n ≤ (s.feed id channel).top := by
  subst same
  obtain ⟨publication, kept, -, rfl⟩ := mem_returnedTo mem
  have stream := MemoryEngine.consistent_streamAt sane.consistent clock fresh req.channel
  have bound := (stream.numbered.bounds (stream.suffix.subset kept)).2
  rw [Nat.zero_add, ← stream.offset_eq, MemoryEngine.streamAt_offset, keeps] at bound
  exact bound

theorem keepsStream_of_readsFirst (first : s.ReadsFirst channel event) :
    s.keepsStream channel event := by
  cases event with
  | read client clock fresh baseline =>
      cases baseline with
      | top _ => exact first
      | since _ => exact fun same => (first same).1
  | _ => exact first

theorem distinct_step (sane : s.Sane) (history : node.keepsHistory channel)
    (h : (s.feed id channel).Distinct) (move : Step node s event s')
    (first : s.ReadsFirst channel event) : (s'.feed id channel).Distinct := by
  cases shift sane history (keepsStream_of_readsFirst first) move id with
  | same feed _ => rwa [feed]
  | issued feed _ =>
      rw [feed]
      exact h.issue
  | passed _ _ _ _ split feed =>
      rw [feed]
      exact h.lose split
  | arrived _ _ _ _ split feed =>
      rw [feed]
      exact h.arrive split
  | lost _ _ _ _ split feed =>
      rw [feed]
      exact h.lose split
  | began _ _ feed =>
      have less : (s.feed id channel).due ≤ (s.feed id channel).all := Multiset.le_add_left _ _
      rw [feed]
      exact .begin (Multiset.nodup_of_le less h.nodup)
        fun m mem => h.bounded m (Multiset.mem_of_le less mem)
  | @caught client clock fresh baseline _ mine same feed _ =>
      subst mine
      rw [feed]
      cases baseline with
      | top _ => exact h.catchUp List.nodup_nil nofun nofun
      | since req =>
          obtain ⟨keeps, apart⟩ := first same
          refine h.catchUp (nodup_returnedTo sane) ?_ ?_
          · intro m mem
            exact returnedTo_le_top sane same keeps mem
          · intro m mem
            obtain ⟨publication, kept, later, rfl⟩ := mem_returnedTo mem
            rw [show req.channel = channel from same] at kept
            exact apart publication kept later

/-- Nothing comes twice in a run in which every read finds only what the client did not get. -/
theorem received_nodup (history : node.keepsHistory channel)
    (run : Reachable Initial (guarded (Step node) (ReadsFirst channel)) s) (id : ClientId) :
    (s.received id channel).Nodup := by
  have both : s.Sane ∧ (s.feed id channel).Distinct := by
    refine run.invariant (fun s => s.Sane ∧ (s.feed id channel).Distinct) ?_ ?_
    · intro s start
      refine ⟨.initial start, ?_⟩
      obtain ⟨hash, ttl, verifier, queues, rfl⟩ := start
      exact ⟨Multiset.nodup_zero, fun m mem => absurd mem (Multiset.notMem_zero m)⟩
    · intro s event s' here move
      exact ⟨here.1.step move.2, distinct_step here.1 history here.2 move.2 move.1⟩
  exact both.2.answers

end Fanout

/-! ## One publication in between -/

namespace Sample

def listenerClient : Client := { id := "c1", proto := .protobuf, tx := 0 }

/-- The history is read from its beginning. -/
def recovering : Fanout.Event := .read listenerClient (fun _ => noon) "xyz"
  (.since { channel := "news", recover := true, epoch := "xyz" })

end Sample

namespace Fanout

open Sample

theorem received_nodup_recovered :
    ∃ s, Reachable Initial (guarded (Step historyNode) (ReadsFirst "news")) s ∧
      s.received "c1" "news" = [1, 2] ∧ (s.received "c1" "news").Nodup := by
  have ready : Reachable Initial (guarded (Step historyNode) (ReadsFirst "news")) _ :=
    .next (.next (.next (.next (.start emptyFanout_initial)
      (a := .connect listener) ⟨trivial, rfl⟩) (a := published) ⟨fun _ => rfl, rfl⟩)
      (a := .snapshot 0) ⟨trivial, rfl⟩) (a := .subscribe "c1" "news") ⟨trivial, rfl⟩
  have answered : Reachable Initial (guarded (Step historyNode) (ReadsFirst "news")) _ :=
    ready.next (a := recovering)
      ⟨fun _ => ⟨rfl, fun _ _ _ => ⟨List.not_mem_nil, Multiset.notMem_zero _⟩⟩, rfl⟩
  have sent : Reachable Initial (guarded (Step historyNode) (ReadsFirst "news")) _ :=
    .next (.next (.next answered (a := published) ⟨fun _ => rfl, rfl⟩)
      (a := .snapshot 1) ⟨trivial, rfl⟩) (a := .send 1) ⟨trivial, rfl⟩
  have history : historyNode.keepsHistory "news" := rfl
  exact ⟨_, sent, rfl, received_nodup history sent "c1"⟩

/-- A publication between the registration and the read comes in the reply and as a push. -/
theorem not_received_nodup : ¬ ∀ (node : Node) (channel : String) (s : Fanout) (id : ClientId),
    node.keepsHistory channel → Reachable Initial (Step node) s →
      (s.received id channel).Nodup := by
  intro all
  let events : List Event := [.connect listener, .subscribe "c1" "news", published, recovering,
    .snapshot 0, .send 0]
  have ends : (events.foldlM (fun (s : Fanout) event => s.step historyNode event) emptyFanout).any
      (fun s => s.received "c1" "news" = [1, 1]) := by
    decide +kernel
  obtain ⟨s, found, last⟩ := (Option.any_eq_true _ _).mp ends
  have run : Steps (Step historyNode) emptyFanout events s :=
    .of_foldlM (fun _ _ _ move => move) found
  have nodup := all historyNode "news" s "c1" rfl (run.reachable (.start emptyFanout_initial))
  rw [of_decide_eq_true last] at nodup
  exact absurd nodup (by decide)

end Fanout

end Centrifugo
