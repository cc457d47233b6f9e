import Centrifugo.Server.Delivery
import Centrifugo.Server.Push

/-!
# Routing a message

A message that is routed is offered to each subscriber of its channel, and no subscriber shares
its queue with another. So every subscriber with room gets the frame of its format once, and
`Routes` says what the two frames are decoded to.
-/

namespace Centrifugo

open Json Codec

/-- A queue to which an item was offered. -/
def Queue.offer (queue : Queue) (item : Out Sent) : Queue :=
  if queue.hasRoom then { queue with items := queue.items ++ [item] } else queue

namespace World

variable {push : Sent} {world : World} {handle : ClientHandle} {tx : QueueId}

theorem lookup_deliverTo : (deliverTo push world handle).queues.lookup tx =
    (world.queues.lookup tx).map fun queue =>
      if push.encodable handle.proto ∧ handle.tx = tx then queue.offer (.frame push)
      else queue := by
  unfold deliverTo
  split
  next encodable =>
    simp only [encodable, true_and]
    by_cases mine : handle.tx = tx
    · subst mine
      cases found : world.queues.lookup handle.tx with
      | none => simp [trySend, found, dropSlow]
      | some queue =>
          by_cases room : queue.hasRoom <;>
            simp [trySend, found, room, Queue.offer, dropSlow]
    · simp only [if_neg mine, Option.map_id']
      unfold trySend
      split
      · rfl
      · split
        · exact AList.lookup_insert_ne (Ne.symm mine)
        · rfl
  next unencodable => simp [unencodable]

/-- A queue is offered the push once, when the queues of the subscribers are distinct. -/
theorem lookup_deliverAll {handles : List ClientHandle}
    (encodable : ∀ handle ∈ handles, push.encodable handle.proto)
    (distinct : (handles.map ClientHandle.tx).Nodup) :
    (handles.foldl (deliverTo push) world).queues.lookup tx =
      (world.queues.lookup tx).map fun queue =>
        if tx ∈ handles.map ClientHandle.tx then queue.offer (.frame push) else queue := by
  induction handles generalizing world with
  | nil => simp
  | cons handle rest ih =>
      obtain ⟨fresh, distinct⟩ := List.nodup_cons.mp distinct
      rw [List.foldl_cons, ih (fun other mem => encodable other (List.mem_cons_of_mem _ mem))
        distinct, lookup_deliverTo, Option.map_map]
      refine congrArg (fun change => (world.queues.lookup tx).map change) (funext fun queue => ?_)
      have served := encodable handle List.mem_cons_self
      by_cases mine : handle.tx = tx
      · subst mine
        simp [served, fresh]
      · have apart : tx ≠ handle.tx := Ne.symm mine
        simp [served, mine, apart]

end World

/-! ## Distinct queues -/

theorem Server.Issued.id_eq {s : Server} {handle other : ClientHandle} (h : s.Issued handle)
    (h' : s.Issued other) (same : handle.tx = other.tx) : handle.id = other.id := by
  obtain ⟨job, found, _, id, _, _⟩ := h
  obtain ⟨job', found', _, id', _, _⟩ := h'
  rw [same, found'] at found
  cases found
  exact id.symm.trans id'

/-- No two subscribers have one queue. -/
theorem Registry.nodup_tx {s : Server} (h : Registry s) (channel : String) :
    ((s.shared.world.hub.subscribers channel).map ClientHandle.tx).Nodup := by
  refine List.Nodup.map_on ?_ (Hub.nodup_subscribers channel fun found => (h.conns found).1)
  intro handle mem other mem' same
  obtain ⟨id, _, found⟩ := Hub.mem_subscribers.mp mem
  obtain ⟨id', _, found'⟩ := Hub.mem_subscribers.mp mem'
  obtain ⟨rfl, issued⟩ := h.conns found
  obtain ⟨rfl, issued'⟩ := h.conns found'
  rw [issued.id_eq issued' same, found'] at found
  exact (Option.some.inj found).symm

/-! ## Who gets what -/

/-- The connection is registered and subscribed to the channel. -/
def World.Subscriber (world : World) (channel : String) (handle : ClientHandle) : Prop :=
  world.hub.conns.lookup handle.id = some handle ∧ handle.id ∈ world.hub.subscriberIds channel

instance (world : World) (channel : String) (handle : ClientHandle) :
    Decidable (world.Subscriber channel handle) :=
  inferInstanceAs (Decidable (_ ∧ _))

/-- What a message does to the queues, and what clients decode of its frames. -/
structure Routes (node : Node) (world : World) (message : NodeMessage) : Prop where
  /-- Every subscriber with room gets the push. -/
  served : ∀ {handle queue}, world.Subscriber message.channel handle →
    world.queues.lookup handle.tx = some queue → queue.hasRoom →
    (world.route node.useSeqGen message).queues.lookup handle.tx =
      some { queue with items := queue.items ++ [.frame (message.toPush node.useSeqGen)] }
  /-- No other queue is touched. -/
  untouched : ∀ {tx}, (∀ handle, world.Subscriber message.channel handle → handle.tx = tx →
      world.hasRoom tx = false) →
    (world.route node.useSeqGen message).queues.lookup tx = world.queues.lookup tx
  /-- A JSON client decodes the push, its payloads as they are read from JSON. -/
  json : ∃ frame, (message.toPush node.useSeqGen).pushFrame .json = some frame ∧
    Sent.ofFrame .json frame = some (message.toPush node.useSeqGen).reread
  /-- A protobuf client decodes the push. -/
  protobuf : ∃ frame, (message.toPush node.useSeqGen).pushFrame .protobuf = some frame ∧
    (frame.length < 2 ^ 64 → Sent.ofFrame .protobuf frame = some (message.toPush node.useSeqGen))
  /-- The two are the same push, when no payload is `null` or stands between whitespace. -/
  agree : (∀ raw ∈ message.payloads, raw.Exact) →
    (message.toPush node.useSeqGen).reread = message.toPush node.useSeqGen
  /-- In seq/gen mode, the position is the unpacked offset. -/
  position : ∀ {channel body}, message = .publication channel body → node.useSeqGen →
    (body.offset = 0 → body.seq = 0 ∧ body.gen = 0) →
    message.toPush node.useSeqGen = .publication channel body.toSeqGen

theorem Hub.mem_subscribers_iff {world : World} {channel : String} {handle : ClientHandle}
    (named : ∀ {id handle}, world.hub.conns.lookup id = some handle → handle.id = id) :
    handle ∈ world.hub.subscribers channel ↔ world.Subscriber channel handle := by
  rw [Hub.mem_subscribers]
  constructor
  · rintro ⟨id, subscribed, found⟩
    obtain rfl := named found
    exact ⟨found, subscribed⟩
  · rintro ⟨found, subscribed⟩
    exact ⟨handle.id, subscribed, found⟩

theorem NodeMessage.toPush_encodable {message : NodeMessage} {useSeqGen : Bool}
    (valid : ∀ raw ∈ message.payloads, raw.Valid) (fits : message.Fits) (proto : ProtocolType) :
    (message.toPush useSeqGen).encodable proto := by
  cases proto with
  | protobuf => cases message <;> simp only [toPush] <;> (try split) <;> rfl
  | json =>
      obtain ⟨frame, framed, _⟩ := @toPush_json message useSeqGen valid fits
      have whole : ((message.toPush useSeqGen).pushFrame .json).isSome := by rw [framed]; rfl
      cases message with
      | publication ch body =>
          obtain ⟨sent, same, -⟩ := @toPush_publication useSeqGen ch body
          rw [same] at whole ⊢
          simpa [Sent.encodable, Sent.pushFrame, makePushFrameIn] using whole
      | join ch info => simpa [toPush, Sent.encodable, Sent.pushFrame, makePushFrameIn] using whole
      | leave ch info => simpa [toPush, Sent.encodable, Sent.pushFrame, makePushFrameIn] using whole

theorem NodeMessage.toPush_toSeqGen {channel : String} {body : Publication}
    (start : body.offset = 0 → body.seq = 0 ∧ body.gen = 0) :
    (NodeMessage.publication channel body).toPush true = .publication channel body.toSeqGen := by
  by_cases zero : body.offset = 0
  · obtain ⟨seq, gen⟩ := start zero
    obtain ⟨_, _, _, _, _, _⟩ := body
    subst zero seq gen
    simp [toPush, Publication.toSeqGen, unpackOffset]
  · simp [toPush, zero]

theorem routed {node : Node} {s : Server} (reached : Server.Reached node s)
    {message : NodeMessage} (valid : ∀ raw ∈ message.payloads, raw.Valid) (fits : message.Fits) :
    Routes node s.shared.world message := by
  have registry := Registry.of_reached reached
  have queues : ∀ tx, (s.shared.world.route node.useSeqGen message).queues.lookup tx = _ :=
    fun tx => World.lookup_deliverAll (fun handle _ => NodeMessage.toPush_encodable valid fits _)
      (registry.nodup_tx message.channel)
  have subscriber : ∀ {handle}, handle ∈ s.shared.world.hub.subscribers message.channel ↔ _ :=
    Hub.mem_subscribers_iff fun found => (registry.conns found).1
  refine ⟨?_, ?_, NodeMessage.toPush_json valid fits, ?_, NodeMessage.reread_toPush valid, ?_⟩
  · intro handle queue subscribed found room
    have listed := List.mem_map_of_mem (f := ClientHandle.tx) (subscriber.mpr subscribed)
    rw [queues, found, Option.map_some, if_pos listed, Queue.offer, if_pos room]
  · intro tx full
    rw [queues]
    cases found : s.shared.world.queues.lookup tx with
    | none => rfl
    | some queue =>
        rw [Option.map_some]
        split
        next listed =>
          obtain ⟨handle, mem, same⟩ := List.mem_map.mp listed
          have crowded := full handle (subscriber.mp mem) same
          rw [World.hasRoom, found, Option.any_some] at crowded
          simp [Queue.offer, crowded]
        next => rfl
  · obtain ⟨frame, framed⟩ : ∃ frame,
        (message.toPush node.useSeqGen).pushFrame .protobuf = some frame := by
      cases message <;> simp only [NodeMessage.toPush] <;> (try split) <;> exact ⟨_, rfl⟩
    exact ⟨frame, framed, NodeMessage.toPush_protobuf valid fits framed⟩
  · rintro channel body rfl mode start
    rw [mode]
    exact NodeMessage.toPush_toSeqGen start

/-! ## A reader in each format -/

namespace Sample

def mixedReaders : List Turn := joins 0 .json "2a1f" ++ joins 1 .protobuf "7c03"

/-- A publication with its offset in the history. -/
def story : NodeMessage :=
  .publication "news" { data := some (.ofText "\"extra\"".toList), offset := 2 ^ 32 + 7 }

/-- `null` is a JSON text. -/
def blank : NodeMessage := .publication "news" { data := some (.ofText RawValue.null.text) }

theorem payload_valid (value : RawValue) : (Raw.ofText value.text).Valid :=
  ⟨value.text, Raw.text?_ofText _, by rw [trim_of_isValue value.valid]; exact value.valid⟩

end Sample

open Sample

theorem routed_story : Routes pressNode (after pressNode mixedReaders).shared.world story := by
  have fits : story.Fits := by
    show 2 ^ 32 + 7 < 2 ^ 64
    decide
  refine routed (after_reached (by decide +kernel)) ?_ fits
  intro raw mem
  cases List.mem_singleton.mp mem
  exact payload_valid (.string "extra")

/-- The two readers decode different payloads. -/
theorem not_routed_null : ¬ ∀ (node : Node) (s : Server) (message : NodeMessage),
    Server.Reached node s → (∀ raw ∈ message.payloads, raw.Valid) → message.Fits →
    ∀ handle other, s.shared.world.Subscriber message.channel handle → handle.proto = .json →
      s.shared.world.Subscriber message.channel other → other.proto = .protobuf →
      ((message.toPush node.useSeqGen).pushFrame .json).bind (Sent.ofFrame .json) =
        ((message.toPush node.useSeqGen).pushFrame .protobuf).bind (Sent.ofFrame .protobuf) := by
  intro all
  have reached : Server.Reached pressNode (after pressNode mixedReaders) :=
    after_reached (by decide +kernel)
  have valid : ∀ raw ∈ blank.payloads, raw.Valid := by
    intro raw mem
    cases List.mem_singleton.mp mem
    exact payload_valid .null
  have same := all pressNode _ blank reached valid (Nat.two_pow_pos 64)
    ⟨"2a1f", "42", .json, 0, some 0⟩
    ⟨"7c03", "42", .protobuf, 1, some 1⟩ (by decide +kernel) rfl (by decide +kernel) rfl
  exact absurd same (by decide +kernel)

end Centrifugo
