import Centrifugo.Redis.Stream

/-!
# Live messages

What a node receives of a publication, a join or a leave that went through Redis is what the
memory engine routes for the same call. An empty info becomes an absent one on the way. A
publication with a history has the same offset in the frame and in the list.
-/

namespace Centrifugo

open Json Proto Redis

/-- The calls of an engine that are fanned out. -/
inductive LiveCall
  | publish (channel : String) (data : Raw) (info : Option ClientInfo) (opts : PublishOptions)
  | join (channel : String) (info : ClientInfo)
  | leave (channel : String) (info : ClientInfo)

namespace LiveCall

def channel : LiveCall → String
  | publish channel .. | join channel _ | leave channel _ => channel

def kept : LiveCall → Bool
  | publish _ _ _ opts => opts.historyEnabled
  | _ => false

/-- The encoded message in the frame of a call. -/
def body : LiveCall → Bytes
  | publish _ data info _ =>
      encode ({ data := data.bytes, info := info.map ClientInfo.toPb } : Pb.Publication)
  | join _ info | leave _ info => encode info.toPb

end LiveCall

def Publication.present (publication : Publication) : Publication :=
  { publication with info := publication.info.map ClientInfo.present }

/-- A message whose empty infos are absent. -/
def NodeMessage.present : NodeMessage → NodeMessage
  | .publication channel body => .publication channel body.present
  | .join channel info => .join channel info.present
  | .leave channel info => .leave channel info.present

/-- What the memory engine routes for a call. -/
def MemoryEngine.routes (engine : MemoryEngine) (clock : Clock) (fresh : String) :
    LiveCall → NodeMessage
  | .publish channel data info opts =>
      .publication channel (engine.append clock fresh channel data info opts).2
  | .join channel info => .join channel info
  | .leave channel info => .leave channel info

namespace RedisEngine

variable {engine : RedisEngine}

def send (engine : RedisEngine) : LiveCall → Script Unit
  | .publish channel data info opts => engine.publish channel data info opts
  | .join channel info => engine.publishJoin channel info
  | .leave channel info => engine.publishLeave channel info

/-- How many publications the stream of a channel has had. -/
def topOffset (engine : RedisEngine) (channel : String) (store : Store) : Option Nat :=
  (store.hashAt (engine.metaKey channel)).bind fun fields => Script.count (fields.lookup "s")

theorem few_of_topOffset {channel : String} {store : Store} {m : Nat}
    (top : engine.topOffset channel store = some m) (few : m + 1 < 10 ^ 14) :
    ∀ n, engine.topOffset channel store = some n → n + 1 < 10 ^ 14 := by
  intro n same
  rw [top] at same
  cases same
  exact few

/-! ## What is received of a frame -/

theorem routeOf_join {channel : String} {info : ClientInfo}
    (short : (LiveCall.join channel info).body.length < 2 ^ 64) :
    routeOf channel (marker ++ [106] ++ marker ++ (LiveCall.join channel info).body) =
      some (.join channel info.present) := by
  have read := extractPush_named (by decide : 95 ∉ ([106] : Bytes))
  rw [LiveCall.body] at short ⊢
  simp only [routeOf, read, readMarker, decode_encode short, Option.bind_eq_bind,
    Option.bind_some, ClientInfo.ofPb_toPb]

theorem routeOf_leave {channel : String} {info : ClientInfo}
    (short : (LiveCall.leave channel info).body.length < 2 ^ 64) :
    routeOf channel (marker ++ [108] ++ marker ++ (LiveCall.leave channel info).body) =
      some (.leave channel info.present) := by
  have read := extractPush_named (by decide : 95 ∉ ([108] : Bytes))
  rw [LiveCall.body] at short ⊢
  simp only [routeOf, read, readMarker, decode_encode short, Option.bind_eq_bind,
    Option.bind_some, ClientInfo.ofPb_toPb]

@[simp] theorem received_encoded (data : Raw) (info : Option ClientInfo) (offset : Nat) :
    Publication.received offset { data := data.bytes, info := info.map ClientInfo.toPb } =
      Publication.present { data := some data, info := info, offset := offset } := by
  cases info <;> simp [Publication.received, Publication.present]

theorem routeOf_plain {channel : String} {data : Raw} {info : Option ClientInfo}
    {opts : PublishOptions}
    (short : (LiveCall.publish channel data info opts).body.length < 2 ^ 64) :
    routeOf channel (LiveCall.publish channel data info opts).body =
      some (.publication channel
        (Publication.present { data := some data, info := info, offset := 0 })) := by
  rw [LiveCall.body] at short ⊢
  simp only [routeOf, extractPush_encode, decode_encode short, Option.bind_eq_bind,
    Option.bind_some, received_encoded]

theorem routeOf_kept {channel : String} {data : Raw} {info : Option ClientInfo}
    {opts : PublishOptions} {offset : Nat} (fits : offset < 2 ^ 64)
    (printed : luaText (luaNumber offset) = decimal offset)
    (short : (LiveCall.publish channel data info opts).body.length < 2 ^ 64) :
    routeOf channel (historyFrame offset (LiveCall.publish channel data info opts).body) =
      some (.publication channel
        (Publication.present { data := some data, info := info, offset := offset })) := by
  rw [LiveCall.body] at short ⊢
  simp only [routeOf, extractPush_historyFrame fits printed, decode_encode short,
    Option.bind_eq_bind, Option.bind_some, received_encoded]

/-! ## The same message as in memory -/

theorem append_kept (memory : MemoryEngine) (clock : Clock) (fresh channel : String) (data : Raw)
    (info : Option ClientInfo) {opts : PublishOptions} (enabled : opts.historyEnabled) :
    (memory.append clock fresh channel data info opts).2 =
      { data := some data, info := info,
        offset := (MemoryEngine.streamAt clock fresh memory.history channel).offset + 1 } := by
  rw [MemoryEngine.append, if_pos enabled]
  rfl

theorem append_plain (memory : MemoryEngine) (clock : Clock) (fresh channel : String) (data : Raw)
    (info : Option ClientInfo) {opts : PublishOptions} (disabled : ¬ opts.historyEnabled) :
    (memory.append clock fresh channel data info opts).2 =
      { data := some data, info := info, offset := 0 } := by
  rw [MemoryEngine.append, if_neg disabled]

/-- A publication is kept under the offset that it is published with. -/
theorem publish_kept {channel : String} {data : Raw} {info : Option ClientInfo}
    {opts : PublishOptions} {store store' : Store} (enabled : opts.historyEnabled)
    (sent : engine.publish channel data info opts store = (.ok (), store')) :
    ∃ n, engine.topOffset channel store = some n ∧ n + 1 < 2 ^ 63 ∧
      ∃ epoch, Scripts.Appended store (engine.listKey channel) (engine.metaKey channel)
        (LiveCall.publish channel data info opts).body (opts.historySize - 1)
        opts.historyLifetime (engine.clientKey channel) engine.historyMetaTtl (n + 1) epoch
        store' := by
  have ahead : 0 < opts.historyLifetime := by
    simp only [PublishOptions.historyEnabled, Bool.and_eq_true, decide_eq_true_eq] at enabled
    exact enabled.2
  rw [publish, if_pos enabled] at sent
  obtain ⟨⟨offset, epoch⟩, middle, added, done⟩ := Script.bind_eq_ok.mp sent
  cases done
  obtain ⟨fields, n, found, counted, room, -, appended⟩ :=
    Scripts.addHistory_ok listKey_ne_metaKey ahead added
  exact ⟨n, by rw [topOffset, found, Option.bind_some, counted], room, epoch, appended⟩

/-- A reading returns every item of the list that can be decoded. -/
theorem mem_readHistory {channel : String} {store store' : Store} {pubs : List Publication}
    {top : StreamPosition} {items : List Bytes} {item : Bytes} {publication : Publication}
    (ran : engine.readHistory channel store = (.ok (pubs, top), store'))
    (listed : store.listAt (engine.listKey channel) = some items) (mem : item ∈ items)
    (read : readItem item = some publication) : publication ∈ pubs := by
  obtain ⟨⟨offset, epoch, raw⟩, s₁, scanned, rest⟩ := Script.bind_eq_ok.mp ran
  obtain ⟨_, _, got, -⟩ := Script.bind_eq_ok.mp scanned
  obtain ⟨fields, found, -⟩ := Script.hget_eq_ok.mp got
  obtain ⟨s₁', scanned', -⟩ :=
    Scripts.history_run listKey_ne_metaKey found listed engine.historyMetaTtl
  rw [scanned] at scanned'
  cases scanned'
  obtain ⟨_, _, -, rest⟩ := Script.bind_eq_ok.mp rest
  obtain ⟨_, _, -, done⟩ := Script.bind_eq_ok.mp rest
  cases done
  rw [byOffset, List.mem_insertionSort, List.mem_filterMap]
  exact ⟨item, mem, read⟩

theorem clientKey_ne_empty (channel : String) : engine.clientKey channel ≠ "" := by
  intro empty
  have lists := congrArg String.toList empty
  simp [clientKey, String.toList_append] at lists

/-- Only an append to a history may fail. -/
theorem send_ok {call : LiveCall} {store : Store}
    (sent : call.kept → (engine.send call store).1 = .ok ()) :
    ∃ store', engine.send call store = (.ok (), store') := by
  refine ⟨(engine.send call store).2, Prod.ext ?_ rfl⟩
  cases call with
  | join channel info => rfl
  | leave channel info => rfl
  | publish channel data info opts =>
      by_cases enabled : opts.historyEnabled
      · exact sent enabled
      · rw [send, publish, if_neg enabled]
        rfl

/-- What a node receives of a call is what the memory engine routes for it, and a
publication that is kept is read from the history as it was received. -/
theorem routed_eq {engine : RedisEngine} {memory : MemoryEngine} {clock : Clock} {fresh : String}
    {call : LiveCall} {store : Store} (short : call.body.length < 2 ^ 64)
    (same : call.kept → engine.topOffset call.channel store =
      some (MemoryEngine.streamAt clock fresh memory.history call.channel).offset)
    (sent : call.kept → (engine.send call store).1 = .ok ())
    (decimals : call.kept → ∀ n, engine.topOffset call.channel store = some n →
      luaText (luaNumber (n + 1)) = decimal (n + 1)) :
    ∃ store' payload, engine.send call store = (.ok (), store') ∧
      store'.published = store.published ++ [(engine.clientKey call.channel, payload)] ∧
      (∀ selfUid, dispatchMessage selfUid engine.keyPrefix (engine.clientKey call.channel) payload =
        some (.route (memory.routes clock fresh call).present)) ∧
      (call.kept → ∃ items publication,
        store'.listAt (engine.listKey call.channel) = some items ∧ payload ∈ items ∧
        (memory.routes clock fresh call).present = .publication call.channel publication ∧
        ∀ later after pubs top items, later.listAt (engine.listKey call.channel) = some items →
          payload ∈ items →
          engine.readHistory call.channel later = (.ok (pubs, top), after) →
          publication ∈ pubs) := by
  obtain ⟨store', sent⟩ := send_ok sent
  cases call with
  | join channel info =>
      cases sent
      refine ⟨_, _, rfl, rfl, ?_, nofun⟩
      intro selfUid
      rw [dispatchMessage_clientKey]
      exact congrArg (Option.map Incoming.route) (routeOf_join short)
  | leave channel info =>
      cases sent
      refine ⟨_, _, rfl, rfl, ?_, nofun⟩
      intro selfUid
      rw [dispatchMessage_clientKey]
      exact congrArg (Option.map Incoming.route) (routeOf_leave short)
  | publish channel data info opts =>
      by_cases enabled : opts.historyEnabled
      · obtain ⟨n, top, room, epoch, appended⟩ := publish_kept enabled sent
        have number : n = (MemoryEngine.streamAt clock fresh memory.history channel).offset :=
          Option.some.inj (top.symm.trans (same enabled))
        have fits : n + 1 < 2 ^ 64 := by omega
        have printed := decimals enabled n top
        obtain ⟨items, -, stored⟩ := appended.list
        have published := appended.published
        rw [if_neg (clientKey_ne_empty channel)] at published
        let routed : Publication := { data := some data, info := info, offset := n + 1 }
        have message : (memory.routes clock fresh (.publish channel data info opts)).present =
            .publication channel routed.present := by
          rw [MemoryEngine.routes, append_kept _ _ _ _ _ _ enabled, ← number]
          rfl
        refine ⟨store', _, sent, published, ?_, ?_⟩
        · intro selfUid
          rw [dispatchMessage_clientKey, LiveCall.channel, routeOf_kept fits printed short, message]
          rfl
        · intro _
          refine ⟨_, _, Script.listAt_eq stored, by simp, message, ?_⟩
          intro later after pubs top held listed mem ran
          refine mem_readHistory ran listed mem ?_
          have read := readItem_historyFrame fits printed short
          rwa [received_encoded] at read
      · have plain : engine.publishFrame channel (LiveCall.publish channel data info opts).body
            store = (.ok (), store') := by
          rw [← sent, send, publish, if_neg enabled]
          rfl
        cases plain
        refine ⟨_, _, sent, rfl, ?_, fun kept => absurd kept enabled⟩
        intro selfUid
        rw [dispatchMessage_clientKey, LiveCall.channel, routeOf_plain short,
          MemoryEngine.routes, append_plain _ _ _ _ _ _ enabled]
        rfl

end RedisEngine

namespace Sample

/-- A payload that begins like a frame with an offset. -/
def marked : LiveCall := .publish "news" ⟨[95, 95, 55, 95, 95]⟩ none kept

def midnight : UnixTime := ⟨0, le_refl 0, by decide⟩

/-- One publication so far, on either engine. -/
def markedStore : Store := (redis.send marked emptyStore).2

def markedMemory : MemoryEngine :=
  ((MemoryEngine.new 0).append (fun _ => midnight) "xyz" "news" ⟨[49]⟩ none kept).1

end Sample

theorem RedisEngine.routed_eq_marked : ∃ store payload publication,
    Sample.redis.send Sample.marked Sample.markedStore = (.ok (), store) ∧
      store.published = Sample.markedStore.published ++
        [(Sample.redis.clientKey "news", payload)] ∧
      dispatchMessage "other" Sample.redis.keyPrefix (Sample.redis.clientKey "news") payload =
        some (.route (.publication "news" publication)) ∧
      publication.offset = 2 ∧
      ∀ pubs top after, Sample.redis.readHistory "news" store = (.ok (pubs, top), after) →
        publication ∈ pubs := by
  have top : Sample.redis.topOffset "news" Sample.markedStore = some 1 := by decide +kernel
  obtain ⟨store, payload, sent, published, received, found⟩ :=
    @routed_eq Sample.redis Sample.markedMemory (fun _ => Sample.midnight) "xyz" Sample.marked
      Sample.markedStore (by decide +kernel) (fun _ => top) (fun _ => by decide +kernel)
      (fun _ n same => luaText_luaNumber (few_of_topOffset top (by decide) n same))
  obtain ⟨items, publication, listed, mem, message, read⟩ := found rfl
  have routed := received "other"
  rw [message] at routed
  refine ⟨store, payload, publication, sent, published, routed, ?_, ?_⟩
  · cases message
    rfl
  · intro pubs top after ran
    exact read store after pubs top items listed mem ran

end Centrifugo
