import Centrifugo.Redis.Bus
import Centrifugo.Redis.Live

/-!
# Nodes on one server

The nodes of a cluster run their scripts on one Redis server, one script at a time, and every
node is subscribed to what is published there. A publication is counted and published by one
script. So all nodes route the same messages in the same order, and the offsets of a stream
come one after another, without a gap and without a repetition.

The subscription of a node is not interrupted here, a stream does not expire, and an offset has
at most fourteen digits.
-/

/-! ## How a script moves the store -/

namespace Redis.Script

variable {α β : Type} {R : Store → Store → Prop}

/-- The script leads to a related store, whether it fails or not. -/
structure Moves (R : Store → Store → Prop) (x : Script α) : Prop where
  run : ∀ store, R store (x store).2

namespace Moves

variable [IsPreorder Store R] {key : String}

theorem of_same {x : Script α} (same : ∀ store, (x store).2 = store) : Moves R x := by
  refine ⟨fun store => ?_⟩
  rw [same]
  exact refl_of R store

theorem pure (a : α) : Moves R (pure a : Script α) := of_same fun _ => rfl

theorem bind {x : Script α} {next : α → Script β} (first : Moves R x)
    (rest : ∀ a, Moves R (next a)) : Moves R (x >>= next) := by
  refine ⟨fun store => ?_⟩
  have before := first.run store
  rw [bind_run]
  match ran : x store with
  | (.ok a, store') =>
      rw [ran] at before
      exact trans_of R before ((rest a).run store')
  | (.error _, store') =>
      rw [ran] at before
      exact before

omit [IsPreorder Store R] in
theorem ite {condition : Prop} [Decidable condition] {x y : Script α} (yes : Moves R x)
    (no : Moves R y) : Moves R (if condition then x else y) := by
  split
  · exact yes
  · exact no

theorem onlyIf {condition : Prop} [Decidable condition] {command : Script Unit}
    (yes : Moves R command) : Moves R (onlyIf condition command) := ite yes (pure ())

theorem forAll {ι : Type} {command : ι → Script Unit} (each : ∀ i, Moves R (command i))
    (items : List ι) : Moves R (forAll command items) := by
  induction items with
  | nil => exact pure ()
  | cons i items ih => exact (each i).bind fun _ => ih

theorem view (failure : Failure) (look : Store → Option α) : Moves R (view failure look) := by
  refine of_same fun store => ?_
  unfold Script.view
  split <;> rfl

theorem hget (key field : String) : Moves R (hget key field) :=
  (view _ _).bind fun _ => pure _

theorem lrange (key : String) (start stop : Int) : Moves R (lrange key start stop) :=
  (view _ _).bind fun _ => pure _

theorem fail (failure : Failure) : Moves R (fail failure : Script α) := of_same fun _ => rfl

theorem hgetall (key : String) : Moves R (hgetall key) := (view _ _).bind fun _ => pure _

theorem zrangebyscore (key : String) (bound : Nat) : Moves R (zrangebyscore key bound) :=
  (view _ _).bind fun _ => pure _

section Sets

variable (sets : ∀ store entry, R store (store.set key entry))

include sets

omit [IsPreorder Store R] in
theorem put (value : Redis.Value) : Moves R (put key value) := ⟨fun _ => sets _ _⟩

omit [IsPreorder Store R] in
theorem del : Moves R (del key) := ⟨fun _ => sets _ _⟩

theorem expire (seconds : Nat) : Moves R (expire key seconds) := by
  refine ⟨fun store => ?_⟩
  unfold Script.expire
  split
  · exact refl_of R store
  · exact sets _ _

theorem hset (field : String) (value : Json.Bytes) : Moves R (hset key field value) :=
  (view _ _).bind fun _ => put sets _

theorem hdel (field : String) : Moves R (hdel key field) :=
  (view _ _).bind fun _ => put sets _

theorem zadd (member : String) (score : Nat) : Moves R (zadd key member score) :=
  (view _ _).bind fun _ => put sets _

theorem zrem (member : String) : Moves R (zrem key member) :=
  (view _ _).bind fun _ => put sets _

theorem zremrangebyscore (bound : Nat) : Moves R (zremrangebyscore key bound) :=
  (view _ _).bind fun _ => put sets _

end Sets

end Moves

end Redis.Script

namespace Centrifugo

open Json Proto Redis

namespace RedisEngine

variable {engine : RedisEngine} {channel : String} {store store' : Store}

/-! ## Calls that do not append -/

/-- Nothing is published, and the stream of a channel neither grows nor gets a deadline. -/
structure Calm (engine : RedisEngine) (channel : String) (store store' : Store) : Prop where
  published : store'.published = store.published
  top : engine.topOffset channel store' = engine.topOffset channel store
  lasts : (store.keys (engine.metaKey channel)).bind Entry.deadline = none →
    (store'.keys (engine.metaKey channel)).bind Entry.deadline = none

theorem topOffset_congr
    (same : store'.keys (engine.metaKey channel) = store.keys (engine.metaKey channel)) :
    engine.topOffset channel store' = engine.topOffset channel store := by
  rw [topOffset, topOffset, Store.hashAt, Store.hashAt, same]

theorem Calm.of_keys (published : store'.published = store.published)
    (same : store'.keys (engine.metaKey channel) = store.keys (engine.metaKey channel)) :
    engine.Calm channel store store' :=
  ⟨published, topOffset_congr same, fun lasts => same ▸ lasts⟩

instance : IsPreorder Store (engine.Calm channel) where
  refl _ := ⟨rfl, rfl, id⟩
  trans _ _ _ h h' := ⟨h'.published.trans h.published, h'.top.trans h.top, h'.lasts ∘ h.lasts⟩

theorem calm_set {key : String} (other : engine.metaKey channel ≠ key) (store : Store)
    (entry : Option Entry) : engine.Calm channel store (store.set key entry) :=
  .of_keys rfl (Store.set_other _ other _)

/-- The epoch of a stream does not count. -/
theorem calm_hset_epoch (value : Bytes) :
    Script.Moves (engine.Calm channel) (Script.hset (engine.metaKey channel) "e" value) := by
  refine ⟨fun store => ?_⟩
  cases found : store.hashAt (engine.metaKey channel) with
  | none =>
      have same : (Script.hset (engine.metaKey channel) "e" value store).2 = store := by
        simp [Script.hset, Script.hash, Script.bind_run, Script.view, found]
      rw [same]
      exact refl_of _ store
  | some fields =>
      rw [Script.hset_run found]
      have stored := Script.put_hash store (engine.metaKey channel) fields "e" value
      refine ⟨rfl, ?_, fun lasts => by rw [stored]; exact lasts⟩
      rw [topOffset, topOffset, Script.hashAt_eq stored, found, Option.bind_some, Option.bind_some,
        AList.lookup_insert_ne (by decide)]

theorem calm_readHistory (forever : engine.historyMetaTtl = 0) (channel' : String)
    (same : channel' = channel ∨ engine.metaKey channel ≠ engine.metaKey channel') :
    Script.Moves (engine.Calm channel) (engine.readHistory channel') := by
  have epochs : Script.Moves (engine.Calm channel) (Scripts.epochOf (engine.metaKey channel')) := by
    refine Script.Moves.bind (.of_same fun _ => rfl) fun there => ?_
    refine (Script.Moves.ite (.hget _ "e") (.pure none)).bind fun epoch => ?_
    cases epoch with
    | some epoch => exact .pure epoch
    | none =>
        refine Script.Moves.bind (.of_same fun _ => rfl) fun now => ?_
        refine Script.Moves.bind ?_ fun _ => .pure _
        obtain rfl | other := same
        · exact calm_hset_epoch _
        · exact .hset (calm_set other) "e" _
  have reads : Script.Moves (engine.Calm channel) (Scripts.history (engine.listKey channel')
      (engine.metaKey channel') engine.historyMetaTtl) := by
    refine (Script.Moves.hget _ "s").bind fun _ => epochs.bind fun _ => ?_
    rw [forever]
    refine Script.Moves.bind (.of_same fun _ => rfl) fun _ => ?_
    exact (Script.Moves.lrange _ 0 (-1)).bind fun _ => .pure _
  refine reads.bind fun read => Script.Moves.bind ?_ fun offset =>
    Script.Moves.bind ?_ fun epoch => .pure _
  · unfold offsetOf
    split
    · exact .pure 0
    · split
      · exact .pure _
      · exact .fail _
  · unfold textOf
    split
    · exact .pure _
    · exact .fail _

section Operations

variable {channels : Set String}

def Op.publishes : Op → Bool
  | .publish _ _ _ _ => true
  | _ => false

/-- What publishes nothing leaves the streams of all channels as they are. -/
theorem calm_perform (forever : engine.historyMetaTtl = 0)
    (apart : ∀ channel ∈ channels, "meta." ++ channel ∉ channels) (mem : channel ∈ channels)
    {op : Op} (within : op.channel ∈ channels) (quiet : op.publishes = false) :
    Script.Moves (engine.Calm channel) (engine.perform op) := by
  have other : ∀ kind, kind ≠ .historyMeta →
      engine.metaKey channel ≠ engine.key kind op.channel := by
    intro kind differs same
    have keys : engine.key .historyMeta channel = engine.key kind op.channel := same
    exact differs (distinct_of_no_meta apart mem within keys).1.symm
  have list := calm_set (other .historyList nofun)
  have data := calm_set (other .presenceData nofun)
  have set := calm_set (other .presenceSet nofun)
  have streams : op.channel = channel ∨
      engine.metaKey channel ≠ engine.metaKey op.channel := by
    refine or_iff_not_imp_right.mpr fun same => ?_
    have keys : engine.key .historyMeta channel = engine.key .historyMeta op.channel :=
      not_not.mp same
    exact (distinct_of_no_meta apart mem within keys).2.symm
  have present : ∀ nowSecs, Script.Moves (engine.Calm channel)
      (engine.presence op.channel nowSecs) := by
    intro nowSecs
    refine Script.Moves.bind ?_ fun entries => .pure _
    exact (Script.Moves.zrangebyscore _ nowSecs).bind fun expired =>
      (Script.Moves.forAll (fun client => .hdel data client) expired).bind fun _ =>
      (Script.Moves.onlyIf (.zremrangebyscore set nowSecs)).bind fun _ => .hgetall _
  cases op with
  | publish _ _ _ _ => cases quiet
  | history channel' => exact (calm_readHistory forever channel' streams).bind fun _ => .pure _
  | historySince channel' offset epoch =>
      refine Script.Moves.bind ?_ fun _ => .pure ()
      exact (calm_readHistory forever channel' streams).bind fun _ => .ite (.pure _) (.pure _)
  | removeHistory channel' => exact .del list
  | addPresence channel' client info ttlMs nowSecs =>
      exact (Script.Moves.zadd set client _).bind fun _ =>
        (Script.Moves.hset data client _).bind fun _ =>
        (Script.Moves.expire set _).bind fun _ => .expire data _
  | removePresence channel' client =>
      exact (Script.Moves.hdel data client).bind fun _ => .zrem set client
  | presence channel' nowSecs => exact (present nowSecs).bind fun _ => .pure ()
  | presenceStats channel' nowSecs =>
      exact ((present nowSecs).bind fun _ => .pure _).bind fun _ => .pure ()

end Operations

theorem listAt_of_typed {schema : String → Option Redis.Kind} {key : String}
    (typed : store.Typed schema) (named : schema key = some .list) :
    ∃ items, store.listAt key = some items := by
  unfold Store.listAt
  split
  next => exact ⟨[], rfl⟩
  next items _ _ => exact ⟨items, rfl⟩
  next entry lists found =>
      obtain ⟨value, deadline⟩ := entry
      have kind := typed key _ _ named found
      cases value with
      | list items => exact absurd rfl (lists items deadline)
      | _ => cases kind

end RedisEngine

/-! ## What a call leads to -/

/-- The message of a call that went well, as the nodes get it. -/
def LiveCall.message (engine : RedisEngine) (after : Store) : LiveCall → NodeMessage
  | .publish channel data info opts =>
      let offset := if opts.historyEnabled then (engine.topOffset channel after).getD 0 else 0
      .publication channel (Publication.present { data := some data, info := info, offset })
  | .join channel info => .join channel info.present
  | .leave channel info => .leave channel info.present

/-- The offset of a publication of a channel that was kept. -/
def NodeMessage.offset? (channel : String) : NodeMessage → Option Nat
  | .publication other body =>
      if other = channel ∧ body.offset ≠ 0 then some body.offset else none
  | _ => none

namespace RedisEngine

variable {engine : RedisEngine} {channels : Set String} {store store' : Store} {call : LiveCall}

/-- The message of a call takes the next offset of a stream, or has none in it. -/
def Counts (engine : RedisEngine) (call : LiveCall) (store store' : Store) (channel : String) :
    Prop :=
  ((call.message engine store').offset? channel = none ∧
      engine.topOffset channel store' = engine.topOffset channel store) ∨
    ∃ n, engine.topOffset channel store = some n ∧ engine.topOffset channel store' = some (n + 1) ∧
      (call.message engine store').offset? channel = some (n + 1)

/-- A call publishes one message. -/
structure Publishes (engine : RedisEngine) (channels : Set String) (call : LiveCall)
    (store store' : Store) : Prop where
  ran : engine.send call store = (.ok (), store')
  routed : ∃ payload,
    store'.published = store.published ++ [(engine.clientKey call.channel, payload)] ∧
      routeOf call.channel payload = some (call.message engine store')
  counts : ∀ channel ∈ channels, engine.Counts call store store' channel
  lasts : ∀ channel ∈ channels,
    (store.keys (engine.metaKey channel)).bind Entry.deadline = none →
      (store'.keys (engine.metaKey channel)).bind Entry.deadline = none

theorem publishes_plain (plain : call.kept = false) (short : call.body.length < 2 ^ 64) :
    ∃ store', engine.Publishes channels call store store' := by
  cases call with
  | join channel info =>
      exact ⟨_, rfl, ⟨_, rfl, routeOf_join short⟩, fun _ _ => .inl ⟨rfl, rfl⟩, fun _ _ => id⟩
  | leave channel info =>
      exact ⟨_, rfl, ⟨_, rfl, routeOf_leave short⟩, fun _ _ => .inl ⟨rfl, rfl⟩, fun _ _ => id⟩
  | publish channel data info opts =>
      have disabled : opts.historyEnabled = false := plain
      have ran : engine.send (.publish channel data info opts) store =
          (.ok (), { store with published := store.published ++
            [(engine.clientKey channel, (LiveCall.publish channel data info opts).body)] }) := by
        rw [send, publish, disabled]
        rfl
      have message (after : Store) : (LiveCall.publish channel data info opts).message engine
          after = .publication channel
            (Publication.present { data := some data, info := info, offset := 0 }) := by
        simp [LiveCall.message, disabled]
      refine ⟨_, ran, ⟨_, rfl, ?_⟩, fun _ _ => .inl ⟨?_, rfl⟩, fun _ _ => id⟩
      · rw [message]
        exact routeOf_plain short
      · rw [message]
        simp [NodeMessage.offset?, Publication.present]

theorem publishes_kept (forever : engine.historyMetaTtl = 0)
    (apart : ∀ channel ∈ channels, "meta." ++ channel ∉ channels)
    (typed : store.Typed (engine.schemaOf channels)) {channel : String} {data : Raw}
    {info : Option ClientInfo} {opts : PublishOptions} (mem : channel ∈ channels)
    (enabled : opts.historyEnabled) {n : Nat} (top : engine.topOffset channel store = some n)
    (few : n + 1 < 10 ^ 14)
    (short : (LiveCall.publish channel data info opts).body.length < 2 ^ 64) :
    ∃ store', engine.Publishes channels (.publish channel data info opts) store store' := by
  obtain ⟨fields, found, counted⟩ := Option.bind_eq_some_iff.mp top
  have ahead : 0 < opts.historyLifetime := by
    simp only [PublishOptions.historyEnabled, Bool.and_eq_true, decide_eq_true_eq] at enabled
    exact enabled.2
  have others {other : String} (mem' : other ∈ channels) (differs : other ≠ channel) :
      engine.metaKey other ≠ engine.metaKey channel ∧
        engine.metaKey other ≠ engine.listKey channel := by
    constructor
    · intro same
      have keys : engine.key .historyMeta other = engine.key .historyMeta channel := same
      exact differs (distinct_of_no_meta apart mem' mem keys).2
    · intro same
      have keys : engine.key .historyMeta other = engine.key .historyList channel := same
      exact differs (distinct_of_no_meta apart mem' mem keys).2
  have sending : engine.send (.publish channel data info opts) =
      Scripts.addHistory (engine.listKey channel) (engine.metaKey channel)
        (LiveCall.publish channel data info opts).body (opts.historySize - 1)
        opts.historyLifetime (engine.clientKey channel) engine.historyMetaTtl >>= fun _ =>
          pure () := by
    rw [send, publish, if_pos enabled]
    rfl
  obtain ⟨items, listed⟩ := listAt_of_typed typed (names_schemaOf apart mem .historyList)
  obtain ⟨store', ran, appended⟩ := @Scripts.addHistory_run store (engine.listKey channel)
    (engine.metaKey channel) (engine.clientKey channel)
    (LiveCall.publish channel data info opts).body (opts.historySize - 1) opts.historyLifetime
    engine.historyMetaTtl listKey_ne_metaKey ahead fields n items found counted (by omega) listed
  obtain ⟨fields', stored, -, number⟩ := appended.hash
  have next : engine.topOffset channel store' = some (n + 1) := by
    rw [topOffset, Script.hashAt_eq stored, Option.bind_some, number]
    exact counter?_decimal _
  have message : (LiveCall.publish channel data info opts).message engine store' =
      .publication channel
        (Publication.present { data := some data, info := info, offset := n + 1 }) := by
    simp [LiveCall.message, enabled, next]
  have published := appended.published
  rw [if_neg (clientKey_ne_empty channel)] at published
  refine ⟨store', ?_, ⟨_, published, ?_⟩, ?_, ?_⟩
  · rw [sending, Script.bind_ok ran]
    rfl
  · rw [message]
    exact routeOf_kept (by omega) (luaText_luaNumber few) short
  · intro other mem'
    by_cases same : other = channel
    · subst same
      refine .inr ⟨n, top, next, ?_⟩
      rw [message]
      simp [NodeMessage.offset?, Publication.present]
    · obtain ⟨notHash, notList⟩ := others mem' same
      refine .inl ⟨?_, topOffset_congr (appended.others _ notList notHash)⟩
      rw [message]
      simp [NodeMessage.offset?, Ne.symm same]
  · intro other mem' lasts
    by_cases same : other = channel
    · subst same
      rw [stored, Option.bind_some, Scripts.renewed, if_pos forever]
      exact lasts
    · obtain ⟨notHash, notList⟩ := others mem' same
      rw [appended.others _ notList notHash]
      exact lasts

theorem send_publishes (forever : engine.historyMetaTtl = 0)
    (apart : ∀ channel ∈ channels, "meta." ++ channel ∉ channels)
    (typed : store.Typed (engine.schemaOf channels)) (mem : call.channel ∈ channels) {n : Nat}
    (top : engine.topOffset call.channel store = some n) (few : call.kept → n + 1 < 10 ^ 14)
    (short : call.body.length < 2 ^ 64) :
    ∃ store', engine.Publishes channels call store store' := by
  cases kept : call.kept with
  | false => exact publishes_plain kept short
  | true =>
      cases call with
      | publish channel data info opts =>
          exact publishes_kept forever apart typed mem kept top (few kept) short
      | join _ _ => cases kept
      | leave _ _ => cases kept

end RedisEngine

/-! ## The cluster -/

/-- Nodes that share a server. -/
structure Cluster (ι : Type*) where
  store : Store
  /-- How many of the published messages a node has read. -/
  read : ι → Nat
  /-- What a node has routed to its connections. -/
  routed : ι → List NodeMessage
  /-- The messages of the calls so far, in the order in which the server ran their scripts. -/
  sent : List NodeMessage := []

inductive ClusterAction (ι : Type*)
  | send (i : ι) (call : LiveCall)
  | control (i : ι) (message : ControlMessage)
  | perform (i : ι) (op : RedisEngine.Op)
  | tick (elapsed : Nat)
  | receive (i : ι)

namespace Cluster

variable {ι : Type*}

/-- The engine of a node. -/
def engineOf (engine : RedisEngine) (uid : ι → String) (i : ι) : RedisEngine :=
  { engine with nodeUid := uid i }

/-- What a node routes of a published message. -/
def routes (engine : RedisEngine) (selfUid : String) (message : String × Bytes) :
    Option NodeMessage :=
  match dispatchMessage selfUid engine.keyPrefix message.1 message.2 with
  | some (.route routed) => some routed
  | _ => none

/-- The messages that a call adds. A call that fails adds none. -/
def messagesOf (engine : RedisEngine) (call : LiveCall) :
    Except Failure Unit × Store → List NodeMessage
  | (.ok (), after) => [call.message engine after]
  | (.error _, _) => []

/-- The calls are on some channels, of which each keeps fewer than 10^14 publications. A payload
is a vector, which holds fewer than 2^64 bytes. -/
inductive Step [DecidableEq ι] (engine : RedisEngine) (uid : ι → String) (channels : Set String) :
    Cluster ι → ClusterAction ι → Cluster ι → Prop
  | send (s : Cluster ι) (i : ι) (call : LiveCall) (within : call.channel ∈ channels)
      (few : call.kept → ∀ n, engine.topOffset call.channel s.store = some n → n + 1 < 10 ^ 14)
      (short : call.body.length < 2 ^ 64) :
      Step engine uid channels s (.send i call) { s with
        store := ((engineOf engine uid i).send call s.store).2
        sent := s.sent ++ messagesOf engine call ((engineOf engine uid i).send call s.store) }
  | control (s : Cluster ι) (i : ι) (message : ControlMessage) :
      Step engine uid channels s (.control i message)
        { s with store := ((engineOf engine uid i).publishControl message s.store).2 }
  | perform (s : Cluster ι) (i : ι) (op : RedisEngine.Op) (within : op.channel ∈ channels)
      (quiet : op.publishes = false) :
      Step engine uid channels s (.perform i op)
        { s with store := ((engineOf engine uid i).perform op s.store).2 }
  | tick (s : Cluster ι) (elapsed : Nat) :
      Step engine uid channels s (.tick elapsed) { s with store := s.store.tick elapsed }
  /-- A node reads the next message of its subscription. -/
  | receive (s : Cluster ι) (i : ι) (message : String × Bytes)
      (next : s.store.published[s.read i]? = some message) :
      Step engine uid channels s (.receive i) { s with
        read := Function.update s.read i (s.read i + 1)
        routed := Function.update s.routed i
          (s.routed i ++ (routes engine (uid i) message).toList) }

/-- An empty server, to which the nodes have just subscribed. -/
def Fresh (s : Cluster ι) : Prop :=
  s.store.keys = (fun _ => none) ∧ s.store.published = [] ∧ s.sent = [] ∧
    ∀ i, s.read i = 0 ∧ s.routed i = []

def Reached [DecidableEq ι] (engine : RedisEngine) (uid : ι → String) (channels : Set String) :
    Cluster ι → Prop :=
  Reachable Fresh (Step engine uid channels)

/-- What every node has read and routed is a beginning of what was sent. -/
structure Sound (engine : RedisEngine) (uid : ι → String) (channels : Set String)
    (s : Cluster ι) : Prop where
  typed : s.store.Typed (engine.schemaOf channels)
  reads : ∀ i, s.read i ≤ s.store.published.length
  routed : ∀ i, s.routed i =
    (s.store.published.take (s.read i)).filterMap (routes engine (uid i))
  sent : ∀ i, s.store.published.filterMap (routes engine (uid i)) = s.sent
  streams : ∀ channel ∈ channels, ∃ n, engine.topOffset channel s.store = some n ∧
    s.sent.filterMap (NodeMessage.offset? channel) = List.range' 1 n
  lasts : ∀ channel ∈ channels,
    (s.store.keys (engine.metaKey channel)).bind Redis.Entry.deadline = none

variable {engine : RedisEngine} {uid : ι → String} {channels : Set String} {s s' : Cluster ι}

theorem sound_of_fresh (fresh : Fresh s) : Sound engine uid channels s := by
  obtain ⟨empty, nothing, none, idle⟩ := fresh
  refine ⟨?_, fun i => by simp [idle i], fun i => by simp [idle i, nothing], fun i => ?_,
    fun channel _ => ⟨0, ?_, by simp [none]⟩, fun channel _ => by simp [empty]⟩
  · intro key entry kind _ found
    rw [empty] at found
    cases found
  · simp [nothing, none]
  · simp [RedisEngine.topOffset, Store.hashAt, empty, Script.count]

/-- A message goes behind those that were published, and nothing else changes. -/
theorem Sound.publish (sound : Sound engine uid channels s) {store' : Store}
    {message : String × Bytes} {sent : List NodeMessage}
    (typed : store'.Typed (engine.schemaOf channels))
    (published : store'.published = s.store.published ++ [message])
    (routed : ∀ i, (routes engine (uid i) message).toList = sent)
    (streams : ∀ channel ∈ channels, ∃ n, engine.topOffset channel store' = some n ∧
      (s.sent ++ sent).filterMap (NodeMessage.offset? channel) = List.range' 1 n)
    (lasts : ∀ channel ∈ channels,
      (store'.keys (engine.metaKey channel)).bind Redis.Entry.deadline = none) :
    Sound engine uid channels { s with store := store', sent := s.sent ++ sent } := by
  refine ⟨typed, fun i => ?_, fun i => ?_, fun i => ?_, streams, lasts⟩
  · have before := sound.reads i
    simp only [published, List.length_append, List.length_singleton]
    omega
  · simp only [published, List.take_append_of_le_length (sound.reads i)]
    exact sound.routed i
  · have route : ([message]).filterMap (routes engine (uid i)) = sent := by
      rw [← routed i]
      cases found : routes engine (uid i) message <;> simp [found]
    simp only [published, List.filterMap_append, sound.sent i, route]

/-- A store that publishes nothing. -/
theorem Sound.calm (sound : Sound engine uid channels s) {store' : Store}
    (typed : store'.Typed (engine.schemaOf channels))
    (calm : ∀ channel ∈ channels, engine.Calm channel s.store store')
    (published : store'.published = s.store.published) :
    Sound engine uid channels { s with store := store' } := by
  refine ⟨typed, fun i => ?_, fun i => ?_, fun i => ?_, fun channel mem => ?_,
    fun channel mem => ?_⟩
  · simp only [published]
    exact sound.reads i
  · simp only [published]
    exact sound.routed i
  · simp only [published]
    exact sound.sent i
  · rw [(calm channel mem).top]
    exact sound.streams channel mem
  · exact (calm channel mem).lasts (sound.lasts channel mem)

theorem routes_clientKey (i : ι) {channel : String} {payload : Bytes} {message : NodeMessage}
    (routed : routeOf channel payload = some message) :
    routes engine (uid i) (engine.clientKey channel, payload) = some message := by
  rw [routes, RedisEngine.dispatchMessage_clientKey, routed]
  rfl

theorem routes_controlKey (i : ι) (payload : Bytes) :
    routes engine (uid i) (engine.controlKey, payload) = none := by
  rw [routes, dispatchMessage, RedisEngine.controlKey, if_pos rfl]
  cases decodeControl payload (uid i) <;> rfl

theorem keeps_send (engine : RedisEngine)
    (apart : ∀ channel ∈ channels, "meta." ++ channel ∉ channels) {call : LiveCall}
    (mem : call.channel ∈ channels) :
    Script.Keeps (engine.schemaOf channels) (engine.send call) := by
  cases call with
  | publish channel data info opts =>
      have kept : Script.Keeps (engine.schemaOf channels)
          (engine.perform (.publish channel data info opts)) :=
        RedisEngine.keeps_perform (RedisEngine.names_schemaOf apart mem)
      exact kept
  | join channel info => exact .publish _ _
  | leave channel info => exact .publish _ _

theorem Sound.send (sound : Sound engine uid channels s) (forever : engine.historyMetaTtl = 0)
    (apart : ∀ channel ∈ channels, "meta." ++ channel ∉ channels) (i : ι) (call : LiveCall)
    (mem : call.channel ∈ channels)
    (few : call.kept → ∀ n, engine.topOffset call.channel s.store = some n → n + 1 < 10 ^ 14)
    (short : call.body.length < 2 ^ 64) :
    Sound engine uid channels { s with
      store := ((engineOf engine uid i).send call s.store).2
      sent := s.sent ++ messagesOf engine call ((engineOf engine uid i).send call s.store) } := by
  have typed : ((engineOf engine uid i).send call s.store).2.Typed (engine.schemaOf channels) :=
    (keeps_send (engineOf engine uid i) apart mem).typed _ sound.typed
  obtain ⟨n, top, -⟩ := sound.streams call.channel mem
  have sends : ∃ store', (engineOf engine uid i).Publishes channels call s.store store' :=
    RedisEngine.send_publishes forever apart sound.typed mem top (fun kept => few kept n top) short
  obtain ⟨store', ran, ⟨payload, published, routed⟩, counts, lasts⟩ := sends
  rw [ran] at typed ⊢
  refine sound.publish typed published (fun j => ?_) (fun channel mem' => ?_)
    fun channel mem' => lasts channel mem' (sound.lasts channel mem')
  · have route : routes engine (uid j) (engine.clientKey call.channel, payload) =
        some (call.message engine store') := routes_clientKey j routed
    exact congrArg Option.toList route
  · obtain ⟨n, top, offsets⟩ := sound.streams channel mem'
    obtain ⟨silent, same⟩ | ⟨m, before, after, counted⟩ := counts channel mem'
    · refine ⟨n, Eq.trans same top, ?_⟩
      have silent : (call.message engine store').offset? channel = none := silent
      simp [messagesOf, silent, offsets]
    · obtain rfl : n = m := Option.some.inj (top.symm.trans before)
      have counted : (call.message engine store').offset? channel = some (n + 1) := counted
      refine ⟨n + 1, after, ?_⟩
      simp [messagesOf, counted, offsets, List.range'_1_concat, Nat.add_comm]

theorem Sound.control (sound : Sound engine uid channels s) (i : ι) (message : ControlMessage) :
    Sound engine uid channels
      { s with store := ((engineOf engine uid i).publishControl message s.store).2 } := by
  have kept : Sound engine uid channels { s with
      store := ((engineOf engine uid i).publishControl message s.store).2
      sent := s.sent ++ [] } := by
    refine sound.publish sound.typed rfl (fun j => ?_) (fun channel mem => ?_) sound.lasts
    · exact congrArg Option.toList (routes_controlKey j _)
    · rw [List.append_nil]
      exact sound.streams channel mem
  rwa [List.append_nil] at kept

theorem Sound.perform (sound : Sound engine uid channels s) (forever : engine.historyMetaTtl = 0)
    (apart : ∀ channel ∈ channels, "meta." ++ channel ∉ channels) (i : ι) (op : RedisEngine.Op)
    (mem : op.channel ∈ channels) (quiet : op.publishes = false) :
    Sound engine uid channels
      { s with store := ((engineOf engine uid i).perform op s.store).2 } := by
  have named : (engineOf engine uid i).Names ((engineOf engine uid i).schemaOf channels)
      op.channel := RedisEngine.names_schemaOf apart mem
  have forever' : (engineOf engine uid i).historyMetaTtl = 0 := forever
  have calm (channel : String) (mem' : channel ∈ channels) :
      engine.Calm channel s.store ((engineOf engine uid i).perform op s.store).2 := by
    have moves : (engineOf engine uid i).Calm channel s.store
        ((engineOf engine uid i).perform op s.store).2 :=
      (RedisEngine.calm_perform forever' apart mem' mem quiet).run s.store
    exact ⟨moves.published, moves.top, moves.lasts⟩
  exact sound.calm ((RedisEngine.keeps_perform named).typed _ sound.typed) calm
    (calm op.channel mem).published

/-- A stream without a deadline outlives any time. -/
theorem Sound.tick (sound : Sound engine uid channels s) (elapsed : Nat) :
    Sound engine uid channels { s with store := s.store.tick elapsed } := by
  refine sound.calm (Script.Keeps.tick sound.typed elapsed) (fun channel mem => ?_) rfl
  have lasts := sound.lasts channel mem
  have same : (s.store.tick elapsed).keys (engine.metaKey channel) =
      s.store.keys (engine.metaKey channel) := by
    cases found : s.store.keys (engine.metaKey channel) with
    | none => exact Store.tick_of_none found
    | some entry =>
        rw [found, Option.bind_some] at lasts
        simp [Store.tick, found, lasts]
  exact .of_keys rfl same

theorem Sound.receive [DecidableEq ι] (sound : Sound engine uid channels s) (i : ι)
    {message : String × Bytes} (next : s.store.published[s.read i]? = some message) :
    Sound engine uid channels { s with
      read := Function.update s.read i (s.read i + 1)
      routed := Function.update s.routed i
        (s.routed i ++ (routes engine (uid i) message).toList) } := by
  obtain ⟨ahead, there⟩ := List.getElem?_eq_some_iff.mp next
  refine ⟨sound.typed, fun j => ?_, fun j => ?_, sound.sent, sound.streams, sound.lasts⟩
  · by_cases same : j = i
    · subst same
      simp only [Function.update_self]
      exact ahead
    · simp only [Function.update_of_ne same]
      exact sound.reads j
  · by_cases same : j = i
    · subst same
      simp only [Function.update_self, sound.routed j]
      rw [List.take_add_one, next, List.filterMap_append]
      cases found : routes engine (uid j) message <;> simp [found]
    · simp only [Function.update_of_ne same]
      exact sound.routed j

theorem sound_of_reached [DecidableEq ι] (forever : engine.historyMetaTtl = 0)
    (apart : ∀ channel ∈ channels, "meta." ++ channel ∉ channels)
    (h : Reached engine uid channels s) : Sound engine uid channels s := by
  refine Reachable.invariant _ (fun _ => sound_of_fresh) ?_ h
  intro s action s' sound step
  cases step with
  | send i call within few short => exact sound.send forever apart i call within few short
  | control i message => exact sound.control i message
  | perform i op within quiet => exact sound.perform forever apart i op within quiet
  | tick elapsed => exact sound.tick elapsed
  | receive i message next => exact sound.receive i next

/-- Every node has routed a beginning of one sequence of messages, in which the kept
publications of each channel are numbered from 1 without a gap. -/
theorem routed_in_order [DecidableEq ι] (forever : engine.historyMetaTtl = 0)
    (apart : ∀ channel ∈ channels, "meta." ++ channel ∉ channels)
    (h : Reached engine uid channels s) :
    (∀ i, s.routed i <+: s.sent ∧
      (s.read i = s.store.published.length → s.routed i = s.sent)) ∧
    ∀ channel ∈ channels, ∃ n, engine.topOffset channel s.store = some n ∧
      s.sent.filterMap (NodeMessage.offset? channel) = List.range' 1 n ∧
      ∀ i, ∃ k ≤ n, (s.routed i).filterMap (NodeMessage.offset? channel) = List.range' 1 k := by
  have sound := sound_of_reached forever apart h
  have front (i : ι) : s.routed i <+: s.sent := by
    rw [sound.routed i, ← sound.sent i]
    exact (List.take_prefix _ _).filterMap _
  refine ⟨fun i => ⟨front i, fun all => ?_⟩, fun channel mem => ?_⟩
  · rw [sound.routed i, all, List.take_length, sound.sent i]
  · obtain ⟨n, top, offsets⟩ := sound.streams channel mem
    refine ⟨n, top, offsets, fun i => ?_⟩
    have offsetsFront := (front i).filterMap (NodeMessage.offset? channel)
    rw [offsets] at offsetsFront
    have short := offsetsFront.length_le
    rw [List.length_range'] at short
    refine ⟨_, short, ?_⟩
    rw [List.prefix_iff_eq_take.mp offsetsFront, List.length_take, List.length_range',
      Nat.min_eq_left (by simpa using short)]
    exact List.take_range'_of_length_ge short

end Cluster

namespace Sample

/-- Two nodes at the start. -/
def twoNodes : Cluster Bool :=
  { store := emptyStore, read := fun _ => 0, routed := fun _ => [] }

def newsCall (payload : UInt8) : LiveCall := .publish "news" ⟨[payload]⟩ none kept

def aliceJoins : LiveCall := .join "news" ⟨"alice", "a", none, none⟩

def sendBy (i : Bool) (call : LiveCall) (s : Cluster Bool) : Cluster Bool := { s with
  store := ((Cluster.engineOf redis uids i).send call s.store).2
  sent := s.sent ++
    Cluster.messagesOf redis call ((Cluster.engineOf redis uids i).send call s.store) }

/-- A node reads the next message, if there is one. -/
def readBy (i : Bool) (s : Cluster Bool) : Cluster Bool :=
  match s.store.published[s.read i]? with
  | none => s
  | some message => { s with
      read := Function.update s.read i (s.read i + 1)
      routed := Function.update s.routed i
        (s.routed i ++ (Cluster.routes redis (uids i) message).toList) }

variable {s : Cluster Bool}

theorem sendBy_reached (reached : Cluster.Reached redis uids {"news"} s) (i : Bool)
    {call : LiveCall} (within : call.channel = "news") (short : call.body.length < 2 ^ 64) {m : Nat}
    (top : redis.topOffset call.channel s.store = some m) (few : m + 1 < 10 ^ 14) :
    Cluster.Reached redis uids {"news"} (sendBy i call s) :=
  .next reached (.send s i call within (fun _ => RedisEngine.few_of_topOffset top few) short)

theorem readBy_reached (reached : Cluster.Reached redis uids {"news"} s) (i : Bool) :
    Cluster.Reached redis uids {"news"} (readBy i s) := by
  unfold readBy
  split
  next => exact reached
  next message next => exact .next reached (.receive s i message next)

/-- Both nodes have published and one has read it, and the other one is behind. -/
def busyNodes : Cluster Bool :=
  readBy true (sendBy true (newsCall 51) (readBy false (readBy true (readBy true (sendBy false
    (newsCall 50) (sendBy false aliceJoins (sendBy true (newsCall 49) twoNodes)))))))

theorem busyNodes_reached : Cluster.Reached redis uids {"news"} busyNodes := by
  have first : Cluster.Reached redis uids {"news"} (sendBy true (newsCall 49) twoNodes) :=
    sendBy_reached (.start ⟨rfl, rfl, rfl, fun _ => ⟨rfl, rfl⟩⟩) true rfl (by decide +kernel)
      (m := 0) rfl (by decide)
  have second : Cluster.Reached redis uids {"news"} (sendBy false (newsCall 50)
      (sendBy false aliceJoins (sendBy true (newsCall 49) twoNodes))) :=
    sendBy_reached (sendBy_reached first false rfl (by decide +kernel) (m := 1) rfl (by decide))
      false rfl (by decide +kernel) (m := 1) rfl (by decide)
  have read := readBy_reached (readBy_reached (readBy_reached second true) true) false
  exact readBy_reached (sendBy_reached read true rfl (by decide +kernel) (m := 2) rfl (by decide))
    true

end Sample

theorem Cluster.routed_in_order_busy :
    Sample.busyNodes.read true = 3 ∧ Sample.busyNodes.read false = 1 ∧
      (∀ i, Sample.busyNodes.routed i <+: Sample.busyNodes.sent) ∧
      Sample.busyNodes.sent.filterMap (NodeMessage.offset? "news") = [1, 2, 3] ∧
      ∀ i, ∃ k ≤ 3,
        (Sample.busyNodes.routed i).filterMap (NodeMessage.offset? "news") = List.range' 1 k := by
  have apart : ∀ channel ∈ ({"news"} : Set String),
      "meta." ++ channel ∉ ({"news"} : Set String) := by
    intro channel mem twin
    rw [Set.mem_singleton_iff] at mem twin
    subst mem
    exact absurd twin (by decide)
  obtain ⟨order, streams⟩ := Cluster.routed_in_order rfl apart Sample.busyNodes_reached
  obtain ⟨n, top, offsets, fronts⟩ := streams "news" rfl
  have three : Sample.redis.topOffset "news" Sample.busyNodes.store = some 3 := rfl
  rw [three] at top
  cases top
  exact ⟨rfl, rfl, fun i => (order i).1, offsets, fronts⟩

end Centrifugo
