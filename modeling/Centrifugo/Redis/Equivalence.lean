import Centrifugo.Redis.Recovery

/-!
# The two engines side by side

The same operations on the memory engine and on the Redis engine, without any deadline. A
stream and the two keys of its channel hold the same publications under the same offset, each
with its own epoch. Removing a history takes the stream with its position in memory and only
the list in Redis, so that the engines part there. They part once more where an offset has fifteen
digits, which Lua does not write in full.
-/

namespace Centrifugo

open Json Proto Redis

/-- What both engines answered to one reading. -/
structure Reading where
  channel : String
  memory : List Publication × StreamPosition
  redis : Except Redis.Failure (List Publication × StreamPosition)
  deriving DecidableEq

structure Engines where
  memory : MemoryEngine
  redis : Store
  readings : List Reading := []

namespace Engines

inductive Move
  | publish (channel : String) (data : Raw) (info : Option ClientInfo) (opts : PublishOptions)
  | history (channel : String)
  /-- A client has the epoch of the engine that it asks. -/
  | historySince (channel : String) (offset : Nat) (memoryEpoch redisEpoch : String)
  | removeHistory (channel : String)
  | tick (elapsed : Nat)

def publish (engine : RedisEngine) (clock : Clock) (fresh channel : String) (data : Raw)
    (info : Option ClientInfo) (opts : PublishOptions) (e : Engines) : Engines where
  memory := (e.memory.append clock fresh channel data info opts).1
  redis := (engine.publish channel data info opts e.redis).2
  readings := e.readings

def history (engine : RedisEngine) (clock : Clock) (fresh channel : String) (e : Engines) :
    Engines :=
  let memory := e.memory.readHistory clock fresh channel
  let redis := engine.history channel e.redis
  ⟨memory.1, redis.2, e.readings ++ [⟨channel, memory.2, redis.1⟩]⟩

def historySince (engine : RedisEngine) (clock : Clock) (fresh channel : String) (offset : Nat)
    (memoryEpoch redisEpoch : String) (e : Engines) : Engines :=
  let memory := e.memory.historySince clock fresh channel offset memoryEpoch
  let redis := engine.historySince channel offset redisEpoch e.redis
  ⟨memory.1, redis.2, e.readings ++ [⟨channel, memory.2, redis.1⟩]⟩

def removeHistory (engine : RedisEngine) (channel : String) (e : Engines) : Engines where
  memory := e.memory.removeHistory channel
  redis := (engine.removeHistory channel e.redis).2
  readings := e.readings

/-- No access finds an expired stream. -/
def Unexpired (clock : Clock) (channel : String) (e : Engines) : Prop :=
  MemoryEngine.evictIfExpired clock e.memory.history channel = e.memory.history

/-- One operation on both engines, before any deadline. A payload is a vector, which holds
fewer than 2^64 bytes. -/
def Step (engine : RedisEngine) (channels : Set String) (e : Engines) (move : Move)
    (e' : Engines) : Prop :=
  match move with
  | .publish channel data info opts => channel ∈ channels ∧
      (LiveCall.publish channel data info opts).body.length < 2 ^ 64 ∧
      ∃ clock fresh, e.Unexpired clock channel ∧
        e' = e.publish engine clock fresh channel data info opts
  | .history channel => channel ∈ channels ∧
      ∃ clock fresh, e.Unexpired clock channel ∧ e' = e.history engine clock fresh channel
  | .historySince channel offset memoryEpoch redisEpoch => channel ∈ channels ∧
      ∃ clock fresh, e.Unexpired clock channel ∧
        e' = e.historySince engine clock fresh channel offset memoryEpoch redisEpoch
  | .removeHistory channel => channel ∈ channels ∧ e' = e.removeHistory engine channel
  | .tick elapsed => (e.redis.tick elapsed).keys = e.redis.keys ∧
      e' = { e with redis := e.redis.tick elapsed }

def Empty (e : Engines) : Prop :=
  e.memory.history = ∅ ∧ e.redis.keys = (fun _ => none) ∧ e.readings = []

/-- What the engines hold after any operations on some channels. -/
def Reached (engine : RedisEngine) (channels : Set String) : Engines → Prop :=
  Reachable Empty (Step engine channels)

/-- A removal finds no stream. A publication that is kept has an offset of at most fourteen
digits, which Lua writes in full, and an info without an empty part. -/
def Harmless (e : Engines) : Move → Prop
  | .publish channel _ info opts => opts.historyEnabled →
      info.map ClientInfo.present = info ∧
      ∀ stream, e.memory.history.lookup channel = some stream → stream.offset + 1 < 10 ^ 14
  | .removeHistory channel => e.memory.history.lookup channel = none
  | _ => True

def ReachedHarmless (engine : RedisEngine) (channels : Set String) : Engines → Prop :=
  Reachable Empty (guarded (Step engine channels) Harmless)

/-- Both engines gave the same answers. -/
structure Agree (readings : List Reading) : Prop where
  answers : ∀ r ∈ readings, ∃ top, r.redis = .ok (r.memory.1, top) ∧
    top.offset = r.memory.2.offset ∧
    -- a SUBSCRIBE with the epoch of each engine, or with an unknown one
    ∀ useSeqGen req req', req.position = req'.position →
      (req.epoch = r.memory.2.epoch ↔ req'.epoch = top.epoch) →
      (recoveryResult useSeqGen req r.memory.1 r.memory.2).recovered =
        (recoveryResult useSeqGen req' r.memory.1 top).recovered
  epochs : ∀ r ∈ readings, ∀ r' ∈ readings, r.channel = r'.channel →
    ∀ pubs top pubs' top', r.redis = .ok (pubs, top) → r'.redis = .ok (pubs', top') →
      (r.memory.2.epoch = r'.memory.2.epoch ↔ top.epoch = top'.epoch)

/-! ## A stream and its keys -/

section Match

variable {engine : RedisEngine} {channel : String} {stream : Stream} {store : Store} {t : Nat}

/-- A stream as the scripts find it, under an epoch that may begin just now. -/
structure Ready (engine : RedisEngine) (channel : String) (stream : Stream) (store : Store)
    (t : Nat) : Prop where
  hash : ∃ fields, store.hashAt (engine.metaKey channel) = some fields ∧
    Scripts.epochIn fields store.now = decimal t ∧
    Script.count (fields.lookup "s") = some stream.offset
  list : ∃ items, store.listAt (engine.listKey channel) = some items ∧
    items.map RedisEngine.readItem = stream.pubs.reverse.map some
  room : stream.offset < 10 ^ 14
  consistent : stream.Consistent

/-- A stream whose epoch is in the hash. -/
structure Matches (engine : RedisEngine) (channel : String) (stream : Stream) (store : Store)
    (t : Nat) : Prop where
  hash : ∃ fields deadline,
    store.keys (engine.metaKey channel) = some ⟨.hash fields, deadline⟩ ∧
    fields.lookup "e" = some (decimal t) ∧
    Script.count (fields.lookup "s") = some stream.offset
  list : ∃ items, store.listAt (engine.listKey channel) = some items ∧
    items.map RedisEngine.readItem = stream.pubs.reverse.map some
  room : stream.offset < 10 ^ 14
  consistent : stream.Consistent

theorem Matches.ready (h : Matches engine channel stream store t) :
    Ready engine channel stream store t := by
  obtain ⟨fields, deadline, stored, epoch, counted⟩ := h.hash
  refine ⟨⟨fields, Script.hashAt_eq stored, ?_, counted⟩, h.list, h.room, h.consistent⟩
  rw [Scripts.epochIn, epoch, Option.getD_some]

/-- Other scripts leave a stream alone. -/
theorem Matches.congr {store' : Store} (h : Matches engine channel stream store t)
    (list : store'.keys (engine.listKey channel) = store.keys (engine.listKey channel))
    (hash : store'.keys (engine.metaKey channel) = store.keys (engine.metaKey channel)) :
    Matches engine channel stream store' t := by
  obtain ⟨fields, deadline, stored, rest⟩ := h.hash
  obtain ⟨items, listed, read⟩ := h.list
  exact ⟨⟨fields, deadline, hash.trans stored, rest⟩,
    ⟨items, (Script.listAt_congr list).trans listed, read⟩, h.room, h.consistent⟩

theorem ready_new (hash : store.keys (engine.metaKey channel) = none)
    (list : store.keys (engine.listKey channel) = none) (fresh : String) :
    Ready engine channel (Stream.new fresh) store (store.now / 1000) := by
  refine ⟨⟨∅, by rw [Store.hashAt, hash], rfl, rfl⟩, ⟨[], by rw [Store.listAt, list], rfl⟩, ?_,
    Stream.consistent_new fresh⟩
  change 0 < 10 ^ 14
  decide

/-- Both engines read the same. -/
theorem Ready.read (h : Ready engine channel stream store t) :
    ∃ store', engine.readHistory channel store =
        (.ok (stream.pubs, ⟨stream.offset, RedisEngine.second t⟩), store') ∧
      Matches engine channel stream store' t ∧
      ∀ key, key ≠ engine.metaKey channel → store'.keys key = store.keys key := by
  obtain ⟨fields, found, epoch, counted⟩ := h.hash
  obtain ⟨items, listed, read⟩ := h.list
  have room := h.room
  have text : decodeUtf8 (Scripts.epochIn fields store.now) = some (Nat.toDigits 10 t) := by
    rw [epoch, decodeUtf8_decimal]
  obtain ⟨store', ran, ⟨fields', stored, epoch', count'⟩, others, -⟩ :=
    RedisEngine.readHistory_run found listed counted (by omega) text
  have ascending := h.consistent.numbered.increasing.sublist h.consistent.suffix.sublist
  have descending : stream.pubs.reverse.Pairwise fun a b => b.offset < a.offset :=
    List.pairwise_reverse.mpr ascending
  refine ⟨store', ?_, ⟨⟨fields', _, stored, by rw [epoch', epoch], by rw [count', counted]⟩,
    ⟨items, (Script.listAt_congr (others _ RedisEngine.listKey_ne_metaKey)).trans listed, read⟩,
    h.room, h.consistent⟩, others⟩
  rw [ran, RedisEngine.filterMap_of_map read, RedisEngine.byOffset_eq_reverse descending,
    List.reverse_reverse]
  rfl

/-- The items that are kept in both engines are the last ones. -/
theorem take_map_push {publication : Publication} {pubs : List Publication}
    {items : List Bytes} {item : Bytes} {size : Nat} (positive : 0 < size)
    (first : RedisEngine.readItem item = some publication)
    (rest : items.map RedisEngine.readItem = pubs.reverse.map some) :
    ((item :: items).take (size - 1 + 1)).map RedisEngine.readItem =
      ((pubs ++ [publication]).drop ((pubs ++ [publication]).length - size)).reverse.map some := by
  have enough : size - 1 + 1 = size := Nat.sub_add_cancel positive
  have last : ((pubs ++ [publication]).drop ((pubs ++ [publication]).length - size)).reverse =
      (publication :: pubs.reverse).take size := by
    rw [List.reverse_drop, List.reverse_append, List.reverse_singleton, List.singleton_append]
    by_cases long : size ≤ (pubs ++ [publication]).length
    · rw [Nat.sub_sub_self long]
    · have all : (publication :: pubs.reverse).length ≤ size := by
        simp only [List.length_append, List.length_singleton] at long
        simp only [List.length_cons, List.length_reverse]
        omega
      have whole : (publication :: pubs.reverse).length ≤
          (pubs ++ [publication]).length - ((pubs ++ [publication]).length - size) := by
        simp only [List.length_append, List.length_singleton] at long ⊢
        simp only [List.length_cons, List.length_reverse]
        omega
      rw [List.take_of_length_le all, List.take_of_length_le whole]
  rw [last, enough, List.map_take, List.map_take, List.map_cons, List.map_cons, first, rest]

/-- Both engines append the same publication. -/
theorem Ready.publish (h : Ready engine channel stream store t) {data : Raw}
    {info : Option ClientInfo} {opts : PublishOptions} (enabled : opts.historyEnabled)
    (short : (LiveCall.publish channel data info opts).body.length < 2 ^ 64)
    (room : stream.offset + 1 < 10 ^ 14) (whole : info.map ClientInfo.present = info)
    (expireAt metaExpireAt : Int) :
    ∃ store', engine.publish channel data info opts store = (.ok (), store') ∧
      Matches engine channel { stream.push data info opts.historySize with expireAt, metaExpireAt }
        store' t ∧
      ∀ key, key ≠ engine.listKey channel → key ≠ engine.metaKey channel →
        store'.keys key = store.keys key := by
  obtain ⟨fields, found, epoch, counted⟩ := h.hash
  obtain ⟨items, listed, read⟩ := h.list
  simp only [PublishOptions.historyEnabled, Bool.and_eq_true, decide_eq_true_eq] at enabled
  obtain ⟨positive, ahead⟩ := enabled
  obtain ⟨store', ran, appended⟩ := @Scripts.addHistory_run store (engine.listKey channel)
    (engine.metaKey channel) (engine.clientKey channel)
    (LiveCall.publish channel data info opts).body (opts.historySize - 1) opts.historyLifetime
    engine.historyMetaTtl RedisEngine.listKey_ne_metaKey ahead _ _ _ found counted
    (by omega) listed
  obtain ⟨items', listed', stored'⟩ := appended.list
  rw [listed] at listed'
  cases listed'
  obtain ⟨fields', hash, epoch', count'⟩ := appended.hash
  have pushed := Stream.consistent_push h.consistent data info opts.historySize
  have item := readItem_historyFrame (by omega : stream.offset + 1 < 2 ^ 64)
    (luaText_luaNumber room) short
  have same : Publication.present { data := some data, info := info, offset := stream.offset + 1 } =
      { data := some data, info := info, offset := stream.offset + 1 } := by
    rw [Publication.present, whole]
  rw [RedisEngine.received_encoded, same] at item
  refine ⟨store', ?_, ⟨⟨fields', _, hash, by rw [epoch', epoch], ?_⟩, ?_, room,
    ⟨pushed.numbered, pushed.offset_eq, pushed.suffix⟩⟩, appended.others⟩
  · rw [RedisEngine.publish, if_pos (by simp [PublishOptions.historyEnabled, positive, ahead])]
    exact Script.bind_ok ran
  · rw [count']
    exact counter?_decimal _
  · exact ⟨_, Script.listAt_eq stored', take_map_push positive item read⟩

end Match

/-! ## What holds in every run -/

section Run

variable {engine : RedisEngine} {channels : Set String} {e : Engines}

/-- A channel has a stream in both engines or in none. -/
structure Related (engine : RedisEngine) (channel : String) (e : Engines) : Prop where
  absent : e.memory.history.lookup channel = none →
    e.redis.keys (engine.metaKey channel) = none ∧ e.redis.keys (engine.listKey channel) = none
  present : ∀ stream, e.memory.history.lookup channel = some stream →
    ∃ t, Matches engine channel stream e.redis t

/-- A reading told the epochs that the stream of its channel still has. -/
structure Told (engine : RedisEngine) (e : Engines) (r : Reading) : Prop where
  epochs : ∃ stream t, e.memory.history.lookup r.channel = some stream ∧
    Matches engine r.channel stream e.redis t ∧ stream.epoch = r.memory.2.epoch ∧
    r.redis = .ok (r.memory.1, ⟨r.memory.2.offset, RedisEngine.second t⟩)

structure Sound (engine : RedisEngine) (channels : Set String) (e : Engines) : Prop where
  related : ∀ channel ∈ channels, Related engine channel e
  told : ∀ r ∈ e.readings, r.channel ∈ channels ∧ Told engine e r

/-- A stream keeps its epochs. -/
def Follows (engine : RedisEngine) (channel : String) (e e' : Engines) : Prop :=
  ∀ stream t, e.memory.history.lookup channel = some stream →
    Matches engine channel stream e.redis t →
    ∃ stream', e'.memory.history.lookup channel = some stream' ∧
      stream'.epoch = stream.epoch ∧ Matches engine channel stream' e'.redis t

theorem Told.follow {e' : Engines} {r : Reading} (h : Told engine e r)
    (follows : Follows engine r.channel e e') : Told engine e' r := by
  obtain ⟨stream, t, found, held, epoch, answer⟩ := h.epochs
  obtain ⟨stream', found', epoch', held'⟩ := follows stream t found held
  exact ⟨stream', t, found', held', epoch'.trans epoch, answer⟩

/-- Where neither engine changes a channel, it stays related and keeps its epochs. -/
theorem untouched {channel : String} {e' : Engines}
    (memory : e'.memory.history.lookup channel = e.memory.history.lookup channel)
    (list : e'.redis.keys (engine.listKey channel) = e.redis.keys (engine.listKey channel))
    (hash : e'.redis.keys (engine.metaKey channel) = e.redis.keys (engine.metaKey channel)) :
    (Related engine channel e → Related engine channel e') ∧ Follows engine channel e e' := by
  constructor
  · intro related
    refine ⟨?_, ?_⟩
    · intro none
      rw [memory] at none
      obtain ⟨noHash, noList⟩ := related.absent none
      exact ⟨hash.trans noHash, list.trans noList⟩
    · intro stream found
      rw [memory] at found
      obtain ⟨t, held⟩ := related.present stream found
      exact ⟨t, held.congr list hash⟩
  · intro stream t found held
    exact ⟨stream, memory.trans found, rfl, held.congr list hash⟩

/-- What an access finds in memory is ready in Redis. -/
theorem Related.ready {channel : String} (h : Related engine channel e) {clock : Clock}
    (unexpired : e.Unexpired clock channel) (fresh : String) :
    ∃ t, Ready engine channel
        (MemoryEngine.streamAt clock fresh e.memory.history channel) e.redis t ∧
      ∀ stream t', e.memory.history.lookup channel = some stream →
        Matches engine channel stream e.redis t' →
        MemoryEngine.streamAt clock fresh e.memory.history channel = stream ∧ t' = t := by
  rw [MemoryEngine.streamAt, unexpired]
  cases found : e.memory.history.lookup channel with
  | none =>
      obtain ⟨noHash, noList⟩ := h.absent found
      exact ⟨_, ready_new noHash noList fresh, nofun⟩
  | some stream =>
      obtain ⟨t, held⟩ := h.present stream found
      refine ⟨t, held.ready, ?_⟩
      rintro _ t' ⟨⟩ held'
      refine ⟨rfl, ?_⟩
      obtain ⟨fields, _, stored, epoch, -⟩ := held.hash
      obtain ⟨fields', _, stored', epoch', -⟩ := held'.hash
      rw [stored] at stored'
      cases stored'
      rw [epoch] at epoch'
      exact (decimal_injective (Option.some.inj epoch')).symm

/-- After an access both engines have a stream for the channel, and the others are as before. -/
theorem Sound.access {channel : String} {e' : Engines} {stream stream' : Stream} {t : Nat}
    (h : Sound engine channels e) (apart : ∀ channel ∈ channels, "meta." ++ channel ∉ channels)
    (mem : channel ∈ channels)
    (before : ∀ s t', e.memory.history.lookup channel = some s →
      Matches engine channel s e.redis t' → stream = s ∧ t' = t)
    (found : e'.memory.history.lookup channel = some stream')
    (epoch : stream'.epoch = stream.epoch) (held : Matches engine channel stream' e'.redis t)
    (memory : ∀ other, other ≠ channel →
      e'.memory.history.lookup other = e.memory.history.lookup other)
    (redis : ∀ key, key ≠ engine.listKey channel → key ≠ engine.metaKey channel →
      e'.redis.keys key = e.redis.keys key)
    (readings : ∀ r ∈ e'.readings, r ∈ e.readings ∨ (r.channel = channel ∧
      stream'.epoch = r.memory.2.epoch ∧
      r.redis = .ok (r.memory.1, ⟨r.memory.2.offset, RedisEngine.second t⟩))) :
    Sound engine channels e' := by
  have others : ∀ other ∈ channels, other ≠ channel →
      (Related engine other e → Related engine other e') ∧ Follows engine other e e' := by
    intro other mem' differs
    have key : ∀ kind kind' : KeyKind, engine.key kind other ≠ engine.key kind' channel :=
      fun kind kind' same =>
        differs (RedisEngine.distinct_of_no_meta apart mem' mem same).2
    exact untouched (memory other differs)
      (redis _ (key .historyList .historyList) (key .historyList .historyMeta))
      (redis _ (key .historyMeta .historyList) (key .historyMeta .historyMeta))
  have follows : Follows engine channel e e' := by
    intro s t' found' held'
    obtain ⟨rfl, rfl⟩ := before s t' found' held'
    exact ⟨stream', found, epoch, held⟩
  refine ⟨?_, ?_⟩
  · intro other mem'
    by_cases same : other = channel
    · subst same
      refine ⟨fun none => ?_, ?_⟩
      · rw [found] at none
        cases none
      · intro s found'
        rw [found] at found'
        cases found'
        exact ⟨t, held⟩
    · exact (others other mem' same).1 (h.related other mem')
  · intro r reading
    obtain earlier | ⟨rfl, named, answer⟩ := readings r reading
    · obtain ⟨mem', told⟩ := h.told r earlier
      by_cases same : r.channel = channel
      · rw [← same] at follows
        exact ⟨mem', told.follow follows⟩
      · exact ⟨mem', told.follow (others _ mem' same).2⟩
    · exact ⟨mem, stream', t, found, held, named, answer⟩

/-- A reading of any kind finds the same in both engines. -/
theorem Sound.read {channel : String} (h : Sound engine channels e)
    (apart : ∀ channel ∈ channels, "meta." ++ channel ∉ channels) (mem : channel ∈ channels)
    {clock : Clock} (unexpired : e.Unexpired clock channel) (fresh : String) :
    ∃ t store',
      engine.readHistory channel e.redis =
        (.ok ((MemoryEngine.streamAt clock fresh e.memory.history channel).pubs,
          ⟨(MemoryEngine.streamAt clock fresh e.memory.history channel).offset,
            RedisEngine.second t⟩), store') ∧
      (MemoryEngine.streamAt clock fresh e.memory.history channel).Consistent ∧
      ∀ memory redis, memory.2 = (MemoryEngine.streamAt clock fresh e.memory.history
          channel).position →
        redis = .ok (memory.1, ⟨memory.2.offset, RedisEngine.second t⟩) →
        Sound engine channels ⟨(e.memory.touch clock fresh channel).1, store',
          e.readings ++ [⟨channel, memory, redis⟩]⟩ := by
  obtain ⟨t, ready, before⟩ := (h.related channel mem).ready unexpired fresh
  obtain ⟨store', ran, held, others⟩ := ready.read
  refine ⟨t, store', ran, ready.consistent, ?_⟩
  intro memory redis top answer
  have touched : (e.memory.touch clock fresh channel).1.history =
      e.memory.history.insert channel
        (MemoryEngine.streamAt clock fresh e.memory.history channel) := by
    rw [MemoryEngine.touch, unexpired]
  refine h.access apart mem before ?_ rfl held ?_ (fun key _ other => others key other) ?_
  · rw [touched, AList.lookup_insert]
  · intro other differs
    rw [touched, AList.lookup_insert_ne differs]
  · intro r reading
    rcases List.mem_append.mp reading with earlier | new
    · exact .inl earlier
    · cases List.mem_singleton.mp new
      refine .inr ⟨rfl, ?_, answer⟩
      rw [top]
      rfl

/-- Nothing follows the top of a stream. -/
theorem none_after {stream : Stream} (consistent : stream.Consistent) {offset : Nat}
    (top : stream.offset = offset) :
    stream.pubs.filter (fun publication => offset < publication.offset) = [] := by
  rw [List.filter_eq_nil_iff]
  intro publication mem
  have bound := (consistent.numbered.bounds (consistent.suffix.mem mem)).2
  have past : publication.offset ≤ offset := by
    rw [← top, consistent.offset_eq]
    omega
  simpa using past

/-- An operation that changes no history of either engine. -/
theorem Sound.same {e' : Engines} (h : Sound engine channels e)
    (memory : ∀ channel, e'.memory.history.lookup channel = e.memory.history.lookup channel)
    (redis : e'.redis.keys = e.redis.keys) (readings : e'.readings = e.readings) :
    Sound engine channels e' := by
  have all : ∀ channel, (Related engine channel e → Related engine channel e') ∧
      Follows engine channel e e' :=
    fun channel => untouched (memory channel) (congrFun redis _) (congrFun redis _)
  refine ⟨fun channel mem => (all channel).1 (h.related channel mem), ?_⟩
  intro r reading
  rw [readings] at reading
  obtain ⟨mem, told⟩ := h.told r reading
  exact ⟨mem, told.follow (all _).2⟩

theorem Sound.step {e' : Engines} {move : Move} (h : Sound engine channels e)
    (apart : ∀ channel ∈ channels, "meta." ++ channel ∉ channels) (harmless : Harmless e move)
    (step : Step engine channels e move e') : Sound engine channels e' := by
  cases move with
  | publish channel data info opts =>
      obtain ⟨mem, short, clock, fresh, unexpired, rfl⟩ := step
      by_cases enabled : opts.historyEnabled
      · obtain ⟨whole, room⟩ := harmless enabled
        obtain ⟨t, ready, before⟩ := (h.related channel mem).ready unexpired fresh
        have space : (MemoryEngine.streamAt clock fresh e.memory.history channel).offset + 1 <
            10 ^ 14 := by
          rw [MemoryEngine.streamAt, unexpired]
          cases found : e.memory.history.lookup channel with
          | none =>
              change 0 + 1 < 10 ^ 14
              decide
          | some stream => exact room stream found
        obtain ⟨store', ran, held, others⟩ := ready.publish enabled short space whole
          (i64 ((clock 2).seconds + i64 opts.historyLifetime))
          (if e.memory.metaTtl > 0 then i64 ((clock 3).seconds + e.memory.metaTtl) else i64Max)
        let pushed : Stream :=
          { (MemoryEngine.streamAt clock fresh e.memory.history channel).push data info
              opts.historySize with
            expireAt := i64 ((clock 2).seconds + i64 opts.historyLifetime)
            metaExpireAt := if e.memory.metaTtl > 0 then
              i64 ((clock 3).seconds + e.memory.metaTtl) else i64Max }
        have epoch : pushed.epoch =
          (MemoryEngine.streamAt clock fresh e.memory.history channel).epoch := rfl
        have appended : (e.memory.append clock fresh channel data info opts).1.history =
            e.memory.history.insert channel pushed := by
          rw [MemoryEngine.append, if_pos enabled, MemoryEngine.addToHistory, unexpired]
        rw [publish, ran]
        refine h.access apart mem before ?_ epoch held ?_ others (fun r reading => .inl reading)
        · rw [appended, AList.lookup_insert]
        · intro other differs
          rw [appended, AList.lookup_insert_ne differs]
      · rw [publish, MemoryEngine.append, if_neg enabled, RedisEngine.publish, if_neg enabled]
        exact h.same (fun _ => rfl) rfl rfl
  | history channel =>
      obtain ⟨mem, clock, fresh, unexpired, rfl⟩ := step
      obtain ⟨t, store', ran, -, sound⟩ := h.read apart mem unexpired fresh
      have after := sound (e.memory.readHistory clock fresh channel).2 _ rfl rfl
      rw [history, RedisEngine.history, ran]
      exact after
  | historySince channel offset memoryEpoch redisEpoch =>
      obtain ⟨mem, clock, fresh, unexpired, rfl⟩ := step
      obtain ⟨t, store', ran, consistent, sound⟩ := h.read apart mem unexpired fresh
      have memory : e.memory.historySince clock fresh channel offset memoryEpoch =
          ((e.memory.touch clock fresh channel).1,
            (MemoryEngine.streamAt clock fresh e.memory.history channel).pubs.filter
              (fun publication => offset < publication.offset),
            (MemoryEngine.streamAt clock fresh e.memory.history channel).position) := by
        simp only [MemoryEngine.historySince]
        split
        next top => rw [none_after consistent top.1]; rfl
        next => rfl
      have redis : engine.historySince channel offset redisEpoch e.redis =
          (.ok ((MemoryEngine.streamAt clock fresh e.memory.history channel).pubs.filter
              (fun publication => offset < publication.offset),
            ⟨(MemoryEngine.streamAt clock fresh e.memory.history channel).offset,
              RedisEngine.second t⟩), store') := by
        rw [RedisEngine.historySince, Script.bind_ok ran]
        simp only
        split
        next top => rw [none_after consistent top.1]; rfl
        next => rfl
      rw [historySince, memory, redis]
      exact sound _ _ rfl rfl
  | removeHistory channel =>
      obtain ⟨mem, rfl⟩ := step
      refine h.same ?_ ?_ rfl
      · intro other
        change (e.memory.history.erase channel).lookup other = _
        rw [Map.lookup_erase_eq]
        split
        next same => rw [same, show e.memory.history.lookup channel = none from harmless]
        next => rfl
      · funext key
        by_cases same : key = engine.listKey channel
        · subst same
          rw [((h.related channel mem).absent harmless).2]
          exact Store.set_self _ _ _
        · exact Store.set_other _ same _
  | tick elapsed =>
      obtain ⟨same, rfl⟩ := step
      exact h.same (fun _ => rfl) same rfl

theorem ReachedHarmless.sound (apart : ∀ channel ∈ channels, "meta." ++ channel ∉ channels)
    (h : ReachedHarmless engine channels e) : Sound engine channels e := by
  refine Reachable.invariant (Sound engine channels) ?_ ?_ h
  · rintro e ⟨memory, redis, readings⟩
    refine ⟨fun channel _ => ⟨fun _ => ?_, ?_⟩, ?_⟩
    · rw [redis]
      exact ⟨rfl, rfl⟩
    · intro stream found
      rw [memory] at found
      cases found
    · intro r reading
      rw [readings] at reading
      cases reading
  · intro e move e' sound step
    exact sound.step apart step.1 step.2

theorem recoveryResult_recovered_congr {req req' : SubscribeRequest} {pubs : List Publication}
    {top top' : StreamPosition} (offset : top'.offset = top.offset)
    (position : req.position = req'.position)
    (epoch : req.epoch = top.epoch ↔ req'.epoch = top'.epoch) (useSeqGen : Bool) :
    (recoveryResult useSeqGen req pubs top).recovered =
      (recoveryResult useSeqGen req' pubs top').recovered := by
  have same : decide (top.epoch = req.epoch) = decide (top'.epoch = req'.epoch) := by
    rw [decide_eq_decide, eq_comm, epoch, eq_comm]
  simp only [recoveryResult, encodePosition_recovered, position, offset, same]

/-- In every run in which removals find no stream, the engines give the same answers. -/
theorem engines_agree (apart : ∀ channel ∈ channels, "meta." ++ channel ∉ channels)
    (reached : ReachedHarmless engine channels e) : Agree e.readings := by
  have sound := reached.sound apart
  constructor
  · intro r reading
    obtain ⟨stream, t, -, -, -, answer⟩ := (sound.told r reading).2.epochs
    have offset : (⟨r.memory.2.offset, RedisEngine.second t⟩ : StreamPosition).offset =
      r.memory.2.offset := rfl
    refine ⟨_, answer, offset, ?_⟩
    intro useSeqGen req req' position epoch
    exact recoveryResult_recovered_congr offset position epoch useSeqGen
  · intro r reading r' reading' same pubs top pubs' top' answer answer'
    obtain ⟨stream, t, found, held, epoch, told⟩ := (sound.told r reading).2.epochs
    obtain ⟨stream', t', found', held', epoch', told'⟩ := (sound.told r' reading').2.epochs
    rw [← same] at found' held'
    rw [found] at found'
    cases found'
    obtain ⟨fields, _, stored, second, -⟩ := held.hash
    obtain ⟨fields', _, stored', second', -⟩ := held'.hash
    rw [stored] at stored'
    cases stored'
    rw [second] at second'
    have times := decimal_injective (Option.some.inj second')
    rw [answer] at told
    rw [answer'] at told'
    cases told
    cases told'
    rw [← epoch, ← epoch', times]
    exact ⟨fun _ => rfl, fun _ => rfl⟩

end Run

end Engines

namespace Sample

def bothEmpty : Engines := ⟨.new 0, emptyStore, []⟩

/-- One publication, and a reading of it. -/
def readOnce : Engines :=
  (bothEmpty.publish redis (fun _ => noon) "xyz" "news" ⟨[49]⟩ none kept).history redis
    (fun _ => noon) "abc" "news"

theorem readOnce_reached : Engines.ReachedHarmless redis {"news"} readOnce := by
  have published : Engines.ReachedHarmless redis {"news"}
      (bothEmpty.publish redis (fun _ => noon) "xyz" "news" ⟨[49]⟩ none kept) :=
    .next (.start (s := bothEmpty) ⟨rfl, rfl, rfl⟩) (a := .publish "news" ⟨[49]⟩ none kept)
      ⟨fun _ => ⟨rfl, nofun⟩, rfl, by decide +kernel, _, _, rfl, rfl⟩
  exact .next published (a := .history "news") ⟨trivial, rfl, fun _ => noon, _, rfl, rfl⟩

/-- A removal that finds nothing, and one publication in each of two channels. -/
def twoStreams : Engines :=
  ((bothEmpty.removeHistory redis "sport").publish redis (fun _ => noon) "xyz" "news" ⟨[49]⟩ none
    ⟨2, 60⟩).publish redis (fun _ => noon) "uvw" "sport" ⟨[50]⟩ none kept

/-- Two publications more, after which the first one is trimmed. -/
def trimmed : Engines :=
  (twoStreams.publish redis (fun _ => noon) "abc" "news" ⟨[51]⟩ none ⟨2, 60⟩).publish redis
    (fun _ => noon) "abc" "news" ⟨[52]⟩ none ⟨2, 60⟩

/-- Readings of both channels. -/
def busy : Engines :=
  ((trimmed.history redis (fun _ => noon) "abc" "news").historySince redis (fun _ => noon) "abc"
    "news" 2 "xyz" "0").history redis (fun _ => noon) "abc" "sport"

theorem publish_reached {e : Engines} {fresh channel : String} {data : Raw}
    {opts : PublishOptions} (reached : Engines.ReachedHarmless redis {"news", "sport"} e)
    (mem : channel ∈ ({"news", "sport"} : Set String))
    (short : (LiveCall.publish channel data none opts).body.length < 2 ^ 64)
    (unexpired : e.Unexpired (fun _ => noon) channel)
    (few : ∀ stream, e.memory.history.lookup channel = some stream →
      stream.offset + 1 < 10 ^ 14) :
    Engines.ReachedHarmless redis {"news", "sport"}
      (e.publish redis (fun _ => noon) fresh channel data none opts) :=
  .next reached (a := .publish channel data none opts)
    ⟨fun _ => ⟨rfl, few⟩, mem, short, _, _, unexpired, rfl⟩

theorem few_of_lookup {e : Engines} {channel : String} {m : Nat}
    (found : (e.memory.history.lookup channel).map Stream.offset = some m)
    (few : m + 1 < 10 ^ 14) :
    ∀ stream, e.memory.history.lookup channel = some stream → stream.offset + 1 < 10 ^ 14 := by
  intro stream same
  rw [same] at found
  cases found
  exact few

theorem busy_reached : Engines.ReachedHarmless redis {"news", "sport"} busy := by
  have removed : Engines.ReachedHarmless redis {"news", "sport"}
      (bothEmpty.removeHistory redis "sport") :=
    .next (.start (s := bothEmpty) ⟨rfl, rfl, rfl⟩) (a := .removeHistory "sport")
      ⟨rfl, .inr rfl, rfl⟩
  have streams : Engines.ReachedHarmless redis {"news", "sport"} twoStreams :=
    publish_reached (publish_reached removed (.inl rfl) (by decide +kernel) rfl nofun) (.inr rfl)
      (by decide +kernel) rfl nofun
  have kept : Engines.ReachedHarmless redis {"news", "sport"} trimmed :=
    publish_reached (publish_reached streams (.inl rfl) (by decide +kernel) rfl
      (few_of_lookup (m := 1) rfl (by decide))) (.inl rfl) (by decide +kernel) rfl
      (few_of_lookup (m := 2) rfl (by decide))
  have read : Engines.ReachedHarmless redis {"news", "sport"}
      (trimmed.history redis (fun _ => noon) "abc" "news") :=
    .next kept (a := .history "news") ⟨trivial, .inl rfl, fun _ => noon, _, rfl, rfl⟩
  have since : Engines.ReachedHarmless redis {"news", "sport"}
      ((trimmed.history redis (fun _ => noon) "abc" "news").historySince redis (fun _ => noon)
        "abc" "news" 2 "xyz" "0") :=
    .next read (a := .historySince "news" 2 "xyz" "0")
      ⟨trivial, .inl rfl, fun _ => noon, _, rfl, rfl⟩
  exact .next since (a := .history "sport") ⟨trivial, .inr rfl, fun _ => noon, _, rfl, rfl⟩

/-- The history is removed, and read once more. -/
def readAgain : Engines :=
  (readOnce.removeHistory redis "news").history redis (fun _ => noon) "abc" "news"

theorem readAgain_reached : Engines.Reached redis {"news"} readAgain := by
  have removed : Engines.Reached redis {"news"} (readOnce.removeHistory redis "news") :=
    .next (Reachable.of_guarded readOnce_reached) (a := .removeHistory "news") ⟨rfl, rfl⟩
  exact .next removed (a := .history "news") ⟨rfl, _, _, rfl, rfl⟩

end Sample

theorem Engines.engines_agree_busy :
    (Sample.busy.readings.map fun r => r.memory.1.map Publication.offset) = [[2, 3], [3], [1]] ∧
      Agree Sample.busy.readings :=
  ⟨rfl, engines_agree (by simp) Sample.busy_reached⟩

/-- After a removal the memory engine starts over, and Redis goes on. -/
theorem Engines.not_engines_agree :
    ¬ ∀ (engine : RedisEngine) (channels : Set String) (e : Engines),
      (∀ channel ∈ channels, "meta." ++ channel ∉ channels) → Reached engine channels e →
      Agree e.readings := by
  intro all
  have agree := all Sample.redis {"news"} Sample.readAgain (by simp) Sample.readAgain_reached
  have last : (⟨"news", ([], ⟨0, "abc"⟩), .ok ([], ⟨1, "0"⟩)⟩ : Reading) ∈
      Sample.readAgain.readings := by decide +kernel
  obtain ⟨top, answer, offset, -⟩ := agree.answers _ last
  cases answer
  exact absurd offset (by decide)

end Centrifugo
