import Centrifugo.Data.Run
import Centrifugo.Redis.Engine

/-!
# The keys of a channel

Every channel has four keys. The names of their kinds are no prefixes of each other, with one
exception: the history hash of a channel is called like the history list of the channel with
`meta.` in front. Channels are isolated from each other exactly when no two of them are
related like that.
-/

namespace Centrifugo

open Json Proto Redis

inductive KeyKind
  | historyList
  | historyMeta
  | presenceData
  | presenceSet
  deriving DecidableEq

namespace KeyKind

def type : KeyKind → Redis.Kind
  | historyList => .list
  | historyMeta => .hash
  | presenceData => .hash
  | presenceSet => .zset

def name : KeyKind → String
  | historyList => ".list."
  | historyMeta => ".list.meta."
  | presenceData => ".presence.data."
  | presenceSet => ".presence.expire."

end KeyKind

namespace RedisEngine

variable {engine : RedisEngine}

def key (engine : RedisEngine) : KeyKind → String → String
  | .historyList => engine.listKey
  | .historyMeta => engine.metaKey
  | .presenceData => engine.presenceDataKey
  | .presenceSet => engine.presenceSetKey

theorem key_eq (kind : KeyKind) (channel : String) :
    engine.key kind channel = engine.keyPrefix ++ kind.name ++ channel := by
  cases kind <;> rfl

/-! ## Operations on channels -/

inductive Op
  | publish (channel : String) (data : Raw) (info : Option ClientInfo) (opts : PublishOptions)
  | history (channel : String)
  | historySince (channel : String) (offset : Nat) (epoch : String)
  | removeHistory (channel : String)
  | addPresence (channel client : String) (info : ClientInfo) (ttlMs nowSecs : Nat)
  | removePresence (channel client : String)
  | presence (channel : String) (nowSecs : Nat)
  | presenceStats (channel : String) (nowSecs : Nat)

def Op.channel : Op → String
  | publish channel .. | history channel | historySince channel .. | removeHistory channel
  | addPresence channel .. | removePresence channel _ | presence channel _
  | presenceStats channel _ => channel

/-- An operation without its result. -/
def perform (engine : RedisEngine) : Op → Script Unit
  | .publish channel data info opts => engine.publish channel data info opts
  | .history channel => engine.history channel >>= fun _ => pure ()
  | .historySince channel offset epoch =>
      engine.historySince channel offset epoch >>= fun _ => pure ()
  | .removeHistory channel => engine.removeHistory channel
  | .addPresence channel client info ttlMs nowSecs =>
      engine.addPresence channel client info ttlMs nowSecs
  | .removePresence channel client => engine.removePresence channel client
  | .presence channel nowSecs => engine.presence channel nowSecs >>= fun _ => pure ()
  | .presenceStats channel nowSecs => engine.presenceStats channel nowSecs >>= fun _ => pure ()

/-! ## What an operation touches -/

section Scripts

variable {only : String → Prop} {schema : String → Option Redis.Kind}
variable {listKey metaKey setKey dataKey : String}

theorem frames_epochOf (mine : only metaKey) : Script.Frames only (Scripts.epochOf metaKey) := by
  refine (Script.Frames.present metaKey).bind fun there => ?_
  refine (Script.Frames.ite (.hget metaKey "e") (.pure none)).bind fun epoch => ?_
  cases epoch with
  | some epoch => exact .pure epoch
  | none =>
      exact Script.Frames.time.bind fun _ => (Script.Frames.hset mine "e" _).bind fun _ => .pure _

theorem frames_addHistory (listMine : only listKey) (metaMine : only metaKey) (message : Bytes)
    (last listTtl : Nat) (topic : String) (metaTtl : Nat) :
    Script.Frames only
      (Scripts.addHistory listKey metaKey message last listTtl topic metaTtl) :=
  ((frames_epochOf metaMine).bind fun _ =>
    (Script.Frames.hincrby metaMine "s" 1).bind fun _ =>
    (Script.Frames.onlyIf (.expire metaMine metaTtl)).bind fun _ => .pure _).bind fun _ =>
    ((Script.Frames.lpush listMine _).bind fun _ =>
      (Script.Frames.ltrim listMine 0 last).bind fun _ => .expire listMine listTtl).bind fun _ =>
    (Script.Frames.onlyIf (.publish topic _)).bind fun _ => .pure _

theorem frames_history (metaMine : only metaKey) (listKey : String) (metaTtl : Nat) :
    Script.Frames only (Scripts.history listKey metaKey metaTtl) :=
  (Script.Frames.hget metaKey "s").bind fun _ =>
    (frames_epochOf metaMine).bind fun _ =>
    (Script.Frames.onlyIf (.expire metaMine metaTtl)).bind fun _ =>
    (Script.Frames.lrange listKey 0 (-1)).bind fun _ => .pure _

theorem keeps_epochOf (named : schema metaKey = some .hash) :
    Script.Keeps schema (Scripts.epochOf metaKey) := by
  refine (Script.Keeps.present metaKey).bind fun there => ?_
  refine (Script.Keeps.ite (.hget named "e") (.pure none)).bind fun epoch => ?_
  cases epoch with
  | some epoch => exact .pure epoch
  | none =>
      exact Script.Keeps.time.bind fun _ => (Script.Keeps.hset named "e" _).bind fun _ => .pure _

theorem keeps_addHistory (listNamed : schema listKey = some .list)
    (metaNamed : schema metaKey = some .hash) (message : Bytes) (last listTtl : Nat)
    (topic : String) (metaTtl : Nat) :
    Script.Keeps schema
      (Scripts.addHistory listKey metaKey message last listTtl topic metaTtl) :=
  ((keeps_epochOf metaNamed).bind fun _ =>
    (Script.Keeps.hincrby metaNamed "s" 1).bind fun _ =>
    (Script.Keeps.onlyIf (.expire metaKey metaTtl)).bind fun _ => .pure _).bind fun _ =>
    ((Script.Keeps.lpush listNamed _).bind fun _ =>
      (Script.Keeps.ltrim listNamed 0 last).bind fun _ => .expire listKey listTtl).bind fun _ =>
    (Script.Keeps.onlyIf (.publish topic _)).bind fun _ => .pure _

theorem keeps_history (listNamed : schema listKey = some .list)
    (metaNamed : schema metaKey = some .hash) (metaTtl : Nat) :
    Script.Keeps schema (Scripts.history listKey metaKey metaTtl) :=
  (Script.Keeps.hget metaNamed "s").bind fun _ =>
    (keeps_epochOf metaNamed).bind fun _ =>
    (Script.Keeps.onlyIf (.expire metaKey metaTtl)).bind fun _ =>
    (Script.Keeps.lrange listNamed 0 (-1)).bind fun _ => .pure _

end Scripts

/-- The keys of one channel. -/
def keysOf (engine : RedisEngine) (channel key : String) : Prop :=
  ∃ kind, key = engine.key kind channel

theorem frames_readHistory (channel : String) :
    Script.Frames (engine.keysOf channel) (engine.readHistory channel) := by
  refine (frames_history ⟨.historyMeta, rfl⟩ _ _).bind fun read => ?_
  refine Script.Frames.bind ?_ fun offset => Script.Frames.bind ?_ fun epoch => .pure _
  · unfold offsetOf
    split
    · exact .pure 0
    · split
      · exact .pure _
      · exact .fail _
  · unfold textOf
    split
    · exact .pure _
    · exact .fail _

theorem frames_presence (channel : String) (nowSecs : Nat) :
    Script.Frames (engine.keysOf channel) (engine.presence channel nowSecs) := by
  have data : engine.keysOf channel (engine.presenceDataKey channel) := ⟨.presenceData, rfl⟩
  have set : engine.keysOf channel (engine.presenceSetKey channel) := ⟨.presenceSet, rfl⟩
  refine Script.Frames.bind ?_ fun entries => .pure _
  exact (Script.Frames.zrangebyscore _ nowSecs).bind fun expired =>
    (Script.Frames.forAll (fun client => .hdel data client) expired).bind fun _ =>
    (Script.Frames.onlyIf (.zremrangebyscore set nowSecs)).bind fun _ => .hgetall _

/-- An operation changes the keys of its channel only. -/
theorem frames_perform (op : Op) :
    Script.Frames (engine.keysOf op.channel) (engine.perform op) := by
  have mine : ∀ kind, engine.keysOf op.channel (engine.key kind op.channel) :=
    fun kind => ⟨kind, rfl⟩
  cases op with
  | publish channel data info opts =>
      refine Script.Frames.ite ?_ (.publish _ _)
      exact (frames_addHistory (mine .historyList) (mine .historyMeta) _ _ _ _ _).bind fun _ =>
        .pure ()
  | history channel => exact (frames_readHistory channel).bind fun _ => .pure ()
  | historySince channel offset epoch =>
      refine Script.Frames.bind ?_ fun _ => .pure ()
      exact (frames_readHistory channel).bind fun _ => .ite (.pure _) (.pure _)
  | removeHistory channel => exact .del (mine .historyList)
  | addPresence channel client info ttlMs nowSecs =>
      exact (Script.Frames.zadd (mine .presenceSet) client _).bind fun _ =>
        (Script.Frames.hset (mine .presenceData) client _).bind fun _ =>
        (Script.Frames.expire (mine .presenceSet) _).bind fun _ =>
        .expire (mine .presenceData) _
  | removePresence channel client =>
      exact (Script.Frames.hdel (mine .presenceData) client).bind fun _ =>
        .zrem (mine .presenceSet) client
  | presence channel nowSecs => exact (frames_presence channel nowSecs).bind fun _ => .pure ()
  | presenceStats channel nowSecs =>
      exact ((frames_presence channel nowSecs).bind fun _ => .pure _).bind fun _ => .pure ()

/-- A schema that names the types of the keys of a channel. -/
def Names (engine : RedisEngine) (schema : String → Option Redis.Kind) (channel : String) : Prop :=
  ∀ kind, schema (engine.key kind channel) = some kind.type

section Types

variable {schema : String → Option Redis.Kind} {channel : String}

theorem keeps_readHistory (named : engine.Names schema channel) :
    Script.Keeps schema (engine.readHistory channel) := by
  refine (keeps_history (named .historyList) (named .historyMeta) _).bind fun read => ?_
  refine Script.Keeps.bind ?_ fun offset => Script.Keeps.bind ?_ fun epoch => .pure _
  · unfold offsetOf
    split
    · exact .pure 0
    · split
      · exact .pure _
      · exact .fail (by decide)
  · unfold textOf
    split
    · exact .pure _
    · exact .fail (by decide)

theorem keeps_presence (named : engine.Names schema channel) (nowSecs : Nat) :
    Script.Keeps schema (engine.presence channel nowSecs) := by
  have data := named .presenceData
  have set := named .presenceSet
  refine Script.Keeps.bind ?_ fun entries => .pure _
  exact (Script.Keeps.zrangebyscore set nowSecs).bind fun expired =>
    (Script.Keeps.forAll (fun client => .hdel data client) expired).bind fun _ =>
    (Script.Keeps.onlyIf (.zremrangebyscore set nowSecs)).bind fun _ => .hgetall data

theorem keeps_perform {op : Op} (named : engine.Names schema op.channel) :
    Script.Keeps schema (engine.perform op) := by
  cases op with
  | publish channel data info opts =>
      refine Script.Keeps.ite ?_ (.publish _ _)
      exact (keeps_addHistory (named .historyList) (named .historyMeta) _ _ _ _ _).bind fun _ =>
        .pure ()
  | history channel => exact (keeps_readHistory named).bind fun _ => .pure ()
  | historySince channel offset epoch =>
      refine Script.Keeps.bind ?_ fun _ => .pure ()
      exact (keeps_readHistory named).bind fun _ => .ite (.pure _) (.pure _)
  | removeHistory channel => exact .del _
  | addPresence channel client info ttlMs nowSecs =>
      exact (Script.Keeps.zadd (named .presenceSet) client _).bind fun _ =>
        (Script.Keeps.hset (named .presenceData) client _).bind fun _ =>
        (Script.Keeps.expire _ _).bind fun _ => .expire _ _
  | removePresence channel client =>
      exact (Script.Keeps.hdel (named .presenceData) client).bind fun _ =>
        .zrem (named .presenceSet) client
  | presence channel nowSecs => exact (keeps_presence named nowSecs).bind fun _ => .pure ()
  | presenceStats channel nowSecs =>
      exact ((keeps_presence named nowSecs).bind fun _ => .pure _).bind fun _ => .pure ()

end Types

/-! ## When keys differ -/

private theorem append_right_injective (front : String) : Function.Injective (front ++ ·) := by
  intro text other same
  have lists := congrArg String.toList same
  simpa [String.toList_append, String.toList_inj] using lists

/-- The history list of `meta.c` is called like the history hash of `c`. -/
theorem listKey_meta (channel : String) :
    engine.listKey ("meta." ++ channel) = engine.metaKey channel := by
  simp only [listKey, metaKey, String.append_assoc]
  rfl

theorem key_eq_iff {kind kind' : KeyKind} {channel channel' : String} :
    engine.key kind channel = engine.key kind' channel' ↔
      (kind = kind' ∧ channel = channel') ∨
      (kind = .historyList ∧ kind' = .historyMeta ∧ channel = "meta." ++ channel') ∨
      (kind = .historyMeta ∧ kind' = .historyList ∧ channel' = "meta." ++ channel) := by
  constructor
  · intro same
    rw [key_eq, key_eq, String.append_assoc, String.append_assoc] at same
    have tails := append_right_injective _ same
    have lists := congrArg String.toList tails
    cases kind <;> cases kind' <;>
      simp only [KeyKind.name, String.toList_append] at lists <;>
      simp_all [← String.toList_inj]
  · rintro (⟨rfl, rfl⟩ | ⟨rfl, rfl, rfl⟩ | ⟨rfl, rfl, rfl⟩)
    · rfl
    · exact listKey_meta channel'
    · exact (listKey_meta channel).symm

/-! ## Topics -/

theorem stripPrefix_append (front text : String) :
    stripPrefix front (front ++ text) = some text := by
  have found : front.toList.isPrefixOf? (front.toList ++ text.toList) = some text.toList := by
    generalize front.toList = chars
    induction chars with
    | nil => rfl
    | cons c chars ih => simp [List.isPrefixOf?, ih]
  simp [stripPrefix, String.toList_append, found]

/-- A topic of a channel is read as that channel. -/
theorem dispatchMessage_clientKey (selfUid channel : String) (payload : Bytes) :
    dispatchMessage selfUid engine.keyPrefix (engine.clientKey channel) payload =
      (routeOf channel payload).map .route := by
  have notControl : engine.clientKey channel ≠ engine.keyPrefix ++ ".control" := by
    intro same
    rw [clientKey, String.append_assoc] at same
    have tails := append_right_injective _ same
    have lists := congrArg String.toList tails
    simp [String.toList_append] at lists
  rw [dispatchMessage, if_neg notControl, clientKey, stripPrefix_append]
  rfl

/-! ## Isolation -/

/-- Operations on some channels, and time between them. -/
inductive Move
  | perform (op : Op)
  | tick (elapsed : Nat)

def Step (engine : RedisEngine) (channels : Set String) (store : Store) (move : Move)
    (store' : Store) : Prop :=
  match move with
  | .perform op => op.channel ∈ channels ∧ store' = (engine.perform op store).2
  | .tick elapsed => store' = store.tick elapsed

/-- What a server holds after operations on some channels, from empty. -/
def Reached (engine : RedisEngine) (channels : Set String) : Store → Prop :=
  Reachable (fun store => store.keys = fun _ => none) (engine.Step channels)

/-- No channel in use gets in the way of another one. -/
structure Isolated (engine : RedisEngine) (channels : Set String) : Prop where
  distinct : ∀ kind kind' channel channel', channel ∈ channels → channel' ∈ channels →
    engine.key kind channel = engine.key kind' channel' → kind = kind' ∧ channel = channel'
  untouched : ∀ op store kind channel, op.channel ∈ channels → channel ∈ channels →
    channel ≠ op.channel → (engine.perform op store).2.keys (engine.key kind channel) =
      store.keys (engine.key kind channel)
  typed : ∀ op store, op.channel ∈ channels → engine.Reached channels store →
    (engine.perform op store).1 ≠ .error .wrongType
  topics : ∀ channel ∈ channels, ∀ payload,
    dispatchMessage engine.nodeUid engine.keyPrefix (engine.clientKey channel) payload =
      (routeOf channel payload).map .route

/-- The types of the keys of some channels. -/
noncomputable def schemaOf (engine : RedisEngine) (channels : Set String) (key : String) :
    Option Redis.Kind :=
  open Classical in
  if found : ∃ kind : KeyKind, ∃ channel ∈ channels, key = engine.key kind channel then
    some found.choose.type
  else none

variable {channels : Set String}

theorem distinct_of_no_meta (apart : ∀ channel ∈ channels, "meta." ++ channel ∉ channels)
    {kind kind' : KeyKind} {channel channel' : String} (mem : channel ∈ channels)
    (mem' : channel' ∈ channels) (same : engine.key kind channel = engine.key kind' channel') :
    kind = kind' ∧ channel = channel' := by
  obtain same | ⟨-, -, rfl⟩ | ⟨-, -, rfl⟩ := key_eq_iff.mp same
  · exact same
  · exact absurd mem (apart channel' mem')
  · exact absurd mem' (apart channel mem)

theorem names_schemaOf (apart : ∀ channel ∈ channels, "meta." ++ channel ∉ channels)
    {channel : String} (mem : channel ∈ channels) :
    engine.Names (engine.schemaOf channels) channel := by
  intro kind
  have found : ∃ kind' : KeyKind, ∃ channel' ∈ channels,
      engine.key kind channel = engine.key kind' channel' := ⟨kind, channel, mem, rfl⟩
  obtain ⟨channel', mem', same⟩ := found.choose_spec
  have own := (distinct_of_no_meta apart mem mem' same).1
  rw [schemaOf, dif_pos found, ← own]

theorem Reached.typed (apart : ∀ channel ∈ channels, "meta." ++ channel ∉ channels)
    {store : Store} (h : engine.Reached channels store) :
    store.Typed (engine.schemaOf channels) := by
  refine Reachable.invariant _ ?_ ?_ h
  · intro store empty key entry kind _ found
    rw [empty] at found
    cases found
  · intro store move store' typed step
    cases move with
    | perform op =>
        obtain ⟨mem, rfl⟩ := step
        exact (keeps_perform (names_schemaOf apart mem)).typed store typed
    | tick elapsed =>
        cases step
        exact Script.Keeps.tick typed elapsed

/-- Channels are isolated exactly when none of them is another one with `meta.` in front. -/
theorem isolated_iff : engine.Isolated channels ↔
    ∀ channel ∈ channels, "meta." ++ channel ∉ channels := by
  constructor
  · intro isolated channel mem twin
    have same := isolated.distinct .historyList .historyMeta ("meta." ++ channel) channel twin mem
      (listKey_meta channel)
    cases same.1
  · intro apart
    refine ⟨fun _ _ _ _ mem mem' => distinct_of_no_meta apart mem mem', ?_, ?_, ?_⟩
    · intro op store kind channel mem mem' other
      apply (frames_perform op).keys store
      rintro ⟨kind', same⟩
      exact other (distinct_of_no_meta apart mem' mem same).2
    · intro op store mem reached
      exact (keeps_perform (names_schemaOf apart mem)).noWrongType store (reached.typed apart)
    · intro channel _ payload
      exact dispatchMessage_clientKey _ _ _

end RedisEngine

namespace Sample

def redis : RedisEngine := .connect "node" {}

def kept : PublishOptions := ⟨10, 60⟩

def emptyStore : Store := {}

/-- A publication to `meta.news`, which takes the key of the history hash of `news`. -/
def metaPublished : Store := (redis.publish "meta.news" ⟨[123, 125]⟩ none kept emptyStore).2

end Sample

/-- Whoever publishes to `meta.news` makes every publication to `news` fail. -/
theorem RedisEngine.not_isolated_news :
    ¬ Sample.redis.Isolated {"news", "meta.news"} ∧
      (Sample.redis.publish "news" ⟨[123, 125]⟩ none Sample.kept Sample.metaPublished).1 =
        .error .wrongType := by
  refine ⟨?_, by decide +kernel⟩
  intro isolated
  have same := isolated.distinct .historyList .historyMeta "meta.news" "news" (by simp) (by simp)
    (by decide)
  cases same.1

end Centrifugo
