import Centrifugo.Core.Client.Commands
import Centrifugo.Redis.Live

/-!
# Recovery from Redis

The list of a channel and its hash expire on their own, and only publications renew the list.
An epoch that begins while items of an earlier one are still in the list takes them for its
own. An offset of fifteen digits is not read back. As long as no publication and no reading
begins an epoch over such a list, and offsets are shorter, a recovery returns exactly what was
appended under its epoch.

`Logged.appended` is a ghost: every publication that was appended, under its epoch.
-/

namespace Centrifugo

open Json Proto Redis

/-! ## The answer to a recovery -/

/-- The reply to a recovery, from what an engine returns. -/
def recoveryResult (useSeqGen : Bool) (req : SubscribeRequest) (pubs : List Publication)
    (top : StreamPosition) : SubscribeResult :=
  let offset := req.position
  let next := (offset + 1) % 2 ^ 64
  let recovered := match pubs.head? with
    | some first => first.offset = next && top.epoch = req.epoch
    | none => top.offset = offset && top.epoch = req.epoch
  let result : SubscribeResult := {
    recoverable := true
    recovered := recovered
    epoch := top.epoch
    publications := if useSeqGen then (pubs.map Publication.toSeqGen).reverse else pubs }
  encodePosition result top.offset useSeqGen

theorem Session.recoverSince_eq (s : Session) (node : Node) (clock : Clock) (fresh : String)
    (req : SubscribeRequest) :
    (s.recoverSince node clock fresh req).2 =
      recoveryResult node.useSeqGen req
        (s.world.engine.historySince clock fresh req.channel req.position req.epoch).2.1
        (s.world.engine.historySince clock fresh req.channel req.position req.epoch).2.2 := rfl

theorem SubscribeRequest.position_lt (req : SubscribeRequest) : req.position < 2 ^ 64 := by
  have seq := req.seq.toNat_lt
  have gen := req.gen.toNat_lt
  have offset := req.offset.toNat_lt
  unfold position packOffset
  split <;> omega

namespace RedisEngine

/-- A recovery on the Redis engine. -/
def recoverSince (engine : RedisEngine) (useSeqGen : Bool) (req : SubscribeRequest) :
    Script SubscribeResult := do
  let (pubs, top) ← engine.historySince req.channel req.position req.epoch
  return recoveryResult useSeqGen req pubs top

end RedisEngine

/-! ## Runs on one channel -/

structure Logged where
  store : Store
  /-- What was appended, under the text of its epoch. -/
  appended : List (String × Publication) := []

namespace Logged

open RedisEngine (second second_injective byOffset_eq_reverse filterMap_of_map)

/-- The publications of one epoch. -/
def under (s : Logged) (epoch : String) : List Publication :=
  (s.appended.filter fun entry => entry.1 = epoch).map Prod.snd

inductive Move
  | publish (data : Raw) (info : Option ClientInfo) (opts : PublishOptions)
  | history
  | historySince (offset : Nat) (epoch : String)
  | remove
  | tick (elapsed : Nat)

def epochText (epoch : Bytes) : String := ((decodeUtf8 epoch).map String.ofList).getD ""

/-- A publication, with what it appends. The hash has its offset. -/
def publish (engine : RedisEngine) (channel : String) (data : Raw) (info : Option ClientInfo)
    (opts : PublishOptions) (s : Logged) : Logged :=
  if opts.historyEnabled then
    match Scripts.addHistory (engine.listKey channel) (engine.metaKey channel)
        (LiveCall.publish channel data info opts).body (opts.historySize - 1)
        opts.historyLifetime (engine.clientKey channel) engine.historyMetaTtl s.store with
    | (.ok (_, epoch), store) =>
        let offset := (engine.topOffset channel store).getD 0
        ⟨store, s.appended ++
          [(epochText epoch, Publication.present { data := some data, info := info, offset })]⟩
    | (.error _, store) => ⟨store, s.appended⟩
  else ⟨(engine.publish channel data info opts s.store).2, s.appended⟩

/-- The log does not get in the way of the store. -/
theorem store_publish (engine : RedisEngine) (channel : String) (data : Raw)
    (info : Option ClientInfo) (opts : PublishOptions) (s : Logged) :
    (s.publish engine channel data info opts).store =
      (engine.publish channel data info opts s.store).2 := by
  unfold publish
  split
  next enabled =>
    rw [RedisEngine.publish, if_pos enabled, Script.bind_run, LiveCall.body]
    generalize Scripts.addHistory _ _ _ _ _ _ _ s.store = ran
    obtain ⟨_ | _, store⟩ := ran <;> rfl
  next => rfl

/-- A payload is a vector, which holds fewer than 2^64 bytes. -/
def Step (engine : RedisEngine) (channel : String) (s : Logged) (move : Move) (s' : Logged) :
    Prop :=
  match move with
  | .publish data info opts =>
      (LiveCall.publish channel data info opts).body.length < 2 ^ 64 ∧
        s' = s.publish engine channel data info opts
  | .history => s' = { s with store := (engine.history channel s.store).2 }
  | .historySince offset epoch =>
      s' = { s with store := (engine.historySince channel offset epoch s.store).2 }
  | .remove => s' = { s with store := (engine.removeHistory channel s.store).2 }
  | .tick elapsed => s' = { s with store := s.store.tick elapsed }

def Empty (s : Logged) : Prop := s.store.keys = (fun _ => none) ∧ s.appended = []

/-- Whoever begins an epoch finds no list, and an offset has at most fourteen digits. -/
def Fresh (engine : RedisEngine) (channel : String) (s : Logged) : Move → Prop
  | .publish _ _ opts => opts.historyEnabled →
      (s.store.keys (engine.metaKey channel) = none →
        s.store.keys (engine.listKey channel) = none) ∧
      ∀ n, engine.topOffset channel s.store = some n → n + 1 < 10 ^ 14
  | .history | .historySince .. =>
      s.store.keys (engine.metaKey channel) = none → s.store.keys (engine.listKey channel) = none
  | .remove | .tick _ => True

/-! ## What holds in every run -/

section Invariant

variable {engine : RedisEngine} {channel : String} {s : Logged}

@[simp] theorem epochText_decimal (t : Nat) : epochText (decimal t) = second t := by
  simp [epochText, decodeUtf8_decimal, second]

/-- The list holds some publications, the newest first. -/
def Holds (engine : RedisEngine) (channel : String) (s : Logged) (kept : List Publication) :
    Prop :=
  ∃ items, s.store.listAt (engine.listKey channel) = some items ∧
    items.map RedisEngine.readItem = kept.map some

/-- No epoch has begun, or the last one is over. -/
structure Idle (engine : RedisEngine) (channel : String) (s : Logged) : Prop where
  absent : s.store.keys (engine.metaKey channel) = none
  listed : ∃ items, s.store.listAt (engine.listKey channel) = some items
  past : ∀ entry ∈ s.appended, ∃ t, entry.1 = second t ∧ 1000 * t + 1000 ≤ s.store.now

/-- An epoch of which some publications are kept. -/
structure Stands (engine : RedisEngine) (channel : String) (s : Logged) (t : Nat)
    (kept : List Publication) : Prop where
  room : (s.under (second t)).length < 10 ^ 14
  numbered : Log.Numbered Publication.offset (s.under (second t))
  holds : Holds engine channel s kept
  suffix : kept.reverse <:+ s.under (second t)
  begun : 1000 * t ≤ s.store.now
  past : ∀ entry ∈ s.appended, ∃ t', entry.1 = second t' ∧ t' ≤ t
  expires : ∀ deadline, (s.store.keys (engine.metaKey channel)).bind Entry.deadline =
    some deadline → 1000 * t + 1000 ≤ deadline

/-- The epoch of a stream as the scripts see it, which may begin just now. -/
def Sees (engine : RedisEngine) (channel : String) (s : Logged) (t : Nat) : Prop :=
  ∃ fields, s.store.hashAt (engine.metaKey channel) = some fields ∧
    Scripts.epochIn fields s.store.now = decimal t ∧
    Script.count (fields.lookup "s") = some (s.under (second t)).length

/-- The epoch of a stream is in its hash. -/
def Names (engine : RedisEngine) (channel : String) (s : Logged) (t : Nat) : Prop :=
  ∃ fields deadline, s.store.keys (engine.metaKey channel) = some ⟨.hash fields, deadline⟩ ∧
    fields.lookup "e" = some (decimal t) ∧
    Script.count (fields.lookup "s") = some (s.under (second t)).length

def Sound (engine : RedisEngine) (channel : String) (s : Logged) : Prop :=
  Idle engine channel s ∨
    ∃ t kept, Stands engine channel s t kept ∧ Names engine channel s t

theorem Names.sees {t : Nat} (h : Names engine channel s t) : Sees engine channel s t := by
  obtain ⟨fields, deadline, stored, epoch, counted⟩ := h
  refine ⟨fields, Script.hashAt_eq stored, ?_, counted⟩
  rw [Scripts.epochIn, epoch, Option.getD_some]

theorem under_eq_nil {epoch : String} (none : ∀ entry ∈ s.appended, entry.1 ≠ epoch) :
    s.under epoch = [] := by
  rw [under, List.filter_eq_nil_iff.mpr, List.map_nil]
  intro entry mem
  simpa using none entry mem

/-- Where nothing stale is in the list, an epoch can begin. -/
theorem Sound.ready (h : Sound engine channel s)
    (fresh : s.store.keys (engine.metaKey channel) = none →
      s.store.keys (engine.listKey channel) = none) :
    ∃ t kept, Stands engine channel s t kept ∧ Sees engine channel s t := by
  obtain idle | ⟨t, kept, stands, names⟩ := h
  · have before : ∀ entry ∈ s.appended, ∃ t, entry.1 = second t ∧ t < s.store.now / 1000 := by
      intro entry mem
      obtain ⟨t, named, past⟩ := idle.past entry mem
      exact ⟨t, named, by omega⟩
    have none : s.under (second (s.store.now / 1000)) = [] := by
      refine under_eq_nil ?_
      intro entry mem same
      obtain ⟨t, named, earlier⟩ := before entry mem
      have := second_injective (named.symm.trans same)
      omega
    refine ⟨s.store.now / 1000, [], ⟨?_, ?_, ?_, ?_, ?_, ?_, ?_⟩, ?_⟩
    · rw [none]
      decide
    · rw [none]
      trivial
    · exact ⟨[], by rw [Store.listAt, fresh idle.absent], rfl⟩
    · exact List.nil_suffix
    · omega
    · intro entry mem
      obtain ⟨t, named, earlier⟩ := before entry mem
      exact ⟨t, named, by omega⟩
    · intro deadline stored
      rw [idle.absent] at stored
      cases stored
    · refine ⟨∅, by rw [Store.hashAt, idle.absent], rfl, ?_⟩
      rw [none]
      rfl
  · exact ⟨t, kept, stands, names.sees⟩

/-! ### Reading -/

/-- What another script leaves of an epoch that stands. -/
theorem Stands.move {t : Nat} {kept : List Publication} {store' : Store}
    (h : Stands engine channel s t kept)
    (list : store'.keys (engine.listKey channel) = s.store.keys (engine.listKey channel))
    (now : store'.now = s.store.now)
    (expires : ∀ deadline, (store'.keys (engine.metaKey channel)).bind Entry.deadline =
      some deadline → 1000 * t + 1000 ≤ deadline) :
    Stands engine channel { s with store := store' } t kept := by
  obtain ⟨items, listed, read⟩ := h.holds
  have listed' : store'.listAt (engine.listKey channel) = some items :=
    (Script.listAt_congr list).trans listed
  have begun : 1000 * t ≤ store'.now := by
    rw [now]
    exact h.begun
  exact ⟨h.room, h.numbered, ⟨items, listed', read⟩, h.suffix, begun, h.past, expires⟩

/-- A deadline that was renewed while an epoch stands lies after its second. -/
theorem Stands.renewed {t : Nat} {kept : List Publication} (h : Stands engine channel s t kept)
    {deadline : Nat}
    (renewed : Scripts.renewed s.store (engine.metaKey channel) engine.historyMetaTtl =
      some deadline) : 1000 * t + 1000 ≤ deadline := by
  unfold Scripts.renewed at renewed
  split at renewed
  · exact h.expires deadline renewed
  · cases renewed
    have := h.begun
    omega

/-- A reading returns what is kept, under the epoch that stands. -/
theorem Stands.readHistory {t : Nat} {kept : List Publication}
    (h : Stands engine channel s t kept) (sees : Sees engine channel s t) :
    ∃ store', engine.readHistory channel s.store =
        (.ok (kept.reverse, ⟨(s.under (second t)).length, second t⟩), store') ∧
      Stands engine channel { s with store := store' } t kept ∧
      Names engine channel { s with store := store' } t := by
  obtain ⟨fields, found, epoch, counted⟩ := sees
  obtain ⟨items, listed, read⟩ := h.holds
  have fits : (s.under (second t)).length < 2 ^ 64 := by
    have := h.room
    omega
  have text : decodeUtf8 (Scripts.epochIn fields s.store.now) = some (Nat.toDigits 10 t) := by
    rw [epoch, decodeUtf8_decimal]
  obtain ⟨store', ran, ⟨fields', stored, epoch', count'⟩, others, now, -⟩ :=
    RedisEngine.readHistory_run found listed counted fits text
  have descending : kept.Pairwise fun a b => b.offset < a.offset := by
    have ascending := h.numbered.increasing.sublist h.suffix.sublist
    simpa [List.pairwise_reverse] using ascending
  refine ⟨store', ?_, h.move (others _ RedisEngine.listKey_ne_metaKey) now ?_, ?_⟩
  · rw [ran, filterMap_of_map read, byOffset_eq_reverse descending]
    rfl
  · intro deadline held
    rw [stored] at held
    exact h.renewed held
  · exact ⟨fields', _, stored, by rw [epoch', epoch], by rw [count', counted]; rfl⟩

/-! ### Appending -/

/-- The log after one more publication, under one epoch and under the others. -/
theorem under_append (epoch : String) (publication : Publication) (store' : Store) :
    under ⟨store', s.appended ++ [(epoch, publication)]⟩ epoch =
      s.under epoch ++ [publication] := by
  simp [under]

/-- A publication is appended to the epoch that stands. -/
theorem Stands.publish {t : Nat} {kept : List Publication} (h : Stands engine channel s t kept)
    (sees : Sees engine channel s t) {data : Raw} {info : Option ClientInfo}
    {opts : PublishOptions} (enabled : opts.historyEnabled)
    (short : (LiveCall.publish channel data info opts).body.length < 2 ^ 64)
    (few : ∀ n, engine.topOffset channel s.store = some n → n + 1 < 10 ^ 14) :
    ∃ kept', Stands engine channel (s.publish engine channel data info opts) t kept' ∧
      Names engine channel (s.publish engine channel data info opts) t := by
  obtain ⟨fields, found, epoch, counted⟩ := sees
  obtain ⟨items, listed, read⟩ := h.holds
  have ahead : 0 < opts.historyLifetime := by
    simp only [PublishOptions.historyEnabled, Bool.and_eq_true, decide_eq_true_eq] at enabled
    exact enabled.2
  have room : (s.under (second t)).length + 1 < 10 ^ 14 :=
    few _ (by rw [RedisEngine.topOffset, found, Option.bind_some, counted])
  obtain ⟨store', ran, appended⟩ := @Scripts.addHistory_run s.store (engine.listKey channel)
    (engine.metaKey channel) (engine.clientKey channel)
    (LiveCall.publish channel data info opts).body (opts.historySize - 1) opts.historyLifetime
    engine.historyMetaTtl RedisEngine.listKey_ne_metaKey ahead _ _ _ found counted (by omega) listed
  obtain ⟨items', listed', stored'⟩ := appended.list
  rw [listed] at listed'
  cases listed'
  obtain ⟨fields', hash, epoch', count'⟩ := appended.hash
  have top : engine.topOffset channel store' = some ((s.under (second t)).length + 1) := by
    rw [RedisEngine.topOffset, Script.hashAt_eq hash, Option.bind_some, count']
    exact counter?_decimal _
  rw [Logged.publish, if_pos enabled, ran, epoch]
  simp only [epochText_decimal, top, Option.getD_some]
  let publication : Publication :=
    { data := some data, info := info, offset := (s.under (second t)).length + 1 }
  have longer : under ⟨store', s.appended ++ [(second t, publication.present)]⟩ (second t) =
      s.under (second t) ++ [publication.present] := under_append _ _ _
  refine ⟨(publication.present :: kept).take (opts.historySize - 1 + 1),
    ⟨?_, ?_, ?_, ?_, ?_, ?_, ?_⟩, ?_⟩
  · rw [longer, List.length_append]
    exact room
  · rw [longer]
    exact h.numbered.append (by rw [Nat.zero_add]; rfl)
  · refine ⟨_, Script.listAt_eq stored', ?_⟩
    have item := readItem_historyFrame (by omega : (s.under (second t)).length + 1 < 2 ^ 64)
      (luaText_luaNumber room) short
    rw [RedisEngine.received_encoded] at item
    rw [List.map_take, List.map_take, List.map_cons, List.map_cons, read]
    exact congrArg (fun first => (first :: kept.map some).take (opts.historySize - 1 + 1)) item
  · rw [longer, List.reverse_take, List.reverse_cons]
    refine (List.drop_suffix _ _).trans ?_
    obtain ⟨front, whole⟩ := h.suffix
    exact ⟨front, by rw [← List.append_assoc, whole]⟩
  · have begun := h.begun
    rw [← appended.now] at begun
    exact begun
  · intro entry mem
    rcases List.mem_append.mp mem with mem | mem
    · exact h.past entry mem
    · cases List.mem_singleton.mp mem
      exact ⟨t, rfl, le_refl t⟩
  · intro deadline held
    rw [hash] at held
    exact h.renewed held
  · refine ⟨fields', _, hash, by rw [epoch', epoch], ?_⟩
    rw [count', longer, List.length_append]
    exact counter?_decimal _

/-! ### Removing and waiting -/

/-- A key stays as it is, or its deadline has come. -/
theorem tick_keys (store : Store) (elapsed : Nat) (key : String) :
    (store.tick elapsed).keys key = store.keys key ∨ ((store.tick elapsed).keys key = none ∧
      ∃ deadline, (store.keys key).bind Entry.deadline = some deadline ∧
        deadline ≤ store.now + elapsed) := by
  simp only [Store.tick]
  cases store.keys key with
  | none => exact .inl rfl
  | some entry =>
      cases ahead : entry.deadline with
      | none => exact .inl (by simp [Option.filter, ahead])
      | some deadline =>
          by_cases alive : store.now + elapsed < deadline
          · exact .inl (by simp [Option.filter, ahead, alive])
          · exact .inr ⟨by simp [Option.filter, ahead, alive], deadline, ahead, by omega⟩

theorem tick_listAt {store : Store} {key : String} {items : List Bytes}
    (listed : store.listAt key = some items) (elapsed : Nat) :
    (store.tick elapsed).listAt key = some items ∨ (store.tick elapsed).listAt key = some [] := by
  obtain same | ⟨gone, -⟩ := tick_keys store elapsed key
  · exact .inl ((Script.listAt_congr same).trans listed)
  · exact .inr (by rw [Store.listAt, gone])

theorem Sound.tick (h : Sound engine channel s) (elapsed : Nat) :
    Sound engine channel { s with store := s.store.tick elapsed } := by
  obtain idle | ⟨t, kept, stands, fields, deadline, stored, epoch, counted⟩ := h
  · left
    obtain ⟨items, listed⟩ := idle.listed
    refine ⟨?_, ?_, ?_⟩
    · obtain same | ⟨gone, -⟩ := tick_keys s.store elapsed (engine.metaKey channel)
      · exact same.trans idle.absent
      · exact gone
    · exact (tick_listAt listed elapsed).elim (fun same => ⟨_, same⟩) fun gone => ⟨_, gone⟩
    · intro entry mem
      obtain ⟨t, named, past⟩ := idle.past entry mem
      exact ⟨t, named, Nat.le_add_right_of_le past⟩
  obtain ⟨items, listed, read⟩ := stands.holds
  obtain same | ⟨gone, deadline', held, past⟩ := tick_keys s.store elapsed (engine.metaKey channel)
  · right
    have later : 1000 * t ≤ s.store.now + elapsed := Nat.le_add_right_of_le stands.begun
    have expires : ∀ deadline, ((s.store.tick elapsed).keys (engine.metaKey channel)).bind
        Entry.deadline = some deadline → 1000 * t + 1000 ≤ deadline := by
      rw [same]
      exact stands.expires
    have names : Names engine channel { s with store := s.store.tick elapsed } t :=
      ⟨fields, deadline, same.trans stored, epoch, counted⟩
    obtain listed' | listed' := tick_listAt listed elapsed
    · exact ⟨t, kept, ⟨stands.room, stands.numbered, ⟨items, listed', read⟩, stands.suffix, later,
        stands.past, expires⟩, names⟩
    · exact ⟨t, [], ⟨stands.room, stands.numbered, ⟨[], listed', rfl⟩, List.nil_suffix, later,
        stands.past, expires⟩, names⟩
  · left
    have ended := stands.expires deadline' held
    refine ⟨gone, ?_, ?_⟩
    · exact (tick_listAt listed elapsed).elim (fun same => ⟨_, same⟩) fun gone => ⟨_, gone⟩
    · intro entry mem
      obtain ⟨t', named, earlier⟩ := stands.past entry mem
      refine ⟨t', named, ?_⟩
      change 1000 * t' + 1000 ≤ s.store.now + elapsed
      omega

theorem Sound.remove (h : Sound engine channel s) :
    Sound engine channel { s with store := (engine.removeHistory channel s.store).2 } := by
  have gone : (engine.removeHistory channel s.store).2.listAt (engine.listKey channel) =
      some [] := by
    rw [Store.listAt]
    simp [RedisEngine.removeHistory, Script.del]
  have same : (engine.removeHistory channel s.store).2.keys (engine.metaKey channel) =
      s.store.keys (engine.metaKey channel) :=
    Store.set_other _ RedisEngine.listKey_ne_metaKey.symm _
  obtain idle | ⟨t, kept, stands, fields, deadline, stored, epoch, counted⟩ := h
  · exact .inl ⟨same.trans idle.absent, ⟨[], gone⟩, idle.past⟩
  · refine .inr ⟨t, [], ⟨stands.room, stands.numbered, ⟨[], gone, rfl⟩, List.nil_suffix,
      stands.begun, stands.past, ?_⟩, fields, deadline, same.trans stored, epoch, counted⟩
    intro deadline held
    rw [same] at held
    exact stands.expires deadline held

/-! ### Runs -/

/-- A publication without a history is only sent. -/
theorem Sound.send (h : Sound engine channel s) (topic : String) (payload : Bytes) :
    Sound engine channel { s with store := (Script.publish topic payload s.store).2 } := by
  obtain idle | ⟨t, kept, stands, names⟩ := h
  · exact .inl ⟨idle.absent, idle.listed, idle.past⟩
  · exact .inr ⟨t, kept, stands.move rfl rfl stands.expires, names⟩

theorem Sound.step {s' : Logged} {move : Move} (h : Sound engine channel s)
    (fresh : Fresh engine channel s move) (step : Step engine channel s move s') :
    Sound engine channel s' := by
  cases move with
  | publish data info opts =>
      obtain ⟨short, rfl⟩ := step
      by_cases enabled : opts.historyEnabled
      · obtain ⟨unlisted, few⟩ := fresh enabled
        obtain ⟨t, kept, stands, sees⟩ := h.ready unlisted
        obtain ⟨kept', stands', names'⟩ := stands.publish sees enabled short few
        exact .inr ⟨t, kept', stands', names'⟩
      · rw [Logged.publish, if_neg enabled, RedisEngine.publish, if_neg enabled]
        exact h.send _ _
  | history =>
      obtain ⟨t, kept, stands, sees⟩ := h.ready fresh
      obtain ⟨store', ran, stands', names'⟩ := stands.readHistory sees
      cases step
      rw [RedisEngine.history, ran]
      exact .inr ⟨t, kept, stands', names'⟩
  | historySince offset epoch =>
      obtain ⟨t, kept, stands, sees⟩ := h.ready fresh
      obtain ⟨store', ran, stands', names'⟩ := stands.readHistory sees
      have after : (engine.historySince channel offset epoch s.store).2 = store' := by
        rw [RedisEngine.historySince, Script.bind_ok ran]
        simp only
        split <;> rfl
      cases step
      rw [after]
      exact .inr ⟨t, kept, stands', names'⟩
  | remove =>
      cases step
      exact h.remove
  | tick elapsed =>
      cases step
      exact h.tick elapsed

/-- The states of a channel after any operations, from an empty server. -/
def Reached (engine : RedisEngine) (channel : String) : Logged → Prop :=
  Reachable Empty (Step engine channel)

/-- The states after runs in which no epoch begins over a list. -/
def ReachedFresh (engine : RedisEngine) (channel : String) : Logged → Prop :=
  Reachable Empty (guarded (Step engine channel) (Fresh engine channel))

theorem ReachedFresh.sound (h : ReachedFresh engine channel s) : Sound engine channel s := by
  refine Reachable.invariant (Sound engine channel) ?_ ?_ h
  · rintro s ⟨keys, appended⟩
    refine .inl ⟨by rw [keys], ⟨[], by rw [Store.listAt, keys]⟩, ?_⟩
    intro entry mem
    rw [appended] at mem
    cases mem
  · intro s move s' sound step
    exact sound.step step.1 step.2

end Invariant

end Logged

/-- A recovery that was answered with everything after its position, each publication once,
and with nothing of another epoch. -/
structure SubscribeResult.Complete (result : SubscribeResult) (s : Logged)
    (req : SubscribeRequest) (useSeqGen : Bool) : Prop where
  publications : ∃ (top : Nat) (missed : List Publication),
    encodePosition result top useSeqGen = result ∧
    (∀ publication, publication ∈ missed ↔ publication ∈ s.under req.epoch ∧
      req.position < publication.offset ∧ publication.offset ≤ top) ∧
    missed.Pairwise (fun a b => a.offset < b.offset) ∧
    result.publications =
      if useSeqGen then (missed.map Publication.toSeqGen).reverse else missed

theorem encodePosition_encodePosition (result : SubscribeResult) (offset : Nat)
    (useSeqGen : Bool) :
    encodePosition (encodePosition result offset useSeqGen) offset useSeqGen =
      encodePosition result offset useSeqGen := by
  cases useSeqGen <;> rfl

namespace Logged

open RedisEngine (second)

variable {engine : RedisEngine} {channel : String} {s : Logged}

/-- The reply to a recovery is that of a log of which the end is kept. -/
theorem Stands.recoverSince {t : Nat} {kept : List Publication}
    (h : Stands engine channel s t kept) (sees : Sees engine channel s t) (useSeqGen : Bool)
    {req : SubscribeRequest} (same : req.channel = channel) :
    ∃ store', engine.recoverSince useSeqGen req s.store =
      (.ok (recoveryResult useSeqGen req
        (kept.reverse.filter fun publication => req.position < publication.offset)
        ⟨(s.under (second t)).length, second t⟩), store') := by
  subst same
  obtain ⟨store', ran, -⟩ := h.readHistory sees
  refine ⟨store', ?_⟩
  have since : engine.historySince req.channel req.position req.epoch s.store =
      (.ok (kept.reverse.filter (fun publication => req.position < publication.offset),
        ⟨(s.under (second t)).length, second t⟩), store') := by
    rw [RedisEngine.historySince, Script.bind_ok ran]
    simp only
    split
    next top =>
      have none : kept.reverse.filter (fun publication => req.position < publication.offset) = [] :=
        by
        rw [List.filter_eq_nil_iff]
        intro publication mem
        have bound := (h.numbered.bounds (h.suffix.mem mem)).2
        have past : publication.offset ≤ req.position := by
          rw [← top.1]
          omega
        simpa using past
      rw [none]
      rfl
    next => rfl
  rw [RedisEngine.recoverSince, Script.bind_ok since]
  rfl

theorem Stands.recoveryResult_complete {t : Nat} {kept : List Publication}
    (h : Stands engine channel s t kept) {useSeqGen : Bool} {req : SubscribeRequest}
    (recovered : (recoveryResult useSeqGen req
      (kept.reverse.filter fun publication => req.position < publication.offset)
      ⟨(s.under (second t)).length, second t⟩).recovered) :
    (recoveryResult useSeqGen req
      (kept.reverse.filter fun publication => req.position < publication.offset)
      ⟨(s.under (second t)).length, second t⟩).Complete s req useSeqGen := by
  have room := h.room
  have inside : req.position < 2 ^ 64 - 1 := by
    by_contra last
    have position := req.position_lt
    have none :
        kept.reverse.filter (fun publication => req.position < publication.offset) = [] := by
      rw [List.filter_eq_nil_iff]
      intro publication mem
      have bound := (h.numbered.bounds (h.suffix.mem mem)).2
      have past : publication.offset ≤ req.position := by omega
      simpa using past
    simp only [recoveryResult, encodePosition_recovered, none, List.head?_nil, Bool.and_eq_true,
      decide_eq_true_eq] at recovered
    omega
  have next : (req.position + 1) % 2 ^ 64 = req.position + 1 := Nat.mod_eq_of_lt (by omega)
  have test : Log.caughtUp Publication.offset
      (kept.reverse.filter fun publication => req.position < publication.offset) req.position
      (s.under (second t)).length ∧ second t = req.epoch := by
    simp only [recoveryResult, encodePosition_recovered, next] at recovered
    unfold Log.caughtUp
    split at recovered
    next first head =>
      rw [head]
      simpa using recovered
    next head =>
      rw [head]
      simpa using recovered
  obtain ⟨caughtUp, epoch⟩ := test
  obtain ⟨upTo, all⟩ := (Log.caughtUp_iff h.numbered h.suffix req.position).mp caughtUp
  have following := Log.following_of_caughtUp h.numbered h.suffix upTo all
  have rest := h.numbered.filter_gt req.position
  rw [Nat.sub_zero, ← following] at rest
  refine ⟨(s.under (second t)).length, _, encodePosition_encodePosition _ _ _, ?_, ?_,
    encodePosition_publications _ _ _⟩
  · intro publication
    rw [← rest, List.mem_filter, decide_eq_true_iff, ← epoch]
    constructor
    · intro found
      have bound := (h.numbered.bounds found.1).2
      exact ⟨found.1, found.2, by omega⟩
    · intro found
      exact ⟨found.1, found.2.1⟩
  · rw [← rest]
    exact h.numbered.increasing.filter _

/-- In every run in which no epoch begins over a list, every recovery that is answered as
recovered is complete. -/
theorem recovered_complete (reached : ReachedFresh engine channel s) {useSeqGen : Bool}
    {req : SubscribeRequest} (same : req.channel = channel)
    (fresh : Fresh engine channel s (.historySince req.position req.epoch))
    {result : SubscribeResult} {store' : Store}
    (ran : engine.recoverSince useSeqGen req s.store = (.ok result, store'))
    (recovered : result.recovered) : result.Complete s req useSeqGen := by
  obtain ⟨t, kept, stands, sees⟩ := reached.sound.ready fresh
  obtain ⟨store'', ran'⟩ := stands.recoverSince sees useSeqGen same
  rw [ran] at ran'
  cases ran'
  exact stands.recoveryResult_complete recovered

end Logged

namespace Sample

def shortMeta : RedisEngine := .connect "node" { historyMetaTtl := 1 }

def emptyLog : Logged := ⟨emptyStore, []⟩

/-- One publication that is kept for a minute. -/
def firstKept : Logged := emptyLog.publish shortMeta "news" ⟨[49]⟩ none ⟨10, 60⟩

/-- Two seconds later the hash is gone, and one more publication begins an epoch. -/
def bothKept : Logged :=
  { firstKept with store := firstKept.store.tick 2000 }.publish
    shortMeta "news" ⟨[50]⟩ none ⟨10, 60⟩

/-- A recovery from the start of an epoch. -/
def sinceStart (epoch : String) : SubscribeRequest :=
  { channel := "news", recover := true, epoch := epoch }

def recoveredOne (epoch : String) (pubs : List Publication) : SubscribeResult where
  recoverable := true
  recovered := true
  epoch := epoch
  publications := pubs
  offset := 1

def kept1 (payload : UInt8) : Publication := { data := some ⟨[payload]⟩, offset := 1 }

/-- The hash is gone and the list is removed, and two more publications have an epoch of their
own. -/
def removedKept : Logged :=
  { firstKept with store :=
      (shortMeta.removeHistory "news" (firstKept.store.tick 2000)).2 }

def twoKept : Logged :=
  (removedKept.publish shortMeta "news" ⟨[50]⟩ none ⟨10, 60⟩).publish shortMeta "news" ⟨[51]⟩
    none ⟨10, 60⟩

theorem firstKept_reached : Logged.ReachedFresh shortMeta "news" firstKept :=
  .next (.start (s := emptyLog) ⟨rfl, rfl⟩) (a := .publish ⟨[49]⟩ none ⟨10, 60⟩)
    ⟨fun _ => ⟨fun _ => rfl, RedisEngine.few_of_topOffset (m := 0) rfl (by decide)⟩,
      by decide +kernel, rfl⟩

theorem twoKept_reached : Logged.ReachedFresh shortMeta "news" twoKept := by
  have waited : Logged.ReachedFresh shortMeta "news"
      { firstKept with store := firstKept.store.tick 2000 } :=
    .next firstKept_reached (a := .tick 2000) ⟨trivial, rfl⟩
  have removed : Logged.ReachedFresh shortMeta "news" removedKept :=
    .next waited (a := .remove) ⟨trivial, rfl⟩
  have again : Logged.ReachedFresh shortMeta "news"
      (removedKept.publish shortMeta "news" ⟨[50]⟩ none ⟨10, 60⟩) :=
    .next removed (a := .publish ⟨[50]⟩ none ⟨10, 60⟩)
      ⟨fun _ => ⟨fun _ => rfl, RedisEngine.few_of_topOffset (m := 0) rfl (by decide)⟩,
      by decide +kernel, rfl⟩
  exact .next again (a := .publish ⟨[51]⟩ none ⟨10, 60⟩)
    ⟨fun _ => ⟨fun gone => (by cases gone), RedisEngine.few_of_topOffset (m := 1) rfl (by decide)⟩,
      by decide +kernel, rfl⟩

theorem bothKept_reached : Logged.Reached shortMeta "news" bothKept := by
  have waited : Logged.Reached shortMeta "news"
      { firstKept with store := firstKept.store.tick 2000 } :=
    .next (Reachable.of_guarded firstKept_reached) (a := .tick 2000) rfl
  exact .next waited (a := .publish ⟨[50]⟩ none ⟨10, 60⟩) ⟨by decide +kernel, rfl⟩

end Sample

theorem Logged.recovered_complete_second :
    ({ recoverable := true, recovered := true, epoch := "2", offset := 2,
       publications := [{ data := some ⟨[51]⟩, offset := 2 }] } : SubscribeResult).Complete
      Sample.twoKept { channel := "news", recover := true, epoch := "2", offset := 1 } false :=
  recovered_complete Sample.twoKept_reached rfl (fun gone => by cases gone)
    (Prod.ext (by decide +kernel) rfl) rfl

/-- The epoch that began over the list returns the publication of the epoch before it. -/
theorem Logged.not_recovered_complete :
    ¬ ∀ (engine : RedisEngine) (channel : String) (s : Logged) (useSeqGen : Bool)
      (req : SubscribeRequest) (result : SubscribeResult) (store' : Store),
      Reached engine channel s → req.channel = channel →
      engine.recoverSince useSeqGen req s.store = (.ok result, store') → result.recovered →
      result.Complete s req useSeqGen := by
  intro all
  have complete := all Sample.shortMeta "news" Sample.bothKept false (Sample.sinceStart "2")
    (Sample.recoveredOne "2" [Sample.kept1 50, Sample.kept1 49]) _ Sample.bothKept_reached rfl
    (Prod.ext (by decide +kernel) rfl) rfl
  obtain ⟨top, missed, -, ofEpoch, -, same⟩ := complete.publications
  have stale : Sample.kept1 49 ∈ missed := by
    rw [if_neg (by decide)] at same
    rw [← same]
    decide
  have own : Sample.bothKept.under "2" = [Sample.kept1 50] := by decide +kernel
  have found := ((ofEpoch _).mp stale).1
  rw [show (Sample.sinceStart "2").epoch = "2" from rfl, own] at found
  exact absurd found (by decide)

end Centrifugo
