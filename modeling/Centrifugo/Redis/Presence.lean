import Centrifugo.Redis.Keys

/-!
# Presence in Redis

A client is in a channel until the deadline of its latest add, which is its score in the sorted
set of the channel. The set and the hash of infos are keys with a deadline of their own, and every
add moves it for all clients of the channel. A read is right just as long as no add moves it before
the deadline of another client.
-/

namespace Centrifugo

open Json Proto Redis

/-! ## Scripts -/

namespace Scripts

open Script

variable {setKey dataKey client : String} {store store' : Store}
variable {members : Map String Nat} {fields : Map String Bytes}

/-- Both keys of a channel, and their common deadline. -/
structure Holds (setKey dataKey : String) (members : Map String Nat) (fields : Map String Bytes)
    (deadline : Nat) (store : Store) : Prop where
  scores : store.Until setKey (.zset members) deadline
  infos : store.Until dataKey (.hash fields) deadline

theorem Holds.congr {deadline : Nat} (held : Holds setKey dataKey members fields deadline store)
    (set : store'.keys setKey = store.keys setKey)
    (data : store'.keys dataKey = store.keys dataKey) :
    Holds setKey dataKey members fields deadline store' :=
  ⟨held.scores.congr set, held.infos.congr data⟩

/-- Keys that are gone hold nothing until whenever. -/
theorem Holds.of_none (deadline : Nat) (set : store.keys setKey = none)
    (data : store.keys dataKey = none) : Holds setKey dataKey ∅ ∅ deadline store :=
  ⟨.of_none rfl set, .of_none rfl data⟩

/-- An add sets the deadline of both keys. Without a time to live it deletes them. -/
theorem presenceAdd_run (apart : setKey ≠ dataKey) {deadline : Nat}
    (held : Holds setKey dataKey members fields deadline store) (ttl expireAt : Nat)
    (client : String) (info : Bytes) :
    ∃ store', presenceAdd setKey dataKey ttl expireAt client info store = (.ok (), store') ∧
      if ttl = 0 then store'.keys setKey = none ∧ store'.keys dataKey = none
      else Holds setKey dataKey (members.insert client expireAt) (fields.insert client info)
        (store.now + 1000 * ttl) store' := by
  let scored := store.put setKey (.zset (members.insert client expireAt))
  let told := scored.put dataKey (.hash (fields.insert client info))
  have infos : scored.Until dataKey (.hash fields) deadline :=
    held.infos.congr (put_other store apart.symm _)
  have ran : ∀ {store'}, (do expire setKey ttl; expire dataKey ttl : Script Unit) told =
      (.ok (), store') →
      presenceAdd setKey dataKey ttl expireAt client info store = (.ok (), store') := by
    intro store' rest
    exact (bind_ok (zadd_run held.scores.zsetAt expireAt)).trans
      ((bind_ok (hset_run infos.hashAt info)).trans rest)
  have set : told.keys setKey = some ⟨_, _⟩ := (put_other scored apart _).trans (put_zset ..)
  have data : told.keys dataKey = some ⟨_, _⟩ := put_hash ..
  by_cases zero : ttl = 0
  · subst zero
    have data' : (told.set setKey none).keys dataKey = some ⟨_, _⟩ :=
      (Store.set_other _ apart.symm _).trans data
    refine ⟨_, ran ((bind_ok (expire_zero set)).trans (expire_zero data')), ?_⟩
    rw [if_pos rfl, Store.set_other _ apart, Store.set_self, Store.set_self]
    exact ⟨rfl, rfl⟩
  · have ahead : 0 < ttl := Nat.pos_of_ne_zero zero
    have data' := (Store.set_other told apart.symm
      (some ⟨.zset (members.insert client expireAt), some (told.now + 1000 * ttl)⟩)).trans data
    refine ⟨_, ran ((bind_ok (expire_run ahead set)).trans (expire_run ahead data')), ?_⟩
    rw [if_neg zero]
    refine ⟨.of_some ?_ (by simp [Value.isEmpty, AList.entries_insert]),
      .of_some ?_ (by simp [Value.isEmpty, AList.entries_insert])⟩
    · rw [Store.set_other _ apart, Store.set_self]
      rfl
    · rw [Store.set_self]
      rfl

theorem presenceRem_run (apart : setKey ≠ dataKey) {deadline : Nat}
    (held : Holds setKey dataKey members fields deadline store) (client : String) :
    ∃ store', presenceRem setKey dataKey client store = (.ok (), store') ∧
      Holds setKey dataKey (members.erase client) (fields.erase client) deadline store' := by
  let told := store.put dataKey (.hash (fields.erase client))
  have scores : told.Until setKey (.zset members) deadline :=
    held.scores.congr (put_other store apart _)
  refine ⟨told.put setKey (.zset (members.erase client)), ?_, ?_, ?_⟩
  · exact (bind_ok (hdel_run held.infos.hashAt)).trans (zrem_run scores.zsetAt)
  · exact scores.put (Value.zset_isEmpty_erase [client])
  · exact (held.infos.put (Value.hash_isEmpty_erase [client])).congr (put_other told apart.symm _)

/-- The clients whose score is not over. -/
def alive {ν : Type} (scores : Map String Nat) (now : Nat) (clients : Map String ν) :
    Map String ν :=
  (upTo now scores).foldl (fun (left : Map String ν) client => left.erase client) clients

/-- A read deletes the clients whose score is over from both keys. -/
theorem presenceRead_run (apart : setKey ≠ dataKey) {deadline : Nat}
    (held : Holds setKey dataKey members fields deadline store) (now : Nat) :
    ∃ store', presenceRead setKey dataKey now store =
        (.ok (alive members now fields).toPairs, store') ∧
      Holds setKey dataKey (alive members now members) (alive members now fields) deadline
        store' := by
  obtain ⟨pruned, ran, infos⟩ := forAll_hdel_run (upTo now members) held.infos
  have frames : Frames (fun key => key = dataKey) (forAll (hdel dataKey) (upTo now members)) :=
    .forAll (fun client => @Frames.hdel (fun key => key = dataKey) dataKey rfl client) _
  have same := frames.keys store setKey apart
  rw [ran] at same
  have scores : pruned.Until setKey (.zset members) deadline := held.scores.congr same
  have found := zrangebyscore_run held.scores.zsetAt now
  by_cases none : upTo now members = []
  · refine ⟨pruned, (bind_ok found).trans ((bind_ok ran).trans ?_), ?_, infos⟩
    · rw [onlyIf, if_neg (not_not_intro none)]
      exact hgetall_run infos.hashAt
    · rw [alive, none]
      exact scores
  · have removed := zremrangebyscore_run scores.zsetAt now
    have infos' : (pruned.put setKey (.zset (alive members now members))).Until dataKey
        (.hash (alive members now fields)) deadline :=
      infos.congr (put_other pruned apart.symm _)
    refine ⟨_, (bind_ok found).trans ((bind_ok ran).trans ?_),
      scores.put (Value.zset_isEmpty_erase _), infos'⟩
    rw [onlyIf, if_pos none]
    exact (bind_ok removed).trans (hgetall_run infos'.hashAt)

theorem lookup_alive {ν : Type} {scores : Map String Nat} {now : Nat} {clients : Map String ν} :
    (alive scores now clients).lookup client =
      if ∃ score, scores.lookup client = some score ∧ score ≤ now then none
      else clients.lookup client := by
  rw [alive, Map.lookup_foldl_erase]
  simp only [mem_upTo]

end Scripts

/-! ## Keys of other channels -/

namespace RedisEngine

variable {engine other : RedisEngine} {channel channel' : String}

theorem not_keysOf_presence {kind : KeyKind} (presence : kind = .presenceSet ∨ kind = .presenceData)
    (apart : channel' ≠ channel) : ¬ engine.keysOf channel (engine.key kind channel') := by
  rintro ⟨kind', same⟩
  obtain ⟨-, rfl⟩ | ⟨rfl, -⟩ | ⟨rfl, -⟩ := key_eq_iff.mp same
  · exact apart rfl
  · simp at presence
  · simp at presence

theorem presenceSetKey_ne : engine.presenceSetKey channel ≠ engine.presenceDataKey channel' := by
  intro same
  obtain ⟨⟨⟩, -⟩ | ⟨⟨⟩, -⟩ | ⟨⟨⟩, -⟩ :=
    (@key_eq_iff engine .presenceSet .presenceData channel channel').mp same

/-- The infos of the clients, each decoded. -/
theorem lookup_presence {store store' : Store} {nowSecs : Nat} {fields : Map String Bytes}
    (read : Scripts.presenceRead (engine.presenceSetKey channel) (engine.presenceDataKey channel)
      nowSecs store = (.ok fields.toPairs, store')) :
    ∃ clients, engine.presence channel nowSecs store = (.ok clients, store') ∧
      ∀ client, clients.lookup client = (fields.lookup client).bind fun info =>
        (decode info : Option Pb.ClientInfo).map ClientInfo.ofPb := by
  refine ⟨_, Script.bind_ok read, ?_⟩
  intro client
  rw [← Map.lookup_foldl_insert]
  congr 2
  funext out entry
  cases (decode entry.2 : Option Pb.ClientInfo) <;> rfl

end RedisEngine

/-! ## Runs -/

/-- What an add says: an info, and the second at which it is over. -/
structure Stay where
  info : ClientInfo
  due : Nat

structure Roster where
  store : Store := {}
  /-- The latest add of a client to a channel, unless it was removed since. -/
  latest : String × String → Option Stay := fun _ => none

namespace Roster

inductive Event
  | pass (elapsed : Nat)
  | add (engine : RedisEngine) (channel client : String) (info : ClientInfo) (ttlMs : Nat)
  | remove (engine : RedisEngine) (channel client : String)
  | presence (engine : RedisEngine) (channel : String)
  | other (script : Script Unit)

/-- The clock that the server and all nodes read. -/
def seconds (s : Roster) : Nat := s.store.now / 1000

def act (s : Roster) : Event → Roster
  | .pass elapsed => { s with store := s.store.tick elapsed }
  | .add engine channel client info ttlMs =>
      { store := (engine.addPresence channel client info ttlMs s.seconds s.store).2
        latest := Function.update s.latest (channel, client)
          (some ⟨info, s.seconds + ttlMs / 1000⟩) }
  | .remove engine channel client =>
      { store := (engine.removePresence channel client s.store).2
        latest := Function.update s.latest (channel, client) none }
  | .presence engine channel => { s with store := (engine.presence channel s.seconds s.store).2 }
  | .other script => { s with store := (script s.store).2 }

def run (s : Roster) (events : List Event) : Roster := events.foldl act s

/-- The nodes of one deployment share the key prefix. Whoever else uses the server leaves their
presence keys alone. An info is a vector, which holds fewer than 2^64 bytes. -/
def Event.Valid (engine : RedisEngine) : Event → Prop
  | .pass _ => True
  | .add node _ _ info _ =>
      node.keyPrefix = engine.keyPrefix ∧ (encode info.toPb).length < 2 ^ 64
  | .remove node _ _ | .presence node _ => node.keyPrefix = engine.keyPrefix
  | .other script => Script.Frames (fun key => ∀ channel,
      key ≠ engine.presenceSetKey channel ∧ key ≠ engine.presenceDataKey channel) script

/-- The info of a client that is in a channel. -/
def listed (s : Roster) (channel client : String) : Option ClientInfo :=
  match s.latest (channel, client) with
  | some stay => if s.seconds < stay.due then some stay.info.present else none
  | none => none

/-- A read of any channel returns who is in it. -/
def Reads (engine : RedisEngine) (s : Roster) : Prop :=
  ∀ channel, ∃ clients, (engine.presence channel s.seconds s.store).1 = .ok clients ∧
    ∀ client, clients.lookup client = s.listed channel client

/-- An add does not end before the stay of another client of its channel. -/
def Sheltered (s : Roster) : Event → Prop
  | .add _ channel client _ ttlMs => ∀ other, other ≠ client →
      ∀ stay, s.latest (channel, other) = some stay → stay.due ≤ s.seconds + ttlMs / 1000
  | _ => True

/-! ## The keys of a channel in a run -/

/-- What the keys hold of a client. -/
inductive Matches (now : Nat) : Option Stay → Option Nat → Option Bytes → Prop
  | here (stay : Stay) : Matches now (some stay) (some stay.due) (some (encode stay.info.toPb))
  | gone {stay : Option Stay} (finished : ∀ x, stay = some x → x.due ≤ now) :
      Matches now stay none none

theorem Matches.mono {now later : Nat} {stay : Option Stay} {score : Option Nat}
    {info : Option Bytes} (h : Matches now stay score info) (since : now ≤ later) :
    Matches later stay score info := by
  cases h with
  | here stay => exact .here stay
  | gone finished => exact .gone fun x found => (finished x found).trans since

structure Tracks (engine : RedisEngine) (s : Roster) (channel : String)
    (members : Map String Nat) (fields : Map String Bytes) (deadline : Nat) : Prop where
  held : Scripts.Holds (engine.presenceSetKey channel) (engine.presenceDataKey channel) members
    fields deadline s.store
  matched : ∀ client, Matches s.seconds (s.latest (channel, client)) (members.lookup client)
    (fields.lookup client)
  covered : ∀ client score, members.lookup client = some score → 1000 * score ≤ deadline

/-- A client that the keys hold is the latest add's. -/
theorem Tracks.known {engine : RedisEngine} {s : Roster} {channel client : String}
    {members : Map String Nat} {fields : Map String Bytes} {deadline score : Nat}
    (h : Tracks engine s channel members fields deadline)
    (found : members.lookup client = some score) :
    ∃ stay, s.latest (channel, client) = some stay ∧ stay.due = score := by
  have matched := h.matched client
  rw [found] at matched
  generalize s.latest (channel, client) = latest at matched
  generalize fields.lookup client = info at matched
  cases matched with
  | here stay => exact ⟨stay, rfl, rfl⟩

/-- The keys of every channel last as long as its clients. -/
structure Kept (engine : RedisEngine) (s : Roster) : Prop where
  tracks : ∀ channel, ∃ members fields deadline, Tracks engine s channel members fields deadline
  short : ∀ place stay, s.latest place = some stay → (encode stay.info.toPb).length < 2 ^ 64

section Tracks

variable {engine node : RedisEngine} {s s' : Roster} {channel client : String}
variable {members : Map String Nat} {fields : Map String Bytes} {deadline : Nat}

theorem kept_empty (engine : RedisEngine) : Kept engine {} := by
  refine ⟨fun channel => ⟨∅, ∅, 0, .of_none 0 rfl rfl, ?_, ?_⟩, ?_⟩
  · intro client
    exact .gone fun x found => nomatch found
  · intro client score found
    cases found
  · intro place stay found
    cases found

theorem Tracks.congr (h : Tracks engine s channel members fields deadline)
    (set : s'.store.keys (engine.presenceSetKey channel) =
      s.store.keys (engine.presenceSetKey channel))
    (data : s'.store.keys (engine.presenceDataKey channel) =
      s.store.keys (engine.presenceDataKey channel))
    (now : s'.store.now = s.store.now)
    (latest : ∀ client, s'.latest (channel, client) = s.latest (channel, client)) :
    Tracks engine s' channel members fields deadline := by
  refine ⟨h.held.congr set data, ?_, h.covered⟩
  intro client
  rw [seconds, now, latest]
  exact h.matched client

/-- Time that passes takes the keys of a channel only when nobody is in it any more. -/
theorem Tracks.pass (h : Tracks engine s channel members fields deadline) (elapsed : Nat) :
    ∃ members fields deadline,
      Tracks engine (s.act (.pass elapsed)) channel members fields deadline := by
  have since : s.seconds ≤ (s.act (.pass elapsed)).seconds :=
    Nat.div_le_div_right (Nat.le_add_right s.store.now elapsed)
  by_cases ahead : s.store.now + elapsed < deadline
  · refine ⟨members, fields, deadline, ⟨?_, ?_⟩, ?_, h.covered⟩
    · exact h.held.scores.tick_of_lt ahead
    · exact h.held.infos.tick_of_lt ahead
    · exact fun client => (h.matched client).mono since
  · have reached : deadline ≤ s.store.now + elapsed := not_lt.mp ahead
    refine ⟨∅, ∅, 0, .of_none 0 (h.held.scores.tick_of_le reached)
      (h.held.infos.tick_of_le reached), ?_, fun _ _ found => nomatch found⟩
    intro client
    apply Matches.gone
    intro stay found
    have matched := h.matched client
    have covered := h.covered client
    change s.latest (channel, client) = some stay at found
    rw [found] at matched
    generalize members.lookup client = score at matched covered
    generalize fields.lookup client = info at matched
    cases matched with
    | here =>
        have last := covered stay.due rfl
        change stay.due ≤ (s.store.now + elapsed) / 1000
        omega
    | gone finished => exact (finished stay rfl).trans since

theorem addPresence_congr (same : node.keyPrefix = engine.keyPrefix) :
    node.addPresence = engine.addPresence := by
  unfold RedisEngine.addPresence RedisEngine.presenceSetKey RedisEngine.presenceDataKey
  rw [same]

theorem removePresence_congr (same : node.keyPrefix = engine.keyPrefix) :
    node.removePresence = engine.removePresence := by
  unfold RedisEngine.removePresence RedisEngine.presenceSetKey RedisEngine.presenceDataKey
  rw [same]

theorem presence_congr (same : node.keyPrefix = engine.keyPrefix) :
    node.presence = engine.presence := by
  unfold RedisEngine.presence RedisEngine.presenceSetKey RedisEngine.presenceDataKey
  rw [same]

theorem update_channel (latest : String × String → Option Stay) (channel client other : String)
    (stay : Option Stay) : Function.update latest (channel, client) stay (channel, other) =
      if other = client then stay else latest (channel, other) := by
  by_cases same : other = client
  · rw [if_pos same, same, Function.update_self]
  · rw [if_neg same, Function.update_of_ne]
    intro pair
    exact same (congrArg Prod.snd pair)

theorem update_other {channel' : String} (apart : channel' ≠ channel)
    (latest : String × String → Option Stay) (client other : String) (stay : Option Stay) :
    Function.update latest (channel, client) stay (channel', other) = latest (channel', other) := by
  rw [Function.update_of_ne]
  intro pair
  exact apart (congrArg Prod.fst pair)

theorem latest_add (s : Roster) (engine : RedisEngine) (channel client other : String)
    (info : ClientInfo) (ttlMs : Nat) :
    (s.act (.add engine channel client info ttlMs)).latest (channel, other) =
      if other = client then some ⟨info, s.seconds + ttlMs / 1000⟩
      else s.latest (channel, other) :=
  update_channel _ _ _ _ _

/-- The keys after an add, which takes no time. -/
theorem Tracks.after_add (h : Tracks engine s channel members fields deadline) (client : String)
    (info : ClientInfo) (ttlMs : Nat) :
    (s.act (.add engine channel client info ttlMs)).store.now = s.store.now ∧
      if ttlMs / 1000 = 0 then
        (s.act (.add engine channel client info ttlMs)).store.keys
            (engine.presenceSetKey channel) = none ∧
          (s.act (.add engine channel client info ttlMs)).store.keys
            (engine.presenceDataKey channel) = none
      else Scripts.Holds (engine.presenceSetKey channel) (engine.presenceDataKey channel)
        (members.insert client (s.seconds + ttlMs / 1000)) (fields.insert client (encode info.toPb))
        (s.store.now + 1000 * (ttlMs / 1000))
        (s.act (.add engine channel client info ttlMs)).store := by
  obtain ⟨store, ran, after⟩ := Scripts.presenceAdd_run RedisEngine.presenceSetKey_ne h.held
    (ttlMs / 1000) (s.seconds + ttlMs / 1000) client (encode info.toPb)
  have stored : (s.act (.add engine channel client info ttlMs)).store = store :=
    congrArg Prod.snd ran
  refine ⟨?_, by rwa [stored]⟩
  exact (@RedisEngine.frames_perform engine
    (.addPresence channel client info ttlMs s.seconds)).now s.store

/-- A sheltered add does not take the others with it. -/
theorem Tracks.add (h : Tracks engine s channel members fields deadline) {info : ClientInfo}
    {ttlMs : Nat} (sheltered : s.Sheltered (.add engine channel client info ttlMs)) :
    ∃ members fields deadline, Tracks engine (s.act (.add engine channel client info ttlMs))
      channel members fields deadline := by
  obtain ⟨still, after⟩ := h.after_add client info ttlMs
  have now : (s.act (.add engine channel client info ttlMs)).seconds = s.seconds :=
    congrArg (· / 1000) still
  by_cases zero : ttlMs / 1000 = 0
  · rw [if_pos zero] at after
    refine ⟨∅, ∅, 0, .of_none 0 after.1 after.2, ?_, fun _ _ found => nomatch found⟩
    intro other
    apply Matches.gone
    rw [latest_add, now]
    intro stay found
    split at found
    next =>
      cases found
      simp only [zero, Nat.add_zero, le_refl]
    next apart =>
      have before := sheltered other apart stay found
      rwa [zero, Nat.add_zero] at before
  · rw [if_neg zero] at after
    refine ⟨_, _, _, after, ?_, ?_⟩
    · intro other
      rw [latest_add, now, Map.lookup_insert_eq, Map.lookup_insert_eq]
      by_cases own : other = client
      · rw [if_pos own, if_pos own, if_pos own]
        exact .here ⟨info, s.seconds + ttlMs / 1000⟩
      · rw [if_neg own, if_neg own, if_neg own]
        exact h.matched other
    · intro other score found
      have bound : score ≤ s.seconds + ttlMs / 1000 := by
        rw [Map.lookup_insert_eq] at found
        by_cases own : other = client
        · rw [if_pos own] at found
          exact (Option.some.inj found).ge
        · rw [if_neg own] at found
          obtain ⟨stay, known, rfl⟩ := h.known found
          exact sheltered other own stay known
      have start : 1000 * s.seconds ≤ s.store.now := Nat.mul_div_le _ _
      omega

theorem Tracks.remove (h : Tracks engine s channel members fields deadline) (client : String) :
    ∃ members fields deadline, Tracks engine (s.act (.remove engine channel client))
      channel members fields deadline := by
  obtain ⟨store, ran, after⟩ := Scripts.presenceRem_run RedisEngine.presenceSetKey_ne h.held client
  have stored : (s.act (.remove engine channel client)).store = store := congrArg Prod.snd ran
  have now : (s.act (.remove engine channel client)).seconds = s.seconds :=
    congrArg (· / 1000) ((@RedisEngine.frames_perform engine
      (.removePresence channel client)).now s.store)
  have latest : ∀ other, (s.act (.remove engine channel client)).latest (channel, other) =
      if other = client then none else s.latest (channel, other) :=
    fun other => update_channel _ _ _ _ _
  rw [← stored] at after
  refine ⟨_, _, _, after, ?_, ?_⟩
  · intro other
    rw [latest, now, Map.lookup_erase_eq, Map.lookup_erase_eq]
    by_cases own : other = client
    · rw [if_pos own, if_pos own, if_pos own]
      exact .gone fun x found => nomatch found
    · rw [if_neg own, if_neg own, if_neg own]
      exact h.matched other
  · intro other score found
    rw [Map.lookup_erase_eq] at found
    split at found
    · cases found
    · exact h.covered other score found

/-- What a read leaves of a client, and what it tells. -/
theorem Tracks.alive (h : Tracks engine s channel members fields deadline)
    (short : ∀ place stay, s.latest place = some stay → (encode stay.info.toPb).length < 2 ^ 64)
    (client : String) :
    Matches s.seconds (s.latest (channel, client))
      ((Scripts.alive members s.seconds members).lookup client)
      ((Scripts.alive members s.seconds fields).lookup client) ∧
    ((Scripts.alive members s.seconds fields).lookup client).bind (fun info =>
      (decode info : Option Pb.ClientInfo).map ClientInfo.ofPb) = s.listed channel client := by
  have matched := h.matched client
  have short := short (channel, client)
  rw [Scripts.lookup_alive, Scripts.lookup_alive, listed]
  generalize s.latest (channel, client) = latest at matched short
  generalize members.lookup client = score at matched
  generalize fields.lookup client = info at matched
  cases matched with
  | here stay =>
      by_cases past : stay.due ≤ s.seconds
      · have expired : ∃ score, some stay.due = some score ∧ score ≤ s.seconds := ⟨_, rfl, past⟩
        rw [if_pos expired, if_pos expired]
        refine ⟨.gone ?_, ?_⟩
        · intro x found
          cases found
          exact past
        · simp only [if_neg (not_lt.mpr past), Option.bind_none]
      · have lasting : ¬ ∃ score, some stay.due = some score ∧ score ≤ s.seconds := by
          rintro ⟨score, same, expired⟩
          cases same
          exact past expired
        rw [if_neg lasting, if_neg lasting]
        refine ⟨.here stay, ?_⟩
        simp only [if_pos (not_le.mp past), Option.bind_some, decode_encode (short stay rfl),
          Option.map_some, ClientInfo.ofPb_toPb]
  | gone finished =>
      have absent : ¬ ∃ score, (none : Option Nat) = some score ∧ score ≤ s.seconds := by
        rintro ⟨score, same, -⟩
        cases same
      rw [if_neg absent, if_neg absent]
      refine ⟨.gone finished, ?_⟩
      cases latest with
      | none => rfl
      | some stay => simp only [if_neg (not_lt.mpr (finished stay rfl)), Option.bind_none]

theorem Tracks.presence (h : Tracks engine s channel members fields deadline)
    (short : ∀ place stay, s.latest place = some stay → (encode stay.info.toPb).length < 2 ^ 64) :
    ∃ members fields deadline, Tracks engine (s.act (.presence engine channel))
      channel members fields deadline := by
  obtain ⟨store, ran, after⟩ :=
    Scripts.presenceRead_run RedisEngine.presenceSetKey_ne h.held s.seconds
  obtain ⟨clients, read, -⟩ := RedisEngine.lookup_presence ran
  have stored : (s.act (.presence engine channel)).store = store := congrArg Prod.snd read
  have now : (s.act (.presence engine channel)).seconds = s.seconds :=
    congrArg (· / 1000) ((RedisEngine.frames_presence channel s.seconds).now s.store)
  rw [← stored] at after
  refine ⟨_, _, _, after, ?_, ?_⟩
  · intro client
    rw [now]
    exact (h.alive short client).1
  · intro client score found
    rw [Scripts.lookup_alive] at found
    split at found
    · cases found
    · exact h.covered client score found

/-- Whatever works on the keys of another channel does not matter. -/
theorem Tracks.elsewhere (h : Tracks engine s channel members fields deadline)
    {channel' : String} (apart : channel ≠ channel') {α : Type} {script : Script α}
    (frames : Script.Frames (engine.keysOf channel') script)
    (store : s'.store = (script s.store).2)
    (latest : ∀ client, s'.latest (channel, client) = s.latest (channel, client)) :
    Tracks engine s' channel members fields deadline := by
  refine h.congr ?_ ?_ ?_ latest
  · rw [store]
    exact frames.keys _ _
      (@RedisEngine.not_keysOf_presence engine channel' channel .presenceSet (.inl rfl) apart)
  · rw [store]
    exact frames.keys _ _
      (@RedisEngine.not_keysOf_presence engine channel' channel .presenceData (.inr rfl) apart)
  · rw [store]
    exact frames.now _

end Tracks

/-! ## When reads are right -/

section Reads

variable {engine : RedisEngine} {s : Roster} {event : Event}

theorem Kept.short_act (h : Kept engine s) (valid : event.Valid engine) :
    ∀ place stay, (s.act event).latest place = some stay →
      (encode stay.info.toPb).length < 2 ^ 64 := by
  intro place stay found
  cases event with
  | add node channel client info ttlMs =>
      change Function.update s.latest (channel, client) _ place = some stay at found
      rw [Function.update_apply] at found
      split at found
      · cases found
        exact valid.2
      · exact h.short place stay found
  | remove node channel client =>
      change Function.update s.latest (channel, client) none place = some stay at found
      rw [Function.update_apply] at found
      split at found
      · cases found
      · exact h.short place stay found
  | pass elapsed => exact h.short place stay found
  | presence node channel => exact h.short place stay found
  | other script => exact h.short place stay found

/-- A step keeps every channel, unless it is an add that ends too early. -/
theorem Kept.act (h : Kept engine s) (valid : event.Valid engine) (sheltered : s.Sheltered event) :
    Kept engine (s.act event) := by
  refine ⟨?_, h.short_act valid⟩
  intro channel
  obtain ⟨members, fields, deadline, tracks⟩ := h.tracks channel
  cases event with
  | pass elapsed => exact tracks.pass elapsed
  | add node channel' client info ttlMs =>
      have same : s.act (.add node channel' client info ttlMs) =
          s.act (.add engine channel' client info ttlMs) := by
        simp only [Roster.act, addPresence_congr valid.1]
      rw [same]
      by_cases own : channel = channel'
      · subst own
        exact tracks.add sheltered
      · exact ⟨_, _, _, tracks.elsewhere own
          (RedisEngine.frames_perform (.addPresence channel' client info ttlMs s.seconds)) rfl
          fun other => update_other own _ _ _ _⟩
  | remove node channel' client =>
      have same : s.act (.remove node channel' client) =
          s.act (.remove engine channel' client) := by
        simp only [Roster.act, removePresence_congr valid]
      rw [same]
      by_cases own : channel = channel'
      · subst own
        exact tracks.remove client
      · exact ⟨_, _, _, tracks.elsewhere own
          (RedisEngine.frames_perform (.removePresence channel' client)) rfl
          fun other => update_other own _ _ _ _⟩
  | presence node channel' =>
      have same : s.act (.presence node channel') = s.act (.presence engine channel') := by
        simp only [Roster.act, presence_congr valid]
      rw [same]
      by_cases own : channel = channel'
      · subst own
        exact tracks.presence h.short
      · exact ⟨_, _, _, tracks.elsewhere own
          (RedisEngine.frames_presence channel' s.seconds) rfl fun other => rfl⟩
  | other script =>
      refine ⟨_, _, _, tracks.congr ?_ ?_ (valid.now s.store) fun other => rfl⟩
      · exact valid.keys s.store _ fun mine => (mine channel).1 rfl
      · exact valid.keys s.store _ fun mine => (mine channel).2 rfl

theorem Kept.reads (h : Kept engine s) : Reads engine s := by
  intro channel
  obtain ⟨members, fields, deadline, tracks⟩ := h.tracks channel
  obtain ⟨store, ran, -⟩ :=
    Scripts.presenceRead_run RedisEngine.presenceSetKey_ne tracks.held s.seconds
  obtain ⟨clients, read, told⟩ := RedisEngine.lookup_presence ran
  refine ⟨clients, congrArg Prod.fst read, ?_⟩
  intro client
  rw [told]
  exact (tracks.alive h.short client).2

/-- Where the keys of a channel are gone, nobody is in it. -/
theorem lookup_of_none {channel : String} {clients : Map String ClientInfo}
    (set : s.store.keys (engine.presenceSetKey channel) = none)
    (data : s.store.keys (engine.presenceDataKey channel) = none)
    (read : (engine.presence channel s.seconds s.store).1 = .ok clients) (client : String) :
    clients.lookup client = none := by
  obtain ⟨store, ran, -⟩ := Scripts.presenceRead_run RedisEngine.presenceSetKey_ne
    (.of_none 0 set data) s.seconds
  obtain ⟨clients', read', told⟩ := RedisEngine.lookup_presence ran
  rw [read'] at read
  cases read
  rw [told, Scripts.lookup_alive]
  split <;> rfl

/-- An add that ends before another client's stay takes that client with it. -/
theorem not_reads_of_exposed (h : Kept engine s) (valid : event.Valid engine)
    (exposed : ¬ s.Sheltered event) :
    ∃ elapsed, ¬ Reads engine ((s.act event).act (.pass elapsed)) := by
  cases event with
  | add node channel client info ttlMs =>
      have same : s.act (.add node channel client info ttlMs) =
          s.act (.add engine channel client info ttlMs) := by
        simp only [Roster.act, addPresence_congr valid.1]
      simp only [Sheltered, not_forall] at exposed
      obtain ⟨other, apart, stay, found, late⟩ := exposed
      obtain ⟨members, fields, deadline, tracks⟩ := h.tracks channel
      obtain ⟨still, after⟩ := tracks.after_add client info ttlMs
      have listed := latest_add s engine channel client other info ttlMs
      rw [if_neg apart, found] at listed
      refine ⟨1000 * (ttlMs / 1000), ?_⟩
      rw [same]
      generalize s.act (.add engine channel client info ttlMs) = added at still after listed
      have gone : (added.act (.pass (1000 * (ttlMs / 1000)))).store.keys
            (engine.presenceSetKey channel) = none ∧
          (added.act (.pass (1000 * (ttlMs / 1000)))).store.keys
            (engine.presenceDataKey channel) = none := by
        split at after
        next zero => exact ⟨Store.tick_of_none after.1, Store.tick_of_none after.2⟩
        next =>
          have reached : s.store.now + 1000 * (ttlMs / 1000) ≤
              added.store.now + 1000 * (ttlMs / 1000) := by rw [still]
          exact ⟨after.scores.tick_of_le reached, after.infos.tick_of_le reached⟩
      intro reads
      obtain ⟨clients, read, told⟩ := reads channel
      have told := told other
      rw [lookup_of_none gone.1 gone.2 read] at told
      have early : (added.act (.pass (1000 * (ttlMs / 1000)))).seconds < stay.due := by
        change (added.store.now + 1000 * (ttlMs / 1000)) / 1000 < stay.due
        change ¬ stay.due ≤ s.store.now / 1000 + ttlMs / 1000 at late
        omega
      have kept : (added.act (.pass (1000 * (ttlMs / 1000)))).latest (channel, other) = some stay :=
        listed
      rw [Roster.listed, kept] at told
      simp only [if_pos early] at told
      cases told
  | _ => exact absurd trivial exposed

/-- A condition on every event of a run, and on the state before it. -/
theorem forall_events_cons {p : Roster → Event → Prop} {events : List Event} :
    (∀ front next, front ++ [next] <+: event :: events → p (s.run front) next) ↔
      p s event ∧ ∀ front next, front ++ [next] <+: events → p ((s.act event).run front) next := by
  constructor
  · intro all
    exact ⟨all [] event ⟨events, rfl⟩, fun front next part =>
      all (event :: front) next (List.cons_prefix_cons.mpr ⟨rfl, part⟩)⟩
  · intro all front next part
    cases front with
    | nil =>
        cases (List.cons_prefix_cons.mp part).1
        exact all.1
    | cons head front =>
        obtain ⟨rfl, inside⟩ := List.cons_prefix_cons.mp part
        exact all.2 front next inside

theorem forall_events_nil {p : Roster → Event → Prop} :
    ∀ front next, front ++ [next] <+: [] → p (s.run front) next := by
  intro front next short
  simp at short

theorem reads_iff_of_kept (events : List Event) (valid : ∀ event ∈ events, event.Valid engine)
    (h : Kept engine s) :
    (∀ front, front <+: events → ∀ elapsed, Reads engine ((s.run front).act (.pass elapsed))) ↔
      ∀ front event, front ++ [event] <+: events → (s.run front).Sheltered event := by
  induction events generalizing s with
  | nil =>
      refine iff_of_true ?_ forall_events_nil
      intro front empty elapsed
      rw [List.prefix_nil.mp empty]
      exact (@Kept.act engine s (.pass elapsed) h trivial trivial).reads
  | cons event events ih =>
      have first := valid event List.mem_cons_self
      have rest : ∀ other ∈ events, other.Valid engine :=
        fun other mem => valid other (List.mem_cons_of_mem _ mem)
      rw [forall_events_cons]
      constructor
      · intro reads
        have sheltered : s.Sheltered event := by
          by_contra exposed
          obtain ⟨elapsed, wrong⟩ := not_reads_of_exposed h first exposed
          exact wrong (reads [event] ⟨events, rfl⟩ elapsed)
        exact ⟨sheltered, (ih rest (h.act first sheltered)).mp fun front part =>
          reads (event :: front) (List.cons_prefix_cons.mpr ⟨rfl, part⟩)⟩
      · rintro ⟨now, sheltered⟩ front part elapsed
        have later := (ih rest (h.act first now)).mpr sheltered
        cases front with
        | nil => exact (@Kept.act engine s (.pass elapsed) h trivial trivial).reads
        | cons head front =>
            obtain ⟨rfl, inside⟩ := List.cons_prefix_cons.mp part
            exact later front inside elapsed

end Reads

/-- At every time of a run the clients that are read are those whose latest add is not over, just
if no add ended before the stay of another client. -/
theorem reads_iff {engine : RedisEngine} {events : List Event}
    (valid : ∀ event ∈ events, event.Valid engine) :
    (∀ front, front <+: events →
      ∀ elapsed, Reads engine ((run {} front).act (.pass elapsed))) ↔
      ∀ front event, front ++ [event] <+: events → (run {} front).Sheltered event :=
  reads_iff_of_kept events valid (kept_empty engine)

end Roster

/-! ## Two times to live -/

namespace Sample

def userInfo (user client : String) : ClientInfo := ⟨user, client, none, none⟩

def enter (client : String) (ttlMs : Nat) : Roster.Event :=
  .add redis "news" client (userInfo "42" client) ttlMs

end Sample

/-- Three clients enter, each for longer than those before, the last one leaves, and the stay of
the first one is over. -/
def Sample.meeting : List Roster.Event :=
  [enter "a" 10000, enter "b" 60000, .pass 500, enter "c" 90000, .remove redis "news" "c",
    .pass 10000]

theorem Roster.reads_iff_meeting : ∃ clients,
    (Sample.redis.presence "news" 10 (run {} Sample.meeting).store).1 = .ok clients ∧
      clients.lookup "a" = none ∧ clients.lookup "b" = some (Sample.userInfo "42" "b") ∧
      clients.lookup "c" = none := by
  have valid : ∀ event ∈ Sample.meeting, event.Valid Sample.redis := by
    simp only [Sample.meeting, List.forall_mem_cons]
    exact ⟨⟨rfl, by decide +kernel⟩, ⟨rfl, by decide +kernel⟩, trivial,
      ⟨rfl, by decide +kernel⟩, rfl, trivial, by simp⟩
  have sheltered : ∀ front event, front ++ [event] <+: Sample.meeting →
      (run {} front).Sheltered event := by
    simp only [Sample.meeting, forall_events_cons]
    have alone : ∀ other stay, (act {} (Sample.enter "a" 10000)).latest ("news", other) =
        some stay → stay.due ≤ 60 := by
      intro other stay found
      rw [Sample.enter, latest_add] at found
      split at found
      · cases found
        decide
      · cases found
    refine ⟨fun _ _ _ found => (nomatch found), fun other _ stay => alone other stay,
      trivial, ?_, trivial, trivial, forall_events_nil⟩
    intro other _ stay found
    have entered := found.symm.trans (latest_add (act {} (Sample.enter "a" 10000)) Sample.redis
      "news" "b" other (Sample.userInfo "42" "b") 60000)
    split at entered
    · cases entered
      decide
    · exact (alone other stay entered.symm).trans (by decide)
  have reads := (reads_iff valid).mpr sheltered Sample.meeting List.prefix_rfl 0
  obtain ⟨clients, read, told⟩ := reads "news"
  refine ⟨clients, read, ?_, ?_, ?_⟩
  · rw [told]
    rfl
  · rw [told]
    rfl
  · rw [told]
    rfl

/-- Two clients enter, for a minute and for ten seconds, and ten seconds pass. -/
def Sample.visits : List Roster.Event := [enter "a" 60000, enter "b" 10000, .pass 10000]

/-- An add for ten seconds takes a client along that was added for a minute. -/
theorem Roster.not_reads :
    ¬ ∀ (engine : RedisEngine) (events : List Event), (∀ event ∈ events, event.Valid engine) →
      Reads engine (run {} events) := by
  intro all
  have valid : ∀ event ∈ Sample.visits, event.Valid Sample.redis := by
    simp only [Sample.visits, List.forall_mem_cons]
    exact ⟨⟨rfl, by decide +kernel⟩, ⟨rfl, by decide +kernel⟩, trivial, by simp⟩
  obtain ⟨clients, read, told⟩ := all Sample.redis Sample.visits valid "news"
  have told := told "a"
  have missed : ((Sample.redis.presence "news" (run {} Sample.visits).seconds
      (run {} Sample.visits).store).1.toOption.bind fun clients => clients.lookup "a") = none := by
    decide +kernel
  have listed : (run {} Sample.visits).listed "news" "a" = some (Sample.userInfo "42" "a") := by
    decide +kernel
  rw [read] at missed
  rw [listed, show clients.lookup "a" = none from missed] at told
  cases told

end Centrifugo
