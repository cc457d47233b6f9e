import Centrifugo.Server.Departed
import Centrifugo.Server.Held

/-!
# The entries of a session

For each of its channels, a session enters itself in the subscriber sets of the hub and, when
the channel has presence, in the presence map. An `Entry` is what there is at one moment:
whether the entry is there, and whether the session holds the channel. The work of a session
says what will become of both, and in the end they agree. Other tasks only take the entry of a
connection out of the hub that they drop.
-/

namespace Centrifugo

open Server

/-! ## Presence maps -/

namespace MemoryEngine

variable {engine : MemoryEngine} {channel name client other : String}

theorem lookup_withoutClient {clients : Option (Map String ClientInfo)} :
    ((withoutClient client clients).getD ∅).lookup other =
      if other = client then none else (clients.getD ∅).lookup other := by
  cases clients with
  | none => simp [withoutClient]
  | some clients =>
      simp only [withoutClient]
      split
      next empty =>
        have none : (clients.erase client).lookup other = none := by
          rw [AList.lookup_eq_none, AList.mem_keys, AList.keys, List.isEmpty_iff.mp empty]
          exact List.not_mem_nil
        rw [Map.lookup_erase_eq] at none
        simpa using none.symm
      next => simp [Map.lookup_erase_eq]

theorem lookup_addPresence {info : ClientInfo} :
    ((engine.addPresence channel client info).presenceOf name).lookup other =
      if other = client ∧ name = channel then some info
      else (engine.presenceOf name).lookup other := by
  simp only [presenceOf, addPresence, Map.lookup_alter]
  by_cases same : name = channel
  · subst same
    simp [Map.lookup_insert_eq]
  · simp [same]

theorem lookup_removePresence :
    ((engine.removePresence channel client).presenceOf name).lookup other =
      if other = client ∧ name = channel then none
      else (engine.presenceOf name).lookup other := by
  simp only [presenceOf, removePresence, Map.lookup_alter]
  by_cases same : name = channel
  · subst same
    simp [lookup_withoutClient]
  · simp [same]

theorem mem_addPresence {info : ClientInfo} :
    other ∈ (engine.addPresence channel client info).presenceOf name ↔
      (other = client ∧ name = channel) ∨ other ∈ engine.presenceOf name := by
  rw [← AList.lookup_isSome, lookup_addPresence, ← AList.lookup_isSome]
  split
  next same => simp [same]
  next same => simp [same]

theorem mem_removePresence : other ∈ (engine.removePresence channel client).presenceOf name ↔
    ¬ (other = client ∧ name = channel) ∧ other ∈ engine.presenceOf name := by
  rw [← AList.lookup_isSome, lookup_removePresence, ← AList.lookup_isSome]
  split
  next same => simp [same]
  next same => simp [same]

@[simp] theorem presence_append (clock : Clock) (fresh : String) (data : Raw)
    (info : Option ClientInfo) (opts : PublishOptions) :
    (engine.append clock fresh channel data info opts).1.presence = engine.presence := by
  unfold append
  split
  · rfl
  · rfl

end MemoryEngine

/-! ## Tables -/

/-- The tables in which sessions enter themselves for channels. -/
inductive Table
  | subscribers
  | presence

/-- The place of an entry. -/
structure Slot where
  table : Table
  id : ClientId
  channel : String

namespace Slot

def has (slot : Slot) (world : World) : Bool :=
  match slot.table with
  | .subscribers => slot.id ∈ world.hub.subscriberIds slot.channel
  | .presence => slot.id ∈ world.engine.presenceOf slot.channel

/-- A subscription to the channel comes with an entry. -/
def keeps (slot : Slot) (node : Node) : Bool :=
  match slot.table with
  | .subscribers => true
  | .presence => (Session.serverSideState node slot.channel).presence

/-- What an access writes to the place: that there is an entry, or that there is none. -/
def writes (slot : Slot) (hash : String → Fin 16) (a : Access) : Option Bool :=
  match slot.table, a with
  | .subscribers, .subscribe id channel =>
      if slot.id = id ∧ slot.channel = channel then some true else none
  | .subscribers, .unsubscribe id channel =>
      if slot.id = id ∧ slot.channel = channel then some false else none
  | .subscribers, .sweep id shard =>
      if slot.id = id ∧ hash slot.channel = shard then some false else none
  | .presence, .addPresence channel id _ =>
      if slot.id = id ∧ slot.channel = channel then some true else none
  | .presence, .removePresence channel id =>
      if slot.id = id ∧ slot.channel = channel then some false else none
  | _, _ => none

/-- What becomes of the place by an access and what follows from it, when nobody else writes to
it. A session that removes its client goes on to sweep every shard. -/
def settles (slot : Slot) (hash : String → Fin 16) (a : Access) : Option Bool :=
  match slot.table, a with
  | .subscribers, .removeConn id none => if slot.id = id then some false else none
  | _, _ => slot.writes hash a

variable (slot : Slot) {node : Node} {a b : Access} {s s' : Shared} {hash : String → Fin 16}

/-- An entry that is written. -/
theorem getD_written {c p : Prop} [Decidable c] [Decidable p] :
    decide (c ∨ p) = (if c then some true else none).getD (decide p) := by
  by_cases c <;> simp [*]

/-- An entry that is erased. -/
theorem getD_erased {c p : Prop} [Decidable c] [Decidable p] :
    decide (¬ c ∧ p) = (if c then some false else none).getD (decide p) := by
  by_cases c <;> simp [*]

theorem has_perform : slot.has (a.perform node s).world =
    (slot.writes s.world.hub.hash a).getD (slot.has s.world) := by
  obtain ⟨table, id, channel⟩ := slot
  cases table with
  | subscribers =>
      simp only [has, Access.perform_hub]
      cases a with
      | subscribe other name =>
          simp only [Access.hub, Hub.mem_subscribe, writes]
          exact getD_written
      | unsubscribe other name =>
          simp only [Access.hub, Hub.mem_unsubscribe, writes]
          exact getD_erased
      | sweep other shard =>
          simp only [Access.hub, Hub.mem_sweep, writes]
          exact getD_erased
      | _ => rfl
  | presence =>
      simp only [has, Access.perform_engine]
      cases a with
      | addPresence name other info =>
          simp only [Access.engine, MemoryEngine.mem_addPresence, writes]
          exact getD_written
      | removePresence name other =>
          simp only [Access.engine, MemoryEngine.mem_removePresence, writes]
          exact getD_erased
      | append clock fresh name data info =>
          refine decide_eq_decide.mpr ?_
          simp only [Access.engine, MemoryEngine.presenceOf, MemoryEngine.presence_append]
      | _ => rfl

end Slot

/-! ## Entries -/

/-- What there is at one moment: the entry, and the subscription. -/
structure Entry where
  entered : Bool
  held : Bool

namespace Entry

def write (entry : Entry) (value : Option Bool) : Entry :=
  { entry with entered := value.getD entry.entered }

def hold (entry : Entry) : Entry := { entry with held := true }

/-- A subscription begins. -/
def take (entry : Entry) (keeps : Bool) : Entry := ⟨entry.entered || keeps, true⟩

/-- A subscription ends. -/
def drop (entry : Entry) (keeps : Bool) : Entry := ⟨entry.entered && !keeps, false⟩

/-- The same, except that the entry may be missing. -/
structure Below (entry other : Entry) : Prop where
  held : entry.held = other.held
  entered : entry.entered → other.entered

/-- The entry is there when the session holds the channel, unless it was lost. -/
structure Fits (keeps : Bool) (lost : Prop) (entry : Entry) : Prop where
  sound : entry.entered → keeps ∧ entry.held
  complete : keeps → entry.held → entry.entered ∨ lost

theorem Below.refl (entry : Entry) : entry.Below entry := ⟨rfl, fun entered => entered⟩

variable {keeps : Bool} {lost lost' : Prop} {entry entry' : Entry}

theorem Fits.of_below (h : Fits keeps lost entry) (below : entry'.Below entry)
    (gone : lost') : Fits keeps lost' entry' := by
  refine ⟨?_, fun _ _ => .inr gone⟩
  intro entered
  rw [below.held]
  exact h.sound (below.entered entered)

theorem Fits.mono (h : Fits keeps lost entry) (still : lost → lost') : Fits keeps lost' entry :=
  ⟨h.sound, fun kept held => (h.complete kept held).imp_right still⟩

/-- Without a subscription there is no entry. -/
theorem Fits.free (h : Fits keeps lost entry) (free : entry.held = false) :
    entry.entered = false := by
  refine Bool.eq_false_iff.mpr fun entered => ?_
  have held := (h.sound entered).2
  rw [free] at held
  cases held

theorem fits_free : Fits keeps lost ⟨false, false⟩ := by
  refine ⟨?_, ?_⟩
  · intro entered
    cases entered
  · intro _ held
    cases held

theorem Fits.take (h : Fits keeps lost entry) : Fits keeps lost (entry.take keeps) := by
  refine ⟨?_, ?_⟩
  · intro entered
    obtain before | kept := Bool.or_eq_true_iff.mp entered
    · exact ⟨(h.sound before).1, rfl⟩
    · exact ⟨kept, rfl⟩
  · intro kept _
    exact .inl (Bool.or_eq_true_iff.mpr (.inr kept))

theorem Fits.drop (h : Fits keeps lost entry) : Fits keeps lost (entry.drop keeps) := by
  refine ⟨?_, ?_⟩
  · intro entered
    obtain ⟨before, away⟩ := Bool.and_eq_true_iff.mp entered
    rw [(h.sound before).1] at away
    cases away
  · intro _ held
    cases held

end Entry

/-- What there is now. -/
def Slot.entry (slot : Slot) (world : World) (client : Client) : Entry :=
  ⟨slot.has world, client.isSubscribed slot.channel⟩

/-- What becomes of an entry by an operation and what follows from it. -/
def Op.settle (slot : Slot) (node : Node) (hash : String → Fin 16) (entry : Entry) : Op → Entry
  | .access a => entry.write (slot.settles hash a)
  | .serverSide _ _ _ _ _ channels =>
      if slot.channel ∈ channels then entry.take (slot.keeps node) else entry
  | .report _ _ _ _ _ channel channels =>
      let entry := if slot.channel = channel then entry.hold else entry
      if slot.channel ∈ channels then entry.take (slot.keeps node) else entry
  | .subscribeReply _ _ req _ _ => if slot.channel = req.channel then entry.hold else entry
  | .serverUnsubscribe channel =>
      if slot.channel = channel ∧ entry.held then entry.drop (slot.keeps node) else entry
  | .register _ _ _ | .answer _ => entry

/-- What becomes of an entry by the work of a session. -/
def Slot.settled (slot : Slot) (node : Node) (hash : String → Fin 16) (entry : Entry)
    (ops : List Op) : Entry :=
  ops.foldl (Op.settle slot node hash) entry

theorem Op.settle_mono {slot : Slot} {node : Node} {hash : String → Fin 16} {op : Op}
    {entry entry' : Entry} (below : entry'.Below entry) :
    (op.settle slot node hash entry').Below (op.settle slot node hash entry) := by
  obtain ⟨entered, held⟩ := entry
  obtain ⟨entered', held'⟩ := entry'
  obtain ⟨rfl, imp⟩ := below
  have imp : entered' = true → entered = true := imp
  have taking : ∀ keeps held,
      (Entry.take ⟨entered', held⟩ keeps).Below (.take ⟨entered, held⟩ keeps) := by
    intro keeps held
    refine ⟨rfl, ?_⟩
    simp only [Entry.take, Bool.or_eq_true]
    exact Or.imp_left imp
  cases op with
  | access a =>
      refine ⟨rfl, ?_⟩
      simp only [settle, Entry.write]
      cases slot.settles hash a with
      | none => exact imp
      | some value => exact fun yes => yes
  | serverSide _ _ _ _ _ channels =>
      simp only [settle]
      split
      next => exact taking _ _
      next => exact ⟨rfl, imp⟩
  | report _ _ _ _ _ channel channels =>
      simp only [settle]
      split
      next =>
        split
        next => exact taking _ _
        next => exact taking _ _
      next =>
        split
        next => exact ⟨rfl, imp⟩
        next => exact ⟨rfl, imp⟩
  | subscribeReply _ _ req _ _ =>
      simp only [settle]
      split
      next => exact ⟨rfl, imp⟩
      next => exact ⟨rfl, imp⟩
  | serverUnsubscribe channel =>
      simp only [settle]
      split
      next =>
        refine ⟨rfl, ?_⟩
        simp only [Entry.drop, Bool.and_eq_true]
        exact And.imp_left imp
      next => exact ⟨rfl, imp⟩
  | _ => exact ⟨rfl, imp⟩

namespace Slot

variable {slot : Slot} {node : Node} {hash : String → Fin 16} {entry entry' : Entry}
  {ops more : List Op} {accesses : List Access}

@[simp] theorem settled_nil : slot.settled node hash entry [] = entry := rfl

@[simp] theorem settled_cons {op : Op} : slot.settled node hash entry (op :: ops) =
    slot.settled node hash (op.settle slot node hash entry) ops := rfl

theorem settled_append : slot.settled node hash entry (ops ++ more) =
    slot.settled node hash (slot.settled node hash entry ops) more :=
  List.foldl_append

theorem settled_mono (below : entry'.Below entry) :
    (slot.settled node hash entry' ops).Below (slot.settled node hash entry ops) := by
  induction ops generalizing entry entry' with
  | nil => exact below
  | cons op ops ih => exact ih (Op.settle_mono below)

/-- Accesses that enter the session for nothing. -/
theorem settled_erasing (erasing : ∀ a ∈ accesses, slot.settles hash a ≠ some true) :
    slot.settled node hash entry (accesses.map .access) =
      ⟨entry.entered && accesses.all fun a => slot.settles hash a = none, entry.held⟩ := by
  induction accesses generalizing entry with
  | nil => simp
  | cons a accesses ih =>
      have first := erasing a List.mem_cons_self
      rw [List.map_cons, settled_cons, ih fun b mem => erasing b (List.mem_cons_of_mem _ mem)]
      simp only [Op.settle, Entry.write, List.all_cons]
      cases written : slot.settles hash a with
      | none => simp
      | some value =>
          cases value with
          | true => exact absurd written first
          | false => simp

/-- Accesses that take no entry away. -/
theorem settled_writing (writing : ∀ a ∈ accesses, slot.settles hash a ≠ some false) :
    slot.settled node hash entry (accesses.map .access) =
      ⟨entry.entered || accesses.any fun a => slot.settles hash a = some true, entry.held⟩ := by
  induction accesses generalizing entry with
  | nil => simp
  | cons a accesses ih =>
      have first := writing a List.mem_cons_self
      rw [List.map_cons, settled_cons, ih fun b mem => writing b (List.mem_cons_of_mem _ mem)]
      simp only [Op.settle, Entry.write, List.any_cons]
      cases written : slot.settles hash a with
      | none => simp
      | some value =>
          cases value with
          | true => simp
          | false => exact absurd written first

/-- Accesses that are about other places. -/
theorem settled_aside (aside : ∀ a ∈ accesses, slot.settles hash a = none) :
    slot.settled node hash entry (accesses.map .access) = entry := by
  rw [settled_erasing fun a mem => by simp [aside a mem]]
  have all : (accesses.all fun a => slot.settles hash a = none) = true := by
    rw [List.all_eq_true]
    intro a mem
    exact decide_eq_true (aside a mem)
  rw [all, Bool.and_true]

/-! ## Accesses -/

variable {a b : Access} {s : Shared}

theorem sweep_mem_more (id : ClientId) (slow : Option QueueId) (shard : Fin 16) :
    .sweep id shard ∈ (Access.removeConn id slow).more node s := by
  have mem : Access.sweep id shard ∈ Access.sweeps id :=
    List.mem_map.mpr ⟨shard, List.mem_finRange shard, rfl⟩
  simp only [Access.more]
  split
  next => exact List.mem_cons_of_mem _ (List.mem_append_left _ mem)
  next => exact mem

/-- What follows from an access is about other places, or sweeps the client. -/
theorem settles_more (next : b ∈ a.more node s) : slot.settles hash b = none ∨
    slot.settles hash b = some false ∧ slot.table = .subscribers ∧
      ∃ slow, a = .removeConn slot.id slow := by
  obtain ⟨table, id, channel⟩ := slot
  cases table with
  | subscribers =>
      cases Access.follows_of_mem next with
      | @sweep other slow shard =>
          by_cases same : id = other ∧ hash channel = shard
          · exact .inr ⟨if_pos same, rfl, slow, by rw [same.1]⟩
          · exact .inl (if_neg same)
      | _ => exact .inl rfl
  | presence => cases Access.follows_of_mem next <;> exact .inl rfl

theorem settled_more (other : slot.table = .subscribers → ∀ slow, a ≠ .removeConn slot.id slow) :
    slot.settled node hash entry ((a.more node s).map .access) = entry := by
  refine settled_aside fun b next => ?_
  obtain aside | ⟨_, table, slow, same⟩ := settles_more next
  · exact aside
  · exact absurd same (other table slow)

theorem settled_removal (table : slot.table = .subscribers) (slow : Option QueueId) :
    slot.settled node hash entry (((Access.removeConn slot.id slow).more node s).map .access) =
      ⟨false, entry.held⟩ := by
  have erasing : ∀ b ∈ (Access.removeConn slot.id slow).more node s,
      slot.settles hash b ≠ some true := by
    intro b next
    obtain aside | ⟨erased, _⟩ := @settles_more slot node hash _ b s next
    · simp [aside]
    · simp [erased]
  rw [settled_erasing erasing]
  have swept : ((Access.removeConn slot.id slow).more node s).all
      (fun b => slot.settles hash b = none) = false := by
    rw [List.all_eq_false]
    refine ⟨_, sweep_mem_more slot.id slow (hash slot.channel), ?_⟩
    obtain ⟨place, id, channel⟩ := slot
    cases table
    simp [settles, writes]
  rw [swept, Bool.and_false]

/-! ## Courses -/

variable {client : Client} {channel : String} {state : SubState}

/-- The accesses of a subscription that begins. -/
theorem settled_subscribing (id : client.id = slot.id)
    (options : state.presence = (Session.serverSideState node channel).presence) :
    slot.settled node hash entry ((client.subscribing channel state).map .access) =
      if slot.channel = channel then ⟨entry.entered || slot.keeps node, entry.held⟩ else entry := by
  obtain ⟨table, mine, name⟩ := slot
  subst id
  have writing : ∀ a ∈ client.subscribing channel state,
      (Slot.mk table client.id name).settles hash a ≠ some false := by
    intro a mem
    unfold Client.subscribing at mem
    obtain rfl | mem := List.mem_cons.mp mem
    · cases table <;> simp [settles, writes]
    · split at mem
      next =>
        rw [List.mem_singleton.mp mem]
        cases table <;> simp [settles, writes]
      next => cases mem
  rw [settled_writing writing]
  by_cases same : name = channel
  · subst same
    rw [if_pos rfl]
    cases table with
    | subscribers => simp [Client.subscribing, settles, writes, keeps]
    | presence =>
        simp only [Client.subscribing, keeps, ← options]
        cases state.presence <;> simp [settles, writes]
  · rw [if_neg same]
    have silent : (client.subscribing channel state).any
        (fun a => (Slot.mk table client.id name).settles hash a = some true) = false := by
      rw [List.any_eq_false]
      intro a mem
      unfold Client.subscribing at mem
      obtain rfl | mem := List.mem_cons.mp mem
      · cases table <;> simp [settles, writes, same]
      · split at mem
        next =>
          rw [List.mem_singleton.mp mem]
          cases table <;> simp [settles, writes, same]
        next => cases mem
    rw [silent, Bool.or_false]

theorem settles_leaving (id : client.id = slot.id) {a : Access}
    (mem : a ∈ client.leaving channel state) : slot.settles hash a = none ∨
      slot.settles hash a = some false ∧ slot.channel = channel := by
  obtain ⟨table, mine, name⟩ := slot
  subst id
  unfold Client.leaving at mem
  obtain mem | mem := List.mem_append.mp mem
  · split at mem
    next =>
      rw [List.mem_singleton.mp mem]
      cases table with
      | subscribers => exact .inl rfl
      | presence =>
          by_cases same : client.id = client.id ∧ name = channel
          · exact .inr ⟨if_pos same, same.2⟩
          · exact .inl (if_neg same)
    next => cases mem
  · split at mem
    next =>
      rw [List.mem_singleton.mp mem]
      cases table <;> exact .inl rfl
    next => cases mem

theorem settles_unsubscribing (id : client.id = slot.id) {a : Access}
    (mem : a ∈ client.leaving channel state ++ [Access.unsubscribe client.id channel]) :
    slot.settles hash a = none ∨ slot.settles hash a = some false ∧ slot.channel = channel := by
  obtain mem | mem := List.mem_append.mp mem
  · exact settles_leaving id mem
  · rw [List.mem_singleton.mp mem]
    obtain ⟨table, mine, name⟩ := slot
    cases table with
    | subscribers =>
        by_cases same : mine = client.id ∧ name = channel
        · exact .inr ⟨if_pos same, same.2⟩
        · exact .inl (if_neg same)
    | presence => exact .inl rfl

/-- The accesses of a subscription that ends. -/
theorem settled_unsubscribing (id : client.id = slot.id)
    (options : state.presence = (Session.serverSideState node channel).presence) :
    slot.settled node hash entry
        ((client.leaving channel state ++ [Access.unsubscribe client.id channel]).map .access) =
      if slot.channel = channel then ⟨entry.entered && !slot.keeps node, entry.held⟩
      else entry := by
  by_cases same : slot.channel = channel
  · have erasing : ∀ a ∈ client.leaving channel state ++ [Access.unsubscribe client.id channel],
        slot.settles hash a ≠ some true := by
      intro a mem
      obtain aside | ⟨erased, _⟩ := @settles_unsubscribing slot hash client channel state id a mem
      · simp [aside]
      · simp [erased]
    rw [settled_erasing erasing, if_pos same]
    obtain ⟨table, mine, name⟩ := slot
    subst id same
    cases table with
    | subscribers =>
        cases presence : state.presence <;> cases joinLeave : state.joinLeave <;>
          simp [Client.leaving, presence, joinLeave, settles, writes, keeps]
    | presence =>
        simp only [keeps, ← options]
        cases presence : state.presence <;> cases joinLeave : state.joinLeave <;>
          simp [Client.leaving, presence, joinLeave, settles, writes]
  · rw [if_neg same]
    refine settled_aside fun a mem => ?_
    obtain aside | ⟨_, here⟩ := @settles_unsubscribing slot hash client channel state id a mem
    · exact aside
    · exact absurd here same

/-! ## Operations -/

theorem has_congr {world world' : World} (hub : world'.hub = world.hub)
    (presence : world'.engine.presence = world.engine.presence) :
    slot.has world' = slot.has world := by
  obtain ⟨table, id, channel⟩ := slot
  cases table with
  | subscribers => simp only [has, hub]
  | presence =>
      refine decide_eq_decide.mpr ?_
      simp only [MemoryEngine.presenceOf, presence]

theorem has_quiet {s s' : Shared} (quiet : s.Quiet s') : slot.has s'.world = slot.has s.world :=
  has_congr quiet.hub quiet.presence

/-- A channel that the session takes in. -/
theorem entry_insert {slot : Slot} {world world' : World} {client client' : Client}
    {channel : String} {state : SubState} (has : slot.has world' = slot.has world)
    (subscriptions : client'.subscriptions = client.subscriptions.insert channel state) :
    slot.entry world' client' = if slot.channel = channel then (slot.entry world client).hold
      else slot.entry world client := by
  simp only [entry, Client.isSubscribed, has, subscriptions, Map.lookup_insert_eq]
  split
  next => rfl
  next => rfl

end Slot

/-- The state has the presence option of the channel. -/
def Configured (node : Node) (channel : String) (state : SubState) : Prop :=
  state.presence = (Session.serverSideState node channel).presence

namespace Configured

variable {node : Node}

theorem lasting : Lasting (Configured node) := by
  intro channel state state' configured _ presence
  exact presence.trans configured

theorem granted {s : Session} {readings : Readings} {cmd : Command} {req : SubscribeRequest}
    {opts : ChannelOptions} {grant : Session.Grant}
    (checked : s.checkSubscribe node readings cmd = .ok (req, opts, grant)) :
    Configured node req.channel (Session.grantedState opts grant) := by
  obtain ⟨_, _, known, _⟩ := Session.checkSubscribe_ok checked
  simp [Configured, Session.grantedState, Session.serverSideState, known]

end Configured

namespace Slot

variable {slot : Slot} {node : Node} {hash : String → Fin 16} {world : World} {client : Client}
  {channel : String}

/-- The end of a subscription. -/
theorem settled_unsubscribe (id : client.id = slot.id)
    (configured : ∀ channel state, client.subscriptions.lookup channel = some state →
      Configured node channel state) :
    slot.settled node hash (slot.entry world (client.unsubscribing channel).1)
        ((client.unsubscribing channel).2.map .access) =
      if slot.channel = channel ∧ client.isSubscribed slot.channel then
        (slot.entry world client).drop (slot.keeps node)
      else slot.entry world client := by
  unfold Client.unsubscribing
  split
  next free =>
    rw [if_neg]
    · rfl
    · rintro ⟨rfl, held⟩
      rw [Client.isSubscribed, free] at held
      cases held
  next state found =>
    rw [settled_unsubscribing id (configured channel state found)]
    by_cases same : slot.channel = channel
    · subst same
      have held : client.isSubscribed slot.channel = true := by
        rw [Client.isSubscribed, found]
        rfl
      rw [if_pos rfl, if_pos ⟨rfl, held⟩]
      simp [entry, Entry.drop, Client.isSubscribed]
    · rw [if_neg same, if_neg fun both => same both.1]
      simp [entry, Client.isSubscribed, AList.lookup_erase_ne same]

end Slot

/-- What an operation does now, with what follows from it, is what it settles. Only a broadcast
of the session itself may drop its connection in between. -/
theorem Op.Ran.settled {node : Node} {op : Op} {rest more : List Op} {r r' : Reader}
    {s s' : Shared} {slot : Slot} (ran : Ran node r s op r' s' more) (id : r.client.id = slot.id)
    (stage : Stage r.client (op :: rest))
    (configured : ∀ channel state, r.client.subscriptions.lookup channel = some state →
      Configured node channel state)
    (other : ∀ readings cmd creds, op ≠ .register readings cmd creds) :
    let after := slot.settled node s.world.hub.hash (slot.entry s'.world r'.client) more
    let due := op.settle slot node s.world.hub.hash (slot.entry s.world r.client)
    after = due ∨ after.Below due ∧ slot.table = .subscribers ∧
      ∃ tx, op = .access (.removeConn slot.id (some tx)) := by
  have unread : op.access? = none → slot.has s'.world = slot.has s.world := fun other =>
    Slot.has_quiet (.of_reads (ran.reads other).1 (ran.reads other).2.2)
  cases ran with
  | @accessed a _ accesses ran =>
      obtain ⟨rfl, rfl⟩ := Access.exec_eq ran
      by_cases removal : slot.table = .subscribers ∧ ∃ slow, a = .removeConn slot.id slow
      · obtain ⟨table, slow, rfl⟩ := removal
        simp only [Slot.settled_removal table]
        cases slow with
        | none =>
            left
            obtain ⟨place, mine, name⟩ := slot
            cases table
            simp [settle, Entry.write, Slot.settles, Slot.entry]
        | some tx =>
            refine .inr ⟨⟨rfl, ?_⟩, table, tx, rfl⟩
            intro entered
            cases entered
      · left
        rw [Slot.settled_more fun table slow same => removal ⟨table, slow, same⟩]
        have same : slot.settles s.world.hub.hash a = slot.writes s.world.hub.hash a := by
          unfold Slot.settles
          split
          next table =>
            rw [if_neg fun same => removal ⟨table, none, by rw [same]⟩]
            unfold Slot.writes
            rw [table]
          next => rfl
        simp only [settle, Entry.write, Slot.entry, Slot.has_perform, same]
  | overLimit readings cmd creds _ => exact absurd rfl (other readings cmd creds)
  | registering readings cmd creds _ _ => exact absurd rfl (other readings cmd creds)
  | connected _ _ _ _ _ => exact .inl (by simp [settle])
  | joining readings cmd creds subs i channel channels =>
      left
      simp only [Slot.settled_append, Slot.settled_subscribing id rfl, Slot.settled_cons,
        Slot.settled_nil, settle, List.mem_cons]
      by_cases same : slot.channel = channel
      · simp only [same, if_true, true_or, Entry.hold, Entry.take, Slot.entry]
        split
        next => simp
        next => rfl
      · simp only [same, if_false, false_or]
  | reported readings cmd creds subs i channel channels after read =>
      left
      have has := unread rfl
      subst read
      have subscriptions := congrArg Client.subscriptions
        (@Session.report_client node (r.session s) (readings.engine i) (readings.epoch i) channel)
      have now := @Slot.entry_insert slot _ _ r.client
        (r.resume s ((r.session s).report node (readings.engine i) (readings.epoch i)
          channel).1).1.client _ _ has subscriptions
      simp only [Slot.settled_cons, Slot.settled_nil, settle, now]
  | subscribed readings cmd req opts grant after finished =>
      left
      have has := unread rfl
      subst finished
      have subscriptions := congrArg Client.subscriptions
        (@Session.finishSubscribe_client node (r.session s) readings cmd req opts grant)
      simp only [Slot.settled_nil, settle, Reader.answer_client]
      exact Slot.entry_insert has subscriptions
  | answered _ => exact .inl rfl
  | absent channel free =>
      left
      simp only [Slot.settled_nil, settle]
      rw [if_neg]
      rintro ⟨rfl, held⟩
      simp only [Slot.entry] at held
      rw [free] at held
      cases held
  | unsubscribed channel held push pushed =>
      left
      have aside : ∀ a ∈ push, slot.settles s.world.hub.hash a = none := by
        intro a mem
        obtain rfl | ⟨tx, rfl⟩ := pushed
        · cases mem
        · rw [List.mem_singleton.mp mem]
          unfold Slot.settles Slot.writes
          cases slot.table <;> rfl
      rw [List.map_append, Slot.settled_append, Slot.settled_aside aside,
        Slot.settled_unsubscribe id configured]
      rfl

/-! ## Events -/

namespace Slot

variable {slot : Slot} {node : Node} {hash : String → Fin 16} {world : World} {client : Client}
  {lost : Prop}

/-- What neither begins nor ends a subscription. -/
theorem settles_of_silent {a : Access} (silent : a.owner = none) (still : a.sweeps? = none) :
    slot.settles hash a = none := by
  obtain ⟨table, id, channel⟩ := slot
  cases a with
  | removeConn other slow =>
      cases slow with
      | none => cases silent
      | some tx => cases table <;> rfl
  | sweep other shard => cases still
  | _ => first | cases silent; done | cases table <;> rfl

theorem settles_of_registers {a : Access} (registers : a.registers) :
    slot.settles hash a = none := by
  obtain ⟨table, id, channel⟩ := slot
  cases a with
  | insertConn _ => cases table <;> rfl
  | indexUser _ _ => cases table <;> rfl
  | _ => cases registers

/-- Presence is refreshed for what the session holds. -/
theorem fits_refreshing (id : client.id = slot.id)
    (configured : ∀ channel state, client.subscriptions.lookup channel = some state →
      Configured node channel state)
    (sure : slot.table = .presence → ¬ lost)
    (fits : (slot.entry world client).Fits (slot.keeps node) lost) :
    (slot.settled node hash (slot.entry world client)
      (client.refreshing.map .access)).Fits (slot.keeps node) lost := by
  have refreshed : ∀ a ∈ client.refreshing, slot.settles hash a = none ∨
      slot.settles hash a = some true ∧ slot.table = .presence ∧ slot.keeps node ∧
        client.isSubscribed slot.channel := by
    intro a mem
    unfold Client.refreshing at mem
    split at mem
    next =>
      obtain ⟨⟨channel, state⟩, kept, rfl⟩ := List.mem_map.mp mem
      obtain ⟨inside, presence⟩ := List.mem_filter.mp kept
      have found : client.subscriptions.lookup channel = some state :=
        AList.mem_lookup_iff.mpr inside
      obtain ⟨table, mine, name⟩ := slot
      cases table with
      | subscribers => exact .inl rfl
      | presence =>
          by_cases same : mine = client.id ∧ name = channel
          · refine .inr ⟨if_pos same, rfl, ?_, ?_⟩
            · rw [keeps, same.2, ← configured channel state found]
              exact presence
            · rw [Client.isSubscribed, same.2, found]
              rfl
          · exact .inl (if_neg same)
    next => cases mem
  have writing : ∀ a ∈ client.refreshing, slot.settles hash a ≠ some false := by
    intro a mem
    obtain aside | ⟨written, _⟩ := refreshed a mem
    · simp [aside]
    · simp [written]
  rw [settled_writing writing]
  cases entered : (slot.entry world client).entered with
  | true =>
      rw [Bool.true_or, ← entered]
      exact fits
  | false =>
      have silent : (client.refreshing.any fun a => slot.settles hash a = some true) = false := by
        rw [List.any_eq_false]
        intro a mem written
        obtain aside | ⟨_, table, kept, held⟩ := refreshed a mem
        · simp [aside] at written
        · obtain there | gone := fits.complete kept held
          · rw [entered] at there
            cases there
          · exact sure table gone
      rw [silent, Bool.or_false, ← entered]
      exact fits

/-- A session that leaves clears all its entries. -/
theorem fits_disconnecting (id : client.id = slot.id)
    (configured : ∀ channel state, client.subscriptions.lookup channel = some state →
      Configured node channel state)
    (fits : (slot.entry world client).Fits (slot.keeps node) lost) :
    (slot.settled node hash (slot.entry world client.disconnecting.1)
      (client.disconnecting.2.map .access)).Fits (slot.keeps node) lost := by
  have erasing : ∀ a ∈ client.disconnecting.2, slot.settles hash a ≠ some true := by
    intro a mem
    obtain leaving | removal := List.mem_append.mp mem
    · obtain ⟨pair, _, inside⟩ := List.mem_flatMap.mp leaving
      obtain aside | ⟨erased, _⟩ :=
        @settles_leaving slot hash client pair.1 pair.2 id a inside
      · simp [aside]
      · simp [erased]
    · rw [List.mem_singleton.mp removal]
      unfold settles writes
      cases slot.table
      · simp only
        split <;> simp
      · simp
  rw [settled_erasing erasing]
  refine ⟨?_, ?_⟩
  · intro entered
    obtain ⟨before, all⟩ := Bool.and_eq_true_iff.mp entered
    obtain ⟨kept, held⟩ := fits.sound before
    obtain ⟨state, found⟩ := Option.isSome_iff_exists.mp held
    have all := List.all_eq_true.mp all
    obtain ⟨table, mine, name⟩ := slot
    subst id
    cases table with
    | subscribers =>
        have removal := all (.removeConn client.id none) (List.mem_append_right _ (by simp))
        simp [settles] at removal
    | presence =>
        have presence : state.presence = true := (configured name state found).trans kept
        have leaving : .removePresence name client.id ∈ client.disconnecting.2 := by
          refine List.mem_append_left _ (List.mem_flatMap.mpr ⟨⟨name, state⟩, ?_, ?_⟩)
          · exact AList.mem_lookup_iff.mp found
          · simp [Client.leaving, presence]
        have erased := all _ leaving
        simp [settles, writes] at erased
  · intro _ held
    cases held

theorem fits_serverUnsubscribes {entry : Entry} {channels : List String}
    (fits : entry.Fits (slot.keeps node) lost) :
    (slot.settled node hash entry (channels.map .serverUnsubscribe)).Fits (slot.keeps node)
      lost := by
  induction channels generalizing entry with
  | nil => exact fits
  | cons channel channels ih =>
      refine ih ?_
      simp only [Op.settle]
      split
      next => exact fits.drop
      next => exact fits

end Slot

/-- An event of an authenticated session. -/
theorem Reader.Begun.fits {node : Node} {r r' : Reader} {s s' : Shared} {event : Event}
    {ops : List Op} {slot : Slot} {lost : Prop} (h : Begun node r s event r' s' ops)
    (authenticated : r.client.authenticated) (id : r.client.id = slot.id)
    (configured : ∀ channel state, r.client.subscriptions.lookup channel = some state →
      Configured node channel state)
    (sure : slot.table = .presence → ¬ lost)
    (fits : (slot.entry s.world r.client).Fits (slot.keeps node) lost) :
    (slot.settled node s.world.hub.hash (slot.entry s'.world r'.client) ops).Fits
      (slot.keeps node) lost := by
  have has : slot.has s'.world = slot.has s.world := Slot.has_quiet h.quiet
  cases h with
  | settled _ _ connInfo expireAt client =>
      simp only [Slot.settled_nil, Slot.entry, client]
      exact fits
  | closing _ _ _ _ =>
      simp only [Slot.settled_cons, Slot.settled_nil, Op.settle]
      rw [Slot.settles_of_silent rfl rfl]
      exact fits
  | pinged _ => exact Slot.fits_refreshing id configured sure fits
  | dropping _ channels _ => exact Slot.fits_serverUnsubscribes fits
  | command readings cmd cmds replies _ commanded =>
      cases commanded with
      | refused _ => exact fits
      | identified _ fresh =>
          rw [show r.client.authenticated = false from fresh] at authenticated
          cases authenticated
      | connecting req creds parsed _ =>
          rw [show r.client.authenticated = false from (Session.parseConnect_ok parsed).1]
            at authenticated
          cases authenticated
      | subscribing req opts grant _ checked =>
          have granted := Configured.granted checked
          rw [Slot.settled_append, Slot.settled_subscribing id granted]
          simp only [Slot.settled_cons, Slot.settled_nil, Op.settle]
          split
          next => exact fits.take
          next => exact fits
      | publishing channel data _ _ =>
          simp only [Slot.settled_cons, Slot.settled_nil, Op.settle]
          rw [Slot.settles_of_silent rfl rfl]
          exact fits
      | unsubscribing channel _ =>
          rw [Slot.settled_append]
          simp only [Slot.settled_cons, Slot.settled_nil, Op.settle]
          rw [Slot.settled_unsubscribe id configured]
          split
          next => exact fits.drop
          next => exact fits
      | instant after _ method effect =>
          have same := (effect.client_of_instant method).2 slot.channel
          simp only [Slot.settled_nil, Slot.entry, Reader.answer_client, Reader.resume_client, same]
          rw [has]
          exact fits
  | replied _ _ _ _ =>
      simp only [Slot.settled_nil, Slot.entry, has]
      exact fits
  | flushed disconnect _ _ =>
      have joins : slot.settled node s.world.hub.hash (slot.entry s.world r.client.flushing.1)
          (r.client.flushing.2.map .access) = slot.entry s.world r.client := by
        refine Slot.settled_aside fun a mem => ?_
        obtain ⟨join, _, rfl⟩ := List.mem_map.mp mem
        exact Slot.settles_of_silent rfl rfl
      rw [Slot.settled_append, joins]
      cases disconnect with
      | none => exact fits
      | some d =>
          simp only [Option.map_some, Option.toList_some, Slot.settled_cons, Slot.settled_nil,
            Op.settle]
          rw [Slot.settles_of_silent rfl rfl]
          exact fits
  | left _ => exact Slot.fits_disconnecting id configured fits

end Centrifugo
