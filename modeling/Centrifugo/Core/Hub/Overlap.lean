import Centrifugo.Core.Hub.Locks
import Centrifugo.Data.Run
import Centrifugo.Data.Task
import Mathlib.Data.Set.Card

/-!
# Calls that overlap

Any number of calls on the hub are under way at once, and each goes on by one critical
section at a time. The shards are in order at any moment. When no call is under way, the
users index is the inverse of the connection table exactly if no removal came to the index
before the registration of its id had made the entry there.
-/

namespace Centrifugo

namespace Hub

/-! ## Calls -/

inductive Call
  | add (handle : ClientHandle)
  | remove (id : ClientId)
  | subscribe (id : ClientId) (channel : String)
  | unsubscribe (id : ClientId) (channel : String)
  deriving DecidableEq

/-- A critical section of a call. -/
inductive Section
  | insert (handle : ClientHandle)
  | index (user : String) (id : ClientId)
  | detach (id : ClientId)
  | unindex (user : String) (id : ClientId)
  | sweep (id : ClientId) (i : Fin 16)
  | subscribe (id : ClientId) (channel : String)
  | unsubscribe (id : ClientId) (channel : String)
  deriving DecidableEq

namespace Section

/-- The id that a section is about. -/
def id : Section → ClientId
  | insert handle => handle.id
  | index _ id | detach id | unindex _ id | sweep id _ | subscribe id _ | unsubscribe id _ => id

/-- One shard after the other. -/
def sweepAll (id : ClientId) : List Section := (List.finRange 16).map (sweep id)

/-- A section, with the sections of its call that follow. A removal takes an id out of the
index only if it found the connection. -/
def exec : Exec Hub Section
  | insert handle, hub => some (hub.insertConn handle, [index handle.user handle.id])
  | index user id, hub => some (hub.indexUser user id, [])
  | detach id, hub =>
      match hub.conns.lookup id with
      | some handle => some (hub.removeConn id, unindex handle.user id :: sweepAll id)
      | none => some (hub.removeConn id, sweepAll id)
  | unindex user id, hub => some (hub.unindexUser user id, [])
  | sweep id i, hub => some (hub.sweep id i, [])
  | subscribe id channel, hub => some (hub.subscribe id channel, [])
  | unsubscribe id channel, hub => some (hub.unsubscribe id channel, [])

/-- The id gets an entry by the section, or by one that follows it. -/
def brings (id : ClientId) : Section → Bool
  | insert handle => handle.id = id
  | subscribe other _ => other = id
  | _ => false

end Section

namespace Call

/-- The first section of a call. -/
def start : Call → Section
  | add handle => .insert handle
  | remove id => .detach id
  | subscribe id channel => .subscribe id channel
  | unsubscribe id channel => .unsubscribe id channel

/-- The call with nobody in between. -/
def run (hub : Hub) : Call → Hub
  | add handle => hub.add handle
  | remove id => (hub.remove id).1
  | subscribe id channel => hub.subscribe id channel
  | unsubscribe id channel => hub.unsubscribe id channel

/-- The id that a call registers. -/
def registers : Call → List ClientId
  | add handle => [handle.id]
  | _ => []

end Call

/-! ## Interleavings -/

/-- The hub with the calls under way. -/
structure Traffic where
  hub : Hub
  /-- What every call has still to do, in the order of the calls. -/
  tasks : List (List Section)
  /-- The ids that were registered so far. -/
  added : List ClientId

inductive Event
  | call (call : Call)
  /-- A call goes on by one section. -/
  | turn (i : Nat)
  deriving DecidableEq

namespace Traffic

def start (hash : String → Fin 16) : Traffic := ⟨Hub.new hash, [], []⟩

/-- The sections ahead, of all calls. -/
def pending (s : Traffic) : List Section := s.tasks.flatten

/-- No call is under way. -/
def Quiet (s : Traffic) : Prop := ∀ task ∈ s.tasks, task = []

/-- No id is registered twice. -/
def step (s : Traffic) : Event → Option Traffic
  | .call call =>
      if ∀ id ∈ call.registers, id ∉ s.added then
        some ⟨s.hub, s.tasks ++ [[call.start]], call.registers ++ s.added⟩
      else none
  | .turn i =>
      match s.tasks[i]? with
      | some (op :: rest) =>
          (op.exec s.hub).map fun done => ⟨done.1, s.tasks.set i (done.2 ++ rest), s.added⟩
      | _ => none

def Moves (s : Traffic) (event : Event) (s' : Traffic) : Prop := s.step event = some s'

/-- A removal does not come to the users index before the entry is made. -/
def Orderly (s : Traffic) : Event → Prop
  | .call _ => True
  | .turn i => ∀ user id rest, s.tasks[i]? = some (.unindex user id :: rest) →
      .index user id ∉ s.pending

end Traffic

/-! ## The users index -/

/-- The user that an id is registered with. -/
def userOf (hub : Hub) (id : ClientId) : Option String := (hub.conns.lookup id).map (·.user)

section UserOf

variable {hub : Hub} {handle : ClientHandle} {id other : ClientId} {user channel : String}
  {i : Fin 16}

theorem userOf_insertConn : (hub.insertConn handle).userOf other =
    if other = handle.id then some handle.user else hub.userOf other := by
  rw [userOf, conns_insertConn, Map.lookup_insert_eq]
  split
  next => rfl
  next => rfl

theorem userOf_removeConn : (hub.removeConn id).userOf other =
    if other = id then none else hub.userOf other := by
  rw [userOf, conns_removeConn, Map.lookup_erase_eq]
  split
  next => rfl
  next => rfl

@[simp] theorem userOf_indexUser : (hub.indexUser user id).userOf other = hub.userOf other := rfl

@[simp] theorem userOf_unindexUser :
    (hub.unindexUser user id).userOf other = hub.userOf other := rfl

@[simp] theorem userOf_sweep : (hub.sweep id i).userOf other = hub.userOf other := rfl

@[simp] theorem userOf_subscribe : (hub.subscribe id channel).userOf other = hub.userOf other :=
  rfl

@[simp] theorem userOf_unsubscribe :
    (hub.unsubscribe id channel).userOf other = hub.userOf other := rfl

end UserOf

namespace Section

variable {op : Section} {hub hub' : Hub} {more : List Section} {id : ClientId}

/-- The id of a section that is due while the id is not in the connection table. -/
def absent : Section → Option ClientId
  | insert handle => some handle.id
  | unindex _ id => some id
  | _ => none

theorem mem_sweepAll : op ∈ sweepAll id ↔ ∃ i, op = sweep id i := by
  simp [sweepAll, eq_comm]

@[simp] theorem filterMap_absent_sweepAll : (sweepAll id).filterMap absent = [] := by
  rw [List.filterMap_eq_nil_iff]
  intro op mem
  obtain ⟨i, rfl⟩ := mem_sweepAll.mp mem
  rfl

/-- What a removal has to do depends on whether it found the connection. -/
theorem exec_detach (move : (detach id).exec hub = some (hub', more)) :
    hub' = hub.removeConn id ∧
      ((hub.userOf id = none ∧ more = sweepAll id) ∨
        ∃ user, hub.userOf id = some user ∧ more = unindex user id :: sweepAll id) := by
  simp only [exec] at move
  split at move
  next handle found =>
    cases move
    exact ⟨rfl, .inr ⟨handle.user, by rw [userOf, found, Option.map_some], rfl⟩⟩
  next missing =>
    cases move
    exact ⟨rfl, .inl ⟨by rw [userOf, missing, Option.map_none], rfl⟩⟩

end Section

/-- The users index and the connection table agree up to the sections ahead. -/
structure Sound (hub : Hub) (added : List ClientId) (pending : List Section) : Prop where
  known : ∀ {id : ClientId} {user : String}, hub.userOf id = some user → id ∈ added
  /-- An id that is about to enter the table, or has just left it. -/
  absent : ∀ {id : ClientId}, id ∈ pending.filterMap Section.absent →
    id ∈ added ∧ hub.userOf id = none
  single : (pending.filterMap Section.absent).Nodup
  half : ∀ {user : String} {id : ClientId}, .index user id ∈ pending →
    hub.userOf id = some user ∨ .unindex user id ∈ pending
  listed : ∀ {user : String} {id : ClientId}, id ∈ hub.userIds user →
    hub.userOf id = some user ∨ .unindex user id ∈ pending
  indexed : ∀ {user : String} {id : ClientId}, hub.userOf id = some user →
    id ∈ hub.userIds user ∨ .index user id ∈ pending

namespace Sound

variable {hub hub' : Hub} {added : List ClientId} {pending others more : List Section}
  {op : Section} {handle : ClientHandle} {id : ClientId} {user : String}

theorem perm (h : Sound hub added pending) (p : pending.Perm others) :
    Sound hub added others where
  known := h.known
  absent mem := h.absent ((p.filterMap _).mem_iff.mpr mem)
  single := (p.filterMap _).nodup_iff.mp h.single
  half mem := (h.half (p.mem_iff.mpr mem)).imp id p.mem_iff.mp
  listed mem := (h.listed mem).imp id p.mem_iff.mp
  indexed found := (h.indexed found).imp id p.mem_iff.mp

/-- Sections that touch neither the table nor the index. -/
theorem silent (h : Sound hub added (op :: others)) (table : ∀ id, hub'.userOf id = hub.userOf id)
    (index : ∀ user, hub'.userIds user = hub.userIds user)
    (still : op.absent = none ∧ ∀ user id, .index user id ≠ op) : Sound hub' added others := by
  have same : (op :: others).filterMap Section.absent = others.filterMap Section.absent :=
    List.filterMap_cons_none still.1
  have unindex : ∀ {user id}, Section.unindex user id ≠ op := by
    rintro user id rfl
    cases still.1
  constructor
  case known =>
    intro id user held
    exact h.known (table id ▸ held)
  case absent =>
    intro id mem
    rw [table]
    exact h.absent (same ▸ mem)
  case single => exact same ▸ h.single
  case half =>
    intro user id mem
    rw [table]
    exact (h.half (List.mem_cons_of_mem _ mem)).imp_right (List.mem_of_ne_of_mem unindex)
  case listed =>
    intro user id mem
    rw [index] at mem
    rw [table]
    exact (h.listed mem).imp_right (List.mem_of_ne_of_mem unindex)
  case indexed =>
    intro user id held
    rw [table] at held
    rw [index]
    exact (h.indexed held).imp_right (List.mem_of_ne_of_mem (still.2 user id))

theorem insert (h : Sound hub added (.insert handle :: others)) :
    Sound (hub.insertConn handle) added (.index handle.user handle.id :: others) := by
  obtain ⟨mine, away⟩ : handle.id ∈ added ∧ hub.userOf handle.id = none :=
    h.absent List.mem_cons_self
  obtain ⟨alone, single⟩ := List.nodup_cons.mp h.single
  constructor
  case known =>
    intro id user held
    rw [userOf_insertConn] at held
    split at held
    next same => exact same ▸ mine
    next => exact h.known held
  case absent =>
    intro id mem
    have other : id ≠ handle.id := fun same => alone (same ▸ mem)
    rw [userOf_insertConn, if_neg other]
    exact h.absent (List.mem_cons_of_mem _ mem)
  case single => exact single
  case half =>
    intro user id mem
    rw [userOf_insertConn]
    have := @h.half user id
    grind
  case listed =>
    intro user id mem
    rw [userOf_insertConn]
    have := h.listed mem
    grind
  case indexed =>
    intro user id held
    rw [userOf_insertConn] at held
    rw [userIds_insertConn]
    have := @h.indexed user id
    grind

theorem index (h : Sound hub added (.index user id :: others)) :
    Sound (hub.indexUser user id) added others := by
  constructor
  case known => exact h.known
  case absent => exact h.absent
  case single => exact h.single
  case half =>
    intro name other mem
    simpa using h.half (List.mem_cons_of_mem _ mem)
  case listed =>
    intro name other mem
    obtain ⟨rfl, rfl⟩ | mem := mem_indexUser.mp mem
    · simpa using h.half List.mem_cons_self
    · simpa using h.listed mem
  case indexed =>
    intro name other held
    rw [mem_indexUser]
    obtain listed | due := h.indexed held
    · exact .inl (.inr listed)
    · obtain same | due := List.mem_cons.mp due
      · cases same
        exact .inl (.inl ⟨rfl, rfl⟩)
      · exact .inr due

theorem detach (h : Sound hub added (.detach id :: others)) (found : hub.userOf id = some user) :
    Sound (hub.removeConn id) added (.unindex user id :: others) := by
  have here : id ∉ others.filterMap Section.absent := by
    intro mem
    have away := (h.absent mem).2
    rw [found] at away
    cases away
  constructor
  case known =>
    intro other name held
    rw [userOf_removeConn] at held
    split at held
    next => cases held
    next => exact h.known held
  case absent =>
    intro other mem
    rw [userOf_removeConn]
    obtain rfl | mem := List.mem_cons.mp mem
    · exact ⟨h.known found, if_pos rfl⟩
    · obtain ⟨old, away⟩ := h.absent mem
      refine ⟨old, ?_⟩
      split
      next => rfl
      next => exact away
  case single => exact List.nodup_cons.mpr ⟨here, h.single⟩
  case half =>
    intro name other mem
    rw [userOf_removeConn]
    have := @h.half name other
    grind
  case listed =>
    intro name other mem
    rw [userOf_removeConn]
    have := h.listed mem
    grind
  case indexed =>
    intro name other held
    rw [userOf_removeConn] at held
    rw [userIds_removeConn]
    have := @h.indexed name other
    grind

theorem unindex (h : Sound hub added (.unindex user id :: others))
    (made : .index user id ∉ others) : Sound (hub.unindexUser user id) added others := by
  obtain ⟨mine, away⟩ : id ∈ added ∧ hub.userOf id = none := h.absent List.mem_cons_self
  obtain ⟨alone, single⟩ := List.nodup_cons.mp h.single
  constructor
  case known => exact h.known
  case absent => exact fun mem => h.absent (List.mem_cons_of_mem _ mem)
  case single => exact single
  case half =>
    intro name other mem
    have := @h.half name other
    grind [userOf_unindexUser]
  case listed =>
    intro name other mem
    obtain ⟨apart, mem⟩ := mem_unindexUser.mp mem
    have := h.listed mem
    grind [userOf_unindexUser]
  case indexed =>
    intro name other held
    have := @h.indexed name other
    grind [userOf_unindexUser, mem_unindexUser]

/-- One more section that touches neither. -/
theorem ahead (h : Sound hub added others) (none : op.absent = none)
    (still : ∀ user id, .index user id ≠ op) : Sound hub added (op :: others) := by
  have same : (op :: others).filterMap Section.absent = others.filterMap Section.absent :=
    List.filterMap_cons_none none
  constructor
  case known => exact h.known
  case absent => exact fun mem => h.absent (same ▸ mem)
  case single => exact same ▸ h.single
  case half =>
    intro user id mem
    exact (h.half (List.mem_of_ne_of_mem (still user id) mem)).imp_right (List.mem_cons_of_mem _)
  case listed =>
    intro user id mem
    exact (h.listed mem).imp_right (List.mem_cons_of_mem _)
  case indexed =>
    intro user id held
    exact (h.indexed held).imp_right (List.mem_cons_of_mem _)

theorem sweeps (h : Sound hub added others) (id : ClientId) (shards : List (Fin 16)) :
    Sound hub added (shards.map (Section.sweep id) ++ others) := by
  induction shards with
  | nil => exact h
  | cons i shards ih => exact ih.ahead rfl nofun

theorem exec (h : Sound hub added (op :: others)) (move : op.exec hub = some (hub', more))
    (orderly : ∀ user id, op = .unindex user id → .index user id ∉ others) :
    Sound hub' added (more ++ others) := by
  cases op with
  | insert handle =>
      cases move
      exact h.insert
  | index user id =>
      cases move
      exact h.index
  | detach id =>
      obtain ⟨rfl, ⟨missing, rfl⟩ | ⟨user, found, rfl⟩⟩ := Section.exec_detach move
      · have same : ∀ other, (hub.removeConn id).userOf other = hub.userOf other := by
          intro other
          rw [userOf_removeConn]
          split
          next here => rw [here, missing]
          next => rfl
        exact (h.silent same (fun _ => rfl) ⟨rfl, nofun⟩).sweeps id _
      · exact ((h.detach found).sweeps id _).perm List.perm_middle
  | unindex user id =>
      cases move
      exact h.unindex (orderly user id rfl)
  | sweep id i =>
      cases move
      exact h.silent (fun _ => userOf_sweep) (fun _ => userIds_sweep i) ⟨rfl, nofun⟩
  | subscribe id channel =>
      cases move
      exact h.silent (fun _ => userOf_subscribe) (fun _ => userIds_subscribe) ⟨rfl, nofun⟩
  | unsubscribe id channel =>
      cases move
      exact h.silent (fun _ => userOf_unsubscribe) (fun _ => userIds_unsubscribe) ⟨rfl, nofun⟩

theorem call (h : Sound hub added pending) (call : Call)
    (fresh : ∀ id ∈ call.registers, id ∉ added) :
    Sound hub (call.registers ++ added) (call.start :: pending) := by
  cases call with
  | add handle =>
      have new : handle.id ∉ added := fresh _ List.mem_cons_self
      have away : hub.userOf handle.id = none := by
        rw [Option.eq_none_iff_forall_ne_some]
        intro user held
        exact new (h.known held)
      constructor
      case known => exact fun held => List.mem_cons_of_mem _ (h.known held)
      case absent =>
        intro id mem
        obtain rfl | mem := List.mem_cons.mp mem
        · exact ⟨List.mem_cons_self, away⟩
        · exact (h.absent mem).imp_left (List.mem_cons_of_mem _)
      case single => exact List.nodup_cons.mpr ⟨fun mem => new (h.absent mem).1, h.single⟩
      case half =>
        intro user id mem
        simp only [Call.start, List.mem_cons, reduceCtorEq, false_or] at mem ⊢
        exact h.half mem
      case listed =>
        intro user id mem
        simpa [Call.start] using h.listed mem
      case indexed =>
        intro user id held
        simpa [Call.start] using h.indexed held
  | remove id => exact h.ahead rfl nofun
  | subscribe id channel => exact h.ahead rfl nofun
  | unsubscribe id channel => exact h.ahead rfl nofun

end Sound

/-- An id that is not registered has an entry in the index, or is about to get one, and
nothing will take it away. -/
structure Stale (hub : Hub) (added : List ClientId) (pending : List Section) (user : String)
    (id : ClientId) : Prop where
  known : id ∈ added
  away : hub.userOf id = none
  alone : id ∉ pending.filterMap Section.absent
  entry : id ∈ hub.userIds user ∨ .index user id ∈ pending

namespace Stale

variable {hub hub' : Hub} {added : List ClientId} {pending others more : List Section}
  {op : Section} {id : ClientId} {user : String}

theorem perm (h : Stale hub added pending user id) (p : pending.Perm others) :
    Stale hub added others user id where
  known := h.known
  away := h.away
  alone mem := h.alone ((p.filterMap _).mem_iff.mpr mem)
  entry := h.entry.imp_right p.mem_iff.mp

/-- A removal that overtakes the registration. -/
theorem of_sound (h : Sound hub added (.unindex user id :: others))
    (due : .index user id ∈ others) : Stale (hub.unindexUser user id) added others user id where
  known := (h.absent List.mem_cons_self).1
  away := (h.absent List.mem_cons_self).2
  alone := (List.nodup_cons.mp h.single).1
  entry := .inr due

theorem exec (h : Stale hub added (op :: others) user id)
    (move : op.exec hub = some (hub', more)) : Stale hub' added (more ++ others) user id := by
  obtain ⟨known, away, alone, entry⟩ := h
  rw [List.mem_cons] at entry
  cases op with
  | insert handle =>
      cases move
      simp only [reduceCtorEq, false_or] at entry
      obtain ⟨different, alone⟩ := not_or.mp (mt List.mem_cons.mpr alone)
      refine ⟨known, ?_, alone, entry.imp_right (List.mem_cons_of_mem _)⟩
      rw [userOf_insertConn, if_neg different, away]
  | index name other =>
      cases move
      refine ⟨known, away, alone, ?_⟩
      rw [mem_indexUser]
      obtain listed | same | due := entry
      · exact .inl (.inr listed)
      · cases same
        exact .inl (.inl ⟨rfl, rfl⟩)
      · exact .inr due
  | detach other =>
      simp only [reduceCtorEq, false_or] at entry
      have gone : (hub.removeConn other).userOf id = none := by
        rw [userOf_removeConn, away, ite_self]
      obtain ⟨rfl, ⟨-, rfl⟩ | ⟨name, found, rfl⟩⟩ := Section.exec_detach move
      · refine ⟨known, gone, ?_, entry.imp_right (List.mem_append_right _)⟩
        simpa [Section.absent] using alone
      · have different : id ≠ other := by
          rintro rfl
          rw [found] at away
          cases away
        refine ⟨known, gone, ?_, entry.imp_right ?_⟩
        · simpa [Section.absent, different] using alone
        · exact fun due => List.mem_cons_of_mem _ (List.mem_append_right _ due)
  | unindex name other =>
      cases move
      simp only [reduceCtorEq, false_or] at entry
      obtain ⟨different, alone⟩ := not_or.mp (mt List.mem_cons.mpr alone)
      refine ⟨known, away, alone, ?_⟩
      rw [mem_unindexUser]
      exact entry.imp_left fun listed => ⟨fun same => different same.1, listed⟩
  | sweep other i =>
      cases move
      simp only [reduceCtorEq, false_or] at entry
      exact ⟨known, away, alone, entry⟩
  | subscribe other channel =>
      cases move
      simp only [reduceCtorEq, false_or] at entry
      exact ⟨known, away, alone, entry⟩
  | unsubscribe other channel =>
      cases move
      simp only [reduceCtorEq, false_or] at entry
      exact ⟨known, away, alone, entry⟩

theorem call (h : Stale hub added pending user id) (call : Call)
    (fresh : ∀ id ∈ call.registers, id ∉ added) :
    Stale hub (call.registers ++ added) (call.start :: pending) user id where
  known := List.mem_append_right _ h.known
  away := h.away
  alone := by
    cases call with
    | add handle =>
        intro mem
        obtain same | mem := List.mem_cons.mp mem
        · exact fresh _ List.mem_cons_self (same ▸ h.known)
        · exact h.alone mem
    | remove _ => exact h.alone
    | subscribe _ _ => exact h.alone
    | unsubscribe _ _ => exact h.alone
  entry := h.entry.imp_right (List.mem_cons_of_mem _)

end Stale

/-! ## The sets -/

/-- No set of the map is empty. -/
def Filled (m : Map String IdSet) : Prop :=
  ∀ key set, m.lookup key = some set → ∃ id, id ∈ set

theorem exists_mem_withId {id : ClientId} {set : Option IdSet} {left : IdSet}
    (h : withId id set = some left) : ∃ other, other ∈ left := by
  cases h
  exact ⟨id, AList.mem_insert _ |>.mpr (.inl rfl)⟩

theorem exists_mem_withoutId {id : ClientId} {set : Option IdSet} {left : IdSet}
    (h : withoutId id set = some left) : ∃ other, other ∈ left := by
  cases set with
  | none => cases h
  | some set =>
      simp only [withoutId] at h
      split at h
      next => cases h
      next some =>
        cases h
        obtain ⟨entry, mem⟩ := List.exists_mem_of_ne_nil _ (mt List.isEmpty_iff.mpr some)
        exact ⟨entry.1, List.mem_map_of_mem mem⟩

namespace Filled

variable {m : Map String IdSet} {change : Option IdSet → Option IdSet} {key : String}

theorem alter (h : Filled m) (full : ∀ {set left}, change set = some left → ∃ id, id ∈ left) :
    Filled (m.alter key change) := by
  intro other set found
  rw [Map.lookup_alter] at found
  split at found
  next => exact full found
  next => exact h other set found

theorem sweep (m : Map String IdSet) (id : ClientId) :
    Filled (m.filterMap fun set => withoutId id (some set)) := by
  intro key set found
  rw [Map.lookup_filterMap] at found
  obtain ⟨before, -, left⟩ := Option.bind_eq_some_iff.mp found
  exact exists_mem_withoutId left

end Filled

/-- No set is empty, and a channel is in the shard that its hash selects. -/
structure Tidy (hub : Hub) : Prop where
  users : Filled hub.users
  shards : ∀ i, Filled (hub.shards i)
  placed : ∀ i channel set, (hub.shards i).lookup channel = some set → hub.hash channel = i

namespace Tidy

variable {hub hub' : Hub} {op : Section} {more : List Section}

theorem new (hash : String → Fin 16) : Tidy (Hub.new hash) := ⟨nofun, nofun, nofun⟩

theorem updateShard (h : Tidy hub) {change : Option IdSet → Option IdSet}
    (full : ∀ {set left}, change set = some left → ∃ id, id ∈ left) (channel : String) :
    Tidy (hub.updateShard channel change) := by
  refine ⟨h.users, ?_, ?_⟩
  · intro i
    by_cases same : i = hub.hash channel
    · subst same
      simp only [Hub.updateShard, Function.update_self]
      exact (h.shards _).alter full
    · simp only [Hub.updateShard, Function.update_of_ne same]
      exact h.shards i
  · intro i name set found
    by_cases same : i = hub.hash channel
    · subst same
      simp only [Hub.updateShard, Function.update_self, Map.lookup_alter] at found
      split at found
      next here => rw [here]; rfl
      next => exact h.placed _ _ _ found
    · simp only [Hub.updateShard, Function.update_of_ne same] at found
      exact h.placed i name set found

theorem sweep (h : Tidy hub) (id : ClientId) (j : Fin 16) : Tidy (hub.sweep id j) := by
  refine ⟨h.users, ?_, ?_⟩
  · intro i
    by_cases same : i = j
    · subst same
      simp only [Hub.sweep, Function.update_self]
      exact Filled.sweep _ id
    · simp only [Hub.sweep, Function.update_of_ne same]
      exact h.shards i
  · intro i name set found
    by_cases same : i = j
    · subst same
      simp only [Hub.sweep, Function.update_self, Map.lookup_filterMap] at found
      obtain ⟨before, found, -⟩ := Option.bind_eq_some_iff.mp found
      exact h.placed _ _ _ found
    · simp only [Hub.sweep, Function.update_of_ne same] at found
      exact h.placed i name set found

/-- Every section keeps the sets in order, whatever else is under way. -/
theorem exec (h : Tidy hub) (move : op.exec hub = some (hub', more)) : Tidy hub' := by
  cases op with
  | insert handle =>
      cases move
      exact ⟨h.users, h.shards, h.placed⟩
  | index user id =>
      cases move
      exact ⟨h.users.alter exists_mem_withId, h.shards, h.placed⟩
  | detach id =>
      obtain ⟨rfl, -⟩ := Section.exec_detach move
      exact ⟨h.users, h.shards, h.placed⟩
  | unindex user id =>
      cases move
      exact ⟨h.users.alter exists_mem_withoutId, h.shards, h.placed⟩
  | sweep id i =>
      cases move
      exact h.sweep id i
  | subscribe id channel =>
      cases move
      exact h.updateShard exists_mem_withId channel
  | unsubscribe id channel =>
      cases move
      exact h.updateShard exists_mem_withoutId channel

end Tidy

/-! ## What an observer sees -/

/-- The users index is the inverse of the connection table, and the counts are those of
both. -/
structure Inverse (hub : Hub) : Prop where
  mem_userIds : ∀ user id, id ∈ hub.userIds user ↔ hub.userOf id = some user
  filled : ∀ user set, hub.users.lookup user = some set → ∃ id, id ∈ set
  numClients : {id | (hub.conns.lookup id).isSome}.encard = hub.numClients
  numUsers : {user | ∃ id, hub.userOf id = some user}.encard = hub.numUsers

/-- The channels are those with subscribers, each in the one shard where it belongs. -/
structure Sharded (hub : Hub) : Prop where
  placed : ∀ i channel set, (hub.shards i).lookup channel = some set →
    hub.hash channel = i ∧ ∃ id, id ∈ set
  channels_nodup : hub.channels.Nodup
  mem_channels : ∀ channel, channel ∈ hub.channels ↔ ∃ id, id ∈ hub.subscriberIds channel
  numChannels : hub.numChannels = hub.channels.length

/-- The id is in no map of the hub. -/
structure Gone (hub : Hub) (id : ClientId) : Prop where
  conns : hub.conns.lookup id = none
  users : ∀ user, id ∉ hub.userIds user
  shards : ∀ channel, id ∉ hub.subscriberIds channel

/-- Two hubs with the same entries for every other id. -/
structure Apart (id : ClientId) (hub hub' : Hub) : Prop where
  conns : ∀ other, other ≠ id → hub'.conns.lookup other = hub.conns.lookup other
  users : ∀ other, other ≠ id → ∀ user, other ∈ hub'.userIds user ↔ other ∈ hub.userIds user
  shards : ∀ other, other ≠ id → ∀ channel,
    other ∈ hub'.subscriberIds channel ↔ other ∈ hub.subscriberIds channel

theorem encard_keys {κ ν : Type} [DecidableEq κ] (m : Map κ ν) :
    {key | key ∈ m}.encard = m.entries.length := by
  have same : {key | key ∈ m} = (m.keys.toFinset : Set κ) := by
    ext key
    simp [AList.mem_keys]
  rw [same, Set.encard_coe_eq_coe_finsetCard, List.toFinset_card_of_nodup m.keys_nodup]
  simp [AList.keys, List.keys]

section Observer

variable {hub hub' : Hub} {added : List ClientId} {op : Section} {more others : List Section}
  {id : ClientId} {user channel : String}

theorem mem_userIds_iff : id ∈ hub.userIds user ↔
    ∃ set, hub.users.lookup user = some set ∧ id ∈ set := by
  rw [userIds]
  cases hub.users.lookup user with
  | none => simp
  | some set => simp

theorem mem_subscriberIds_iff : id ∈ hub.subscriberIds channel ↔
    ∃ set, (hub.shards (hub.hash channel)).lookup channel = some set ∧ id ∈ set := by
  rw [subscriberIds]
  cases (hub.shards (hub.hash channel)).lookup channel with
  | none => simp
  | some set => simp

theorem userOf_eq_none : hub.userOf id = none ↔ hub.conns.lookup id = none :=
  Option.map_eq_none_iff

theorem Sound.inverse (h : Sound hub added []) (tidy : Tidy hub) : Inverse hub := by
  have iff : ∀ user id, id ∈ hub.userIds user ↔ hub.userOf id = some user := by
    intro user id
    constructor
    · intro mem
      exact (h.listed mem).resolve_right List.not_mem_nil
    · intro held
      exact (h.indexed held).resolve_right List.not_mem_nil
  refine ⟨iff, tidy.users, ?_, ?_⟩
  · rw [numClients, ← encard_keys]
    simp only [AList.lookup_isSome]
  · rw [numUsers, ← encard_keys]
    congr 1
    ext user
    simp only [Set.mem_ofPred_eq, ← iff, mem_userIds_iff]
    constructor
    · intro some
      obtain ⟨id, set, found, -⟩ := some
      exact AList.lookup_isSome.mp (by rw [found]; rfl)
    · intro mem
      obtain ⟨set, found⟩ := Option.isSome_iff_exists.mp (AList.lookup_isSome.mpr mem)
      obtain ⟨id, inside⟩ := tidy.users user set found
      exact ⟨id, set, found, inside⟩

theorem Stale.not_inverse (h : Stale hub added [] user id) : ¬ Inverse hub := by
  intro inverse
  have held := (inverse.mem_userIds user id).mp (h.entry.resolve_right List.not_mem_nil)
  rw [h.away] at held
  cases held

theorem Tidy.sharded (h : Tidy hub) : Sharded hub := by
  have placed : ∀ {i channel}, channel ∈ (hub.shards i).keys → hub.hash channel = i := by
    intro i channel mem
    obtain ⟨set, found⟩ := Option.isSome_iff_exists.mp (AList.lookup_isSome.mpr mem)
    exact h.placed i channel set found
  refine ⟨?_, ?_, ?_, ?_⟩
  · exact fun i channel set found => ⟨h.placed i channel set found, h.shards i channel set found⟩
  · rw [channels, List.nodup_flatMap]
    refine ⟨fun i _ => (hub.shards i).keys_nodup, ?_⟩
    refine (List.nodup_finRange 16).imp ?_
    intro i j different channel here there
    exact different ((placed here).symm.trans (placed there))
  · intro channel
    rw [channels, List.mem_flatMap]
    simp only [mem_subscriberIds_iff]
    constructor
    · intro listed
      obtain ⟨i, -, mem⟩ := listed
      obtain rfl := placed mem
      obtain ⟨set, found⟩ := Option.isSome_iff_exists.mp (AList.lookup_isSome.mpr mem)
      obtain ⟨id, inside⟩ := h.shards _ channel set found
      exact ⟨id, set, found, inside⟩
    · intro some
      obtain ⟨id, set, found, -⟩ := some
      exact ⟨hub.hash channel, List.mem_finRange _, AList.lookup_isSome.mp (by rw [found]; rfl)⟩
  · rw [numChannels, channels, List.length_flatMap]
    simp [AList.keys, List.keys]

end Observer

/-! ## What a removal does -/

section Removal

variable {hub hub' : Hub} {op : Section} {more others : List Section} {id : ClientId}

/-- A section changes the entries of its own id only. -/
theorem Apart.exec (move : op.exec hub = some (hub', more)) : Apart op.id hub hub' := by
  cases op with
  | insert handle =>
      cases move
      exact ⟨fun other apart => AList.lookup_insert_ne apart, fun _ _ _ => .rfl, fun _ _ _ => .rfl⟩
  | index user id =>
      cases move
      refine ⟨fun _ _ => rfl, ?_, fun _ _ _ => .rfl⟩
      intro other apart name
      rw [mem_indexUser]
      simp [show other ≠ id from apart]
  | detach id =>
      obtain ⟨rfl, -⟩ := Section.exec_detach move
      exact ⟨fun other apart => AList.lookup_erase_ne apart, fun _ _ _ => .rfl, fun _ _ _ => .rfl⟩
  | unindex user id =>
      cases move
      refine ⟨fun _ _ => rfl, ?_, fun _ _ _ => .rfl⟩
      intro other apart name
      rw [mem_unindexUser]
      simp [show other ≠ id from apart]
  | sweep id i =>
      cases move
      refine ⟨fun _ _ => rfl, fun _ _ _ => .rfl, ?_⟩
      intro other apart channel
      rw [mem_sweep]
      simp [show other ≠ id from apart]
  | subscribe id channel =>
      cases move
      refine ⟨fun _ _ => rfl, fun _ _ _ => .rfl, ?_⟩
      intro other apart name
      rw [mem_subscribe]
      simp [show other ≠ id from apart]
  | unsubscribe id channel =>
      cases move
      refine ⟨fun _ _ => rfl, fun _ _ _ => .rfl, ?_⟩
      intro other apart name
      rw [mem_unsubscribe]
      simp [show other ≠ id from apart]

/-- A removal of the id is under way, and nothing brings the id back. -/
structure Leaving (id : ClientId) (hub : Hub) (pending : List Section) : Prop where
  brings : ∀ op ∈ pending, op.brings id = false
  conns : hub.userOf id = none ∨ .detach id ∈ pending
  shards : ∀ channel, id ∈ hub.subscriberIds channel →
    .detach id ∈ pending ∨ .sweep id (hub.hash channel) ∈ pending

namespace Leaving

variable {pending : List Section}

theorem perm (h : Leaving id hub pending) (p : pending.Perm others) : Leaving id hub others where
  brings op mem := h.brings op (p.mem_iff.mpr mem)
  conns := h.conns.imp_right p.mem_iff.mp
  shards channel mem := (h.shards channel mem).imp p.mem_iff.mp p.mem_iff.mp

theorem call (h : Leaving id hub pending) (other : op.brings id = false) :
    Leaving id hub (op :: pending) where
  brings := List.forall_mem_cons.mpr ⟨other, h.brings⟩
  conns := h.conns.imp_right (List.mem_cons_of_mem _)
  shards channel mem :=
    (h.shards channel mem).imp (List.mem_cons_of_mem _) (List.mem_cons_of_mem _)

/-- A removal starts where nothing is about to bring the id. -/
theorem begin (still : ∀ op ∈ pending, op.brings id = false) :
    Leaving id hub (.detach id :: pending) where
  brings := List.forall_mem_cons.mpr ⟨rfl, still⟩
  conns := .inr List.mem_cons_self
  shards _ _ := .inl List.mem_cons_self

theorem exec (h : Leaving id hub (op :: others)) (move : op.exec hub = some (hub', more)) :
    Leaving id hub' (more ++ others) := by
  obtain ⟨mine, brings⟩ := List.forall_mem_cons.mp h.brings
  have conns := h.conns
  have shards := h.shards
  simp only [List.mem_cons] at conns shards
  cases op with
  | insert handle =>
      cases move
      have apart : id ≠ handle.id := fun same => by simp [Section.brings, same] at mine
      simp only [reduceCtorEq, false_or] at conns shards
      refine ⟨List.forall_mem_cons.mpr ⟨rfl, brings⟩, ?_, ?_⟩
      · rw [userOf_insertConn, if_neg apart]
        exact conns.imp_right (List.mem_cons_of_mem _)
      · intro channel mem
        exact (shards channel mem).imp (List.mem_cons_of_mem _) (List.mem_cons_of_mem _)
  | index user other =>
      cases move
      simp only [reduceCtorEq, false_or] at conns shards
      exact ⟨brings, conns, shards⟩
  | detach other =>
      have lasting : ∀ op ∈ more, op.brings id = false := by
        obtain ⟨-, ⟨-, rfl⟩ | ⟨user, -, rfl⟩⟩ := Section.exec_detach move
        · simp [Section.sweepAll, Section.brings]
        · simp [Section.sweepAll, Section.brings]
      have swept : ∀ i, .sweep other i ∈ more := by
        intro i
        obtain ⟨-, ⟨-, rfl⟩ | ⟨user, -, rfl⟩⟩ := Section.exec_detach move
        · exact Section.mem_sweepAll.mpr ⟨i, rfl⟩
        · exact List.mem_cons_of_mem _ (Section.mem_sweepAll.mpr ⟨i, rfl⟩)
      obtain ⟨rfl, -⟩ := Section.exec_detach move
      refine ⟨List.forall_mem_append.mpr ⟨lasting, brings⟩, ?_, ?_⟩
      · rw [userOf_removeConn]
        by_cases same : id = other
        · exact .inl (if_pos same)
        · rw [if_neg same]
          refine conns.imp_right fun due => List.mem_append_right _ (due.resolve_left ?_)
          exact fun here => same (Section.detach.inj here)
      · intro channel mem
        by_cases same : id = other
        · subst same
          exact .inr (List.mem_append_left _ (swept _))
        · obtain (here | due) | (here | due) := shards channel mem
          · exact absurd (Section.detach.inj here) same
          · exact .inl (List.mem_append_right _ due)
          · cases here
          · exact .inr (List.mem_append_right _ due)
  | unindex user other =>
      cases move
      simp only [reduceCtorEq, false_or] at conns shards
      exact ⟨brings, conns, shards⟩
  | sweep other i =>
      cases move
      simp only [reduceCtorEq, false_or] at conns shards
      refine ⟨brings, conns, ?_⟩
      intro channel mem
      obtain ⟨left, mem⟩ := mem_sweep.mp mem
      obtain due | here | due := shards channel mem
      · exact .inl due
      · cases here
        exact absurd ⟨rfl, rfl⟩ left
      · exact .inr due
  | subscribe other channel =>
      cases move
      have apart : id ≠ other := fun same => by simp [Section.brings, same] at mine
      simp only [reduceCtorEq, false_or] at conns shards
      refine ⟨brings, conns, ?_⟩
      intro name mem
      obtain same | mem := mem_subscribe.mp mem
      · exact absurd same.1 apart
      · exact shards name mem
  | unsubscribe other channel =>
      cases move
      simp only [reduceCtorEq, false_or] at conns shards
      refine ⟨brings, conns, ?_⟩
      intro name mem
      exact shards name (mem_unsubscribe.mp mem).2

end Leaving

end Removal

/-! ## Runs -/

namespace Traffic

variable {s s' : Traffic} {event : Event} {events : List Event} {hash : String → Fin 16}
  {user : String} {id : ClientId}

/-- A step is the beginning of a call, or one section of a call under way. -/
theorem Moves.cases (move : s.Moves event s') :
    (∃ call, event = .call call ∧ (∀ id ∈ call.registers, id ∉ s.added) ∧ s'.hub = s.hub ∧
      s'.added = call.registers ++ s.added ∧ s'.pending.Perm (call.start :: s.pending)) ∨
    ∃ i op rest more others, event = .turn i ∧ s.tasks[i]? = some (op :: rest) ∧
      op.exec s.hub = some (s'.hub, more) ∧ s'.added = s.added ∧
      s.pending.Perm (op :: others) ∧ s'.pending.Perm (more ++ others) := by
  cases event with
  | call call =>
      simp only [Moves, step] at move
      split at move
      next fresh =>
        cases move
        refine .inl ⟨call, rfl, fresh, rfl, rfl, ?_⟩
        simp only [pending, List.flatten_append, List.flatten_singleton]
        exact List.perm_append_singleton _ _
      next => cases move
  | turn i =>
      simp only [Moves, step] at move
      split at move
      next op rest found =>
        obtain ⟨⟨hub, more⟩, done, rfl⟩ := Option.map_eq_some_iff.mp move
        obtain ⟨others, before, after⟩ := pull_out (fun task => task) found
        refine .inr ⟨i, op, rest, more, rest ++ others, rfl, found, done, rfl, ?_, ?_⟩
        · simpa [pending, List.flatMap_id'] using before
        · simpa [pending, List.flatMap_id'] using after (more ++ rest)
      next => cases move

theorem Moves.tidy (move : s.Moves event s') (h : Tidy s.hub) : Tidy s'.hub := by
  obtain ⟨_, -, -, hub, -, -⟩ | ⟨_, _, _, _, _, -, -, done, -, -, -⟩ := move.cases
  · exact hub ▸ h
  · exact h.exec done

theorem Moves.sound (move : s.Moves event s') (orderly : s.Orderly event)
    (h : Sound s.hub s.added s.pending) : Sound s'.hub s'.added s'.pending := by
  obtain ⟨call, rfl, fresh, hub, added, pending⟩ |
    ⟨i, op, rest, more, others, rfl, found, done, added, before, after⟩ := move.cases
  · rw [hub, added]
    exact (h.call call fresh).perm pending.symm
  · rw [added]
    refine ((h.perm before).exec done ?_).perm after.symm
    rintro user id rfl due
    exact orderly user id rest found (before.mem_iff.mpr (List.mem_cons_of_mem _ due))

theorem Moves.stale (move : s.Moves event s') (h : Stale s.hub s.added s.pending user id) :
    Stale s'.hub s'.added s'.pending user id := by
  obtain ⟨call, -, fresh, hub, added, pending⟩ |
    ⟨_, _, _, more, others, -, -, done, added, before, after⟩ := move.cases
  · rw [hub, added]
    exact (h.call call fresh).perm pending.symm
  · rw [added]
    exact ((h.perm before).exec done).perm after.symm

/-- A removal that overtakes a registration leaves an entry behind. -/
theorem Moves.stale_of_not_orderly (move : s.Moves event s') (disorder : ¬ s.Orderly event)
    (h : Sound s.hub s.added s.pending) :
    ∃ user id, Stale s'.hub s'.added s'.pending user id := by
  obtain ⟨call, rfl, -⟩ | ⟨i, op, rest, more, others, rfl, found, done, added, before, after⟩ :=
    move.cases
  · exact absurd trivial disorder
  · simp only [Orderly, not_forall, not_not] at disorder
    obtain ⟨user, id, rest, first, due⟩ := disorder
    rw [found] at first
    cases first
    obtain ⟨hub, rfl⟩ := Prod.mk.inj (Option.some.inj done)
    have due := (List.mem_cons.mp (before.mem_iff.mp due)).resolve_left nofun
    refine ⟨user, id, ?_⟩
    rw [added, ← hub]
    exact (Stale.of_sound (h.perm before) due).perm after.symm

theorem Moves.leaving (move : s.Moves event s')
    (others : ∀ call, event = .call call → call.start.brings id = false)
    (h : Leaving id s.hub s.pending) : Leaving id s'.hub s'.pending := by
  obtain ⟨call, same, -, hub, -, pending⟩ |
    ⟨_, _, _, more, rest, -, -, done, -, before, after⟩ := move.cases
  · rw [hub]
    exact (h.call (others call same)).perm pending.symm
  · exact ((h.perm before).exec done).perm after.symm

theorem Quiet.pending (quiet : s.Quiet) : s.pending = [] := List.flatten_eq_nil_iff.mpr quiet

theorem sound_start : Sound (start hash).hub (start hash).added (start hash).pending := by
  refine ⟨?_, ?_, ?_, ?_, ?_, ?_⟩
  · exact nofun
  · exact nofun
  · exact List.nodup_nil
  · exact nofun
  · exact nofun
  · exact nofun

theorem sound_of_orderly (run : Steps (guarded Moves Orderly) (start hash) events s) :
    Sound s.hub s.added s.pending :=
  run.invariant (fun s => Sound s.hub s.added s.pending)
    (fun _ _ _ h move => move.2.sound move.1 h) sound_start

theorem tidy_of_run (run : Steps Moves (start hash) events s) : Tidy s.hub :=
  run.invariant (fun s => Tidy s.hub) (fun _ _ _ h move => move.tidy h) (Tidy.new hash)

/-- From a state in order, the registry is in order after a run exactly if the run was. -/
theorem inverse_iff (run : Steps Moves s events s') (h : Sound s.hub s.added s.pending)
    (tidy : Tidy s.hub) (quiet : s'.Quiet) :
    s'.hub.Inverse ↔ Steps (guarded Moves Orderly) s events s' := by
  induction run with
  | nil s =>
      rw [quiet.pending] at h
      exact ⟨fun _ => .nil s, fun _ => h.inverse tidy⟩
  | @cons s m s' event events move rest ih =>
      by_cases orderly : s.Orderly event
      · rw [ih (move.sound orderly h) (move.tidy tidy) quiet]
        constructor
        · exact .cons ⟨orderly, move⟩
        · intro run
          cases run with
          | cons first rest =>
              cases first.2.symm.trans move
              exact rest
      · constructor
        · intro inverse
          obtain ⟨user, id, stale⟩ := move.stale_of_not_orderly orderly h
          have stale := rest.invariant (fun s => Stale s.hub s.added s.pending user id)
            (fun _ _ _ stale move => move.stale stale) stale
          rw [quiet.pending] at stale
          exact absurd inverse stale.not_inverse
        · intro run
          cases run with
          | cons first rest => exact absurd first.1 orderly

/-! ## Calls one after the other -/

/-- Sections of which only the first is more than a sweep. -/
def Direct (ops : List Section) : Prop := ∀ op ∈ ops.tail, ∃ id i, op = .sweep id i

section Direct

variable {hub hub' : Hub} {op : Section} {ops rest more : List Section}

theorem Direct.exec (h : Direct (op :: rest)) (move : op.exec hub = some (hub', more)) :
    Direct (more ++ rest) := by
  have swept : ∀ {id}, ∀ op ∈ Section.sweepAll id ++ rest, ∃ id i, op = .sweep id i := by
    intro id op mem
    obtain mem | mem := List.mem_append.mp mem
    · obtain ⟨i, rfl⟩ := Section.mem_sweepAll.mp mem
      exact ⟨id, i, rfl⟩
    · exact h op mem
  cases op with
  | detach id =>
      obtain ⟨-, ⟨-, rfl⟩ | ⟨user, -, rfl⟩⟩ := Section.exec_detach move
      · exact fun op mem => swept op (List.mem_of_mem_tail mem)
      · exact swept
  | insert _ => cases move; exact h
  | index _ _ => cases move; exact fun op mem => h op (List.mem_of_mem_tail mem)
  | unindex _ _ => cases move; exact fun op mem => h op (List.mem_of_mem_tail mem)
  | sweep _ _ => cases move; exact fun op mem => h op (List.mem_of_mem_tail mem)
  | subscribe _ _ => cases move; exact fun op mem => h op (List.mem_of_mem_tail mem)
  | unsubscribe _ _ => cases move; exact fun op mem => h op (List.mem_of_mem_tail mem)

theorem finishes_sweeps (hub : Hub) (id : ClientId) (shards : List (Fin 16)) :
    Finishes Section.exec (shards.map (.sweep id)) hub (hub.sweeps id shards) := by
  induction shards generalizing hub with
  | nil => exact .nil hub
  | cons i shards ih => exact .step rfl (ih (hub.sweep id i))

/-- With nobody in between, the sections of a call are the call. -/
theorem finishes_run (hub : Hub) (call : Call) :
    Finishes Section.exec [call.start] hub (call.run hub) := by
  cases call with
  | add handle =>
      rw [Call.run, add_eq_indexUser]
      exact .single rfl (.step rfl (.nil _))
  | remove id =>
      rw [Call.run, remove_eq_sweeps]
      cases found : hub.conns.lookup id with
      | none =>
          refine .single (m := hub.removeConn id) ?_ (finishes_sweeps _ id _)
          simp [Call.start, Section.exec, found, Section.sweepAll]
      | some handle =>
          have rest : Finishes Section.exec (.unindex handle.user id :: Section.sweepAll id)
              (hub.removeConn id) _ := .step rfl (finishes_sweeps _ id _)
          refine .single ?_ rest
          simp [Call.start, Section.exec, found]
  | subscribe id channel => exact .step rfl (.nil _)
  | unsubscribe id channel => exact .step rfl (.nil _)

/-- A call that is alone goes through in order. -/
theorem steps_of_finishes (done : Finishes Section.exec ops hub hub') (direct : Direct ops)
    {idle : List (List Section)} (quiet : ∀ task ∈ idle, task = []) (added : List ClientId) :
    ∃ events, Steps (guarded Moves Orderly) ⟨hub, idle ++ [ops], added⟩ events
      ⟨hub', idle ++ [[]], added⟩ := by
  induction done with
  | nil hub => exact ⟨[], .nil _⟩
  | @cons op more rest hub m hub' move _ ih =>
      obtain ⟨events, run⟩ := ih (direct.exec move)
      refine ⟨.turn idle.length :: events, .cons ⟨?_, ?_⟩ run⟩
      · intro user id rest' first due
        simp only [List.getElem?_concat_length, Option.some.injEq, List.cons.injEq] at first
        obtain ⟨rfl, rfl⟩ := first
        simp only [pending, List.flatten_append, List.flatten_eq_nil_iff.mpr quiet,
          List.flatten_singleton, List.nil_append, List.mem_cons, reduceCtorEq,
          false_or] at due
        obtain ⟨_, _, sweep⟩ := direct _ due
        cases sweep
      · simp [Moves, step, move]

/-- Calls that do not overlap. -/
theorem steps_of_calls (calls : List Call) (quiet : s.Quiet)
    (fresh : (calls.flatMap Call.registers).Nodup)
    (new : ∀ id ∈ calls.flatMap Call.registers, id ∉ s.added) :
    ∃ events s', Steps (guarded Moves Orderly) s events s' ∧ s'.Quiet ∧
      s'.hub = calls.foldl Call.run s.hub := by
  induction calls generalizing s with
  | nil => exact ⟨[], s, .nil s, quiet, rfl⟩
  | cons call calls ih =>
      rw [List.flatMap_cons] at fresh new
      obtain ⟨-, later, apart⟩ := List.nodup_append.mp fresh
      have begin : guarded Moves Orderly s (.call call)
          ⟨s.hub, s.tasks ++ [[call.start]], call.registers ++ s.added⟩ :=
        ⟨trivial, if_pos fun id mem => new id (List.mem_append_left _ mem)⟩
      obtain ⟨events, run⟩ := steps_of_finishes (finishes_run s.hub call) nofun quiet
        (call.registers ++ s.added)
      obtain ⟨others, s', rest, quiet', same⟩ := @ih
        ⟨call.run s.hub, s.tasks ++ [[]], call.registers ++ s.added⟩
        (List.forall_mem_append.mpr ⟨quiet, by simp⟩) later (by
          intro id mem known
          obtain mine | old := List.mem_append.mp known
          · exact apart id mine id mem rfl
          · exact new id (List.mem_append_right _ mem) old)
      exact ⟨_, s', (Steps.cons begin run).append rest, quiet', same⟩

end Direct

/-! ## Between calls -/

theorem leaving_steps (run : Steps (guarded Moves Orderly) s events s')
    (others : ∀ call, .call call ∈ events → call.start.brings id = false)
    (h : Leaving id s.hub s.pending) : Leaving id s'.hub s'.pending := by
  induction run with
  | nil => exact h
  | @cons s m s' event events move _ ih =>
      refine ih (fun call mem => others call (List.mem_cons_of_mem _ mem)) (move.2.leaving ?_ h)
      rintro call rfl
      exact others call List.mem_cons_self

/-- A removal that nothing of the same id overlaps or follows. -/
theorem gone_of_remove {before : List Event}
    (run : Steps (guarded Moves Orderly) (start hash) before s)
    (still : ∀ op ∈ s.pending, op.brings id = false)
    (removal : Steps (guarded Moves Orderly) s (.call (.remove id) :: events) s')
    (others : ∀ call, .call call ∈ events → call.start.brings id = false) (quiet : s'.Quiet) :
    s'.hub.Gone id := by
  have sound := sound_of_orderly (run.append removal)
  cases removal with
  | @cons _ m _ _ _ first rest =>
      have leaving : Leaving id m.hub m.pending := by
        obtain ⟨call, same, -, hub, -, pending⟩ | ⟨_, _, _, _, _, same, -⟩ := first.2.cases
        · cases same
          rw [hub]
          exact (Leaving.begin still).perm pending.symm
        · cases same
      have left := leaving_steps rest others leaving
      rw [quiet.pending] at sound left
      have away := left.conns.resolve_right List.not_mem_nil
      refine ⟨userOf_eq_none.mp away, ?_, ?_⟩
      · intro user mem
        have held := (sound.listed mem).resolve_right List.not_mem_nil
        rw [away] at held
        cases held
      · intro channel mem
        exact (left.shards channel mem).elim List.not_mem_nil List.not_mem_nil

theorem inverse_of_calls (hash : String → Fin 16) (calls : List Call)
    (fresh : (calls.flatMap Call.registers).Nodup) :
    (calls.foldl Call.run (Hub.new hash)).Inverse ∧
      (calls.foldl Call.run (Hub.new hash)).Sharded := by
  obtain ⟨events, s, run, quiet, same⟩ :=
    @steps_of_calls (start hash) calls nofun fresh (fun _ _ => List.not_mem_nil)
  have sound := sound_of_orderly run
  have tidy := tidy_of_run (run.mono (fun _ => True) (fun _ _ _ _ _ => trivial)
    (fun _ _ _ _ move => move.2) trivial)
  rw [quiet.pending] at sound
  rw [show Hub.new hash = (start hash).hub from rfl, ← same]
  exact ⟨sound.inverse tidy, tidy.sharded⟩

/-- A whole removal, seen by the other ids. -/
theorem apart_remove {hub : Hub} (before : hub.Inverse) (after : (hub.remove id).1.Inverse) :
    Apart id hub (hub.remove id).1 where
  conns other apart := AList.lookup_erase_ne apart
  users other apart user := by
    rw [after.mem_userIds, before.mem_userIds, userOf, conns_remove,
      AList.lookup_erase_ne apart, userOf]
  shards other apart channel := by
    rw [mem_remove]
    simp [apart]

/-- The hub between calls. Whatever overlaps, the shards are in order; the users index is the
inverse of the connection table exactly if no removal overtook a registration. -/
theorem inverse_iff_orderly {hash : String → Fin 16} {events : List Event} {s : Traffic}
    (run : Steps Moves (start hash) events s) :
    s.hub.Sharded ∧
    (s.Quiet → (s.hub.Inverse ↔ Steps (guarded Moves Orderly) (start hash) events s)) ∧
    (∀ i op rest s', s.tasks[i]? = some (op :: rest) → Moves s (.turn i) s' →
      Apart op.id s.hub s'.hub) ∧
    (∀ id rest s', Steps (guarded Moves Orderly) (start hash) events s →
      (∀ op ∈ s.pending, op.brings id = false) →
      Steps (guarded Moves Orderly) s (.call (.remove id) :: rest) s' →
      (∀ call, .call call ∈ rest → call.start.brings id = false) → s'.Quiet →
      s'.hub.Gone id) ∧
    ∀ calls : List Call, (calls.flatMap Call.registers).Nodup →
      (calls.foldl Call.run (Hub.new hash)).Inverse ∧
      (calls.foldl Call.run (Hub.new hash)).Sharded ∧
      ∀ id, ((calls.foldl Call.run (Hub.new hash)).remove id).1.Gone id ∧
        Apart id (calls.foldl Call.run (Hub.new hash))
          ((calls.foldl Call.run (Hub.new hash)).remove id).1 := by
  refine ⟨(tidy_of_run run).sharded, ?_, ?_, ?_, ?_⟩
  · exact inverse_iff run sound_start (Tidy.new hash)
  · intro i op rest s' found move
    obtain ⟨_, same, -⟩ | ⟨j, op', _, _, _, same, found', done, -⟩ := Moves.cases move
    · cases same
    · cases same
      rw [found] at found'
      cases found'
      exact Apart.exec done
  · intro id rest s' orderly still removal others quiet
    exact gone_of_remove orderly still removal others quiet
  · intro calls fresh
    obtain ⟨inverse, sharded⟩ := inverse_of_calls hash calls fresh
    refine ⟨inverse, sharded, fun id => ?_⟩
    have after := inverse_of_calls hash (calls ++ [.remove id]) (by simpa [Call.registers])
    rw [List.foldl_append] at after
    refine ⟨⟨AList.lookup_erase _ _, ?_, ?_⟩, apart_remove inverse after.1⟩
    · intro user mem
      have held := (after.1.mem_userIds user id).mp mem
      rw [userOf_eq_none.mpr (AList.lookup_erase _ _)] at held
      cases held
    · exact fun channel mem => (mem_remove.mp mem).1 rfl

/-- A connection, a subscription of it, and its removal, each begun before the last is over. -/
theorem inverse_iff_orderly_removed :
    let handle : ClientHandle := ⟨"c1", "u1", .json, 0, none⟩
    let events : List Event := [.call (.add handle), .turn 0, .call (.subscribe "c1" "news"),
      .turn 0, .call (.remove "c1"), .turn 1] ++ List.replicate 18 (.turn 2)
    ∃ s, Steps Moves (start fun _ => 3) events s ∧ s.hub.Sharded ∧
      (s.hub.Inverse ↔ Steps (guarded Moves Orderly) (start fun _ => 3) events s) := by
  intro handle events
  have ends : (events.foldlM step (start fun _ => 3)).any (fun s =>
      s.tasks.all fun task => task = []) := by
    decide +kernel
  obtain ⟨s, found, quiet⟩ := (Option.any_eq_true _ _).mp ends
  have run : Steps Moves (start fun _ => 3) events s := .of_foldlM (fun _ _ _ move => move) found
  have quiet : s.Quiet := by simpa [Quiet] using quiet
  exact ⟨s, run, (inverse_iff_orderly run).1, (inverse_iff_orderly run).2.1 quiet⟩

/-- A removal between the two locks of a registration: the entry in the index is made after
the removal has looked for it, and stays. -/
theorem not_inverse_of_overtaken :
    ¬ ∀ (hash : String → Fin 16) (events : List Event) (s : Traffic),
      Steps Moves (start hash) events s → s.Quiet → s.hub.Inverse ∧ s.hub.Sharded := by
  intro claim
  let handle : ClientHandle := ⟨"c1", "u1", .json, 0, none⟩
  let events : List Event := [.call (.add handle), .turn 0, .call (.remove "c1"), .turn 1, .turn 1,
    .turn 0] ++ List.replicate 16 (.turn 1)
  have ends : (events.foldlM step (start fun _ => 0)).any (fun s =>
      (s.tasks.all fun task => task = []) ∧ s.hub.userOf "c1" = none ∧
        "c1" ∈ s.hub.userIds "u1") := by
    decide +kernel
  obtain ⟨s, found, last⟩ := (Option.any_eq_true _ _).mp ends
  obtain ⟨quiet, away, listed⟩ := of_decide_eq_true last
  have run : Steps Moves (start fun _ => 0) events s := .of_foldlM (fun _ _ _ move => move) found
  have quiet : s.Quiet := by simpa [Quiet] using quiet
  have held := ((claim _ events s run quiet).1.mem_userIds "u1" "c1").mp listed
  rw [away] at held
  cases held

end Traffic

end Hub

end Centrifugo
