import Centrifugo.Core.Hub

/-!
# The locks of the hub

The connection table, the users index and every shard have a lock of their own, and
`add` and `remove` take one after the other. The critical sections are functions of the
hub here; run without a pause, they are `add` and `remove`.
-/

namespace Centrifugo

namespace Hub

/-! ## Critical sections -/

def insertConn (hub : Hub) (handle : ClientHandle) : Hub :=
  { hub with conns := hub.conns.insert handle.id handle }

def indexUser (hub : Hub) (user : String) (id : ClientId) : Hub :=
  { hub with users := hub.users.alter user (withId id) }

def removeConn (hub : Hub) (id : ClientId) : Hub :=
  { hub with conns := hub.conns.erase id }

def unindexUser (hub : Hub) (user : String) (id : ClientId) : Hub :=
  { hub with users := hub.users.alter user (withoutId id) }

/-- Take an id out of every subscriber set of one shard. -/
def sweep (hub : Hub) (id : ClientId) (i : Fin 16) : Hub :=
  { hub with
    shards := Function.update hub.shards i
      ((hub.shards i).filterMap fun set => withoutId id (some set)) }

/-- The ids in the index of a user. -/
def userIds (hub : Hub) (user : String) : IdSet := (hub.users.lookup user).getD ∅

/-! ## What they make of the registry -/

variable {hub : Hub} {handle : ClientHandle} {id other : ClientId} {user name channel : String}

@[simp] theorem conns_insertConn :
    (hub.insertConn handle).conns = hub.conns.insert handle.id handle := rfl

@[simp] theorem conns_indexUser : (hub.indexUser user id).conns = hub.conns := rfl

@[simp] theorem conns_removeConn : (hub.removeConn id).conns = hub.conns.erase id := rfl

@[simp] theorem conns_unindexUser : (hub.unindexUser user id).conns = hub.conns := rfl

@[simp] theorem conns_sweep (i : Fin 16) : (hub.sweep id i).conns = hub.conns := rfl

@[simp] theorem userIds_insertConn : (hub.insertConn handle).userIds name = hub.userIds name := rfl

@[simp] theorem userIds_removeConn : (hub.removeConn id).userIds name = hub.userIds name := rfl

@[simp] theorem userIds_sweep (i : Fin 16) : (hub.sweep id i).userIds name = hub.userIds name := rfl

@[simp] theorem userIds_subscribe : (hub.subscribe id channel).userIds name = hub.userIds name :=
  rfl

@[simp] theorem userIds_unsubscribe :
    (hub.unsubscribe id channel).userIds name = hub.userIds name := rfl

theorem mem_indexUser : other ∈ (hub.indexUser user id).userIds name ↔
    (other = id ∧ name = user) ∨ other ∈ hub.userIds name := by
  simp only [userIds, indexUser, Map.lookup_alter]
  by_cases same : name = user
  · subst same
    rw [if_pos rfl, mem_withId]
    simp
  · simp [same]

theorem mem_unindexUser : other ∈ (hub.unindexUser user id).userIds name ↔
    ¬ (other = id ∧ name = user) ∧ other ∈ hub.userIds name := by
  simp only [userIds, unindexUser, Map.lookup_alter]
  by_cases same : name = user
  · subst same
    rw [if_pos rfl, mem_withoutId]
    simp
  · simp [same]

@[simp] theorem subscriberIds_insertConn :
    (hub.insertConn handle).subscriberIds channel = hub.subscriberIds channel := rfl

@[simp] theorem subscriberIds_indexUser :
    (hub.indexUser user id).subscriberIds channel = hub.subscriberIds channel := rfl

@[simp] theorem subscriberIds_removeConn :
    (hub.removeConn id).subscriberIds channel = hub.subscriberIds channel := rfl

@[simp] theorem subscriberIds_unindexUser :
    (hub.unindexUser user id).subscriberIds channel = hub.subscriberIds channel := rfl

theorem mem_sweep {i : Fin 16} : other ∈ (hub.sweep id i).subscriberIds channel ↔
    ¬ (other = id ∧ hub.hash channel = i) ∧ other ∈ hub.subscriberIds channel := by
  simp only [subscriberIds, sweep]
  by_cases same : hub.hash channel = i
  · subst same
    rw [Function.update_self, Map.lookup_filterMap]
    cases (hub.shards (hub.hash channel)).lookup channel with
    | none => simp
    | some set =>
        rw [Option.bind_some]
        simpa using @mem_withoutId id other (some set)
  · rw [Function.update_of_ne same]
    simp [same]

theorem mem_userClients : handle ∈ hub.userClients user ↔
    ∃ id ∈ hub.userIds user, hub.conns.lookup id = some handle := by
  unfold userClients userIds
  cases hub.users.lookup user with
  | none => simp
  | some ids => simp [List.mem_filterMap, AList.mem_keys]

/-! ## Registration and removal in one piece -/

theorem add_eq_indexUser (hub : Hub) (handle : ClientHandle) :
    hub.add handle = (hub.insertConn handle).indexUser handle.user handle.id := rfl

/-- Sweep some shards, one after the other. -/
def sweeps (hub : Hub) (id : ClientId) (shards : List (Fin 16)) : Hub :=
  shards.foldl (fun hub i => hub.sweep id i) hub

theorem sweeps_eq (hub : Hub) (id : ClientId) (shards : List (Fin 16)) :
    hub.sweeps id shards = { hub with shards := (hub.sweeps id shards).shards } := by
  induction shards generalizing hub with
  | nil => rfl
  | cons i shards ih => exact ih (hub.sweep id i)

theorem sweeps_shards_of_not_mem {i : Fin 16} {shards : List (Fin 16)} (h : i ∉ shards) :
    (hub.sweeps id shards).shards i = hub.shards i := by
  induction shards generalizing hub with
  | nil => rfl
  | cons j shards ih =>
      obtain ⟨first, rest⟩ := not_or.mp fun either => h (List.mem_cons.mpr either)
      exact (@ih (hub.sweep id j) rest).trans (Function.update_of_ne first _ _)

/-- Each shard is swept once. -/
theorem sweeps_shards_of_mem {i : Fin 16} {shards : List (Fin 16)} (nodup : shards.Nodup)
    (h : i ∈ shards) : (hub.sweeps id shards).shards i =
      (hub.shards i).filterMap fun set => withoutId id (some set) := by
  induction shards generalizing hub with
  | nil => cases h
  | cons j shards ih =>
      obtain ⟨fresh, nodup⟩ := List.nodup_cons.mp nodup
      obtain rfl | later := List.mem_cons.mp h
      · exact (@sweeps_shards_of_not_mem (hub.sweep id i) id i shards fresh).trans
          (Function.update_self _ _ _)
      · have other : i ≠ j := fun same => fresh (same ▸ later)
        refine (@ih (hub.sweep id j) nodup later).trans ?_
        exact congrArg (Map.filterMap _) (Function.update_of_ne other _ _)

theorem sweeps_finRange (hub : Hub) (id : ClientId) : hub.sweeps id (List.finRange 16) =
    { hub with shards := fun i =>
        (hub.shards i).filterMap fun set => withoutId id (some set) } := by
  rw [sweeps_eq]
  congr 1
  funext i
  exact sweeps_shards_of_mem (List.nodup_finRange 16) (List.mem_finRange i)

/-- A removal is the critical sections of `Hub::remove` in a row. -/
theorem remove_eq_sweeps (hub : Hub) (id : ClientId) : (hub.remove id).1 =
    match hub.conns.lookup id with
    | some handle =>
        ((hub.removeConn id).unindexUser handle.user id).sweeps id (List.finRange 16)
    | none => (hub.removeConn id).sweeps id (List.finRange 16) := by
  cases found : hub.conns.lookup id with
  | none => simp [remove, found, sweeps_finRange, removeConn]
  | some handle => simp [remove, found, sweeps_finRange, removeConn, unindexUser]

end Hub

end Centrifugo
