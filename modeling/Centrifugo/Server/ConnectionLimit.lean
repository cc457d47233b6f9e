import Centrifugo.Server.Index

/-!
# The connection limit

A CONNECT counts the connections of its user, and registers later. Until it is in both maps
of the hub, the counts of other sessions may miss it. The limit holds as long as every
session that passes its count leaves room for the registrations under way.
-/

namespace Centrifugo

namespace Hub

def connsOf (hub : Hub) (user : String) : List ClientHandle :=
  (hub.conns.entries.filter fun entry => entry.2.user = user).map Sigma.snd

theorem length_connsOf_le {hub : Hub} {user : String} {ids : List ClientId}
    (covered : ∀ {id handle}, hub.conns.lookup id = some handle → handle.user = user → id ∈ ids) :
    (hub.connsOf user).length ≤ ids.length := by
  have names : ((hub.conns.entries.filter fun entry => entry.2.user = user).map Sigma.fst).Nodup :=
    hub.conns.nodupKeys.sublist List.filter_sublist
  have inside :
      (hub.conns.entries.filter fun entry => entry.2.user = user).map Sigma.fst ⊆ ids := by
    intro id mem
    obtain ⟨entry, kept, rfl⟩ := List.mem_map.mp mem
    obtain ⟨mem, same⟩ := List.mem_filter.mp kept
    exact covered (AList.mem_lookup_iff.mpr mem) (of_decide_eq_true same)
  have short := List.Nodup.length_le_of_subset names inside
  rwa [List.length_map, ← List.length_map (f := Sigma.snd)] at short

end Hub

def Access.indexes (user : String) : Access → Option ClientId
  | .indexUser name id => if name = user then some id else none
  | _ => none

/-- Its entry in the connection table is followed by the one in the index. -/
theorem Seated.indexed_of_insert {s : Server} (h : Seated s) {handle : ClientHandle}
    (mem : .insertConn handle ∈ s.pending) : .indexUser handle.user handle.id ∈ s.pending := by
  obtain ⟨i, job, found, work, _⟩ := h.owned mem rfl
  refine mem_pending.mpr (.inl ⟨i, job, found, ?_⟩)
  have stage := (h.seat found).stage
  generalize job.work = ops at work stage ⊢
  cases stage with
  | counting _ _ _ _ _ => simp at work
  | inserting _ _ _ _ _ _ _ =>
      have same : handle = job.reader.client.handle := by simpa using work
      subst same
      exact List.mem_cons_of_mem _ List.mem_cons_self
  | indexing _ _ _ _ _ _ _ => simp at work
  | settled settled =>
      obtain mine | nobody := settled _ work
      · cases mine
      · cases nobody

namespace Server

/-- The clients of a user that are not in the index yet. -/
def underWay (s : Server) (user : String) : List ClientId :=
  s.pending.filterMap (Access.indexes user)

/-- A session that passes its count leaves room for the registrations under way. -/
def Counted (node : Node) (s : Server) (turn : Turn) : Bool :=
  match s.current turn with
  | some (.register _ _ creds) =>
      creds.user = "" || Session.overConnectionLimit node s.shared.world.hub creds.user ||
        (s.shared.world.hub.userClients creds.user).length + (s.underWay creds.user).length <
          node.limits.userConnectionLimit
  | _ => true

/-- The client is registered for the user, or about to be. -/
inductive Holds (s : Server) (user : String) (id : ClientId) : Prop
  | registered {handle : ClientHandle}
      (found : s.shared.world.hub.conns.lookup id = some handle) (same : handle.user = user)
  | inserting {handle : ClientHandle} (mem : .insertConn handle ∈ s.pending)
      (named : handle.id = id) (same : handle.user = user)

variable {node : Node} {s s' : Server} {turn : Turn} {user : String} {id : ClientId}

theorem Holds.counted (h : s.Holds user id) (registry : Registry s) (indexed : Indexed s) :
    id ∈ (s.shared.world.hub.userClients user).map ClientHandle.id ++ s.underWay user := by
  have coming : .indexUser user id ∈ s.pending → id ∈ s.underWay user := fun mem =>
    List.mem_filterMap.mpr ⟨_, mem, by simp [Access.indexes]⟩
  rw [List.mem_append]
  cases h with
  | @registered handle found same =>
      subst same
      obtain listed | mem := indexed.indexed found
      · left
        exact List.mem_map.mpr
          ⟨handle, Hub.mem_userClients.mpr ⟨id, listed, found⟩, (registry.conns found).1⟩
      · exact .inr (coming mem)
  | inserting mem named same =>
      subst named same
      exact .inr (coming (registry.seated.indexed_of_insert mem))

/-- The clients of a user never outnumber the limit, those about to be registered included. -/
def Limited (node : Node) (s : Server) : Prop :=
  ∀ user, user ≠ "" → ∃ ids : List ClientId, ids.length ≤ node.limits.userConnectionLimit ∧
    ∀ id, s.Holds user id → id ∈ ids

namespace Limited

theorem initial (h : s.Initial) : Limited node s := by
  obtain ⟨hash, ttl, verifier, rfl⟩ := h
  refine fun user _ => ⟨[], Nat.zero_le _, fun id holds => ?_⟩
  cases holds with
  | registered found _ => cases found
  | inserting mem _ _ => cases mem

/-- An access registers who was about to be registered, and nobody else. -/
theorem holds_of_access {a : Access} {others : List Access} (here : s.pending.Perm (a :: others))
    (shared : s'.shared = a.perform node s.shared)
    (there : s'.pending.Perm (a.more node s.shared ++ others)) (h : s'.Holds user id) :
    s.Holds user id := by
  cases h with
  | registered found same =>
      rw [shared, Access.perform_hub] at found
      cases a with
      | insertConn inserted =>
          rw [Access.hub, Hub.conns_insertConn, Map.lookup_insert_eq] at found
          split at found
          next named =>
            cases found
            exact .inserting (here.mem_iff.mpr List.mem_cons_self) named.symm same
          next => exact .registered found same
      | removeConn removed slow =>
          rw [Access.hub, Hub.conns_removeConn, Map.lookup_erase_eq] at found
          split at found
          next => cases found
          next => exact .registered found same
      | _ => exact .registered found same
  | inserting mem named same =>
      obtain next | old := List.mem_append.mp (there.mem_iff.mp mem)
      · have nobody := Access.owner_more next
        cases nobody
      · exact .inserting (here.mem_iff.mpr (List.mem_cons_of_mem _ old)) named same

theorem step (h : Limited node s) (registry : Registry s) (indexed : Indexed s)
    (counted : Counted node s turn) (move : Step node s turn s') : Limited node s' := by
  intro user named
  obtain ⟨ids, short, all⟩ := h user named
  cases move.outline registry.seated with
  | access _ here _ _ shared there =>
      exact ⟨ids, short, fun id holds => all id (holds_of_access here shared there holds)⟩
  | @registering i reader reader' readings cmd creds rest current _ room client _ shared pending =>
      have old : ∀ {id}, s'.Holds user id → s.Holds user id ∨
          id = reader'.client.id ∧ user = reader'.client.user := by
        intro id holds
        cases holds with
        | registered found same => exact .inl (.registered (shared ▸ found) same)
        | inserting mem name same =>
            obtain new | mem := List.mem_cons.mp (pending.mem_iff.mp mem)
            · cases new
              exact .inr ⟨name.symm, same.symm⟩
            obtain new | mem := List.mem_cons.mp mem
            · cases new
            · exact .inl (.inserting mem name same)
      by_cases mine : user = creds.user
      · subst mine
        have free : (s.shared.world.hub.userClients creds.user).length +
            (s.underWay creds.user).length < node.limits.userConnectionLimit := by
          simpa [Counted, current, named, room] using counted
        refine ⟨reader'.client.id :: ((s.shared.world.hub.userClients creds.user).map
          ClientHandle.id ++ s.underWay creds.user), ?_, fun id holds => ?_⟩
        · rw [List.length_cons, List.length_append, List.length_map]
          omega
        · obtain before | ⟨rfl, _⟩ := old holds
          · exact List.mem_cons_of_mem _ (before.counted registry indexed)
          · exact List.mem_cons_self
      · refine ⟨ids, short, fun id holds => all id ((old holds).resolve_right ?_)⟩
        rintro ⟨_, same⟩
        rw [client] at same
        exact mine same
  | quiet pending starts quiet =>
      refine ⟨ids, short, fun id holds => all id ?_⟩
      cases holds with
      | registered found same => exact .registered (quiet.hub ▸ found) same
      | inserting mem name same =>
          obtain new | old := List.mem_append.mp (pending.mem_iff.mp mem)
          · have plain := Indexed.registers_of_starts (starts _ new)
            cases plain
          · exact .inserting old name same

end Limited

/-- The limit holds in every run in which each session that passes its count leaves room for
the registrations under way. -/
theorem connections_le_limit
    (h : Reachable Initial (guarded (Step node) fun s turn => Counted node s turn) s)
    (named : user ≠ "") : (s.shared.world.hub.connsOf user).length ≤
      node.limits.userConnectionLimit := by
  have all : Registry s ∧ Indexed s ∧ Limited node s := by
    refine h.invariant (fun s => Registry s ∧ Indexed s ∧ Limited node s)
      (fun _ start => ⟨.initial start, .initial start, .initial start⟩) ?_
    intro s turn s' here move
    obtain ⟨registry, indexed, limited⟩ := here
    exact ⟨registry.step move.2, indexed.step registry move.2,
      limited.step registry indexed move.1 move.2⟩
  obtain ⟨ids, short, covered⟩ := all.2.2 user named
  exact (Hub.length_connsOf_le fun found same => covered _ (.registered found same)).trans short

end Server

/-! ## Two sessions of one user -/

namespace Sample

/-- Every client is user 42, who may connect once. -/
def singleNode : Node :=
  { node with
    proxies := { connect := some fun _ _ => some (.credentials { user := "42" }) }
    limits := { userConnectionLimit := 1 } }

def arriving : List Turn := [
  .accept .protobuf "websocket",
  .accept .protobuf "websocket",
  .event 0 (.frame (some [connect])),
  .event 0 (commandAs "2a1f"),
  .event 1 (.frame (some [connect])),
  .event 1 (commandAs "7c03")]

end Sample

namespace Server

open Sample

theorem connections_le_limit_apart :
    ((after singleNode (arriving ++ [.work 0, .work 0, .work 0, .work 1])).shared.world.hub.connsOf
      "42").length ≤ singleNode.limits.userConnectionLimit := by
  have run : Steps (guarded (Step singleNode) fun s turn => Counted singleNode s turn) started
      (arriving ++ [.work 0, .work 0, .work 0, .work 1])
      (after singleNode (arriving ++ [.work 0, .work 0, .work 0, .work 1])) :=
    .guarded_of_foldlM rfl
  exact connections_le_limit (run.reachable (.start started_initial)) (by decide)

/-- Both sessions count before either is registered. -/
theorem not_connections_le_limit_together :
    ¬ ∀ (node : Node) (s : Server) (user : String), 0 < node.limits.userConnectionLimit →
      Reachable Initial (Step node) s → user ≠ "" →
        (s.shared.world.hub.connsOf user).length ≤ node.limits.userConnectionLimit := by
  intro all
  have run : Steps (Step singleNode) started
      (arriving ++ [.work 0, .work 1, .work 0, .work 1]) _ :=
    .of_foldlM (fun _ _ _ move => move) rfl
  have few := all singleNode _ "42" (by decide) (run.reachable (.start started_initial)) (by decide)
  exact absurd few (by decide)

end Server

end Centrifugo
