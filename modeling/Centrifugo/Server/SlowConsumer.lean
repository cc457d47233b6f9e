import Centrifugo.Server.Delivery

/-!
# Slow consumers

A broadcast that finds the queue of a subscriber full or gone removes the subscriber from the
hub. Several broadcasts may find it so at once. The one that takes the connection out of the
connection table schedules its close, and goes on to the users index and to the shards.
-/

namespace Centrifugo

open Server

/-! ## Closes -/

def Access.closes (tx : QueueId) : Access → Bool
  | .scheduleClose other => other = tx
  | _ => false

/-- The closes for a slow consumer, scheduled or about to be. -/
def Server.closes (s : Server) (tx : QueueId) : Nat :=
  s.pending.countP (Access.closes tx) + s.shared.log.count (.scheduled tx)

namespace Access

variable {node : Node} {a : Access} {s : Shared} {tx other : QueueId} {id : ClientId}
  {handle : ClientHandle}

/-- A broadcast that removes a connection goes on to close it. -/
theorem closes_drop (found : s.world.hub.conns.lookup id = some handle) :
    ((removeConn id (some other)).more node s).countP (closes tx) =
      if other = tx then 1 else 0 := by
  have sweeping : (sweeps id).countP (closes tx) = 0 := by
    rw [List.countP_eq_zero]
    intro a swept
    obtain ⟨shard, _, rfl⟩ := List.mem_map.mp swept
    simp [closes]
  rw [more, found]
  simp [List.countP_cons, sweeping, closes]

theorem closes_more (kept : ∀ {id handle}, a = .removeConn id (some tx) →
    s.world.hub.conns.lookup id ≠ some handle) : (a.more node s).countP (closes tx) = 0 := by
  rw [List.countP_eq_zero]
  intro b mem mine
  cases follows_of_mem mem with
  | close found =>
      cases of_decide_eq_true mine
      exact kept rfl found
  | _ => cases mine

theorem count_scheduled : (a.facts s).count (.scheduled tx) = if a.closes tx then 1 else 0 := by
  cases a with
  | scheduleClose other => simp [facts, closes, List.count_singleton]
  | control message => simp [facts, closes, List.count_eq_zero]
  | _ => simp [facts, closes]

end Access

namespace Server

variable {node : Node} {s s' : Server} {a : Access} {others new : List Access}

theorem closes_access (here : s.pending.Perm (a :: others))
    (shared : s'.shared = a.perform node s.shared)
    (there : s'.pending.Perm (a.more node s.shared ++ others)) (tx : QueueId) :
    s'.closes tx = s.closes tx + (a.more node s.shared).countP (Access.closes tx) := by
  rw [closes, closes, shared, Access.perform_log, there.countP_eq, here.countP_eq,
    List.count_append, List.countP_append, List.countP_cons, Access.count_scheduled]
  omega

theorem closes_registering {handle : ClientHandle} {user : String} {id : ClientId}
    (shared : s'.shared = s.shared)
    (pending : s'.pending.Perm (.insertConn handle :: .indexUser user id :: s.pending))
    (tx : QueueId) : s'.closes tx = s.closes tx := by
  rw [closes, closes, shared, pending.countP_eq, List.countP_cons_of_neg,
    List.countP_cons_of_neg] <;> simp [Access.closes]

theorem closes_quiet (pending : s'.pending.Perm (new ++ s.pending))
    (starts : ∀ a ∈ new, (∃ client, a.ofClient client) ∨ a.external)
    (quiet : s.shared.Quiet s'.shared) (tx : QueueId) : s'.closes tx = s.closes tx := by
  obtain ⟨facts, log, aside⟩ := quiet.log
  have silent : new.countP (Access.closes tx) = 0 := by
    rw [List.countP_eq_zero]
    intro a mem mine
    cases a with
    | scheduleClose other => obtain ⟨_, own⟩ | own := starts _ mem <;> cases own
    | _ => cases mine
  have silent' : facts.count (.scheduled tx) = 0 := by
    rw [List.count_eq_zero]
    intro mem
    cases aside _ mem
  rw [closes, closes, log, pending.countP_eq, List.countP_append, List.count_append, silent,
    silent']
  omega

end Server

namespace Seated

variable {s : Server} {handle handle' : ClientHandle}

/-- A connection has one queue. -/
theorem tx_of_id (h : Seated s) (issued : s.Issued handle) (issued' : s.Issued handle')
    (same : handle.id = handle'.id) : handle.tx = handle'.tx := by
  obtain ⟨job, found, authenticated, id, _⟩ := issued
  obtain ⟨job', found', _, id', _⟩ := issued'
  refine h.distinct found found' (id.trans (same.trans id'.symm)) ?_
  exact (h.seat found).named authenticated

theorem id_of_tx (issued : s.Issued handle) (issued' : s.Issued handle')
    (same : handle.tx = handle'.tx) : handle.id = handle'.id := by
  obtain ⟨job, found, _, id, _⟩ := issued
  obtain ⟨job', found', _, id', _⟩ := issued'
  rw [same, found'] at found
  cases found
  exact id.symm.trans id'

end Seated

/-- A connection is closed as slow at most once, and only when it is not registered any
more. -/
structure ClosesOnce (s : Server) : Prop where
  once : ∀ tx, s.closes tx ≤ 1
  registered : ∀ {id handle}, s.shared.world.hub.conns.lookup id = some handle →
    s.closes handle.tx = 0
  inserting : ∀ {handle}, .insertConn handle ∈ s.pending → s.closes handle.tx = 0
  young : ∀ {tx}, (∀ job, s.jobs[tx]? = some job → job.reader.client.authenticated = false) →
    s.closes tx = 0

namespace ClosesOnce

variable {node : Node} {s s' : Server} {turn : Turn} {tx : QueueId}

/-- A session that is not authenticated was not before. -/
theorem young_before (move : Server.Step node s turn s')
    (young : ∀ job, s'.jobs[tx]? = some job → job.reader.client.authenticated = false) :
    ∀ job, s.jobs[tx]? = some job → job.reader.client.authenticated = false := by
  intro job found
  obtain ⟨job', found', follows⟩ := move.follows found
  refine Bool.eq_false_iff.mpr fun yes => ?_
  have yes' := follows.authenticated yes
  rw [young job' found'] at yes'
  cases yes'

/-- The broadcast that finds a slow consumer registered is the first one to close it. -/
theorem drop (h : ClosesOnce s) (registry : Registry s) {id : ClientId} {handle : ClientHandle}
    (mem : .removeConn id (some tx) ∈ s.pending)
    (found : s.shared.world.hub.conns.lookup id = some handle) :
    handle.tx = tx ∧ s.Issued handle ∧ s.closes tx = 0 := by
  obtain ⟨named, issued⟩ := registry.conns found
  obtain ⟨other, issued', id', rfl⟩ := registry.pending _ mem
  have same := registry.seated.tx_of_id issued issued' (named.trans id'.symm)
  exact ⟨same, issued, same ▸ h.registered found⟩

theorem step (h : ClosesOnce s) (registry : Registry s) (indexed : Indexed s)
    (move : Server.Step node s turn s') : ClosesOnce s' := by
  cases move.outline registry.seated with
  | @access a others _ here place able shared there =>
      have mem : a ∈ s.pending := here.mem_iff.mpr List.mem_cons_self
      have count := closes_access here shared there
      have inserting : ∀ {handle}, .insertConn handle ∈ s'.pending →
          .insertConn handle ∈ s.pending := by
        intro handle mem'
        obtain next | old := List.mem_append.mp (there.mem_iff.mp mem')
        · cases Access.owner_more next
        · exact here.mem_iff.mpr (List.mem_cons_of_mem _ old)
      by_cases dropping : ∃ id tx handle, a = .removeConn id (some tx) ∧
          s.shared.world.hub.conns.lookup id = some handle
      · obtain ⟨id, tx, handle, rfl, found⟩ := dropping
        obtain ⟨rfl, issued, zero⟩ := h.drop registry mem found
        have closed : ∀ other, other ≠ handle.tx → s'.closes other = s.closes other := by
          intro other apart
          rw [count, Access.closes_drop found, if_neg (Ne.symm apart), Nat.add_zero]
        refine ⟨?_, ?_, ?_, ?_⟩
        · intro other
          by_cases same : other = handle.tx
          · rw [count, Access.closes_drop found, same, zero, if_pos rfl]
          · rw [closed other same]
            exact h.once other
        · intro other handle' found'
          rw [shared, Access.perform_hub, Access.hub, Hub.conns_removeConn,
            Map.lookup_erase_eq] at found'
          split at found'
          next => cases found'
          next apart =>
            obtain ⟨named', issued'⟩ := registry.conns found'
            rw [closed _ fun same => apart ?_]
            · exact h.registered found'
            · exact named'.symm.trans
                ((Seated.id_of_tx issued' issued same).trans (registry.conns found).1)
        · intro handle' mem'
          have free := indexed.unborn (inserting mem')
          rw [closed _ fun same => ?_]
          · exact h.inserting (inserting mem')
          · have id' := Seated.id_of_tx (registry.seated.issued (inserting mem')) issued same
            rw [id', (registry.conns found).1, found] at free
            cases free
        · intro other young
          rw [closed _ fun same => ?_]
          · exact h.young (young_before move young)
          · obtain ⟨job, there', authenticated, _⟩ := issued
            rw [young_before move young job (same ▸ there')] at authenticated
            cases authenticated
      · have closed : ∀ tx, s'.closes tx = s.closes tx := by
          intro tx
          rw [count, Access.closes_more fun same found => dropping ⟨_, _, _, same, found⟩,
            Nat.add_zero]
        refine ⟨fun tx => closed tx ▸ h.once tx, ?_, fun mem' => ?_, fun young => ?_⟩
        · intro id handle found
          rw [closed]
          rw [shared, Access.perform_hub] at found
          cases a with
          | insertConn inserted =>
              rw [Access.hub, Hub.conns_insertConn, Map.lookup_insert_eq] at found
              split at found
              next =>
                cases found
                exact h.inserting mem
              next => exact h.registered found
          | removeConn removed slow =>
              rw [Access.hub, Hub.conns_removeConn, Map.lookup_erase_eq] at found
              split at found
              next => cases found
              next => exact h.registered found
          | _ => exact h.registered found
        · rw [closed]
          exact h.inserting (inserting mem')
        · rw [closed]
          exact h.young (young_before move young)
  | @registering i reader reader' readings cmd creds rest _ found _ client _ shared pending =>
      have closed := closes_registering shared pending
      refine ⟨fun tx => closed tx ▸ h.once tx, fun found => ?_, ?_, fun young => ?_⟩
      · rw [closed]
        exact h.registered (shared ▸ found)
      · intro handle mem
        rw [closed]
        obtain new | mem := List.mem_cons.mp (pending.mem_iff.mp mem)
        · cases new
          have seat := registry.seated.seat found
          have place : reader'.client.handle.tx = i := by
            rw [client]
            exact seat.tx
          rw [place]
          refine h.young fun job same => ?_
          rw [found] at same
          cases same
          have stage : Stage reader.client _ := seat.stage
          generalize whole : Op.register readings cmd creds :: rest = work at stage
          cases stage with
          | counting _ _ _ fresh _ => exact fresh
          | settled settled => cases settled _ (whole ▸ List.mem_cons_self)
          | _ => cases whole
        obtain new | mem := List.mem_cons.mp mem
        · cases new
        · exact h.inserting mem
      · rw [closed]
        exact h.young (young_before move young)
  | @quiet new pending starts quiet =>
      have closed := closes_quiet pending starts quiet
      refine ⟨fun tx => closed tx ▸ h.once tx, fun found => ?_, fun mem => ?_, fun young => ?_⟩
      · rw [closed]
        exact h.registered (quiet.hub ▸ found)
      · rw [closed]
        obtain added | old := List.mem_append.mp (pending.mem_iff.mp mem)
        · cases Indexed.registers_of_starts (starts _ added)
        · exact h.inserting old
      · rw [closed]
        exact h.young (young_before move young)

theorem initial (h : s.Initial) : ClosesOnce s := by
  obtain ⟨hash, ttl, verifier, rfl⟩ := h
  refine ⟨fun tx => Nat.zero_le _, ?_, ?_, fun _ => rfl⟩
  · intro id handle found
    cases found
  · intro handle mem
    cases mem

end ClosesOnce

/-! ## Removals -/

/-- Who was refused is being removed, or was removed, for good. -/
structure Refused (s : Server) (handle : ClientHandle) : Prop where
  issued : s.Issued handle
  old : ∀ {other}, .insertConn other ∈ s.pending → other.id ≠ handle.id
  removed : .removeConn handle.id (some handle.tx) ∈ s.pending ∨
    s.shared.world.hub.conns.lookup handle.id = none

def Removes (s : Server) : Prop :=
  ∀ {n push handle}, .offered n push handle .refused ∈ s.shared.log → Refused s handle

namespace Removes

variable {node : Node} {s s' : Server} {turn : Turn}

theorem step (h : Removes s) (registry : Registry s) (indexed : Indexed s)
    (move : Server.Step node s turn s') : Removes s' := by
  intro n push handle mem
  cases move.outline registry.seated with
  | @access a others _ here place able shared there =>
      have inserting : ∀ {other}, .insertConn other ∈ s'.pending →
          .insertConn other ∈ s.pending := by
        intro other mem'
        obtain next | old := List.mem_append.mp (there.mem_iff.mp mem')
        · cases Access.owner_more next
        · exact here.mem_iff.mpr (List.mem_cons_of_mem _ old)
      rw [shared, Access.perform_log] at mem
      obtain before | now := List.mem_append.mp mem
      · obtain ⟨issued, old, removed⟩ := h before
        refine ⟨issued.step move, fun mem' => old (inserting mem'), ?_⟩
        rw [shared, Access.perform_hub]
        obtain removing | free := removed
        · obtain rfl | still := List.mem_cons.mp (here.mem_iff.mp removing)
          · right
            rw [Access.hub, Hub.conns_removeConn, AList.lookup_erase]
          · exact .inl (there.mem_iff.mpr (List.mem_append_right _ still))
        · right
          cases a with
          | insertConn inserted =>
              have apart := old (here.mem_iff.mpr List.mem_cons_self)
              rw [Access.hub, Hub.conns_insertConn, Map.lookup_insert_eq, if_neg (Ne.symm apart),
                free]
          | removeConn removed slow =>
              rw [Access.hub, Hub.conns_removeConn, Map.lookup_erase_eq, free, ite_self]
          | _ => exact free
      · cases a with
        | offer broadcast push' other =>
            have offering := here.mem_iff.mpr List.mem_cons_self
            have issued : s.Issued other := registry.pending _ offering
            obtain ⟨rfl, rfl, rfl, refused⟩ : broadcast = n ∧ push' = push ∧ other = handle ∧
                s.shared.world.delivery push' other = .refused := by
              simpa [Access.facts, eq_comm] using now
            refine ⟨issued.step move, fun mem' same => ?_, .inl ?_⟩
            · have away := (indexed.unseen (inserting mem') rfl rfl).pending _ offering
              simp [Access.haunts, same] at away
            · refine there.mem_iff.mpr (List.mem_append_left _ ?_)
              rw [Access.more, refused]
              exact List.mem_cons_self
        | control message => simp [Access.facts] at now
        | _ => simp [Access.facts] at now
  | registering _ found _ client _ shared pending =>
      rw [shared] at mem
      obtain ⟨issued, old, removed⟩ := h mem
      refine ⟨issued.step move, fun mem' same => ?_, ?_⟩
      · obtain new | mem' := List.mem_cons.mp (pending.mem_iff.mp mem')
        · cases new
          refine registry.fresh found ?_
          have known := issued.known
          rw [← same, client] at known
          exact known
        obtain new | mem' := List.mem_cons.mp mem'
        · cases new
        · exact old mem' same
      · rw [shared]
        exact removed.imp_left fun removing => pending.mem_iff.mpr
          (List.mem_cons_of_mem _ (List.mem_cons_of_mem _ removing))
  | quiet pending starts quiet =>
      obtain ⟨facts, log, aside⟩ := quiet.log
      rw [log] at mem
      obtain before | now := List.mem_append.mp mem
      · obtain ⟨issued, old, removed⟩ := h before
        refine ⟨issued.step move, fun mem' => ?_, ?_⟩
        · obtain added | mem' := List.mem_append.mp (pending.mem_iff.mp mem')
          · cases Indexed.registers_of_starts (starts _ added)
          · exact old mem'
        · rw [quiet.hub]
          exact removed.imp_left fun removing =>
            pending.mem_iff.mpr (List.mem_append_right _ removing)
      · cases aside _ now

theorem initial (h : s.Initial) : Removes s := by
  obtain ⟨hash, ttl, verifier, rfl⟩ := h
  intro n push handle mem
  cases mem

end Removes

/-! ## Broadcasts while no session comes or goes -/

/-- A session enters or leaves the hub, or one of its channels. -/
def Access.moves : Access → Bool
  | .insertConn _ | .indexUser _ _ | .removeConn _ none | .subscribe _ _ | .unsubscribe _ _ => true
  | _ => false

def Server.Still (s : Server) (turn : Turn) : Bool :=
  match s.current turn with
  | some (.access a) => !a.moves
  | _ => true

/-- What is left of a dropped connection in the hub is about to go. -/
structure Dropped (s : Server) (handle : ClientHandle) : Prop where
  unregistered : s.shared.world.hub.conns.lookup handle.id = none
  closed : s.closes handle.tx = 1
  unindexed : ∀ {user}, handle.id ∈ s.shared.world.hub.userIds user →
    .unindexUser user handle.id ∈ s.pending
  swept : ∀ {channel}, handle.id ∈ s.shared.world.hub.subscriberIds channel →
    .sweep handle.id (s.shared.world.hub.hash channel) ∈ s.pending

/-- A connection is registered, or was dropped. -/
def Settles (s : Server) (handle : ClientHandle) : Prop :=
  s.shared.world.hub.conns.lookup handle.id = some handle ∨ Dropped s handle

/-- The invariants of a run with broadcasts. -/
structure Sound (node : Node) (s : Server) : Prop where
  registry : Registry s
  indexed : Indexed s
  offered : Offered node s
  queued : Queued s
  closes : ClosesOnce s
  removes : Removes s

namespace Sound

variable {node : Node} {s s' : Server} {turn : Turn} {handle : ClientHandle}

theorem step (h : Sound node s) (move : Server.Step node s turn s') : Sound node s' where
  registry := h.registry.step move
  indexed := h.indexed.step h.registry move
  offered := h.offered.step h.registry move
  queued := h.queued.step h.registry h.offered move
  closes := h.closes.step h.registry h.indexed move
  removes := Removes.step h.removes h.registry h.indexed move

theorem of_reached (h : Server.Reached node s) : Sound node s :=
  h.invariant (Sound node)
    (fun _ start => ⟨.initial start, .initial start, .initial start, .initial start,
      .initial start, Removes.initial start⟩)
    fun _ _ _ here => here.step

/-- In the index there are registered connections, and those on their way out. -/
theorem unindexed (h : Sound node s) (free : s.shared.world.hub.conns.lookup handle.id = none)
    {user : String} (listed : handle.id ∈ s.shared.world.hub.userIds user) :
    .unindexUser user handle.id ∈ s.pending := by
  refine (h.indexed.listed listed).resolve_left ?_
  rintro ⟨other, found, _⟩
  rw [free] at found
  cases found

/-- The first broadcast that finds a connection slow drops it. -/
theorem drop (h : Sound node s) (h' : Sound node s') {slow : Option QueueId}
    (found : s.shared.world.hub.conns.lookup handle.id = some handle)
    {others : List Access} (here : s.pending.Perm (.removeConn handle.id slow :: others))
    (still : slow ≠ none)
    (shared : s'.shared = (Access.removeConn handle.id slow).perform node s.shared)
    (there : s'.pending.Perm ((Access.removeConn handle.id slow).more node s.shared ++ others)) :
    Dropped s' handle := by
  obtain ⟨tx, rfl⟩ := Option.ne_none_iff_exists'.mp still
  obtain ⟨rfl, _, zero⟩ := h.closes.drop h.registry (here.mem_iff.mpr List.mem_cons_self) found
  have free : s'.shared.world.hub.conns.lookup handle.id = none := by
    rw [shared, Access.perform_hub, Access.hub, Hub.conns_removeConn, AList.lookup_erase]
  refine ⟨free, ?_, fun listed => h'.unindexed free listed, ?_⟩
  · rw [closes_access here shared there, Access.closes_drop found, if_pos rfl, zero]
  · intro channel _
    refine there.mem_iff.mpr (List.mem_append_left _ ?_)
    rw [Access.more, found]
    refine List.mem_cons_of_mem _ (List.mem_append_left _ ?_)
    exact List.mem_map.mpr ⟨_, List.mem_finRange _, rfl⟩

theorem settles (h : Sound node s) (still : s.Still turn) (move : Server.Step node s turn s')
    (settled : Settles s handle) : Settles s' handle := by
  have h' := h.step move
  cases move.outline h.registry.seated with
  | @access a others current here place able shared there =>
      have quiet : a.moves = false := by simpa [Server.Still, current] using still
      obtain found | dropped := settled
      · by_cases removed : ∃ slow, a = .removeConn handle.id slow
        · obtain ⟨slow, rfl⟩ := removed
          refine .inr (h.drop h' found here ?_ shared there)
          rintro rfl
          cases quiet
        · left
          rw [shared, Access.perform_hub]
          cases a with
          | insertConn _ => cases quiet
          | removeConn other slow =>
              have apart : handle.id ≠ other := by
                rintro rfl
                exact removed ⟨slow, rfl⟩
              rw [Access.hub, Hub.conns_removeConn, Map.lookup_erase_eq, if_neg apart, found]
          | _ => exact found
      · obtain ⟨free, closed, _, swept⟩ := dropped
        have free' : s'.shared.world.hub.conns.lookup handle.id = none := by
          rw [shared, Access.perform_hub]
          cases a with
          | insertConn _ => cases quiet
          | removeConn other slow =>
              rw [Access.hub, Hub.conns_removeConn, Map.lookup_erase_eq, free, ite_self]
          | _ => exact free
        refine .inr ⟨free', ?_, fun listed => h'.unindexed free' listed, ?_⟩
        · have more := closes_access here shared there handle.tx
          have once := h'.closes.once handle.tx
          omega
        · intro channel subscribed
          rw [shared, Access.perform_hub] at subscribed ⊢
          have remains : ∀ shard, .sweep handle.id shard ∈ s.pending →
              a = .sweep handle.id shard ∨ .sweep handle.id shard ∈ s'.pending := by
            intro shard mem
            obtain same | old := List.mem_cons.mp (here.mem_iff.mp mem)
            · exact .inl same.symm
            · exact .inr (there.mem_iff.mpr (List.mem_append_right _ old))
          cases a with
          | subscribe _ _ => cases quiet
          | unsubscribe _ _ => cases quiet
          | sweep other shard =>
              obtain ⟨apart, subscribed⟩ := Hub.mem_sweep.mp subscribed
              refine (remains _ (swept subscribed)).resolve_left fun same => ?_
              cases same
              exact apart ⟨rfl, rfl⟩
          | _ => exact (remains _ (swept subscribed)).resolve_left (by simp)
  | registering _ _ _ _ _ shared pending =>
      have more : ∀ {a}, a ∈ s.pending → a ∈ s'.pending := fun mem =>
        pending.mem_iff.mpr (List.mem_cons_of_mem _ (List.mem_cons_of_mem _ mem))
      refine settled.imp (fun found => by rw [shared]; exact found) fun dropped => ?_
      refine ⟨by rw [shared]; exact dropped.unregistered, ?_, ?_, ?_⟩
      · rw [closes_registering shared pending]
        exact dropped.closed
      · rw [shared]
        exact fun listed => more (dropped.unindexed listed)
      · rw [shared]
        exact fun subscribed => more (dropped.swept subscribed)
  | quiet pending starts quiet =>
      have more : ∀ {a}, a ∈ s.pending → a ∈ s'.pending := fun mem =>
        pending.mem_iff.mpr (List.mem_append_right _ mem)
      refine settled.imp (fun found => by rw [quiet.hub]; exact found) fun dropped => ?_
      refine ⟨by rw [quiet.hub]; exact dropped.unregistered, ?_, ?_, ?_⟩
      · rw [closes_quiet pending starts quiet]
        exact dropped.closed
      · rw [quiet.hub]
        exact fun listed => more (dropped.unindexed listed)
      · rw [quiet.hub]
        exact fun subscribed => more (dropped.swept subscribed)

end Sound

/-! ## Slow consumers -/

/-- What becomes of the connections of a node, and of the broadcasts to them. -/
structure Serves (node : Node) (s₀ s : Server) : Prop where
  /-- A connection stays registered until a broadcast to it is refused. Then it is dropped, and
  closed once, however many broadcasts are refused. -/
  slow : ∀ {handle}, s₀.shared.world.hub.conns.lookup handle.id = some handle →
    Dropped s handle ∨ s.shared.world.hub.conns.lookup handle.id = some handle ∧
      s.closes handle.tx = 0 ∧ ∀ {n push}, .offered n push handle .refused ∈ s.shared.log →
        .removeConn handle.id (some handle.tx) ∈ s.pending
  /-- When the broadcasts are done, nothing is left of who was refused. -/
  gone : s.pending = [] → ∀ {handle n push},
    s₀.shared.world.hub.conns.lookup handle.id = some handle →
    .offered n push handle .refused ∈ s.shared.log →
      s.shared.log.count (.scheduled handle.tx) = 1 ∧
      s.shared.world.hub.conns.lookup handle.id = none ∧
      (∀ user, handle.id ∉ s.shared.world.hub.userIds user) ∧
      ∀ channel, handle.id ∉ s.shared.world.hub.subscriberIds channel
  /-- A broadcast offers its push once to each of its subscribers. -/
  once : ∀ {n message handles handle}, s.shared.log[n]? = some (.copied message handles) →
    handle ∈ handles → s.offers n handle = 1
  pushes : ∀ {n push handle delivery}, .offered n push handle delivery ∈ s.shared.log →
    s.shared.Sends node n push handle
  /-- Whether it is placed is up to the queue of that subscriber only. -/
  placed : ∀ {t t' turn n push handle}, Server.Step node t turn t' →
    t.current turn = some (.access (.offer n push handle)) →
      t'.shared.log = t.shared.log ++
        [.offered n push handle (t.shared.world.delivery push handle)] ∧
      ∀ tx, tx ≠ handle.tx → t'.shared.world.queues.lookup tx = t.shared.world.queues.lookup tx
  /-- What is placed in a queue stays there until its writer takes it. -/
  queued : Queued s

theorem World.lookup_send_of_ne {world : World} {tx other : QueueId} {item : Out Sent}
    (apart : other ≠ tx) :
    (world.send tx item).queues.lookup other = world.queues.lookup other := by
  unfold World.send
  split
  · rfl
  · split
    · rfl
    · exact AList.lookup_insert_ne apart

theorem Server.Step.placed {node : Node} {t t' : Server} {turn : Turn} {n : Nat} {push : Sent}
    {handle : ClientHandle} (move : Server.Step node t turn t')
    (current : t.current turn = some (.access (.offer n push handle))) :
    t'.shared.log = t.shared.log ++
        [.offered n push handle (t.shared.world.delivery push handle)] ∧
      ∀ tx, tx ≠ handle.tx →
        t'.shared.world.queues.lookup tx = t.shared.world.queues.lookup tx := by
  have shared := move.performs current
  refine ⟨by rw [shared]; rfl, fun tx apart => ?_⟩
  have queues : t'.shared.world.queues =
      ((Access.offer n push handle).world node t.shared.world).queues := by rw [shared]; rfl
  rw [queues, World.offered_eq]
  split
  · exact World.lookup_send_of_ne apart
  · rfl

theorem slow_consumers_dropped {node : Node} {s₀ s : Server} {turns : List Turn}
    (start : Server.Reached node s₀)
    (run : Steps (guarded (Server.Step node) fun s turn => s.Still turn) s₀ turns s) :
    Serves node s₀ s := by
  have sound₀ := Sound.of_reached start
  have all : ∀ {handle}, s₀.shared.world.hub.conns.lookup handle.id = some handle →
      Sound node s ∧ Settles s handle := by
    intro handle found
    refine run.invariant (fun s => Sound node s ∧ Settles s handle) ?_ ⟨sound₀, .inl found⟩
    intro s turn s' here move
    exact ⟨here.1.step move.2, here.1.settles move.1 move.2 here.2⟩
  have sound : Sound node s :=
    run.invariant (Sound node) (fun _ _ _ here move => here.step move.2) sound₀
  have slow : ∀ {handle}, s₀.shared.world.hub.conns.lookup handle.id = some handle →
      Dropped s handle ∨ s.shared.world.hub.conns.lookup handle.id = some handle ∧
        s.closes handle.tx = 0 ∧ ∀ {n push}, .offered n push handle .refused ∈ s.shared.log →
          .removeConn handle.id (some handle.tx) ∈ s.pending := by
    intro handle found
    obtain registered | dropped := (all found).2
    · refine .inr ⟨registered, sound.closes.registered registered, fun refused => ?_⟩
      refine (sound.removes refused).removed.resolve_right fun free => ?_
      rw [registered] at free
      cases free
    · exact .inl dropped
  refine ⟨slow, ?_, sound.offered.once, sound.offered.logged, fun move current =>
    move.placed current, sound.queued⟩
  intro idle handle n push found refused
  obtain dropped | ⟨_, _, removing⟩ := slow found
  · have closed := dropped.closed
    rw [Server.closes, idle, List.countP_nil, Nat.zero_add] at closed
    refine ⟨closed, dropped.unregistered, fun user listed => ?_, fun channel subscribed => ?_⟩
    · have left := dropped.unindexed listed
      rw [idle] at left
      cases left
    · have left := dropped.swept subscribed
      rw [idle] at left
      cases left
  · have left := removing refused
    rw [idle] at left
    cases left

/-! ## Two subscribers -/

namespace Sample

def twoReaders : List Turn := joins 0 .protobuf "2a1f" ++ joins 1 .protobuf "7c03"

/-- A broadcast when the writer of the first reader has ended. -/
def headline : List Turn :=
  [.release 0, .spawn (.fanOut (.publication "news" { data := some ⟨[123, 125]⟩ }))] ++
    List.replicate 22 (.task 0)

def eachFormat : List Turn := joins 0 .protobuf "2a1f" ++ joins 1 .json "7c03"

/-- News that JSON cannot carry, when the writer of the other reader has ended. -/
def garbled : List Turn :=
  [.release 0, .spawn (.fanOut (.publication "news" { data := some ⟨[255]⟩ }))] ++
    List.replicate 22 (.task 0)

end Sample

open Sample

/-- No offer to the reader in JSON found a queue, full or not. -/
def Fact.skipped : Fact → Bool
  | .offered _ _ handle delivery => handle.id ≠ "7c03" || delivery = .skipped
  | _ => true

theorem slow_consumers_dropped_headline : Serves pressNode (after pressNode twoReaders)
    (after pressNode (twoReaders ++ headline)) := by
  have start : Steps (Server.Step pressNode) started twoReaders (after pressNode twoReaders) :=
    .of_foldlM (fun _ _ _ move => move) rfl
  have run : Steps (guarded (Server.Step pressNode) fun s turn => s.Still turn)
      (after pressNode twoReaders) headline (after pressNode (twoReaders ++ headline)) :=
    .guarded_of_foldlM rfl
  exact slow_consumers_dropped (start.reachable (.start started_initial)) run

/-- Beside a slow consumer, a subscriber gets nothing when the push cannot be encoded in its
format. -/
theorem not_slow_consumers_dropped_garbled :
    ¬ ∀ (node : Node) (s₀ s : Server) (turns : List Turn) (n : Nat) (message : NodeMessage)
      (handles : List ClientHandle) (slow handle : ClientHandle), Server.Reached node s₀ →
      Steps (guarded (Server.Step node) fun s turn => s.Still turn) s₀ turns s →
      s.pending = [] → s.shared.log[n]? = some (.copied message handles) → slow ∈ handles →
      (∃ push, .offered n push slow .refused ∈ s.shared.log) → handle ∈ handles →
      handle.tx ≠ slow.tx →
      (∃ push, .offered n push handle .refused ∈ s.shared.log) ∨
        ∃ push, .offered n push handle .placed ∈ s.shared.log := by
  intro all
  have start : Steps (Server.Step pressNode) started eachFormat
      (after pressNode eachFormat) := .of_foldlM (fun _ _ _ move => move) rfl
  have run : Steps (guarded (Server.Step pressNode) fun s turn => s.Still turn)
      (after pressNode eachFormat) garbled (after pressNode (eachFormat ++ garbled)) :=
    .guarded_of_foldlM rfl
  have served := all pressNode _ _ _ 2 _ _ _ _ (start.reachable (.start started_initial)) run rfl
    rfl (List.mem_cons_of_mem _ List.mem_cons_self) ⟨_, List.mem_iff_getElem?.mpr ⟨4, rfl⟩⟩
    List.mem_cons_self (by decide)
  have skips : (after pressNode (eachFormat ++ garbled)).shared.log.all Fact.skipped := rfl
  obtain ⟨push, refused⟩ | ⟨push, placed⟩ := served
  · cases List.all_eq_true.mp skips _ refused
  · cases List.all_eq_true.mp skips _ placed

end Centrifugo
