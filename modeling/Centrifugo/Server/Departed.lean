import Centrifugo.Server.Index

/-!
# Clients that left the hub

A removal takes a client out of the connection table first, and then out of the users index
and the shards. A client that left the connection table does not come back, so that what is
under way of a removal never meets a registered connection.
-/

namespace Centrifugo

namespace Server

/-- The client left the connection table, for good. -/
structure Departed (s : Server) (id : ClientId) : Prop where
  known : s.Known id
  free : s.shared.world.hub.conns.lookup id = none
  unborn : ∀ {handle}, .insertConn handle ∈ s.pending → handle.id ≠ id

variable {node : Node} {s s' : Server} {turn : Turn} {id : ClientId}

theorem Departed.step (h : s.Departed id) (registry : Registry s) (move : Step node s turn s') :
    s'.Departed id := by
  refine ⟨h.known.step move, ?_, ?_⟩
  · cases move.outline registry.seated with
    | @access a others _ here _ _ shared _ =>
        have mem : a ∈ s.pending := here.mem_iff.mpr List.mem_cons_self
        rw [shared, Access.perform_hub]
        cases a with
        | insertConn inserted =>
            have apart : id ≠ inserted.id := (h.unborn mem).symm
            rw [Access.hub, Hub.conns_insertConn, Map.lookup_insert_eq, if_neg apart]
            exact h.free
        | removeConn removed slow =>
            rw [Access.hub, Hub.conns_removeConn, Map.lookup_erase_eq, h.free, ite_self]
        | _ => exact h.free
    | registering _ _ _ _ _ shared _ => exact shared ▸ h.free
    | quiet _ _ quiet => exact quiet.hub ▸ h.free
  · intro handle mem
    cases move.outline registry.seated with
    | access _ here _ _ _ there =>
        obtain next | old := List.mem_append.mp (there.mem_iff.mp mem)
        · cases Access.owner_more next
        · exact h.unborn (here.mem_iff.mpr (List.mem_cons_of_mem _ old))
    | registering _ found _ client _ _ pending =>
        obtain same | mem := List.mem_cons.mp (pending.mem_iff.mp mem)
        · cases same
          rintro rfl
          refine registry.fresh found ?_
          have known := h.known
          rw [client] at known
          exact known
        obtain same | old := List.mem_cons.mp mem
        · cases same
        · exact h.unborn old
    | quiet pending starts _ =>
        obtain new | old := List.mem_append.mp (pending.mem_iff.mp mem)
        · cases Indexed.registers_of_starts (starts _ new)
        · exact h.unborn old

end Server

open Server

/-! ## Sweeps -/

/-- The sweep of one shard of the hub. -/
def Access.sweeps? : Access → Option ClientId
  | .sweep id _ => some id
  | _ => none

theorem Access.sweeps?_of_starts {a : Access}
    (h : (∃ client, a.ofClient client) ∨ a.external) : a.sweeps? = none := by
  unfold sweeps?
  split
  next => obtain ⟨_, own⟩ | own := h <;> cases own
  next => rfl

/-- Only a removal leads to a sweep. -/
theorem Access.sweeps?_more {node : Node} {a b : Access} {s : Shared} {id : ClientId}
    (next : b ∈ a.more node s) (sweeps : b.sweeps? = some id) :
    ∃ slow, a = .removeConn id slow := by
  cases follows_of_mem next with
  | @sweep id' slow shard =>
      cases sweeps
      exact ⟨slow, rfl⟩
  | _ => cases sweeps

/-- What is swept is not registered. The sweeps of a session that was never registered are
its own. -/
structure Swept (s : Server) : Prop where
  jobs : ∀ {i : Nat} {job : Job} {a : Access} {id : ClientId}, s.jobs[i]? = some job →
    .access a ∈ job.work → a.sweeps? = some id → s.Known id ∨ job.reader.client.id = id
  tasks : ∀ {a : Access} {id : ClientId}, ∀ task ∈ s.tasks, a ∈ task → a.sweeps? = some id →
    s.Known id
  free : ∀ {a : Access} {id : ClientId}, a ∈ s.pending → a.sweeps? = some id →
    s.shared.world.hub.conns.lookup id = none
  unborn : ∀ {a : Access} {id : ClientId} {handle : ClientHandle}, a ∈ s.pending →
    a.sweeps? = some id → .insertConn handle ∈ s.pending → handle.id ≠ id

namespace Swept

variable {node : Node} {s s' : Server} {turn : Turn} {a : Access} {id : ClientId}

theorem gone (h : Swept s) (mem : a ∈ s.pending) (sweeps : a.sweeps? = some id)
    (known : s.Known id) : s.Departed id :=
  ⟨known, h.free mem sweeps, fun inserting => h.unborn mem sweeps inserting⟩

/-- The removal that a sweep follows from is the session's own, or of a known client. -/
theorem of_removeConn (registry : Registry s) {i : Nat} {reader : Reader} {rest : List Op}
    {slow : Option QueueId}
    (found : s.jobs[i]? = some ⟨reader, .access (.removeConn id slow) :: rest⟩) :
    s.Known id ∨ reader.client.id = id := by
  cases slow with
  | none =>
      have stage : Stage reader.client _ := (registry.seated.seat found).stage
      generalize whole : Op.access (.removeConn id none) :: rest = work at stage
      cases stage with
      | settled settled =>
          obtain mine | nobody := settled _ (whole ▸ List.mem_cons_self)
          · exact .inr (of_decide_eq_true mine).symm
          · cases nobody
      | _ => cases whole
  | some tx =>
      have mem : .removeConn id (some tx) ∈ s.pending :=
        Seated.mem_pending.mpr (.inl ⟨i, _, found, List.mem_cons_self⟩)
      obtain ⟨handle, issued, rfl, _⟩ := registry.pending _ mem
      exact .inl issued.known

theorem jobs_step (h : Swept s) (registry : Registry s) (move : Server.Step node s turn s')
    {i : Nat} {job : Job} (found : s'.jobs[i]? = some job) (mem : .access a ∈ job.work)
    (sweeps : a.sweeps? = some id) : s'.Known id ∨ job.reader.client.id = id := by
  cases move.became found with
  | accepted _ _ _ => cases mem
  | began there prepared begun =>
      obtain ⟨_, _, _, _, rfl, _⟩ | own := (Reader.begin_begun begun).own
      · cases List.mem_singleton.mp mem
      · have own := List.all_eq_true.mp own _ mem
        rw [Access.sweeps?_of_starts (.inl ⟨_, own⟩)] at sweeps
        cases sweeps
  | @worked reader reader' op rest more shared' there ran =>
      have runs := Op.exec_ran ran
      show s'.Known id ∨ reader'.client.id = id
      rw [runs.client.1]
      obtain new | old := List.mem_append.mp mem
      · cases runs.kind (registry.seated.seat there).stage.first with
        | access performed same =>
            obtain ⟨_, rfl⟩ := Access.exec_eq performed
            obtain ⟨b, next, same⟩ := List.mem_map.mp new
            cases same
            obtain ⟨slow, rfl⟩ := Access.sweeps?_more next sweeps
            exact (of_removeConn registry there).imp_left fun known => known.step move
        | registering _ _ _ _ _ _ =>
            simp only [List.mem_cons, Op.access.injEq, List.not_mem_nil, or_false, reduceCtorEq]
              at new
            obtain rfl | rfl := new <;> cases sweeps
        | quiet _ _ own =>
            have own := List.all_eq_true.mp own _ new
            rw [Access.sweeps?_of_starts (.inl ⟨_, own⟩)] at sweeps
            cases sweeps
      · exact (h.jobs there (List.mem_cons_of_mem _ old) sweeps).imp_left fun known =>
          known.step move
  | stayed there => exact (h.jobs there mem sweeps).imp_left fun known => known.step move

theorem tasks_step (h : Swept s) (registry : Registry s) (move : Server.Step node s turn s')
    {task : List Access} (there : task ∈ s'.tasks) (mem : a ∈ task)
    (sweeps : a.sweeps? = some id) : s'.Known id := by
  have old : task ∈ s.tasks → s'.Known id := fun there =>
    (h.tasks task there mem sweeps).step move
  cases move.moved with
  | spawned external =>
      obtain before | new := List.mem_append.mp there
      · exact old before
      · rw [List.mem_singleton.mp new] at mem
        rw [List.mem_singleton.mp mem, Access.sweeps?_of_starts (.inr external)] at sweeps
        cases sweeps
  | @advanced k b rest more shared' found ran =>
      obtain ⟨_, rfl⟩ := Access.exec_eq ran
      have running := List.mem_of_getElem? found
      obtain rfl | before := mem_of_set there
      · obtain next | later := List.mem_append.mp mem
        · obtain ⟨slow, rfl⟩ := Access.sweeps?_more next sweeps
          have nobody := registry.seated.tasks _ running _ List.mem_cons_self
          have due : .removeConn id slow ∈ s.pending :=
            Seated.mem_pending.mpr (.inr ⟨_, running, List.mem_cons_self⟩)
          cases slow with
          | none => cases nobody
          | some tx =>
              obtain ⟨handle, issued, rfl, _⟩ := registry.pending _ due
              exact issued.known.step move
        · exact (h.tasks _ running (List.mem_cons_of_mem _ later) sweeps).step move
      · exact old before
  | _ => exact old there

/-- The session that starts its registration was not swept. -/
theorem not_fresh (h : Swept s) (registry : Registry s) {i : Nat} {reader : Reader}
    {readings : Readings} {cmd : Command} {creds : Session.Creds} {rest : List Op}
    (found : s.jobs[i]? = some ⟨reader, .register readings cmd creds :: rest⟩)
    (mem : a ∈ s.pending) (sweeps : a.sweeps? = some id) : reader.client.id ≠ id := by
  rintro rfl
  obtain ⟨j, job, there, work⟩ | ⟨task, there, inside⟩ := Seated.mem_pending.mp mem
  · obtain known | same := h.jobs there work sweeps
    · exact registry.fresh found known
    · have stage : Stage reader.client _ := (registry.seated.seat found).stage
      generalize whole : Op.register readings cmd creds :: rest = all at stage
      cases stage with
      | counting _ _ _ _ named =>
          have place := registry.seated.distinct there found same (same ▸ named)
          subst place
          rw [found] at there
          cases there
          rw [whole] at work
          cases List.mem_singleton.mp work
      | settled settled => cases settled _ (whole ▸ List.mem_cons_self)
      | _ => cases whole
  · exact registry.fresh found (h.tasks task there inside sweeps)

theorem step (h : Swept s) (registry : Registry s) (indexed : Indexed s)
    (move : Server.Step node s turn s') : Swept s' := by
  suffices ∀ {a : Access} {id : ClientId}, a ∈ s'.pending → a.sweeps? = some id →
      s'.shared.world.hub.conns.lookup id = none ∧
        ∀ {handle}, .insertConn handle ∈ s'.pending → handle.id ≠ id from
    ⟨fun found mem sweeps => h.jobs_step registry move found mem sweeps,
      fun task there mem sweeps => h.tasks_step registry move there mem sweeps,
      fun mem sweeps => (this mem sweeps).1, fun mem sweeps => (this mem sweeps).2⟩
  intro b id mem sweeps
  cases move.outline registry.seated with
  | @access a others _ here place _ shared there =>
      have d : Indexed.Done node s s' a others :=
        ⟨registry, registry.step move, here, place, shared, there⟩
      rw [d.hub]
      obtain next | old := d.came mem
      · obtain ⟨slow, rfl⟩ := Access.sweeps?_more next sweeps
        refine ⟨by rw [Access.hub, Hub.conns_removeConn, AList.lookup_erase], ?_⟩
        rintro handle inserting rfl
        exact indexed.not_removed d (d.came_owned inserting rfl) rfl rfl rfl
      · refine ⟨?_, fun inserting => h.unborn old sweeps (d.came_owned inserting rfl)⟩
        have free := h.free old sweeps
        cases a with
        | insertConn inserted =>
            have apart : id ≠ inserted.id := (h.unborn old sweeps d.mem).symm
            rw [Access.hub, Hub.conns_insertConn, Map.lookup_insert_eq, if_neg apart, free]
        | removeConn removed slow =>
            rw [Access.hub, Hub.conns_removeConn, Map.lookup_erase_eq, free, ite_self]
        | _ => exact free
  | registering _ found _ client _ shared pending =>
      have old : b ∈ s.pending := by
        obtain same | mem := List.mem_cons.mp (pending.mem_iff.mp mem)
        · rw [same] at sweeps
          cases sweeps
        obtain same | old := List.mem_cons.mp mem
        · rw [same] at sweeps
          cases sweeps
        · exact old
      refine ⟨shared ▸ h.free old sweeps, ?_⟩
      intro handle inserting
      obtain same | inserting := List.mem_cons.mp (pending.mem_iff.mp inserting)
      · cases same
        rw [client]
        exact h.not_fresh registry found old sweeps
      obtain same | inserting := List.mem_cons.mp inserting
      · cases same
      · exact h.unborn old sweeps inserting
  | quiet pending starts quiet =>
      obtain new | old := List.mem_append.mp (pending.mem_iff.mp mem)
      · rw [Access.sweeps?_of_starts (starts _ new)] at sweeps
        cases sweeps
      · refine ⟨quiet.hub ▸ h.free old sweeps, ?_⟩
        intro handle inserting
        obtain new | before := List.mem_append.mp (pending.mem_iff.mp inserting)
        · cases Indexed.registers_of_starts (starts _ new)
        · exact h.unborn old sweeps before

theorem initial (h : s.Initial) : Swept s := by
  obtain ⟨hash, ttl, verifier, rfl⟩ := h
  refine ⟨?_, ?_, ?_, ?_⟩
  · intro i job a id found
    cases found
  · intro a id task there
    cases there
  · intro a id mem
    cases mem
  · intro a id handle mem
    cases mem

theorem of_reached (h : Server.Reached node s) : Swept s := by
  have all : Registry s ∧ Indexed s ∧ Swept s :=
    h.invariant (fun s => Registry s ∧ Indexed s ∧ Swept s)
      (fun _ start => ⟨.initial start, .initial start, initial start⟩)
      fun _ _ _ here move =>
        ⟨here.1.step move, here.2.1.step here.1 move, here.2.2.step here.1 here.2.1 move⟩
  exact all.2.2

end Swept

end Centrifugo
