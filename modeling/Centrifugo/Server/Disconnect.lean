import Centrifugo.Server.Answers
import Centrifugo.Server.Balance
import Centrifugo.Server.SlowConsumer

/-!
# What a session leaves behind

At its end, a session takes its entries out of the presence maps and its client out of the
hub. After that the client is nowhere: a broadcast that drops the connection at the same time
may only have to take it out of the users index still. The other clients keep what they have,
unless a Leave of the session finds them too slow.
-/

namespace Centrifugo

open Server

/-! ## The end of the loop -/

namespace Reader

variable {node : Node} {r r' : Reader} {s s' : Shared} {event : Event} {ops : List Op}

theorem begin_of_ended (ended : r.phase = .ended) : r.begin s node event = none := by
  unfold Reader.begin
  cases event <;> simp only [ended]

theorem ended_of_answer {outcome : CommandOutcome} {channels : List String}
    (ended : (r.answer outcome channels).phase = .ended) : r.phase = .ended := by
  unfold answer at ended
  cases phase : r.phase with
  | batch cmds replies =>
      cases disconnect : outcome.disconnect <;> simp [phase, disconnect] at ended
  | ended => rfl
  | _ => simp [phase] at ended

/-- Only `on_disconnect` ends a session. -/
theorem begin_to_ended (h : r.begin s node event = some ((r', s'), ops))
    (ended : r'.phase = .ended) :
    r'.client = r.client.disconnecting.1 ∧ ops = r.client.disconnecting.2.map .access := by
  have before : r.phase ≠ .ended := by
    intro before
    rw [begin_of_ended before] at h
    cases h
  unfold Reader.begin at h
  cases event with
  | frame cmds =>
      simp only at h
      split at h <;> cases h <;> cases ended
  | hangUp =>
      simp only at h
      split at h <;> cases h
      cases ended
  | presenceTick =>
      simp only at h
      split at h <;> cases h
      exact absurd ended before
  | expiryTick readings now =>
      simp only at h
      split at h
      next =>
        cases h
        obtain same | leaving := @onExpiryTick_phase r s node readings now
        · exact absurd (same ▸ ended) before
        · rw [leaving] at ended
          cases ended
      next => cases h
  | signal signal =>
      simp only at h
      split at h
      next =>
        cases h
        obtain same | leaving := @onSignal_phase r signal
        · exact absurd (same ▸ ended) before
        · rw [leaving] at ended
          cases ended
      next => cases h
  | command readings =>
      simp only at h
      split at h
      next cmd cmds replies phase =>
        split at h
        next =>
          cases h
          cases ended
        next =>
          cases onCommand_commanded node _ s readings cmd (Option.some.inj h) with
          | refused _ => cases ended_of_answer ended
          | identified _ _ => cases ended_of_answer ended
          | connecting _ _ _ _ => cases ended
          | subscribing _ _ _ _ _ => cases ended
          | publishing _ _ _ _ => cases ended
          | unsubscribing _ _ => cases ended
          | instant after _ _ _ => cases ended_of_answer ended
      next =>
        cases h
        cases ended
      next => cases h
  | reply =>
      simp only at h
      split at h
      next replies disconnect phase =>
        obtain ⟨_, same, _⟩ | ⟨_, leaving⟩ | ⟨_, same, _⟩ | ⟨_, _, same, _⟩ :=
          onReply_cases h
        · rw [same] at ended
          cases ended
        · rw [leaving] at ended
          cases ended
        · rw [same] at ended
          cases ended
        · rw [same] at ended
          cases ended
      next => cases h
  | flush =>
      simp only at h
      split at h
      next disconnect phase =>
        cases disconnect <;> cases h <;> cases ended
      next => cases h
  | leave =>
      simp only at h
      split at h
      next =>
        cases h
        exact ⟨rfl, rfl⟩
      next => cases h
  | interference world => cases h

end Reader

theorem Op.Ran.ended {node : Node} {op : Op} {r r' : Reader} {s s' : Shared} {more : List Op}
    (ran : Ran node r s op r' s' more) (ended : r'.phase = .ended) : r.phase = .ended := by
  cases ran with
  | overLimit _ _ _ _ =>
      have before := Reader.ended_of_answer ended
      exact before
  | connected _ _ _ _ _ => exact Reader.ended_of_answer ended
  | subscribed _ _ _ _ _ _ _ =>
      have before := Reader.ended_of_answer ended
      exact before
  | answered _ => exact Reader.ended_of_answer ended
  | _ => exact ended

/-- A session on which `on_disconnect` was called. -/
structure Job.Ended (s : Server) (job : Job) : Prop where
  free : ∀ channel, job.reader.client.isSubscribed channel = false
  accesses : ∀ op ∈ job.work, ∃ a : Access, op = .access a ∧ a.registers = false ∧
    op.joins = false
  removed : .access (.removeConn job.reader.client.id none) ∈ job.work ∨
    s.shared.world.hub.conns.lookup job.reader.client.id = none

namespace Server

variable {node : Node} {s s' : Server} {turn : Turn} {i : Nat} {job : Job}

/-- No registration of the client of such a session is under way. -/
theorem conns_ended {id : ClientId} (seated : Seated s) (move : Step node s turn s')
    (found : s.jobs[i]? = some job) (same : job.reader.client.id = id)
    (accesses : ∀ op ∈ job.work, ∃ a : Access, op = .access a ∧ a.registers = false ∧
      op.joins = false)
    (free : s.shared.world.hub.conns.lookup id = none) :
    s'.shared.world.hub.conns.lookup id = none := by
  cases move.outline seated with
  | @access a _ _ here _ _ shared _ =>
      have mem : a ∈ s.pending := here.mem_iff.mpr List.mem_cons_self
      rw [shared, Access.perform_hub]
      cases a with
      | insertConn inserted =>
          have apart : id ≠ inserted.id := by
            rintro rfl
            obtain ⟨j, other, there, work, authenticated, own, _⟩ := seated.registering mem rfl
            have own : inserted.id = other.reader.client.id := Option.some.inj own
            have named := (seated.seat there).named authenticated
            have place := seated.distinct there found (own.symm.trans same.symm) named
            subst place
            rw [found] at there
            cases there
            obtain ⟨b, inside, apart, _⟩ := accesses _ work
            cases inside
            cases apart
          rw [Access.hub, Hub.conns_insertConn, Map.lookup_insert_eq, if_neg apart, free]
      | removeConn removed slow =>
          rw [Access.hub, Hub.conns_removeConn, Map.lookup_erase_eq, free, ite_self]
      | _ => exact free
  | registering _ _ _ _ _ shared _ => exact shared ▸ free
  | quiet _ _ quiet => exact quiet.hub ▸ free

theorem ended_step (reached : Reached node s) (move : Step node s turn s')
    (all : ∀ {i : Nat} {job : Job}, s.jobs[i]? = some job → job.reader.phase = .ended →
      job.Ended s) (found : s'.jobs[i]? = some job) (ended : job.reader.phase = .ended) :
    job.Ended s' := by
  have seated : Seated s := .of_reached reached
  have stay : s.jobs[i]? = some job → job.Ended s' := by
    intro old
    obtain ⟨free, accesses, removed⟩ := all old ended
    exact ⟨free, accesses, removed.imp_right (conns_ended seated move old rfl accesses)⟩
  cases move.became found with
  | accepted _ _ _ => cases ended
  | began there prepared begun =>
      obtain ⟨client, rfl⟩ := Reader.begin_to_ended begun ended
      refine ⟨?_, ?_, .inl ?_⟩
      · intro channel
        show Client.isSubscribed _ channel = false
        rw [client]
        rfl
      · intro op mem
        obtain ⟨a, inside, rfl⟩ := List.mem_map.mp mem
        refine ⟨a, rfl, ?_, Client.joins_disconnecting _ inside⟩
        exact Access.registers_of_ofClient
          (List.all_eq_true.mp (Client.own_disconnecting _) a inside)
      · refine List.mem_map.mpr ⟨_, List.mem_append_right _ ?_, rfl⟩
        rw [client]
        exact List.mem_singleton_self _
  | worked there ran =>
      obtain ⟨free, accesses, removed⟩ := all there ((Op.exec_ran ran).ended ended)
      obtain ⟨a, rfl, _, _⟩ := accesses _ List.mem_cons_self
      cases Op.exec_ran ran with
      | accessed performed =>
          obtain ⟨rfl, rfl⟩ := Access.exec_eq performed
          refine ⟨free, ?_, ?_⟩
          · intro op mem
            obtain new | old := List.mem_append.mp mem
            · obtain ⟨b, next, rfl⟩ := List.mem_map.mp new
              exact ⟨b, rfl, Access.registers_of_owner (Access.owner_more next),
                Access.joins_more next⟩
            · exact accesses op (List.mem_cons_of_mem _ old)
          · obtain due | removed := removed
            · obtain same | later := List.mem_cons.mp due
              · right
                have current : s.current (.work i) = some (.access a) := by
                  simp [Server.current, there]
                rw [move.performs current, Access.perform_hub, ← Op.access.inj same, Access.hub,
                  Hub.conns_removeConn]
                exact AList.lookup_erase _ _
              · exact .inl (List.mem_append_right _ later)
            · exact .inr (conns_ended seated move there rfl accesses removed)
  | stayed there => exact stay there

theorem ended_of_reached (h : Reached node s) (found : s.jobs[i]? = some job)
    (ended : job.reader.phase = .ended) : job.Ended s := by
  have all : Reached node s ∧ ∀ {i : Nat} {job : Job}, s.jobs[i]? = some job →
      job.reader.phase = .ended → job.Ended s := by
    refine h.invariant (fun s => Reached node s ∧ ∀ {i : Nat} {job : Job},
      s.jobs[i]? = some job → job.reader.phase = .ended → job.Ended s) ?_ ?_
    · intro s start
      refine ⟨.start start, ?_⟩
      obtain ⟨hash, ttl, verifier, rfl⟩ := start
      intro i job found
      cases found
    · rintro s turn s' ⟨reached, all⟩ move
      exact ⟨reached.next move, ended_step reached move all⟩
  exact all.2 found ended

/-! ## Between two commands -/

/-- A session without work has an entry only for a channel that it holds. -/
theorem held_of_has (h : Reached node s) (found : s.jobs[i]? = some job) (idle : job.work = [])
    {slot : Slot} (same : slot.id = job.reader.client.id) (entered : slot.has s.shared.world) :
    slot.keeps node ∧ job.reader.client.isSubscribed slot.channel := by
  have fits := balanced_of_reached h found slot same
  rw [due, idle, Slot.settled_nil] at fits
  exact fits.sound entered

theorem has_of_held (h : Reached node s) (found : s.jobs[i]? = some job) (idle : job.work = [])
    {slot : Slot} (same : slot.id = job.reader.client.id) (kept : slot.keeps node)
    (held : job.reader.client.isSubscribed slot.channel) :
    slot.has s.shared.world ∨ s.Lost slot := by
  have fits := balanced_of_reached h found slot same
  rw [due, idle, Slot.settled_nil] at fits
  exact fits.complete kept held

/-- A session without work is in a presence map exactly when it holds the channel with presence
on. -/
theorem mem_presenceOf_iff (h : Reached node s) (found : s.jobs[i]? = some job)
    (idle : job.work = []) (channel : String) :
    job.reader.client.id ∈ s.shared.world.engine.presenceOf channel ↔
      ∃ state, job.reader.client.subscriptions.lookup channel = some state ∧ state.presence := by
  have configured := (configured_of_reached h found).held channel
  constructor
  · intro mem
    obtain ⟨kept, held⟩ := @held_of_has _ _ _ _ h found idle
      ⟨.presence, job.reader.client.id, channel⟩ rfl (decide_eq_true mem)
    obtain ⟨state, there⟩ := Option.isSome_iff_exists.mp held
    exact ⟨state, there, (configured state there).trans kept⟩
  · rintro ⟨state, there, presence⟩
    have held : job.reader.client.isSubscribed channel = true := by
      rw [Client.isSubscribed, there]
      rfl
    obtain entered | ⟨table, _⟩ := @has_of_held _ _ _ _ h found idle
      ⟨.presence, job.reader.client.id, channel⟩ rfl ((configured state there).symm.trans presence)
      held
    · exact of_decide_eq_true entered
    · cases table

/-! ## After the end -/

/-- The client is nowhere, except that a broadcast may still have to take it out of the index. -/
structure Absent (s : Server) (id : ClientId) : Prop where
  conns : s.shared.world.hub.conns.lookup id = none
  subscribers : ∀ channel, id ∉ s.shared.world.hub.subscriberIds channel
  presence : ∀ channel, id ∉ s.shared.world.engine.presenceOf channel
  users : ∀ user, id ∈ s.shared.world.hub.userIds user → .unindexUser user id ∈ s.pending

theorem absent_of_ended (h : Reached node s) (found : s.jobs[i]? = some job)
    (ended : job.reader.phase = .ended) (idle : job.work = []) :
    s.Absent job.reader.client.id := by
  obtain ⟨free, _, removed⟩ := ended_of_reached h found ended
  have conns := removed.resolve_left (by simp [idle])
  have nothing : ∀ table channel,
      (⟨table, job.reader.client.id, channel⟩ : Slot).has s.shared.world = false := by
    intro table channel
    refine Bool.eq_false_iff.mpr fun entered => ?_
    have held := (held_of_has h found idle rfl entered).2
    rw [free channel] at held
    cases held
  refine ⟨conns, fun channel => ?_, fun channel => ?_, ?_⟩
  · exact of_decide_eq_false (nothing .subscribers channel)
  · exact of_decide_eq_false (nothing .presence channel)
  · intro user listed
    refine ((Indexed.of_reached h).listed listed).resolve_left ?_
    rintro ⟨handle, there, _⟩
    rw [conns] at there
    cases there

end Server

/-! ## The entries of others -/

/-- The entries of a client are as they were. -/
structure World.Untouched (w w' : World) (id : ClientId) : Prop where
  conns : w'.hub.conns.lookup id = w.hub.conns.lookup id
  users : ∀ user, id ∈ w'.hub.userIds user ↔ id ∈ w.hub.userIds user
  subscribers : ∀ channel, id ∈ w'.hub.subscriberIds channel ↔ id ∈ w.hub.subscriberIds channel
  presence : ∀ channel,
    (w'.engine.presenceOf channel).lookup id = (w.engine.presenceOf channel).lookup id

namespace Access

/-- The access is part of the removal of this client. -/
def removes? : Access → Option ClientId
  | .removeConn id _ | .unindexUser _ id | .sweep id _ => some id
  | _ => none

variable {node : Node} {a b : Access} {s : Shared} {id : ClientId}

theorem untouched (own : a.owner ≠ some id) (removes : a.removes? ≠ some id) :
    s.world.Untouched (a.perform node s).world id := by
  cases a with
  | insertConn handle =>
      have apart : id ≠ handle.id := fun same => own (same ▸ rfl)
      refine ⟨?_, fun _ => Iff.rfl, fun _ => Iff.rfl, fun _ => rfl⟩
      rw [perform_hub, Access.hub, Hub.conns_insertConn, Map.lookup_insert_eq, if_neg apart]
  | indexUser user other =>
      have apart : id ≠ other := fun same => own (same ▸ rfl)
      refine ⟨rfl, fun name => ?_, fun _ => Iff.rfl, fun _ => rfl⟩
      rw [perform_hub, Access.hub, Hub.mem_indexUser]
      exact or_iff_right fun both => apart both.1
  | removeConn other slow =>
      have apart : id ≠ other := fun same => removes (same ▸ rfl)
      refine ⟨?_, fun _ => Iff.rfl, fun _ => Iff.rfl, fun _ => rfl⟩
      rw [perform_hub, Access.hub, Hub.conns_removeConn, Map.lookup_erase_eq, if_neg apart]
  | unindexUser user other =>
      have apart : id ≠ other := fun same => removes (same ▸ rfl)
      refine ⟨rfl, fun name => ?_, fun _ => Iff.rfl, fun _ => rfl⟩
      rw [perform_hub, Access.hub, Hub.mem_unindexUser]
      exact and_iff_right fun both => apart both.1
  | sweep other shard =>
      have apart : id ≠ other := fun same => removes (same ▸ rfl)
      refine ⟨rfl, fun _ => Iff.rfl, fun name => ?_, fun _ => rfl⟩
      rw [perform_hub, Access.hub, Hub.mem_sweep]
      exact and_iff_right fun both => apart both.1
  | subscribe other channel =>
      have apart : id ≠ other := fun same => own (same ▸ rfl)
      refine ⟨rfl, fun _ => Iff.rfl, fun name => ?_, fun _ => rfl⟩
      rw [perform_hub, Access.hub, Hub.mem_subscribe]
      exact or_iff_right fun both => apart both.1
  | unsubscribe other channel =>
      have apart : id ≠ other := fun same => own (same ▸ rfl)
      refine ⟨rfl, fun _ => Iff.rfl, fun name => ?_, fun _ => rfl⟩
      rw [perform_hub, Access.hub, Hub.mem_unsubscribe]
      exact and_iff_right fun both => apart both.1
  | addPresence channel other info =>
      have apart : id ≠ other := fun same => own (same ▸ rfl)
      refine ⟨rfl, fun _ => Iff.rfl, fun _ => Iff.rfl, fun name => ?_⟩
      rw [perform_engine, Access.engine, MemoryEngine.lookup_addPresence,
        if_neg fun both => apart both.1]
  | removePresence channel other =>
      have apart : id ≠ other := fun same => own (same ▸ rfl)
      refine ⟨rfl, fun _ => Iff.rfl, fun _ => Iff.rfl, fun name => ?_⟩
      rw [perform_engine, Access.engine, MemoryEngine.lookup_removePresence,
        if_neg fun both => apart both.1]
  | append clock fresh channel data info =>
      refine ⟨rfl, fun _ => Iff.rfl, fun _ => Iff.rfl, fun name => ?_⟩
      simp only [perform_engine, Access.engine, MemoryEngine.presenceOf,
        MemoryEngine.presence_append]
  | _ => exact ⟨rfl, fun _ => Iff.rfl, fun _ => Iff.rfl, fun _ => rfl⟩

theorem removes?_of_starts (h : (∃ client, a.ofClient client) ∨ a.external)
    (removes : a.removes? = some id) : a.owner = some id := by
  cases a with
  | removeConn other slow =>
      cases removes
      cases slow with
      | none => rfl
      | some tx => obtain ⟨_, own⟩ | own := h <;> cases own
  | unindexUser user other => obtain ⟨_, own⟩ | own := h <;> cases own
  | sweep other shard => obtain ⟨_, own⟩ | own := h <;> cases own
  | _ => cases removes

end Access

namespace Server

variable {node : Node} {s s' : Server} {turn : Turn} {i : Nat} {job : Job} {id : ClientId}

/-- A broadcast found no room in the queue of the client. -/
def Slow (s : Server) (id : ClientId) : Prop :=
  ∃ n push handle, .offered n push handle .refused ∈ s.shared.log ∧ handle.id = id

theorem Slow.step (h : s.Slow id) (seated : Seated s) (move : Step node s turn s') :
    s'.Slow id := by
  obtain ⟨n, push, handle, refused, same⟩ := h
  obtain ⟨facts, log, _⟩ := move.facts seated
  exact ⟨n, push, handle, log ▸ List.mem_append_left _ refused, same⟩

/-- What follows from a removal is part of it. Another one starts with a refused offer. -/
theorem removes_or_slow {a b : Access} (move : Step node s turn s')
    (current : s.current turn = some (.access a)) (next : b ∈ a.more node s.shared)
    (removes : b.removes? = some id) : a.removes? = some id ∨ s'.Slow id := by
  cases Access.follows_of_mem next with
  | unindex _ => exact .inl removes
  | sweep _ => exact .inl removes
  | @drop n push handle refused =>
      cases removes
      refine .inr ⟨n, push, handle, ?_, rfl⟩
      rw [move.performs current, Access.perform_log, Access.facts, refused]
      exact List.mem_append_right _ (List.mem_singleton_self _)
  | _ => cases removes

end Server

/-- A session removes its own client. Everybody else who is removed was found slow. -/
structure Removals (s : Server) : Prop where
  jobs : ∀ {i : Nat} {job : Job} {a : Access} {id : ClientId}, s.jobs[i]? = some job →
    .access a ∈ job.work → a.removes? = some id → job.reader.client.id = id ∨ s.Slow id
  tasks : ∀ {a : Access} {id : ClientId}, ∀ task ∈ s.tasks, a ∈ task → a.removes? = some id →
    s.Slow id

namespace Removals

variable {node : Node} {s s' : Server} {turn : Turn} {a : Access} {id : ClientId}

theorem jobs_step (h : Removals s) (seated : Seated s) (move : Server.Step node s turn s')
    {i : Nat} {job : Job} (found : s'.jobs[i]? = some job) (mem : .access a ∈ job.work)
    (removes : a.removes? = some id) : job.reader.client.id = id ∨ s'.Slow id := by
  have own : a.ofClient job.reader.client → job.reader.client.id = id := fun own =>
    (seated.step move).id_of_owner found mem (Access.removes?_of_starts (.inl ⟨_, own⟩) removes)
  cases move.became found with
  | accepted _ _ _ => cases mem
  | began there _ begun =>
      obtain ⟨_, _, _, _, rfl, _⟩ | mine := (Reader.begin_begun begun).own
      · cases List.mem_singleton.mp mem
      · exact .inl (own (List.all_eq_true.mp mine _ mem))
  | @worked reader reader' op rest more shared' there ran =>
      have runs := Op.exec_ran ran
      obtain new | old := List.mem_append.mp mem
      · cases runs.kind (seated.seat there).stage.first with
        | @access a accesses performed same =>
            obtain ⟨_, rfl⟩ := Access.exec_eq performed
            obtain ⟨b, next, same⟩ := List.mem_map.mp new
            cases same
            have current : s.current (.work i) = some (.access a) := by
              simp [Server.current, there]
            obtain before | slow := removes_or_slow move current next removes
            · exact (h.jobs there List.mem_cons_self before).imp
                (fun same => runs.client.1.trans same) fun slow => slow.step seated move
            · exact .inr slow
        | registering _ _ _ _ _ _ =>
            simp only [List.mem_cons, Op.access.injEq, List.not_mem_nil, or_false, reduceCtorEq]
              at new
            obtain rfl | rfl := new <;> cases removes
        | quiet _ _ mine => exact .inl (own (List.all_eq_true.mp mine _ new))
      · exact (h.jobs there (List.mem_cons_of_mem _ old) removes).imp
          (fun same => runs.client.1.trans same) fun slow => slow.step seated move
  | stayed there =>
      exact (h.jobs there mem removes).imp_right fun slow => slow.step seated move

theorem tasks_step (h : Removals s) (seated : Seated s) (move : Server.Step node s turn s')
    {task : List Access} (there : task ∈ s'.tasks) (mem : a ∈ task)
    (removes : a.removes? = some id) : s'.Slow id := by
  have old : task ∈ s.tasks → s'.Slow id := fun there =>
    (h.tasks task there mem removes).step seated move
  cases move.moved with
  | spawned external =>
      obtain before | new := List.mem_append.mp there
      · exact old before
      · rw [List.mem_singleton.mp new] at mem
        rw [List.mem_singleton.mp mem] at removes
        have owner := Access.removes?_of_starts (.inr external) removes
        rw [Access.owner_of_external external] at owner
        cases owner
  | @advanced k b rest more shared' found ran =>
      obtain ⟨_, rfl⟩ := Access.exec_eq ran
      have running := List.mem_of_getElem? found
      obtain rfl | before := mem_of_set there
      · obtain next | later := List.mem_append.mp mem
        · have current : s.current (.task k) = some (.access b) := by
            simp [Server.current, found]
          obtain before | slow := removes_or_slow move current next removes
          · exact (h.tasks _ running List.mem_cons_self before).step seated move
          · exact slow
        · exact (h.tasks _ running (List.mem_cons_of_mem _ later) removes).step seated move
      · exact old before
  | _ => exact old there

theorem initial (h : s.Initial) : Removals s := by
  obtain ⟨hash, ttl, verifier, rfl⟩ := h
  refine ⟨?_, ?_⟩
  · intro i job a id found
    cases found
  · intro a id task there
    cases there

theorem of_reached (h : Server.Reached node s) : Removals s := by
  have all : Seated s ∧ Removals s :=
    h.invariant (fun s => Seated s ∧ Removals s) (fun _ start => ⟨.initial start, initial start⟩)
      fun _ _ _ here move => ⟨here.1.step move,
        fun found mem removes => here.2.jobs_step here.1 move found mem removes,
        fun _ there mem removes => here.2.tasks_step here.1 move there mem removes⟩
  exact all.2

end Removals

/-- The session whose turn it is. -/
def Turn.session : Turn → Option Nat
  | .event i _ | .work i => some i
  | _ => none

theorem Shared.Quiet.untouched {s s' : Shared} (quiet : s.Quiet s') (id : ClientId) :
    s.world.Untouched s'.world id := by
  refine ⟨by rw [quiet.hub], fun _ => by rw [quiet.hub], fun _ => by rw [quiet.hub], ?_⟩
  intro channel
  simp only [MemoryEngine.presenceOf, quiet.presence]

theorem World.Untouched.trans {w w' w'' : World} {id : ClientId} (h : w.Untouched w' id)
    (h' : w'.Untouched w'' id) : w.Untouched w'' id where
  conns := h'.conns.trans h.conns
  users user := (h'.users user).trans (h.users user)
  subscribers channel := (h'.subscribers channel).trans (h.subscribers channel)
  presence channel := (h'.presence channel).trans (h.presence channel)

namespace Server

variable {node : Node} {s s' : Server} {turn : Turn} {i : Nat} {job : Job}

/-- A session does nothing in a turn of somebody else. -/
theorem Step.rests (move : Step node s turn s') (found : s.jobs[i]? = some job)
    (elsewhere : turn.session ≠ some i) : s'.jobs[i]? = some job := by
  obtain ⟨job', found', _⟩ := move.follows found
  cases move.became found' with
  | accepted _ _ last =>
      have inside := (List.getElem?_eq_some_iff.mp found).1
      exact absurd last inside.ne
  | began _ _ _ => exact absurd rfl elsewhere
  | worked _ _ => exact absurd rfl elsewhere
  | stayed there =>
      rw [found] at there
      cases there
      exact found'

theorem untouched_step (h : Reached node s) (move : Step node s turn s')
    (found : s.jobs[i]? = some job) (authenticated : job.reader.client.authenticated)
    (elsewhere : turn.session ≠ some i) :
    s.shared.world.Untouched s'.shared.world job.reader.client.id ∨
      s.Slow job.reader.client.id := by
  have seated : Seated s := .of_reached h
  have removals : Removals s := .of_reached h
  have named := (seated.seat found).named authenticated
  cases move.moved with
  | began _ _ prepared begun =>
      have world := (Reader.prepare_quiet prepared).2
      exact .inl (world ▸ (Reader.begin_begun begun).quiet.untouched _)
  | @worked k reader reader' op rest more shared' there ran =>
      have apart : job.reader.client.id ≠ reader.client.id := by
        intro same
        exact elsewhere (congrArg some (seated.distinct found there same named).symm)
      cases (Op.exec_ran ran).kind (seated.seat there).stage.first with
      | @access a _ performed _ =>
          obtain ⟨rfl, _⟩ := Access.exec_eq performed
          by_cases removes : a.removes? = some job.reader.client.id
          · obtain same | slow := removals.jobs there List.mem_cons_self removes
            · exact absurd same.symm apart
            · exact .inr slow
          · refine .inl (Access.untouched ?_ removes)
            intro own
            exact apart (seated.id_of_owner there List.mem_cons_self own).symm
      | registering _ _ _ _ _ same =>
          rw [same]
          exact .inl ((Shared.Quiet.refl s.shared).untouched _)
      | quiet _ quiet _ => exact .inl (quiet.untouched _)
  | @advanced k a rest more shared' there ran =>
      obtain ⟨rfl, _⟩ := Access.exec_eq ran
      have running := List.mem_of_getElem? there
      by_cases removes : a.removes? = some job.reader.client.id
      · exact .inr (removals.tasks _ running List.mem_cons_self removes)
      · refine .inl (Access.untouched ?_ removes)
        rw [seated.tasks _ running _ List.mem_cons_self]
        intro own
        cases own
  | @slowClosed tx _ _ =>
      obtain ⟨hub, engine⟩ := s.shared.world.send_hub tx (.close .slow)
      refine .inl ⟨by rw [hub], fun _ => by rw [hub], fun _ => by rw [hub], fun channel => ?_⟩
      show (MemoryEngine.presenceOf _ channel).lookup _ = _
      rw [engine]
  | _ => exact .inl ⟨rfl, fun _ => Iff.rfl, fun _ => Iff.rfl, fun _ => rfl⟩

/-- As long as a session takes no turn, the entries of its client stay as they are whatever the
others do, unless a broadcast finds the client too slow. -/
theorem others_untouched {turns : List Turn} (h : Reached node s) (found : s.jobs[i]? = some job)
    (authenticated : job.reader.client.authenticated)
    (run : Steps (guarded (Step node) fun _ turn => turn.session ≠ some i) s turns s') :
    s.shared.world.Untouched s'.shared.world job.reader.client.id ∨
      s'.Slow job.reader.client.id := by
  have all : Reached node s' ∧ s'.jobs[i]? = some job ∧
      (s.shared.world.Untouched s'.shared.world job.reader.client.id ∨
        s'.Slow job.reader.client.id) := by
    refine run.invariant (fun m => Reached node m ∧ m.jobs[i]? = some job ∧
      (s.shared.world.Untouched m.shared.world job.reader.client.id ∨
        m.Slow job.reader.client.id)) ?_
      ⟨h, found, .inl ((Shared.Quiet.refl s.shared).untouched _)⟩
    rintro m turn m' ⟨reached, there, kept⟩ ⟨elsewhere, move⟩
    have seated : Seated m := .of_reached reached
    refine ⟨reached.next move, move.rests there elsewhere, ?_⟩
    obtain before | slow := kept
    · obtain now | slow := untouched_step reached move there authenticated elsewhere
      · exact .inl (before.trans now)
      · exact .inr (slow.step seated move)
    · exact .inr (slow.step seated move)
  exact all.2.2

end Server

/-! ## A reader that comes and goes -/

namespace Sample

/-- Everybody sees who reads the news, and is told who comes and goes. -/
def openNode : Node :=
  { pressNode with namespaces := { default := { presence := true, joinLeave := true } } }

/-- A reader in its first frame, with its subscription done. -/
def visiting : List Turn := joins 0 .protobuf "2a1f" ++ List.replicate 3 (.work 0)

/-- It gets its reply, hangs up and is removed. -/
def visited : List Turn := visiting ++ [
  .event 0 (commandAs "7c3e"), .event 0 .reply, .event 0 .flush, .work 0, .work 0,
  .event 0 .hangUp, .event 0 .leave] ++ List.replicate 21 (.work 0)

end Sample

namespace Server

open Sample

theorem mem_presenceOf_iff_visiting : ∃ job, (after openNode visiting).jobs[0]? = some job ∧
    (job.reader.client.id ∈ (after openNode visiting).shared.world.engine.presenceOf "news" ↔
      ∃ state, job.reader.client.subscriptions.lookup "news" = some state ∧ state.presence) := by
  have there : (after openNode visiting).jobs[0]?.any fun job => job.work.isEmpty := rfl
  obtain ⟨job, found, idle⟩ := Option.any_eq_true _ _ |>.mp there
  exact ⟨job, found,
    mem_presenceOf_iff (after_reached rfl) found (List.isEmpty_iff.mp idle) "news"⟩

theorem absent_of_ended_visited : ∃ job, (after openNode visited).jobs[0]? = some job ∧
    (after openNode visited).Absent job.reader.client.id := by
  have idles : (after openNode visited).jobs[0]?.all fun job => job.work.isEmpty := rfl
  have ended : (after openNode visited).jobs[0]?.map (fun job => job.reader.phase) = some .ended :=
    rfl
  obtain ⟨job, found, ended⟩ := Option.map_eq_some_iff.mp ended
  have idle := Option.all_eq_true _ _ |>.mp idles job found
  exact ⟨job, found,
    absent_of_ended (after_reached rfl) found ended (List.isEmpty_iff.mp idle)⟩

theorem others_untouched_second :
    (after pressNode (joins 0 .protobuf "2a1f")).shared.world.Untouched
        (after pressNode twoReaders).shared.world "2a1f" ∨
      (after pressNode twoReaders).Slow "2a1f" := by
  have there : (after pressNode (joins 0 .protobuf "2a1f")).jobs[0]?.any fun job =>
      job.reader.client.authenticated && job.reader.client.id = "2a1f" := rfl
  obtain ⟨job, found, holds⟩ := Option.any_eq_true _ _ |>.mp there
  obtain ⟨authenticated, id⟩ := Bool.and_eq_true_iff.mp holds
  have run : Steps (guarded (Step pressNode) fun _ turn => turn.session ≠ some 0)
      (after pressNode (joins 0 .protobuf "2a1f")) (joins 1 .protobuf "7c03")
      (after pressNode twoReaders) := .guarded_of_foldlM (by rfl)
  have kept := others_untouched (after_reached rfl) found authenticated run
  rwa [of_decide_eq_true id] at kept

end Server

end Centrifugo
