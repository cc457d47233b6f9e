import Centrifugo.Server.Seats

/-!
# What the hub knows

The hub, and the accesses under way, name authenticated sessions only. An entry of the users
index belongs to a registered connection, unless its removal is under way; and a registered
connection has its entry, unless its registration is under way.
-/

namespace Centrifugo

namespace Server

/-! ## Sessions that others know -/

/-- An authenticated session has this id. -/
def Known (s : Server) (id : ClientId) : Prop :=
  ∃ (i : Nat) (job : Job), s.jobs[i]? = some job ∧ job.reader.client.authenticated ∧
    job.reader.client.id = id

/-- The handle is the one of an authenticated session. -/
def Issued (s : Server) (handle : ClientHandle) : Prop :=
  ∃ job : Job, s.jobs[handle.tx]? = some job ∧ job.reader.client.authenticated ∧
    job.reader.client.id = handle.id ∧ job.reader.client.proto = handle.proto ∧
    handle.ctrl = some handle.tx

variable {node : Node} {s s' : Server} {turn : Turn} {id : ClientId} {handle : ClientHandle}
  {a b : Access}

theorem Issued.known (h : s.Issued handle) : s.Known handle.id := by
  obtain ⟨job, found, authenticated, id, _, _⟩ := h
  exact ⟨_, job, found, authenticated, id⟩

/-- A session is related to what a turn makes of it, when this is so for its events and
operations. -/
theorem Step.related (related : Reader → Reader → Prop) (refl : ∀ r, related r r)
    (begins : ∀ {r r' shared shared' event ops},
      r.begin shared node event = some ((r', shared'), ops) → related r r')
    (execs : ∀ {r r' shared shared' op more},
      Op.exec node op (r, shared) = some ((r', shared'), more) → related r r')
    {i : Nat} {job : Job} (move : Step node s turn s') (found : s.jobs[i]? = some job) :
    ∃ job', s'.jobs[i]? = some job' ∧ related job.reader job'.reader := by
  have inside := (List.getElem?_eq_some_iff.mp found).1
  have one : ∀ {j : Nat} {reader reader' : Reader} {work work' : List Op},
      s.jobs[j]? = some ⟨reader, work⟩ → related reader reader' →
        ∃ job', (s.jobs.set j ⟨reader', work'⟩)[i]? = some job' ∧
          related job.reader job'.reader := by
    intro j reader reader' work work' there one
    by_cases same : j = i
    · subst same
      rw [found] at there
      cases there
      exact ⟨_, List.getElem?_set_self inside, one⟩
    · exact ⟨job, by rw [List.getElem?_set_ne same, found], refl _⟩
  cases move.moved with
  | accepted proto transport =>
      exact ⟨job, by rw [onAccept, List.getElem?_append_left inside, found], refl _⟩
  | began there _ _ begun => exact one there (begins begun)
  | worked there ran => exact one there (execs ran)
  | _ => exact ⟨job, found, refl _⟩

/-- The client of a session after a turn. -/
theorem Step.follows {i : Nat} {job : Job} (move : Step node s turn s')
    (found : s.jobs[i]? = some job) :
    ∃ job', s'.jobs[i]? = some job' ∧ job.reader.client.Follows job'.reader.client :=
  move.related (fun r r' => r.client.Follows r'.client) (fun r => .refl r.client)
    (fun begun => (Reader.begin_begun begun).client.1) (fun ran => (Op.exec_ran ran).client.2) found

theorem Known.step (h : s.Known id) (move : Step node s turn s') : s'.Known id := by
  obtain ⟨i, job, found, authenticated, rfl⟩ := h
  obtain ⟨job', found', follows⟩ := move.follows found
  exact ⟨i, job', found', follows.authenticated authenticated, follows.id authenticated⟩

theorem Issued.step (h : s.Issued handle) (move : Step node s turn s') : s'.Issued handle := by
  obtain ⟨job, found, authenticated, id, proto, ctrl⟩ := h
  obtain ⟨job', found', follows⟩ := move.follows found
  exact ⟨job', found', follows.authenticated authenticated, (follows.id authenticated).trans id,
    follows.proto.trans proto, ctrl⟩

end Server

open Server

/-! ## Whose accesses are under way -/

namespace Seated

variable {node : Node} {s s' : Server} {turn : Turn} {id : ClientId} {handle : ClientHandle}
  {user channel : String} {a b : Access}

theorem mem_pending : a ∈ s.pending ↔
    (∃ (i : Nat) (job : Job), s.jobs[i]? = some job ∧ .access a ∈ job.work) ∨
      ∃ task ∈ s.tasks, a ∈ task := by
  rw [pending, List.mem_append, List.mem_flatMap, List.mem_flatten]
  refine or_congr ?_ Iff.rfl
  constructor
  · intro h
    obtain ⟨job, mem, inside⟩ := h
    obtain ⟨i, found⟩ := List.mem_iff_getElem?.mp mem
    obtain ⟨op, work, same⟩ := List.mem_filterMap.mp inside
    refine ⟨i, job, found, ?_⟩
    cases op with
    | access b =>
        cases same
        exact work
    | _ => cases same
  · intro h
    obtain ⟨i, job, found, work⟩ := h
    exact ⟨job, List.mem_of_getElem? found, List.mem_filterMap.mpr ⟨_, work, rfl⟩⟩

/-- An access in a client's name is work of its session. -/
theorem owned (h : Seated s) (mem : a ∈ s.pending) (own : a.owner = some id) :
    ∃ (i : Nat) (job : Job), s.jobs[i]? = some job ∧ .access a ∈ job.work ∧
      job.reader.client.id = id := by
  obtain ⟨i, job, found, work⟩ | ⟨task, there, inside⟩ := mem_pending.mp mem
  · refine ⟨i, job, found, work, ?_⟩
    have stage := (h.seat found).stage
    generalize job.work = ops at work stage
    cases stage with
    | counting _ _ _ _ _ => simp at work
    | inserting _ _ _ _ _ _ _ =>
        simp only [List.mem_cons, Op.access.injEq, List.not_mem_nil, or_false] at work
        obtain rfl | rfl | other := work
        · exact Option.some.inj own
        · exact Option.some.inj own
        · cases other
    | indexing _ _ _ _ _ _ _ =>
        simp only [List.mem_cons, Op.access.injEq, List.not_mem_nil, or_false] at work
        obtain rfl | other := work
        · exact Option.some.inj own
        · cases other
    | settled settled =>
        obtain mine | nobody := settled _ work
        · exact (Access.owner_of_ofClient mine own).symm
        · rw [nobody] at own
          cases own
  · rw [h.tasks task there a inside] at own
    cases own

/-- A registration under way is all that its session has in hand. -/
theorem registering (h : Seated s) (mem : a ∈ s.pending) (registers : a.registers) :
    ∃ (i : Nat) (job : Job), s.jobs[i]? = some job ∧ .access a ∈ job.work ∧
      job.reader.client.authenticated ∧ a.owner = some job.reader.client.id ∧
      ∀ b, .access b ∈ job.work → b.registers := by
  obtain ⟨i, job, found, work⟩ | ⟨task, there, inside⟩ := mem_pending.mp mem
  · have stage := (h.seat found).stage
    refine ⟨i, job, found, work, ?_⟩
    generalize job.work = ops at work stage ⊢
    cases stage with
    | counting _ _ _ _ _ => simp at work
    | inserting _ _ _ _ _ _ authenticated =>
        simp only [List.mem_cons, Op.access.injEq, List.not_mem_nil, or_false, reduceCtorEq]
          at work
        refine ⟨authenticated, ?_, ?_⟩
        · obtain rfl | rfl := work <;> rfl
        · intro b inside
          simp only [List.mem_cons, Op.access.injEq, List.not_mem_nil, or_false, reduceCtorEq]
            at inside
          obtain rfl | rfl := inside <;> rfl
    | indexing _ _ _ _ _ _ authenticated =>
        simp only [List.mem_cons, Op.access.injEq, List.not_mem_nil, or_false, reduceCtorEq]
          at work
        refine ⟨authenticated, ?_, ?_⟩
        · subst work
          rfl
        · intro b inside
          simp only [List.mem_cons, Op.access.injEq, List.not_mem_nil, or_false, reduceCtorEq]
            at inside
          subst inside
          rfl
    | settled settled =>
        obtain mine | nobody := settled _ work
        · rw [Access.registers_of_ofClient mine] at registers
          cases registers
        · rw [Access.registers_of_owner nobody] at registers
          cases registers
  · rw [Access.registers_of_owner (h.tasks task there a inside)] at registers
    cases registers

/-- While a client is being registered, its session does nothing else. -/
theorem young (h : Seated s) (mem : a ∈ s.pending) (registers : a.registers)
    (own : a.owner = some id) (mem' : b ∈ s.pending) (own' : b.owner = some id) :
    b.registers := by
  obtain ⟨i, job, found, _, authenticated, same, all⟩ := h.registering mem registers
  obtain ⟨j, job', found', work', id'⟩ := h.owned mem' own'
  rw [own] at same
  cases same
  have place := h.distinct found' found id' (id' ▸ (h.seat found).named authenticated)
  subst place
  rw [found] at found'
  cases found'
  exact all b work'

theorem issued (h : Seated s) (mem : .insertConn handle ∈ s.pending) : s.Issued handle := by
  obtain ⟨i, job, found, work, authenticated, _, _⟩ := h.registering mem rfl
  obtain ⟨tx, ctrl, _, _, stage⟩ := h.seat found
  have same : handle = job.reader.client.handle := by
    generalize job.work = ops at work stage
    cases stage with
    | counting _ _ _ _ _ => simp at work
    | inserting _ _ _ _ _ _ _ => simpa using work
    | indexing _ _ _ _ _ _ _ => simp at work
    | settled settled =>
        obtain mine | nobody := settled _ work
        · cases mine
        · cases nobody
  subst same
  exact ⟨job, by rw [Client.handle, tx, found], authenticated, rfl, rfl, by
    rw [Client.handle, ctrl, tx]⟩

theorem known_of_registers (h : Seated s) (mem : a ∈ s.pending) (registers : a.registers)
    (own : a.owner = some id) : s.Known id := by
  obtain ⟨i, job, found, _, authenticated, same, _⟩ := h.registering mem registers
  rw [own] at same
  exact ⟨i, job, found, authenticated, (Option.some.inj same).symm⟩

theorem known_of_subscribe (h : Seated s) (mem : .subscribe id channel ∈ s.pending) :
    s.Known id := by
  obtain ⟨i, job, found, work, same⟩ := h.owned mem rfl
  refine ⟨i, job, found, ?_, same⟩
  have stage := (h.seat found).stage
  generalize job.work = ops at work stage
  cases stage with
  | counting _ _ _ _ _ => simp at work
  | inserting _ _ _ _ _ _ authenticated => exact authenticated
  | indexing _ _ _ _ _ _ authenticated => exact authenticated
  | settled settled =>
      obtain mine | nobody := settled _ work
      · exact (Bool.and_eq_true_iff.mp mine).2
      · cases nobody

end Seated

/-! ## The hub names known sessions only -/

/-- What follows from other accesses names a known session. -/
def Access.Vouched (s : Server) : Access → Prop
  | .offer _ _ handle | .notify handle _ => s.Issued handle
  | .removeConn id (some tx) => ∃ handle, s.Issued handle ∧ handle.id = id ∧ handle.tx = tx
  | .unindexUser _ id => s.Known id
  | .put _ item => item.push = none
  | _ => True

theorem Access.Vouched.step {node : Node} {s s' : Server} {turn : Turn} {a : Access}
    (h : a.Vouched s) (move : Server.Step node s turn s') : a.Vouched s' := by
  unfold Vouched at h ⊢
  split <;> simp only at h
  · exact h.step move
  · exact h.step move
  · obtain ⟨handle, issued, same⟩ := h
    exact ⟨handle, issued.step move, same⟩
  · exact h.step move
  · exact h
  · trivial

theorem Access.vouched_of_starts {s : Server} {a : Access}
    (h : (∃ client, a.ofClient client) ∨ a.external) : a.Vouched s := by
  unfold Vouched
  split
  case h_5 =>
    obtain ⟨client, own⟩ | own := h
    · exact Option.isNone_iff_eq_none.mp own
    · cases own
  all_goals first | trivial | (obtain ⟨_, own⟩ | own := h <;> cases own)

structure Registry (s : Server) : Prop where
  seated : Seated s
  conns : ∀ {id : ClientId} {handle : ClientHandle},
    s.shared.world.hub.conns.lookup id = some handle → handle.id = id ∧ s.Issued handle
  users : ∀ {user : String} {id : ClientId}, id ∈ s.shared.world.hub.userIds user → s.Known id
  subs : ∀ {channel : String} {id : ClientId},
    id ∈ s.shared.world.hub.subscriberIds channel → s.Known id
  pending : ∀ a ∈ s.pending, a.Vouched s

namespace Registry

variable {node : Node} {s s' : Server} {turn : Turn} {id : ClientId} {handle : ClientHandle}
  {user channel : String} {a b : Access}

/-- What an access leads to names a known session. -/
theorem more (h : Registry s) (mem : a ∈ s.pending) (next : b ∈ a.more node s.shared) :
    b.Vouched s := by
  have vouched := h.pending a mem
  cases Access.follows_of_mem next with
  | unindex found => exact (h.conns found).1 ▸ (h.conns found).2.known
  | offer copied =>
      obtain ⟨id, _, found⟩ := Hub.mem_subscribers.mp copied
      exact (h.conns found).2
  | @drop _ _ handle _ => exact ⟨handle, vouched, rfl, rfl⟩
  | notify addressed =>
      obtain ⟨id, found⟩ := ControlMessage.mem_targets addressed
      exact (h.conns found).2
  | _ => trivial

theorem step (h : Registry s) (move : Step node s turn s') : Registry s' := by
  have seated := h.seated.step move
  have kept : ∀ b ∈ s.pending, b.Vouched s' := fun b mem => (h.pending b mem).step move
  cases move.outline h.seated with
  | @access a others current here place able shared there =>
      have mem : a ∈ s.pending := here.mem_iff.mpr List.mem_cons_self
      refine ⟨seated, ?_, ?_, ?_, ?_⟩
      · intro id handle found
        rw [shared, Access.perform_hub] at found
        have old : s.shared.world.hub.conns.lookup id = some handle →
            handle.id = id ∧ s'.Issued handle :=
          fun found => ⟨(h.conns found).1, (h.conns found).2.step move⟩
        cases a with
        | insertConn inserted =>
            rw [Access.hub, Hub.conns_insertConn, Map.lookup_insert_eq] at found
            split at found
            next same =>
              cases found
              exact ⟨same.symm, (h.seated.issued mem).step move⟩
            next => exact old found
        | removeConn removed slow =>
            rw [Access.hub, Hub.conns_removeConn, Map.lookup_erase_eq] at found
            split at found
            next => cases found
            next => exact old found
        | _ => exact old found
      · intro user id listed
        rw [shared, Access.perform_hub] at listed
        cases a with
        | indexUser user' id' =>
            obtain ⟨rfl, rfl⟩ | old := Hub.mem_indexUser.mp listed
            · exact (h.seated.known_of_registers mem rfl rfl).step move
            · exact (h.users old).step move
        | unindexUser user' id' => exact (h.users (Hub.mem_unindexUser.mp listed).2).step move
        | _ => exact (h.users listed).step move
      · intro channel id subscribed
        rw [shared, Access.perform_hub] at subscribed
        cases a with
        | subscribe id' channel' =>
            obtain ⟨rfl, rfl⟩ | old := Hub.mem_subscribe.mp subscribed
            · exact (h.seated.known_of_subscribe mem).step move
            · exact (h.subs old).step move
        | unsubscribe id' channel' => exact (h.subs (Hub.mem_unsubscribe.mp subscribed).2).step move
        | sweep id' shard => exact (h.subs (Hub.mem_sweep.mp subscribed).2).step move
        | _ => exact (h.subs subscribed).step move
      · intro b mem'
        obtain next | old := List.mem_append.mp (there.mem_iff.mp mem')
        · exact (h.more mem next).step move
        · exact kept b (here.mem_iff.mpr (List.mem_cons_of_mem _ old))
  | registering _ _ _ _ _ shared pending =>
      refine ⟨seated, ?_, ?_, ?_, ?_⟩
      · intro id handle found
        rw [shared] at found
        exact ⟨(h.conns found).1, (h.conns found).2.step move⟩
      · intro user id listed
        rw [shared] at listed
        exact (h.users listed).step move
      · intro channel id subscribed
        rw [shared] at subscribed
        exact (h.subs subscribed).step move
      · intro b mem
        obtain rfl | mem := List.mem_cons.mp (pending.mem_iff.mp mem)
        · trivial
        obtain rfl | mem := List.mem_cons.mp mem
        · trivial
        · exact kept b mem
  | quiet pending starts quiet =>
      refine ⟨seated, ?_, ?_, ?_, ?_⟩
      · intro id handle found
        rw [quiet.hub] at found
        exact ⟨(h.conns found).1, (h.conns found).2.step move⟩
      · intro user id listed
        rw [quiet.hub] at listed
        exact (h.users listed).step move
      · intro channel id subscribed
        rw [quiet.hub] at subscribed
        exact (h.subs subscribed).step move
      · intro b mem
        obtain new | old := List.mem_append.mp (pending.mem_iff.mp mem)
        · exact Access.vouched_of_starts (starts b new)
        · exact kept b old

theorem initial (h : s.Initial) : Registry s := by
  refine ⟨.initial h, ?_, ?_, ?_, ?_⟩ <;> obtain ⟨hash, ttl, verifier, rfl⟩ := h
  · intro id handle found
    cases found
  · intro user id listed
    cases listed
  · intro channel id subscribed
    cases subscribed
  · intro a mem
    cases mem

theorem of_reached (h : Server.Reached node s) : Registry s :=
  h.invariant Registry (fun _ => initial) fun _ _ _ here => here.step

end Registry

end Centrifugo
