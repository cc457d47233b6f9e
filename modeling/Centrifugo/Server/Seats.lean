import Centrifugo.Server.Course

/-!
# The sessions of a node

A session has its queues and its client id for itself. `Stage` follows it through its
registration, and `Seated` says this of all sessions of a node.

`Server.Outline` tells what a turn of such a node can do: one of the pending accesses, the
start of a registration, or nothing that the hub would notice.
-/

namespace Centrifugo

/-! ## The connection of a session -/

theorem Op.Ran.client {node : Node} {op : Op} {r r' : Reader} {s s' : Shared} {more : List Op}
    (h : Ran node r s op r' s' more) :
    r'.client.id = r.client.id ∧ r.client.Follows r'.client := by
  cases h with
  | accessed _ => exact ⟨rfl, .refl _⟩
  | overLimit _ _ _ _ => exact ⟨rfl, rfl, rfl, rfl, fun _ => rfl, fun _ => rfl⟩
  | registering _ _ _ _ same =>
      subst same
      exact ⟨rfl, rfl, rfl, rfl, fun _ => rfl, fun _ => rfl⟩
  | connected _ _ _ _ _ => exact ⟨rfl, .refl _⟩
  | joining _ _ _ _ _ _ _ => exact ⟨rfl, .refl _⟩
  | reported _ _ _ _ _ _ _ after read =>
      subst read
      rw [Reader.resume_client, Session.report_client]
      exact ⟨rfl, rfl, rfl, rfl, fun _ => rfl, fun yes => yes⟩
  | subscribed _ _ _ _ _ after finished =>
      subst finished
      rw [Reader.answer_client, Reader.resume_client, Session.finishSubscribe_client]
      exact ⟨rfl, rfl, rfl, rfl, fun _ => rfl, fun yes => yes⟩
  | answered _ => exact ⟨rfl, .refl _⟩
  | absent _ _ => exact ⟨rfl, .refl _⟩
  | unsubscribed channel _ _ _ =>
      obtain ⟨id, _, follows⟩ := r.client.unsubscribing_connection channel
      exact ⟨id, follows⟩

theorem Reader.Begun.client {node : Node} {r r' : Reader} {s s' : Shared} {event : Event}
    {ops : List Op} (h : Begun node r s event r' s' ops) :
    r.client.Follows r'.client ∧ (r'.client.id = r.client.id ∨
      ∃ readings, event = .command readings ∧ r'.client.id = readings.uuid) := by
  cases h with
  | settled _ _ connInfo expireAt client =>
      rw [client]
      exact ⟨⟨rfl, rfl, rfl, fun _ => rfl, fun yes => yes⟩, .inl rfl⟩
  | closing _ _ _ _ => exact ⟨⟨rfl, rfl, rfl, fun _ => rfl, fun yes => yes⟩, .inl rfl⟩
  | command readings cmd cmds replies _ commanded =>
      cases commanded with
      | identified refusal fresh =>
          refine ⟨⟨rfl, rfl, rfl, fun yes => ?_, fun yes => yes⟩, .inr ⟨readings, rfl, rfl⟩⟩
          exact absurd yes (by simpa using fresh)
      | connecting req creds parsed _ =>
          have fresh : r.client.authenticated = false := (Session.parseConnect_ok parsed).1
          refine ⟨⟨rfl, rfl, rfl, fun yes => ?_, fun yes => yes⟩, .inr ⟨readings, rfl, rfl⟩⟩
          exact absurd yes (by simpa using fresh)
      | unsubscribing channel _ =>
          obtain ⟨id, _, follows⟩ := r.client.unsubscribing_connection channel
          exact ⟨follows, .inl id⟩
      | instant after authenticated method effect =>
          obtain ⟨follows, _⟩ := effect.client_of_instant method
          exact ⟨follows, .inl (follows.id authenticated)⟩
      | _ => exact ⟨.refl _, .inl rfl⟩
  | flushed _ _ _ => exact ⟨⟨rfl, rfl, rfl, fun _ => rfl, fun yes => yes⟩, .inl rfl⟩
  | left _ => exact ⟨⟨rfl, rfl, rfl, fun _ => rfl, fun yes => yes⟩, .inl rfl⟩
  | _ => exact ⟨.refl _, .inl rfl⟩

/-- Only the registration authenticates a session. -/
theorem Op.Ran.authenticated {node : Node} {op : Op} {r r' : Reader} {s s' : Shared}
    {more : List Op} (h : Ran node r s op r' s' more) :
    r'.client.authenticated = r.client.authenticated ∨
      ∃ readings cmd creds, op = .register readings cmd creds := by
  cases h with
  | overLimit readings cmd creds _ => exact .inr ⟨readings, cmd, creds, rfl⟩
  | registering readings cmd creds _ _ => exact .inr ⟨readings, cmd, creds, rfl⟩
  | reported _ _ _ _ _ _ _ after read =>
      subst read
      rw [Reader.resume_client, Session.report_client]
      exact .inl rfl
  | subscribed _ _ _ _ _ after finished =>
      subst finished
      rw [Reader.answer_client, Reader.resume_client, Session.finishSubscribe_client]
      exact .inl rfl
  | unsubscribed channel _ _ _ => exact .inl (r.client.unsubscribing_connection channel).2.1
  | _ => exact .inl rfl

theorem Reader.Begun.authenticated {node : Node} {r r' : Reader} {s s' : Shared} {event : Event}
    {ops : List Op} (h : Begun node r s event r' s' ops) :
    r'.client.authenticated = r.client.authenticated := by
  cases h with
  | settled _ _ connInfo expireAt client => rw [client]
  | command readings cmd cmds replies _ commanded =>
      cases commanded with
      | unsubscribing channel _ => exact (r.client.unsubscribing_connection channel).2.1
      | instant after authenticated method effect =>
          have yes : r.client.authenticated = true := authenticated
          rw [yes]
          exact (effect.client_of_instant method).1.authenticated authenticated
      | _ => rfl
  | _ => rfl

/-! ## Registration -/

namespace Access

/-- The client in whose name a session does an access. -/
def owner : Access → Option ClientId
  | .insertConn handle => some handle.id
  | .indexUser _ id | .subscribe id _ | .unsubscribe id _ | .addPresence _ id _
  | .removePresence _ id | .removeConn id none => some id
  | _ => none

def registers : Access → Bool
  | .insertConn _ | .indexUser _ _ => true
  | _ => false

variable {node : Node} {a b : Access} {s : Shared} {client : Client} {id : ClientId}

theorem owner_of_ofClient (h : a.ofClient client) (own : a.owner = some id) :
    id = client.id := by
  unfold ofClient at h
  split at h <;> first | (cases h; done) | simp_all [owner]

theorem registers_of_ofClient (h : a.ofClient client) : a.registers = false := by
  unfold ofClient at h
  split at h <;> first | (cases h; done) | rfl

/-- What follows from an access is in nobody's name. -/
theorem owner_more (h : b ∈ a.more node s) : b.owner = none := by
  cases follows_of_mem h <;> rfl

theorem owner_of_external (h : a.external) : a.owner = none := by
  cases a <;> first | rfl | cases h

theorem registers_of_owner (h : a.owner = none) : a.registers = false := by
  cases a <;> first | rfl | cases h

end Access

/-- An operation of a session that is not about to register: what it set out to do, or what
followed from an access. -/
def Op.Settled (client : Client) : Op → Prop
  | .access a => a.ofClient client ∨ a.owner = none
  | op => op.ofClient client

/-- How far a session is with its registration, and whose accesses its work contains. -/
inductive Stage (client : Client) : List Op → Prop
  | counting (readings : Readings) (cmd : Command) (creds : Session.Creds)
      (fresh : client.authenticated = false) (named : client.id ≠ "") :
      Stage client [.register readings cmd creds]
  | inserting (readings : Readings) (cmd : Command) (creds : Session.Creds)
      (subs : Map String SubscribeResult) (i : Nat) (channels : List String)
      (authenticated : client.authenticated) :
      Stage client [
        .access (.insertConn client.handle),
        .access (.indexUser client.user client.id),
        .serverSide readings cmd creds subs i channels]
  | indexing (readings : Readings) (cmd : Command) (creds : Session.Creds)
      (subs : Map String SubscribeResult) (i : Nat) (channels : List String)
      (authenticated : client.authenticated) :
      Stage client [
        .access (.indexUser client.user client.id),
        .serverSide readings cmd creds subs i channels]
  | settled {work : List Op} (own : ∀ op ∈ work, op.Settled client) : Stage client work

theorem Op.settled_of_ofClient {client : Client} {op : Op} (h : op.ofClient client) :
    op.Settled client := by
  cases op with
  | access a => exact .inl h
  | _ => exact h

theorem Op.settled_congr {client client' : Client} (id : client'.id = client.id)
    (authenticated : client'.authenticated = client.authenticated) {op : Op}
    (h : op.Settled client) : op.Settled client' := by
  have same := ofClient_congr id authenticated
  cases op with
  | access a => exact h.imp_left fun own => (congrFun same (.access a)).trans own
  | _ => exact (congrFun same _).trans h

namespace Stage

variable {node : Node} {r r' : Reader} {s s' : Shared}

theorem able {client : Client} {op : Op} (h : op.Settled client) (other : op.access? = none) :
    op.ofClient client ∨ ∃ readings cmd creds, op = .register readings cmd creds := by
  cases op with
  | access a => cases other
  | _ => exact .inl h

theorem first {client : Client} {op : Op} {rest : List Op} (stage : Stage client (op :: rest))
    (other : op.access? = none) :
    op.ofClient client ∨ ∃ readings cmd creds, op = .register readings cmd creds := by
  cases stage with
  | counting readings cmd creds _ _ => exact .inr ⟨readings, cmd, creds, rfl⟩
  | settled own => exact able (own op List.mem_cons_self) other
  | _ => cases other

theorem of_ofClient {client : Client} {ops : List Op} (h : ops.all (Op.ofClient client)) :
    Stage client ops :=
  .settled fun op mem => Op.settled_of_ofClient (List.all_eq_true.mp h op mem)

theorem begin {event : Event} {ops : List Op} (h : r.Begun node s event r' s' ops)
    (named : ∀ readings, event = .command readings → readings.uuid ≠ "") :
    Stage r'.client ops := by
  obtain ⟨readings, cmd, creds, event, rfl, id, fresh⟩ | own := h.own
  · exact .counting readings cmd creds fresh (id ▸ named readings event)
  · exact .of_ofClient own

theorem exec {op : Op} {rest more : List Op} (h : Op.Ran node r s op r' s' more)
    (stage : Stage r.client (op :: rest)) : Stage r'.client (more ++ rest) := by
  obtain ⟨id, _⟩ := h.client
  cases stage with
  | counting readings cmd creds fresh named =>
      cases h with
      | overLimit _ _ _ _ => exact .settled (by simp)
      | registering _ _ _ _ client =>
          subst client
          exact .inserting _ _ _ _ _ _ rfl
  | inserting _ _ _ _ _ _ authenticated =>
      cases h with
      | accessed ran =>
          obtain ⟨_, rfl⟩ := Access.exec_eq ran
          exact .indexing _ _ _ _ _ _ authenticated
  | indexing _ _ _ _ _ _ authenticated =>
      cases h with
      | accessed ran =>
          obtain ⟨_, rfl⟩ := Access.exec_eq ran
          exact .settled (by simpa [Access.more, Op.Settled, Op.ofClient] using authenticated)
  | settled own =>
      have first := own op List.mem_cons_self
      have authenticated := h.authenticated.resolve_right (by rintro ⟨_, _, _, rfl⟩; cases first)
      refine .settled fun next mem => ?_
      obtain mem | mem := List.mem_append.mp mem
      · cases h.kind (able first) with
        | access ran _ =>
            obtain ⟨_, rfl⟩ := Access.exec_eq ran
            obtain ⟨b, follows, rfl⟩ := List.mem_map.mp mem
            exact .inr (Access.owner_more follows)
        | registering _ _ _ _ _ _ => cases first
        | quiet _ _ own => exact Op.settled_of_ofClient (List.all_eq_true.mp own next mem)
      · exact Op.settled_congr id authenticated (own next (List.mem_cons_of_mem _ mem))

end Stage

/-! ## Sessions of a node -/

/-- A session with its place, its name and its work in order. -/
structure Seat (ids : List ClientId) (i : Nat) (job : Job) : Prop where
  tx : job.reader.client.tx = i
  ctrl : job.reader.client.ctrl = some i
  drawn : job.reader.client.id ∈ ids
  named : job.reader.client.authenticated → job.reader.client.id ≠ ""
  stage : Stage job.reader.client job.work

structure Seated (s : Server) : Prop where
  empty : "" ∈ s.ids
  seat : ∀ {i : Nat} {job : Job}, s.jobs[i]? = some job → Seat s.ids i job
  distinct : ∀ {i j : Nat} {job job' : Job}, s.jobs[i]? = some job → s.jobs[j]? = some job' →
    job.reader.client.id = job'.reader.client.id → job.reader.client.id ≠ "" → i = j
  tasks : ∀ task ∈ s.tasks, ∀ a ∈ task, a.owner = none

namespace Seated

variable {node : Node} {s s' : Server} {turn : Turn}

theorem initial (h : s.Initial) : Seated s := by
  obtain ⟨hash, ttl, verifier, rfl⟩ := h
  exact ⟨by simp, by simp, by simp, by simp⟩

/-- What a session becomes when it starts an event or goes on with its work. -/
theorem set {i : Nat} {job job' : Job} {ids : List ClientId} {shared : Shared} (h : Seated s)
    (found : s.jobs[i]? = some job) (more : s.ids ⊆ ids) (seat : Seat ids i job')
    (id : job'.reader.client.id = job.reader.client.id ∨ job'.reader.client.id ∉ s.ids) :
    Seated { s with shared := shared, jobs := s.jobs.set i job', ids := ids } := by
  have apart : ∀ {j : Nat} {other : Job}, j ≠ i → s.jobs[j]? = some other →
      other.reader.client.id ≠ "" → other.reader.client.id ≠ job'.reader.client.id := by
    intro j other different there nonempty same
    obtain kept | new := id
    · exact different (h.distinct there found (same.trans kept) nonempty)
    · exact new (same ▸ (h.seat there).drawn)
  refine ⟨more h.empty, ?_, ?_, h.tasks⟩
  · intro j other there
    obtain ⟨rfl, rfl⟩ | ⟨_, there⟩ := getElem?_set_of_some there
    · exact seat
    · obtain ⟨tx, ctrl, drawn, named, stage⟩ := h.seat there
      exact ⟨tx, ctrl, more drawn, named, stage⟩
  · intro j k one two there there' same nonempty
    obtain ⟨rfl, rfl⟩ | ⟨different, old⟩ := getElem?_set_of_some there
    · obtain ⟨rfl, rfl⟩ | ⟨different', old'⟩ := getElem?_set_of_some there'
      · rfl
      · exact absurd same.symm (apart different' old' (same ▸ nonempty))
    · obtain ⟨rfl, rfl⟩ | ⟨_, old'⟩ := getElem?_set_of_some there'
      · exact absurd same (apart different old nonempty)
      · exact h.distinct old old' same nonempty

theorem step (h : Seated s) (move : Server.Step node s turn s') : Seated s' := by
  cases move.moved with
  | accepted proto transport =>
      refine ⟨h.empty, ?_, ?_, h.tasks⟩
      · intro i job there
        obtain old | ⟨place, new⟩ := getElem?_append_singleton there
        · exact h.seat old
        · subst new
          exact ⟨place, congrArg some place, h.empty, (fun yes => nomatch yes),
            .settled (by simp)⟩
      · intro i j job job' there there' same nonempty
        obtain old | ⟨_, new⟩ := getElem?_append_singleton there
        · obtain old' | ⟨_, new'⟩ := getElem?_append_singleton there'
          · exact h.distinct old old' same nonempty
          · subst new'
            exact absurd same nonempty
        · subst new
          exact absurd rfl nonempty
  | @began i event reader reader' shared shared' ops ids found drawn prepared begun =>
      have begins := Reader.begin_begun begun
      obtain ⟨follows, id⟩ := begins.client
      obtain ⟨tx, ctrl, known, named, _⟩ := h.seat found
      obtain ⟨more, uuid⟩ := draw_cases drawn
      have named' : ∀ readings, event = .command readings → readings.uuid ≠ "" :=
        fun readings same blank => (uuid readings same).2 (blank ▸ h.empty)
      refine h.set found more ⟨follows.tx.trans tx, follows.ctrl.trans ctrl, ?_, ?_,
        .begin begins named'⟩ ?_
      · obtain kept | ⟨readings, same, new⟩ := id
        · exact kept ▸ more known
        · exact new ▸ (uuid readings same).1
      · intro authenticated
        have before := begins.authenticated ▸ authenticated
        exact follows.id before ▸ named before
      · obtain kept | ⟨readings, same, new⟩ := id
        · exact .inl kept
        · exact .inr (new ▸ (uuid readings same).2)
  | worked found ran =>
      have runs := Op.exec_ran ran
      obtain ⟨id, follows⟩ := runs.client
      obtain ⟨tx, ctrl, known, named, stage⟩ := h.seat found
      refine h.set found (List.Subset.refl _) ⟨follows.tx.trans tx, follows.ctrl.trans ctrl,
        id ▸ known, ?_, .exec runs stage⟩ (.inl id)
      intro authenticated
      obtain same | ⟨readings, cmd, creds, rfl⟩ := runs.authenticated
      · exact id ▸ named (same ▸ authenticated)
      · cases stage with
        | counting _ _ _ _ nonempty => exact id ▸ nonempty
        | settled own => cases own _ List.mem_cons_self
  | spawned external =>
      refine ⟨h.empty, h.seat, h.distinct, ?_⟩
      intro task mem b inside
      obtain old | new := List.mem_append.mp mem
      · exact h.tasks task old b inside
      · rw [List.mem_singleton.mp new] at inside
        rw [List.mem_singleton.mp inside]
        exact Access.owner_of_external external
  | advanced found ran =>
      obtain ⟨_, rfl⟩ := Access.exec_eq ran
      have running := h.tasks _ (List.mem_of_getElem? found)
      refine ⟨h.empty, h.seat, h.distinct, ?_⟩
      intro task mem b inside
      obtain rfl | old := mem_of_set mem
      · obtain follows | rest := List.mem_append.mp inside
        · exact Access.owner_more follows
        · exact running b (List.mem_cons_of_mem _ rest)
      · exact h.tasks task old b inside
  | drained _ => exact ⟨h.empty, h.seat, h.distinct, h.tasks⟩
  | released _ => exact ⟨h.empty, h.seat, h.distinct, h.tasks⟩
  | slowClosed _ _ => exact ⟨h.empty, h.seat, h.distinct, h.tasks⟩
  | retired _ _ => exact ⟨h.empty, h.seat, h.distinct, h.tasks⟩
  | rekeyed _ => exact ⟨h.empty, h.seat, h.distinct, h.tasks⟩

theorem of_reached (h : Server.Reached node s) : Seated s :=
  h.invariant Seated (fun _ => initial) fun _ _ _ here => here.step

end Seated

/-! ## Turns -/

namespace Server

/-- The access comes next, in a session or in another task. -/
inductive Next (node : Node) (s s' : Server) (a : Access) : Prop
  | session {i : Nat} {reader : Reader} {rest : List Op}
      (found : s.jobs[i]? = some ⟨reader, .access a :: rest⟩)
      (after : s'.jobs[i]? = some ⟨reader, (a.more node s.shared).map .access ++ rest⟩)
  | task (mem : ∃ task ∈ s.tasks, a ∈ task)

/-- A turn does one of the pending accesses, or the registration of a session starts, or the
hub stays as it is while a task gets more to do. -/
inductive Outline (node : Node) (s : Server) (turn : Turn) (s' : Server) : Prop
  | access {a : Access} {others : List Access} (current : s.current turn = some (.access a))
      (here : s.pending.Perm (a :: others)) (place : s.Next node s' a)
      (able : a.waits s.shared = false)
      (shared : s'.shared = a.perform node s.shared)
      (there : s'.pending.Perm (a.more node s.shared ++ others))
  | registering {i : Nat} {reader reader' : Reader} {readings : Readings} {cmd : Command}
      {creds : Session.Creds} {rest : List Op}
      (current : s.current turn = some (.register readings cmd creds))
      (found : s.jobs[i]? = some ⟨reader, .register readings cmd creds :: rest⟩)
      (room : Session.overConnectionLimit node s.shared.world.hub creds.user = false)
      (client : reader'.client = ((reader.session s.shared).authenticate creds).client)
      (after : ∃ work, s'.jobs[i]? = some ⟨reader', work⟩) (shared : s'.shared = s.shared)
      (pending : s'.pending.Perm (.insertConn reader'.client.handle ::
        .indexUser reader'.client.user reader'.client.id :: s.pending))
  | quiet {new : List Access} (pending : s'.pending.Perm (new ++ s.pending))
      (starts : ∀ a ∈ new, (∃ client, a.ofClient client) ∨ a.external)
      (quiet : s.shared.Quiet s'.shared)

variable {node : Node} {s s' : Server} {turn : Turn}

/-- A turn that changes no task. -/
theorem Outline.of_quiet (quiet : s.shared.Quiet s'.shared) (pending : s'.pending = s.pending) :
    Outline node s turn s' :=
  @Outline.quiet _ _ _ _ [] (.of_eq pending) (by simp) quiet

theorem Moved.outline (h : Moved node s turn s') (seated : Seated s) :
    Outline node s turn s' := by
  cases h with
  | accepted proto transport =>
      refine .of_quiet ⟨rfl, .nothing, [], by simp [onAccept], by simp⟩ ?_
      simp [pending, onAccept, Job.accesses]
  | began found drawn prepared begun =>
      obtain ⟨others, before, after⟩ := pending_job found
      obtain ⟨prepares, same⟩ := Reader.prepare_quiet prepared
      have begins := Reader.begin_begun begun
      refine .quiet ((after _ _ _).trans (before.symm.append_left _)) ?_
        (prepares.trans same begins.quiet)
      intro a mem
      left
      obtain ⟨_, _, _, _, rfl, _⟩ | own := begins.own
      · cases mem
      · exact ⟨_, Op.ofClient_of_mem own mem⟩
  | worked found ran =>
      obtain ⟨others, before, after⟩ := pending_job found
      have after' := fun job : Job =>
        @List.getElem?_set_self Job _ _ job (List.getElem?_eq_some_iff.mp found).1
      have runs := Op.exec_ran ran
      cases runs.kind (seated.seat found).stage.first with
      | access performed reader =>
          obtain ⟨shared, rfl⟩ := Access.exec_eq performed
          subst reader
          refine .access (by simp [current, found]) before (.session found (after' _))
            (Access.able_of_exec performed) shared ?_
          refine (after _ _ _).trans ?_
          rw [Job.accesses, List.filterMap_append, Op.filterMap_access, List.append_assoc]
          exact .refl _
      | registering readings cmd creds room client shared =>
          refine .registering (by simp [current, found]) found room client ⟨_, after' _⟩ shared ?_
          exact (after _ _ _).trans ((before.symm.cons _).cons _)
      | quiet other quiet own =>
          refine .quiet ((after _ _ _).trans ?_)
            (fun a mem => .inl ⟨_, Op.ofClient_of_mem own mem⟩) quiet
          simp only [Job.accesses, List.filterMap_append, List.append_assoc] at before ⊢
          rw [List.filterMap_cons_none other] at before
          exact before.symm.append_left _
  | @spawned a external =>
      refine @Outline.quiet _ _ _ _ [a] ?_ ?_ (.refl _)
      · simp only [pending, List.flatten_append, List.flatten_singleton]
        rw [← List.append_assoc]
        exact List.perm_append_comm
      · intro b mem
        rw [List.mem_singleton.mp mem]
        exact .inr external
  | advanced found ran =>
      obtain ⟨others, before, after⟩ := pending_task found
      obtain ⟨shared, rfl⟩ := Access.exec_eq ran
      refine .access (by simp [current, found]) before
        (.task ⟨_, List.mem_of_getElem? found, List.mem_cons_self⟩) (Access.able_of_exec ran)
        shared ?_
      refine (after _ _).trans ?_
      rw [List.append_assoc]
      exact .refl _
  | drained tx => exact .of_quiet ⟨rfl, .nothing, [], by simp, by simp⟩ rfl
  | released tx => exact .of_quiet ⟨rfl, .nothing, [], by simp, by simp⟩ rfl
  | @slowClosed tx _ _ =>
      obtain ⟨hub, engine⟩ := s.shared.world.send_hub tx (.close .slow)
      exact .of_quiet ⟨hub, engine ▸ .nothing, [], by simp, by simp⟩ rfl
  | retired _ _ => exact .of_quiet ⟨rfl, .nothing, [], by simp, by simp⟩ rfl
  | rekeyed verifier => exact .of_quiet ⟨rfl, .nothing, [], by simp, by simp⟩ rfl

theorem Step.outline (h : Step node s turn s') (seated : Seated s) : Outline node s turn s' :=
  h.moved.outline seated

/-- What a turn adds to the log is of an access, or of no interest to others. -/
theorem Step.facts (seated : Seated s) (move : Step node s turn s') :
    ∃ facts, s'.shared.log = s.shared.log ++ facts ∧ ((∀ fact ∈ facts, fact.aside = true) ∨
      ∃ a, s.current turn = some (.access a) ∧ a ∈ s.pending ∧ s.Next node s' a ∧
        facts = a.facts s.shared) := by
  cases move.outline seated with
  | access current here place _ shared _ =>
      refine ⟨_, by rw [shared, Access.perform_log], .inr ⟨_, current, ?_, place, rfl⟩⟩
      exact here.mem_iff.mpr List.mem_cons_self
  | registering _ _ _ _ _ shared _ => exact ⟨[], by rw [shared, List.append_nil], .inl (by simp)⟩
  | quiet _ _ quiet =>
      obtain ⟨facts, log, aside⟩ := quiet.log
      exact ⟨facts, log, .inl aside⟩

end Server

end Centrifugo
