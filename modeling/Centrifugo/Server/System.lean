import Centrifugo.Server.Job

/-!
# A node at work

The sessions of a node, and the other tasks that run on it: publishes and control commands
of the server API, and messages that other nodes send. Writers take items from the queues
of their connections in between, detached tasks close slow consumers, and the keys of the
token verifier are replaced now and then.

A turn lets one of them do one operation. Which one it is, and what it reads from outside,
is free; only client ids are fresh.
-/

namespace Centrifugo

/-- A session task. It takes an event only when its work is done. -/
structure Job where
  reader : Reader
  work : List Op := []

structure Server where
  shared : Shared
  /-- One for each accepted connection; its place is the name of its queues. -/
  jobs : List Job := []
  tasks : List (List Access) := []
  /-- The client ids drawn so far. A new client has the empty one. -/
  ids : List ClientId := [""]

inductive Turn
  | accept (proto : ProtocolType) (transport : String)
  | event (i : Nat) (event : Event)
  | work (i : Nat)
  /-- A task that is not a session starts. -/
  | spawn (a : Access)
  | task (k : Nat)
  /-- A writer takes an item. -/
  | drain (tx : QueueId)
  /-- A writer ends. -/
  | release (tx : QueueId)
  /-- The close for a slow consumer finds room, or no queue. -/
  | slowClose (tx : QueueId)
  /-- The control queue of a session that ended goes. -/
  | retire (i : Nat)
  | rekey (verifier : TokenVerifier)

namespace Access

/-- What comes from outside of sessions: publishes, messages of other nodes, reads and
removals of a history, and control commands. -/
def external : Access → Bool
  | .append _ _ _ _ _ | .fanOut _ | .readHistory _ _ _ | .removeHistory _ | .control _ => true
  | _ => false

end Access

/-- Take a signal from the front of a control queue. -/
def Shared.take (s : Shared) (ctrl : QueueId) (signal : Signal) : Option Shared :=
  match s.ctrls.lookup ctrl with
  | none => none
  | some queue =>
      match queue.items with
      | [] => none
      | first :: rest =>
          if first = signal then
            some { s with
              ctrls := s.ctrls.insert ctrl { queue with items := rest }
              log := s.log ++ [.processed ctrl signal] }
          else none

/-- The world in which an event starts. A signal comes from the control queue. -/
def Reader.prepare (r : Reader) (s : Shared) : Event → Option Shared
  | .signal signal => r.client.ctrl.bind fun ctrl => s.take ctrl signal
  | _ => some s

/-- The ids that are drawn after an event, unless it draws one again. -/
def draw (ids : List ClientId) : Event → Option (List ClientId)
  | .command readings => if readings.uuid ∈ ids then none else some (readings.uuid :: ids)
  | _ => some ids

theorem draw_cases {ids ids' : List ClientId} {event : Event} (h : draw ids event = some ids') :
    ids ⊆ ids' ∧ ∀ readings, event = .command readings →
      readings.uuid ∈ ids' ∧ readings.uuid ∉ ids := by
  unfold draw at h
  split at h
  next readings =>
    split at h
    next => cases h
    next fresh =>
      cases h
      refine ⟨List.subset_cons_self _ _, ?_⟩
      intro other same
      cases same
      exact ⟨List.mem_cons_self, fresh⟩
  next other =>
    cases h
    exact ⟨List.Subset.refl _, fun readings same => (other readings same).elim⟩

namespace Server

def onAccept (s : Server) (proto : ProtocolType) (transport : String) : Server :=
  let tx := s.jobs.length
  { s with
    shared := { s.shared with
      world := { s.shared.world with queues := s.shared.world.queues.insert tx {} }
      ctrls := s.shared.ctrls.insert tx {} }
    jobs := s.jobs ++ [{ reader := {
      client := { proto := proto, transport := transport, tx := tx, ctrl := some tx }
      phase := .reading } }] }

def onEvent (s : Server) (node : Node) (i : Nat) (event : Event) : Option Server :=
  match s.jobs[i]? with
  | some ⟨reader, []⟩ => do
      let ids ← draw s.ids event
      let shared ← reader.prepare s.shared event
      let ((reader, shared), ops) ← reader.begin shared node event
      return { s with shared := shared, jobs := s.jobs.set i ⟨reader, ops⟩, ids := ids }
  | _ => none

def onWork (s : Server) (node : Node) (i : Nat) : Option Server :=
  match s.jobs[i]? with
  | some ⟨reader, op :: rest⟩ => do
      let ((reader, shared), more) ← op.exec node (reader, s.shared)
      return { s with shared := shared, jobs := s.jobs.set i ⟨reader, more ++ rest⟩ }
  | _ => none

def onTask (s : Server) (node : Node) (k : Nat) : Option Server :=
  match s.tasks[k]? with
  | some (a :: rest) => do
      let (shared, more) ← a.exec node s.shared
      return { s with shared := shared, tasks := s.tasks.set k (more ++ rest) }
  | _ => none

def onSlowClose (s : Server) (tx : QueueId) : Option Server :=
  let world := s.shared.world
  if tx ∈ world.closing && (world.gone tx || world.hasRoom tx) then
    let sent := world.send tx (.close .slow)
    some { s with shared := { s.shared with
      world := { sent with closing := world.closing.erase tx } } }
  else none

def onRetire (s : Server) (i : Nat) : Option Server :=
  match s.jobs[i]? with
  | some ⟨reader, []⟩ =>
      match reader.phase with
      | .ended =>
          some { s with shared := { s.shared with
            ctrls := s.shared.ctrls.alter i <| Option.map fun queue =>
              { queue with closed := true } } }
      | _ => none
  | _ => none

def step (s : Server) (node : Node) : Turn → Option Server
  | .accept proto transport => some (s.onAccept proto transport)
  | .event i event => s.onEvent node i event
  | .work i => s.onWork node i
  | .spawn a => if a.external then some { s with tasks := s.tasks ++ [[a]] } else none
  | .task k => s.onTask node k
  | .drain tx => some { s with shared := { s.shared with world := s.shared.world.drain tx } }
  | .release tx => some { s with shared := { s.shared with world := s.shared.world.release tx } }
  | .slowClose tx => s.onSlowClose tx
  | .retire i => s.onRetire i
  | .rekey verifier =>
      some { s with shared := { s.shared with
        world := { s.shared.world with verifier := verifier } } }

def Step (node : Node) (s : Server) (turn : Turn) (s' : Server) : Prop :=
  s.step node turn = some s'

/-- The operation that a turn goes on with. -/
def current (s : Server) : Turn → Option Op
  | .work i => s.jobs[i]?.bind fun job => job.work.head?
  | .task k => (s.tasks[k]?.bind List.head?).map .access
  | _ => none

/-- A node that was just started. -/
def Initial (s : Server) : Prop :=
  ∃ hash ttl verifier, s = { shared := { world := {
    hub := .new hash
    engine := .new ttl
    verifier := verifier
    queues := ∅
    closing := [] } } }

/-- The states that a node gets into. -/
def Reached (node : Node) : Server → Prop := Reachable Initial (Step node)

/-! ## What a turn does -/

/-- The cases of a turn, each with what it found. -/
inductive Moved (node : Node) (s : Server) : Turn → Server → Prop
  | accepted (proto : ProtocolType) (transport : String) :
      Moved node s (.accept proto transport) (s.onAccept proto transport)
  | began {i : Nat} {event : Event} {reader reader' : Reader} {shared shared' : Shared}
      {ops : List Op} {ids : List ClientId} (found : s.jobs[i]? = some ⟨reader, []⟩)
      (drawn : draw s.ids event = some ids) (prepared : reader.prepare s.shared event = some shared)
      (begun : reader.begin shared node event = some ((reader', shared'), ops)) :
      Moved node s (.event i event)
        { s with shared := shared', jobs := s.jobs.set i ⟨reader', ops⟩, ids := ids }
  | worked {i : Nat} {reader reader' : Reader} {op : Op} {rest more : List Op}
      {shared' : Shared} (found : s.jobs[i]? = some ⟨reader, op :: rest⟩)
      (ran : op.exec node (reader, s.shared) = some ((reader', shared'), more)) :
      Moved node s (.work i)
        { s with shared := shared', jobs := s.jobs.set i ⟨reader', more ++ rest⟩ }
  | spawned {a : Access} (external : a.external = true) :
      Moved node s (.spawn a) { s with tasks := s.tasks ++ [[a]] }
  | advanced {k : Nat} {a : Access} {rest more : List Access} {shared' : Shared}
      (found : s.tasks[k]? = some (a :: rest)) (ran : a.exec node s.shared = some (shared', more)) :
      Moved node s (.task k) { s with shared := shared', tasks := s.tasks.set k (more ++ rest) }
  | drained (tx : QueueId) : Moved node s (.drain tx)
      { s with shared := { s.shared with world := s.shared.world.drain tx } }
  | released (tx : QueueId) : Moved node s (.release tx)
      { s with shared := { s.shared with world := s.shared.world.release tx } }
  | slowClosed {tx : QueueId} (due : tx ∈ s.shared.world.closing)
      (room : s.shared.world.gone tx ∨ s.shared.world.hasRoom tx) :
      Moved node s (.slowClose tx) { s with shared := { s.shared with
        world := { s.shared.world.send tx (.close .slow) with
          closing := s.shared.world.closing.erase tx } } }
  | retired {i : Nat} {reader : Reader} (found : s.jobs[i]? = some ⟨reader, []⟩)
      (ended : reader.phase = .ended) :
      Moved node s (.retire i) { s with shared := { s.shared with
        ctrls := s.shared.ctrls.alter i <| Option.map fun queue =>
          { queue with closed := true } } }
  | rekeyed (verifier : TokenVerifier) : Moved node s (.rekey verifier)
      { s with shared := { s.shared with
        world := { s.shared.world with verifier := verifier } } }

variable {node : Node} {s s' : Server} {turn : Turn}

theorem Step.moved (h : Step node s turn s') : Moved node s turn s' := by
  unfold Step step at h
  cases turn with
  | accept proto transport =>
      cases h
      exact .accepted proto transport
  | event i event =>
      simp only [onEvent] at h
      split at h
      next reader found =>
        simp only [Option.bind_eq_bind, Option.bind_eq_some_iff] at h
        obtain ⟨ids, drawn, shared, prepared, ⟨⟨reader', shared'⟩, ops⟩, begun, same⟩ := h
        cases same
        exact .began found drawn prepared begun
      next => cases h
  | work i =>
      simp only [onWork] at h
      split at h
      next reader op rest found =>
        simp only [Option.bind_eq_bind, Option.bind_eq_some_iff] at h
        obtain ⟨⟨⟨reader', shared'⟩, more⟩, ran, same⟩ := h
        cases same
        exact .worked found ran
      next => cases h
  | spawn a =>
      simp only at h
      split at h
      next external =>
        cases h
        exact .spawned external
      next => cases h
  | task k =>
      simp only [onTask] at h
      split at h
      next a rest found =>
        simp only [Option.bind_eq_bind, Option.bind_eq_some_iff] at h
        obtain ⟨⟨shared', more⟩, ran, same⟩ := h
        cases same
        exact .advanced found ran
      next => cases h
  | drain tx =>
      cases h
      exact .drained tx
  | release tx =>
      cases h
      exact .released tx
  | slowClose tx =>
      simp only [onSlowClose] at h
      split at h
      next able =>
        cases h
        simp only [Bool.and_eq_true, decide_eq_true_eq, Bool.or_eq_true] at able
        exact .slowClosed able.1 able.2
      next => cases h
  | retire i =>
      simp only [onRetire] at h
      split at h
      next reader found =>
        split at h
        next ended =>
          cases h
          exact .retired found ended
        next => cases h
      next => cases h
  | rekey verifier =>
      cases h
      exact .rekeyed verifier

/-- What a turn makes of a session: it accepts it, starts one of its events, goes on with its
work, or leaves it alone. -/
inductive Became (node : Node) (s : Server) (i : Nat) : Turn → Job → Prop
  | accepted (proto : ProtocolType) (transport : String) (last : i = s.jobs.length) :
      Became node s i (.accept proto transport) { reader := {
        client := { proto := proto, transport := transport, tx := i, ctrl := some i }
        phase := .reading } }
  | began {event : Event} {reader reader' : Reader} {shared shared' : Shared} {ops : List Op}
      (found : s.jobs[i]? = some ⟨reader, []⟩)
      (prepared : reader.prepare s.shared event = some shared)
      (begun : reader.begin shared node event = some ((reader', shared'), ops)) :
      Became node s i (.event i event) ⟨reader', ops⟩
  | worked {reader reader' : Reader} {op : Op} {rest more : List Op} {shared' : Shared}
      (found : s.jobs[i]? = some ⟨reader, op :: rest⟩)
      (ran : op.exec node (reader, s.shared) = some ((reader', shared'), more)) :
      Became node s i (.work i) ⟨reader', more ++ rest⟩
  | stayed {turn : Turn} {job : Job} (found : s.jobs[i]? = some job) : Became node s i turn job

theorem Step.became (h : Step node s turn s') {i : Nat} {job : Job}
    (found : s'.jobs[i]? = some job) :
    Became node s i turn job := by
  cases h.moved with
  | accepted proto transport =>
      obtain old | ⟨rfl, rfl⟩ := getElem?_append_singleton found
      · exact .stayed old
      · exact .accepted proto transport rfl
  | began there _ prepared begun =>
      obtain ⟨rfl, rfl⟩ | ⟨_, old⟩ := getElem?_set_of_some found
      · exact .began there prepared begun
      · exact .stayed old
  | worked there ran =>
      obtain ⟨rfl, rfl⟩ | ⟨_, old⟩ := getElem?_set_of_some found
      · exact .worked there ran
      · exact .stayed old
  | _ => exact .stayed found

/-- What holds of new sessions, and is kept by events and operations, holds of every session. -/
theorem Step.each {p : Job → Prop} (h : Step node s turn s')
    (all : ∀ {i : Nat} {job : Job}, s.jobs[i]? = some job → p job)
    (accept : ∀ client, p { reader := { client := client, phase := .reading } })
    (begins : ∀ {r r' shared shared' event ops}, p ⟨r, []⟩ →
      r.begin shared node event = some ((r', shared'), ops) → p ⟨r', ops⟩)
    (execs : ∀ {r r' shared shared' op rest more}, p ⟨r, op :: rest⟩ →
      op.exec node (r, shared) = some ((r', shared'), more) → p ⟨r', more ++ rest⟩)
    {i : Nat} {job : Job} (found : s'.jobs[i]? = some job) : p job := by
  cases h.became found with
  | accepted _ _ _ => exact accept _
  | began there _ begun => exact begins (all there) begun
  | worked there ran => exact execs (all there) ran
  | stayed there => exact all there

/-- A turn that goes on with an access does it. -/
theorem Step.performs {a : Access} (h : Step node s turn s')
    (current : s.current turn = some (.access a)) : s'.shared = a.perform node s.shared := by
  cases h.moved with
  | worked found ran =>
      obtain rfl : _ = Op.access a := by simpa [Server.current, found] using current
      obtain ⟨⟨shared, more⟩, performed, same⟩ := Option.map_eq_some_iff.mp ran
      cases same
      exact (Access.exec_eq performed).1
  | advanced found ran =>
      obtain rfl : _ = a := by simpa [Server.current, found] using current
      exact (Access.exec_eq ran).1
  | _ => cases current

/-! ## Pending accesses -/

end Server

def Op.access? : Op → Option Access
  | .access a => some a
  | _ => none

def Job.accesses (job : Job) : List Access := job.work.filterMap Op.access?

@[simp] theorem Op.filterMap_access (accesses : List Access) :
    (accesses.map Op.access).filterMap Op.access? = accesses := by
  induction accesses with
  | nil => rfl
  | cons a accesses ih => simpa [Op.access?] using ih

namespace Server

/-- The accesses that all tasks have still to do. -/
def pending (s : Server) : List Access := s.jobs.flatMap Job.accesses ++ s.tasks.flatten

variable {node : Node} {s : Server} {i k : Nat} {job : Job}

theorem pending_job (found : s.jobs[i]? = some job) :
    ∃ others, s.pending.Perm (job.accesses ++ others) ∧
      ∀ shared job' ids, ({ s with shared := shared, jobs := s.jobs.set i job', ids := ids } :
        Server).pending.Perm (job'.accesses ++ others) := by
  obtain ⟨others, before, after⟩ := pull_out Job.accesses found
  refine ⟨others ++ s.tasks.flatten, ?_, ?_⟩
  · rw [← List.append_assoc]
    exact before.append_right _
  · intro shared job' ids
    rw [← List.append_assoc]
    exact (after job').append_right _

theorem pending_task {task : List Access} (found : s.tasks[k]? = some task) :
    ∃ others, s.pending.Perm (task ++ others) ∧
      ∀ shared task', ({ s with shared := shared, tasks := s.tasks.set k task' } :
        Server).pending.Perm (task' ++ others) := by
  obtain ⟨others, before, after⟩ := pull_out id found
  rw [List.flatMap_id] at before
  refine ⟨s.jobs.flatMap Job.accesses ++ others, ?_, ?_⟩
  · exact (before.append_left _).trans (List.perm_append_comm_assoc _ _ _)
  · intro shared task'
    have moved := after task'
    rw [List.flatMap_id] at moved
    exact (moved.append_left _).trans (List.perm_append_comm_assoc _ _ _)

end Server

/-! ## A small node at work -/

namespace Sample

/-- A node just after its start. -/
def started : Server := { shared := { world := world } }

theorem started_initial : started.Initial := ⟨fun _ => 0, 0, verifier, rfl⟩

/-- The node after some turns. -/
def after (node : Node) (turns : List Turn) : Server :=
  (turns.foldlM (fun (s : Server) turn => s.step node turn) started).getD started

theorem after_steps {node : Node} {turns : List Turn}
    (runs : (turns.foldlM (fun (s : Server) turn => s.step node turn) started).isSome) :
    Steps (Server.Step node) started turns (after node turns) := by
  obtain ⟨s, ran⟩ := Option.isSome_iff_exists.mp runs
  have same : after node turns = s := by rw [after, ran, Option.getD_some]
  rw [same]
  exact .of_foldlM (fun _ _ _ move => move) ran

theorem after_reached {node : Node} {turns : List Turn}
    (runs : (turns.foldlM (fun (s : Server) turn => s.step node turn) started).isSome) :
    Server.Reached node (after node turns) :=
  (after_steps runs).reachable (.start started_initial)

/-- A command with the id that a CONNECT takes. -/
def commandAs (uuid : ClientId) : Event := .command { readings noon with uuid := uuid }

/-- Every client is user 42, and connects to the channel `news`. -/
def pressNode : Node :=
  { node with
    proxies := { connect := some fun _ _ => some (.credentials {
      user := "42"
      channels := ["news"] }) } }

/-- A session that connects, up to its subscription. -/
def joins (i : Nat) (proto : ProtocolType) (uuid : ClientId) : List Turn := [
  .accept proto "websocket",
  .event i (.frame (some [connect])),
  .event i (commandAs uuid),
  .work i, .work i, .work i, .work i, .work i]

end Sample

end Centrifugo
