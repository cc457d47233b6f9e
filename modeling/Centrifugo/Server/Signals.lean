import Centrifugo.Server.Index

/-!
# Control signals

A control command is a copy of the connections that it addresses, and one signal for each of
them. A signal goes into the control queue of the connection, from where its session takes
it. The queue is bounded, and a signal that finds it full is dropped.
-/

namespace Centrifugo

open Server

/-! ## Signals on their way -/

def Access.notifies (c : QueueId) (signal : Signal) : Access → Bool
  | .notify handle sent => handle.ctrl = some c && sent = signal
  | _ => false

namespace Fact

def addresses (c : QueueId) (signal : Signal) : Fact → Bool
  | .addressed handle sent => handle.ctrl = some c && sent = signal
  | _ => false

def notifies (c : QueueId) (signal : Signal) : Fact → Bool
  | .notified handle sent _ => handle.ctrl = some c && sent = signal
  | _ => false

/-- The signal was dropped. -/
def drops (c : QueueId) (signal : Signal) : Fact → Bool
  | .notified handle sent false => handle.ctrl = some c && sent = signal
  | _ => false

/-- The signal that goes into a control queue. -/
def delivers (c : QueueId) : Fact → Option Signal
  | .notified handle signal true => if handle.ctrl = some c then some signal else none
  | _ => none

/-- The signal that a session takes from it. -/
def processes (c : QueueId) : Fact → Option Signal
  | .processed ctrl signal => if ctrl = c then some signal else none
  | _ => none

/-- A signal is delivered or dropped. -/
theorem countP_notifies (log : List Fact) (c : QueueId) (signal : Signal) :
    log.countP (notifies c signal) =
      (log.filterMap (delivers c)).count signal + log.countP (drops c signal) := by
  induction log with
  | nil => rfl
  | cons fact log ih =>
      rw [List.countP_cons, List.countP_cons, List.filterMap_cons, ih]
      cases fact with
      | notified handle sent delivered =>
          cases delivered <;> by_cases mine : handle.ctrl = some c <;>
            by_cases same : sent = signal <;> simp [notifies, delivers, drops, mine, same] <;> omega
      | _ => simp [notifies, delivers, drops]

end Fact

/-- What waits in a control queue. -/
def Shared.signals (s : Shared) (c : QueueId) : List Signal :=
  ((s.ctrls.lookup c).map SignalQueue.items).getD []

namespace Access

variable {node : Node} {a : Access} {s : Shared} {c : QueueId} {signal : Signal}

theorem notifies_more (other : ∀ message, a ≠ .control message) :
    (a.more node s).countP (notifies c signal) = 0 := by
  rw [List.countP_eq_zero]
  intro b mem
  cases follows_of_mem mem with
  | notify _ => exact absurd rfl (other _)
  | _ => simp [notifies]

theorem addresses_facts :
    (a.facts s).countP (Fact.addresses c signal) = (a.more node s).countP (notifies c signal) := by
  cases a with
  | control message =>
      simp only [facts, more, List.countP_map]
      exact List.countP_congr fun _ _ => Iff.rfl
  | _ =>
      rw [notifies_more (by simp)]
      simp [facts, Fact.addresses]

theorem notifies_facts : (a.facts s).countP (Fact.notifies c signal) =
    if a.notifies c signal then 1 else 0 := by
  cases a with
  | notify handle sent => simp [facts, notifies, Fact.notifies, List.countP_singleton]
  | control message => simp [facts, notifies, Fact.notifies, List.countP_eq_zero]
  | _ => simp [facts, notifies, Fact.notifies]

end Access

/-- Every addressed connection is signalled, or about to be. -/
def Balanced (s : Server) : Prop :=
  ∀ c signal, s.shared.log.countP (Fact.addresses c signal) =
    s.pending.countP (Access.notifies c signal) + s.shared.log.countP (Fact.notifies c signal)

theorem Balanced.step {node : Node} {s s' : Server} {turn : Turn} (h : Balanced s)
    (seated : Seated s) (move : Server.Step node s turn s') : Balanced s' := by
  intro c signal
  have before := h c signal
  cases move.outline seated with
  | access _ here _ _ shared there =>
      rw [here.countP_eq, List.countP_cons] at before
      rw [shared, Access.perform_log, there.countP_eq, List.countP_append, List.countP_append,
        List.countP_append, @Access.addresses_facts node, Access.notifies_facts]
      omega
  | registering _ _ _ _ _ shared pending =>
      rw [shared, pending.countP_eq, List.countP_cons_of_neg (by simp [Access.notifies]),
        List.countP_cons_of_neg (by simp [Access.notifies])]
      exact before
  | @quiet new pending starts quiet =>
      obtain ⟨facts, log, aside⟩ := quiet.log
      have silent : new.countP (Access.notifies c signal) = 0 := by
        rw [List.countP_eq_zero]
        intro a mem mine
        cases a with
        | notify _ _ => obtain ⟨_, own⟩ | own := starts _ mem <;> cases own
        | _ => cases mine
      have silent' : ∀ fact : Fact, fact.aside → fact.addresses c signal = false ∧
          fact.notifies c signal = false := by
        intro fact apart
        cases fact <;> first | exact ⟨rfl, rfl⟩ | cases apart
      have addresses : facts.countP (Fact.addresses c signal) = 0 :=
        List.countP_eq_zero.mpr fun fact mem => by simp [(silent' fact (aside fact mem)).1]
      have notifies : facts.countP (Fact.notifies c signal) = 0 :=
        List.countP_eq_zero.mpr fun fact mem => by simp [(silent' fact (aside fact mem)).2]
      rw [log, pending.countP_eq, List.countP_append, List.countP_append, List.countP_append,
        silent, addresses, notifies]
      omega

/-! ## Control queues -/

/-- The signals of a node with so many sessions, each taken in the order of delivery. -/
structure Shared.Mailed (s : Shared) (sessions : Nat) : Prop where
  inOrder : ∀ c, s.log.filterMap (Fact.delivers c) =
    s.log.filterMap (Fact.processes c) ++ s.signals c
  fresh : ∀ c, sessions ≤ c → s.ctrls.lookup c = none

namespace Shared.Mailed

variable {node : Node} {s s' : Shared} {n : Nat} {ctrl : QueueId} {signal : Signal}

theorem silent {β : Type} {f : Fact → Option β} {log facts : List Fact}
    (nothing : ∀ fact ∈ facts, f fact = none) :
    (log ++ facts).filterMap f = log.filterMap f := by
  rw [List.filterMap_append, List.filterMap_eq_nil_iff.mpr nothing, List.append_nil]

/-- Nothing happens to the control queues. -/
theorem congr (h : s.Mailed n) (ctrls : s'.ctrls = s.ctrls)
    (log : ∃ facts, s'.log = s.log ++ facts ∧
      ∀ fact ∈ facts, ∀ c, fact.delivers c = none ∧ fact.processes c = none) : s'.Mailed n := by
  obtain ⟨facts, log, nothing⟩ := log
  refine ⟨fun c => ?_, ?_⟩
  · rw [signals, ctrls, log, silent fun fact mem => (nothing fact mem c).1,
      silent fun fact mem => (nothing fact mem c).2]
    exact h.inOrder c
  · rw [ctrls]
    exact h.fresh

/-- A signal goes to the end of the queue. -/
theorem deliver (h : s.Mailed n) {handle : ClientHandle} (same : handle.ctrl = some ctrl)
    (takes : s.takes ctrl) : ((Access.notify handle signal).perform node s).Mailed n := by
  obtain ⟨queue, found, _⟩ := (Option.any_eq_true _ _).mp takes
  have ctrls : ((Access.notify handle signal).perform node s).ctrls =
      s.ctrls.alter ctrl (Option.map fun queue =>
        { queue with items := queue.items ++ [signal] }) := by
    rw [Access.perform_ctrls, Access.ctrls, same]
    simp only
    rw [if_pos takes]
  have log : ((Access.notify handle signal).perform node s).log =
      s.log ++ [.notified handle signal true] := by
    rw [Access.perform_log, Access.facts, same, Option.any_some, takes]
  refine ⟨fun c => ?_, fun c beyond => ?_⟩
  · rw [log, List.filterMap_append, List.filterMap_append, h.inOrder, signals, signals, ctrls,
      Map.lookup_alter]
    by_cases mine : c = ctrl
    · subst mine
      simp [Fact.delivers, Fact.processes, same, found]
    · have apart : ctrl ≠ c := Ne.symm mine
      simp [Fact.delivers, Fact.processes, same, apart, mine]
  · rw [ctrls, Map.lookup_alter]
    split
    next same => rw [← same, h.fresh c beyond]; rfl
    next => exact h.fresh c beyond

theorem access (h : s.Mailed n) (a : Access) : (a.perform node s).Mailed n := by
  cases a with
  | notify handle signal =>
      cases room : handle.ctrl.any s.takes with
      | true =>
          obtain ⟨ctrl, same, takes⟩ := (Option.any_eq_true _ _).mp room
          exact h.deliver same takes
      | false =>
          refine h.congr ?_ ⟨_, Access.perform_log, ?_⟩
          · rw [Access.perform_ctrls, Access.ctrls]
            split
            next ctrl same =>
              rw [same, Option.any_some] at room
              rw [if_neg (by simp [room])]
            next => rfl
          · intro fact mem c
            rw [List.mem_singleton.mp mem, room]
            exact ⟨rfl, rfl⟩
  | control message =>
      refine h.congr rfl ⟨_, Access.perform_log, ?_⟩
      intro fact mem c
      obtain ⟨target, _, rfl⟩ := List.mem_map.mp mem
      exact ⟨rfl, rfl⟩
  | _ =>
      refine h.congr rfl ⟨_, Access.perform_log, ?_⟩
      simp [Access.facts, Fact.delivers, Fact.processes]

theorem of_take (h : s.Mailed n) (taken : s.take ctrl signal = some s') : s'.Mailed n := by
  unfold Shared.take at taken
  split at taken
  next => cases taken
  next queue found =>
    split at taken
    next => cases taken
    next first rest items =>
      split at taken
      next same =>
        cases taken
        refine ⟨fun c => ?_, fun c beyond => ?_⟩
        · rw [List.filterMap_append, List.filterMap_append, h.inOrder, signals, signals,
            Map.lookup_insert_eq]
          by_cases mine : c = ctrl
          · subst mine
            simp [Fact.delivers, Fact.processes, found, items, same]
          · have apart : ctrl ≠ c := Ne.symm mine
            simp [Fact.delivers, Fact.processes, apart, mine]
        · rw [Map.lookup_insert_eq]
          split
          next same =>
            have none := h.fresh c beyond
            rw [same, found] at none
            cases none
          next => exact h.fresh c beyond
      next => cases taken

theorem prepare (h : s.Mailed n) {r : Reader} {event : Event}
    (prepared : r.prepare s event = some s') : s'.Mailed n := by
  unfold Reader.prepare at prepared
  split at prepared
  next signal =>
    obtain ⟨ctrl, _, taken⟩ := Option.bind_eq_some_iff.mp prepared
    exact h.of_take taken
  next =>
    cases prepared
    exact h

theorem accept (h : s.Mailed n) (world : World) :
    Shared.Mailed { s with world := world, ctrls := s.ctrls.insert n {} } (n + 1) := by
  refine ⟨fun c => (h.inOrder c).trans (congrArg _ ?_), fun c beyond => ?_⟩
  · rw [signals, signals, Map.lookup_insert_eq]
    split
    next same => rw [same, h.fresh n (le_refl _)]; rfl
    next => rfl
  · rw [Map.lookup_insert_eq, if_neg (by omega)]
    exact h.fresh c (by omega)

/-- The queue of a session that ended takes nothing more. -/
theorem retire (h : s.Mailed n) (c : QueueId) :
    Shared.Mailed { s with ctrls := s.ctrls.alter c <| Option.map fun queue =>
      { queue with closed := true } } n := by
  refine ⟨fun other => (h.inOrder other).trans (congrArg _ ?_), fun other beyond => ?_⟩
  · rw [signals, signals, Map.lookup_alter]
    split
    next same => rw [same, Option.map_map]; rfl
    next => rfl
  · rw [Map.lookup_alter]
    split
    next same => rw [← same, h.fresh other beyond]; rfl
    next => exact h.fresh other beyond

end Shared.Mailed

theorem Server.Step.mailed {node : Node} {s s' : Server} {turn : Turn}
    (h : s.shared.Mailed s.jobs.length) (move : Server.Step node s turn s') :
    s'.shared.Mailed s'.jobs.length := by
  cases move.moved with
  | accepted proto transport =>
      rw [Server.onAccept, List.length_append, List.length_singleton]
      exact h.accept _
  | began found drawn prepared begun =>
      obtain ⟨ctrls, facts, log, told⟩ := (Reader.begin_begun begun).told
      rw [List.length_set]
      refine (h.prepare prepared).congr ctrls ⟨facts, log, fun fact mem c => ?_⟩
      obtain ⟨id, channels, rfl⟩ := told fact mem
      exact ⟨rfl, rfl⟩
  | @worked i _ _ op _ _ _ found ran =>
      rw [List.length_set]
      cases kind : op.access? with
      | none =>
          obtain ⟨_, ctrls, log⟩ := (Op.exec_ran ran).reads kind
          exact h.congr ctrls ⟨[], by rw [log, List.append_nil], by simp⟩
      | some a =>
          cases Op.exec_ran ran with
          | accessed performed =>
              obtain ⟨rfl, _⟩ := Access.exec_eq performed
              exact h.access _
          | _ => cases kind
  | spawned _ => exact h
  | advanced found ran =>
      obtain ⟨rfl, _⟩ := Access.exec_eq ran
      exact h.access _
  | drained _ => exact h.congr rfl ⟨[], by simp, by simp⟩
  | released _ => exact h.congr rfl ⟨[], by simp, by simp⟩
  | slowClosed _ _ => exact h.congr rfl ⟨[], by simp, by simp⟩
  | @retired i reader found ended => exact h.retire i
  | rekeyed _ => exact h.congr rfl ⟨[], by simp, by simp⟩

/-! ## Sessions on their way out -/

/-- The loop has ended, or ends with the frame. -/
def Phase.closing : Phase → Bool
  | .replying _ disconnect | .flushing disconnect => disconnect.isSome
  | .leaving | .ended => true
  | .reading | .batch _ _ => false

namespace Reader

variable {node : Node} {r r' : Reader} {s s' : Shared}

theorem closing_answer (closing : r.phase.closing) (outcome : CommandOutcome)
    (channels : List String) : (r.answer outcome channels).phase.closing := by
  unfold answer
  cases phase : r.phase with
  | batch cmds replies =>
      rw [phase] at closing
      cases closing
  | _ => simpa [phase] using closing

/-- A session on its way out does not come back. -/
theorem closing_begin {event : Event} {ops : List Op}
    (h : r.begin s node event = some ((r', s'), ops)) (closing : r.phase.closing) :
    r'.phase.closing := by
  unfold Reader.begin at h
  cases phase : r.phase with
  | reading => rw [phase] at closing; cases closing
  | batch cmds replies => rw [phase] at closing; cases closing
  | replying replies disconnect =>
      rw [phase] at h closing
      cases event <;> simp only at h <;> try cases h
      unfold onReply at h
      split at h
      next => cases h; exact closing
      next =>
        split at h
        next => cases h; rfl
        next =>
          split at h
          next => cases h; rfl
          next =>
            split at h
            next => cases h; exact closing
            next => cases h
  | flushing disconnect =>
      rw [phase] at h closing
      cases event <;> simp only at h <;> try cases h
      split at h
      next => cases h; rfl
      next => cases closing
  | leaving =>
      rw [phase] at h
      cases event <;> simp only at h <;> try cases h
      rfl
  | ended =>
      rw [phase] at h
      cases event <;> simp only at h <;> cases h

end Reader

theorem Op.closing_exec {node : Node} {op : Op} {r r' : Reader} {s s' : Shared} {more : List Op}
    (h : op.exec node (r, s) = some ((r', s'), more)) (closing : r.phase.closing) :
    r'.phase.closing := by
  cases exec_ran h with
  | overLimit _ _ _ _ =>
      apply Reader.closing_answer
      exact closing
  | connected _ _ _ _ _ => exact Reader.closing_answer closing _ _
  | subscribed _ _ _ _ _ _ _ =>
      apply Reader.closing_answer
      exact closing
  | answered _ => exact Reader.closing_answer closing _ _
  | _ => exact closing

namespace Server

/-- The session of a connection is on its way out. -/
def Closing (s : Server) (c : QueueId) : Bool :=
  s.jobs[c]?.any fun job => job.reader.phase.closing

theorem Step.closing {node : Node} {s s' : Server} {turn : Turn} {c : QueueId}
    (move : Step node s turn s') (closing : s.Closing c) : s'.Closing c := by
  obtain ⟨job, found, before⟩ := (Option.any_eq_true _ _).mp closing
  obtain ⟨job', found', after⟩ :=
    move.related (fun r r' => r.phase.closing → r'.phase.closing) (fun _ same => same)
      (fun begun => Reader.closing_begin begun) (fun ran => Op.closing_exec ran) found
  exact (Option.any_eq_true _ _).mpr ⟨job', found', after before⟩

/-- A signal finds room, unless its session is on its way out. -/
def Heard (s : Server) (turn : Turn) : Bool :=
  match s.current turn with
  | some (.access (.notify handle _)) => handle.ctrl.any s.shared.takes || s.Closing handle.tx
  | _ => true

end Server

/-! ## Signals in a run -/

/-- What a command asks of a connection, when it is meant for it. -/
def ControlMessage.signalFor (handle : ClientHandle) : ControlMessage → Option Signal
  | .unsubscribe user channel => if handle.user = user then some (.unsubscribe channel) else none
  | .disconnect user code reason reconnect whitelist =>
      if handle.user = user ∧ handle.id ∉ whitelist then
        some (.disconnect ⟨code, reason, reconnect⟩)
      else none
  | .node _ => none

/-- A command addresses all registered connections that it is meant for. -/
theorem Indexed.addressed {s : Server} (h : Indexed s) {handle : ClientHandle}
    {message : ControlMessage} {signal : Signal}
    (registered : s.shared.world.hub.conns.lookup handle.id = some handle)
    (listed : .indexUser handle.user handle.id ∉ s.pending)
    (meant : message.signalFor handle = some signal) :
    (handle, signal) ∈ message.targets s.shared.world.hub := by
  have client : handle ∈ s.shared.world.hub.userClients handle.user :=
    Hub.mem_userClients.mpr ⟨_, (h.indexed registered).resolve_right listed, registered⟩
  cases message with
  | unsubscribe user channel =>
      simp only [ControlMessage.signalFor, Option.ite_none_right_eq_some,
        Option.some.injEq] at meant
      obtain ⟨rfl, rfl⟩ := meant
      exact List.mem_map.mpr ⟨handle, client, rfl⟩
  | disconnect user code reason reconnect whitelist =>
      simp only [ControlMessage.signalFor, Option.ite_none_right_eq_some,
        Option.some.injEq] at meant
      obtain ⟨⟨rfl, spared⟩, rfl⟩ := meant
      exact List.mem_map.mpr ⟨handle, List.mem_filter.mpr ⟨client, by simpa using spared⟩, rfl⟩
  | node info => cases meant

/-- A dropped signal was for a session on its way out. -/
def Spared (s : Server) : Prop :=
  ∀ {handle signal}, .notified handle signal false ∈ s.shared.log →
    handle.ctrl = some handle.tx ∧ s.Closing handle.tx

theorem Spared.step {node : Node} {s s' : Server} {turn : Turn} (h : Spared s)
    (registry : Registry s) (heard : s.Heard turn) (move : Server.Step node s turn s') :
    Spared s' := by
  intro handle signal mem
  have old : .notified handle signal false ∈ s.shared.log →
      handle.ctrl = some handle.tx ∧ s'.Closing handle.tx := fun mem =>
    ⟨(h mem).1, move.closing (h mem).2⟩
  cases move.outline registry.seated with
  | @access a others current here place able shared there =>
      rw [shared, Access.perform_log] at mem
      obtain before | now := List.mem_append.mp mem
      · exact old before
      · cases a with
        | notify other sent =>
            obtain ⟨rfl, rfl, full⟩ := Fact.notified.inj (List.mem_singleton.mp now)
            have issued : s.Issued handle :=
              registry.pending _ (here.mem_iff.mpr List.mem_cons_self)
            obtain ⟨_, _, _, _, _, ctrl⟩ := issued
            refine ⟨ctrl, move.closing ?_⟩
            simpa [Heard, current, ← full] using heard
        | control message => simp [Access.facts] at now
        | _ => simp [Access.facts] at now
  | registering _ _ _ _ _ shared _ =>
      rw [shared] at mem
      exact old mem
  | quiet _ _ quiet =>
      obtain ⟨facts, log, aside⟩ := quiet.log
      rw [log] at mem
      obtain before | now := List.mem_append.mp mem
      · exact old before
      · cases aside _ now

/-- No signal is lost. -/
structure Heeds (node : Node) (s : Server) : Prop where
  /-- A command addresses the registered connections that it is meant for. -/
  addressed : ∀ {handle message signal},
    s.shared.world.hub.conns.lookup handle.id = some handle →
    .indexUser handle.user handle.id ∉ s.pending → message.signalFor handle = some signal →
    ∀ {turn s'}, s.current turn = some (.access (.control message)) →
      Server.Step node s turn s' → .addressed handle signal ∈ s'.shared.log
  /-- As long as its session goes on, each signal for a connection is about to be sent, or waits
  in the control queue, or was processed. -/
  kept : ∀ {c}, s.Closing c = false → ∀ signal,
    s.shared.log.countP (Fact.addresses c signal) =
      s.pending.countP (Access.notifies c signal) + (s.shared.signals c).count signal +
        (s.shared.log.filterMap (Fact.processes c)).count signal
  inOrder : ∀ c, s.shared.log.filterMap (Fact.delivers c) =
    s.shared.log.filterMap (Fact.processes c) ++ s.shared.signals c
  /-- A session at rest takes the first signal that waits. -/
  ready : ∀ {c reader signal signals}, s.jobs[c]? = some ⟨reader, []⟩ → reader.phase = .reading →
    s.shared.signals c = signal :: signals →
      ∃ s', Server.Step node s (.event c (.signal signal)) s' ∧
      s'.shared.log = s.shared.log ++ [.processed c signal]

theorem Seated.ready {node : Node} {s : Server} (h : Seated s) {c : QueueId} {reader : Reader}
    {signal : Signal} {signals : List Signal} (found : s.jobs[c]? = some ⟨reader, []⟩)
    (reading : reader.phase = .reading) (waiting : s.shared.signals c = signal :: signals) :
    ∃ s', Server.Step node s (.event c (.signal signal)) s' ∧
      s'.shared.log = s.shared.log ++ [.processed c signal] := by
  have ctrl : reader.client.ctrl = some c := (h.seat found).ctrl
  unfold Shared.signals at waiting
  cases lookup : s.shared.ctrls.lookup c with
  | none =>
      rw [lookup] at waiting
      cases waiting
  | some queue =>
      have items : queue.items = signal :: signals := by simpa [lookup] using waiting
      have prepared : reader.prepare s.shared (.signal signal) = some { s.shared with
          ctrls := s.shared.ctrls.insert c { queue with items := signals }
          log := s.shared.log ++ [.processed c signal] } := by
        simp [Reader.prepare, ctrl, Shared.take, lookup, items]
      have begun : ∀ shared, reader.begin shared node (.signal signal) =
          some (((reader.onSignal signal).1, shared), (reader.onSignal signal).2) := by
        simp [Reader.begin, reading]
      refine ⟨{ s with
        shared := { s.shared with
          ctrls := s.shared.ctrls.insert c { queue with items := signals }
          log := s.shared.log ++ [.processed c signal] }
        jobs := s.jobs.set c ⟨(reader.onSignal signal).1, (reader.onSignal signal).2⟩ }, ?_, rfl⟩
      change s.onEvent node c (.signal signal) = _
      rw [Server.onEvent, found]
      simp only [draw, prepared, begun, Option.bind_eq_bind, Option.bind_some]
      rfl

theorem signals_heeded {node : Node} {s : Server}
    (h : Reachable Server.Initial (guarded (Server.Step node) fun s turn => s.Heard turn) s) :
    Heeds node s := by
  have all : Registry s ∧ Indexed s ∧ Balanced s ∧ s.shared.Mailed s.jobs.length ∧ Spared s := by
    refine h.invariant (fun s => Registry s ∧ Indexed s ∧ Balanced s ∧
      s.shared.Mailed s.jobs.length ∧ Spared s) ?_ ?_
    · intro s start
      refine ⟨.initial start, .initial start, ?_⟩
      obtain ⟨hash, ttl, verifier, rfl⟩ := start
      exact ⟨fun _ _ => rfl, ⟨fun _ => rfl, fun _ _ => rfl⟩, fun mem => nomatch mem⟩
    · intro s turn s' here move
      obtain ⟨registry, indexed, balanced, mailed, spared⟩ := here
      exact ⟨registry.step move.2, indexed.step registry move.2,
        balanced.step registry.seated move.2, Server.Step.mailed mailed move.2,
        Spared.step spared registry move.1 move.2⟩
  obtain ⟨registry, indexed, balanced, mailed, spared⟩ := all
  refine ⟨?_, ?_, mailed.inOrder, registry.seated.ready⟩
  · intro handle message signal registered listed meant turn s' current move
    rw [move.performs current, Access.perform_log]
    refine List.mem_append_right _ (List.mem_map.mpr ?_)
    exact ⟨(handle, signal), indexed.addressed registered listed meant, rfl⟩
  · intro c going signal
    have none : s.shared.log.countP (Fact.drops c signal) = 0 := by
      rw [List.countP_eq_zero]
      intro fact mem dropped
      unfold Fact.drops at dropped
      split at dropped
      next handle sent =>
        obtain ⟨ctrl, closing⟩ := spared mem
        simp only [Bool.and_eq_true, decide_eq_true_eq] at dropped
        rw [ctrl] at dropped
        cases dropped.1
        rw [closing] at going
        cases going
      next => cases dropped
    rw [balanced c signal, Fact.countP_notifies, mailed.inOrder, List.count_append, none]
    omega

/-! ## A user to disconnect -/

namespace Sample

def ban : Signal := .disconnect ⟨3012, "force disconnect", false⟩

def banUser : ControlMessage := .disconnect "42" 3012 "force disconnect" false []

/-- Other commands for the user, one after the other, and the disconnect after them. -/
def commands (n : Nat) : List Turn :=
  (List.range n).flatMap (fun k =>
      [.spawn (.control (.unsubscribe "42" "sport")), .task k, .task k]) ++
    [.spawn (.control banUser), .task n, .task n]

end Sample

open Sample

theorem signals_heeded_ban :
    Heeds pressNode (after pressNode (joins 0 .protobuf "2a1f" ++ commands 2)) := by
  have run : Steps (guarded (Server.Step pressNode) fun s turn => s.Heard turn) started
      (joins 0 .protobuf "2a1f" ++ commands 2)
      (after pressNode (joins 0 .protobuf "2a1f" ++ commands 2)) := .guarded_of_foldlM rfl
  exact signals_heeded (run.reachable (.start started_initial))

/-- After as many signals as the control queue holds, a disconnect is lost. -/
theorem not_signals_heeded_crowded :
    ¬ ∀ (node : Node) (s : Server) (c : QueueId) (signal : Signal), Server.Reached node s →
      s.Closing c = false → s.shared.log.countP (Fact.addresses c signal) =
        s.pending.countP (Access.notifies c signal) + (s.shared.signals c).count signal +
          (s.shared.log.filterMap (Fact.processes c)).count signal := by
  intro all
  have reached : Server.Reached pressNode
      (after pressNode (joins 0 .protobuf "2a1f" ++ commands 64)) :=
    after_reached (by decide +kernel)
  exact absurd (all pressNode _ 0 ban reached (by decide +kernel)) (by decide +kernel)

end Centrifugo
