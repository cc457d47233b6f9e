import Centrifugo.Core.Client.Answers
import Centrifugo.Server.Signals
import Mathlib.Data.List.Forall2

/-!
# Frames of commands

A session handles the commands of a frame in their order, up to the first one that is rejected
or closes the connection. `Serving` follows it through a frame: the commands it is done with
are answered, and the operations of the command in hand end with an answer.
-/

namespace Centrifugo

open Server

/-! ## Replies to a frame -/

/-- A handler may close the connection on this command. -/
def Command.Closes (node : Node) (cmd : Command) (disconnect : Disconnect) : Prop :=
  ∃ (session : Session) (readings : Readings),
    (session.handleCommand node readings cmd).2 = .refuse cmd.id (.close disconnect)

/-- The replies to some commands: one for each that is no SEND, in their order. -/
structure Replied (proto : ProtocolType) (cmds : List Command) (replies : List (Reply Result)) :
    Prop where
  answers : List.Forall₂ (Reply.Answers proto) (cmds.filter fun cmd => cmd.method ≠ .send) replies
  numbered : ∀ cmd ∈ cmds, cmd.method ≠ .send → cmd.id ≠ 0

/-- Why the commands that are left in a frame are not handled. -/
inductive Stops (node : Node) : List Command → Option Disconnect → Prop
  | done : Stops node [] none
  | rejected {cmd : Command} {later : List Command} (id : cmd.id = 0)
      (expects : cmd.method ≠ .send) : Stops node (cmd :: later) (some .badRequest)
  | closed {cmd : Command} {later : List Command} {disconnect : Disconnect}
      (numbered : cmd.method ≠ .send → cmd.id ≠ 0) (closes : cmd.Closes node disconnect) :
      Stops node (cmd :: later) (some disconnect)

namespace Replied

variable {proto : ProtocolType} {cmds : List Command} {cmd : Command}
  {replies : List (Reply Result)} {reply : Reply Result}

theorem nil : Replied proto [] [] := ⟨.nil, by simp⟩

theorem numbered_append (h : Replied proto cmds replies)
    (numbered : cmd.method ≠ .send → cmd.id ≠ 0) :
    ∀ other ∈ cmds ++ [cmd], other.method ≠ .send → other.id ≠ 0 := by
  intro other mem
  obtain old | new := List.mem_append.mp mem
  · exact h.numbered other old
  · rw [List.mem_singleton.mp new]
    exact numbered

theorem append (h : Replied proto cmds replies) (expects : cmd.method ≠ .send)
    (numbered : cmd.id ≠ 0) (answers : reply.Answers proto cmd) :
    Replied proto (cmds ++ [cmd]) (replies ++ [reply]) := by
  refine ⟨?_, h.numbered_append fun _ => numbered⟩
  rw [List.filter_append, List.filter_singleton]
  apply List.rel_append h.answers
  simpa [expects] using answers

theorem silent (h : Replied proto cmds replies) (send : cmd.method = .send) :
    Replied proto (cmds ++ [cmd]) replies := by
  refine ⟨?_, h.numbered_append fun expects => absurd send expects⟩
  rw [List.filter_append, List.filter_singleton]
  simpa [send] using h.answers

/-- Every reply is one to some command. -/
theorem of_mem (h : Replied proto cmds replies) (mem : reply ∈ replies) :
    ∃ cmd ∈ cmds, cmd.method ≠ .send ∧ reply.Answers proto cmd := by
  obtain ⟨i, rfl⟩ := List.mem_iff_get.mp mem
  have inside : ↑i < (cmds.filter fun cmd => cmd.method ≠ .send).length := by
    rw [h.answers.length_eq]
    exact i.isLt
  have answers := h.answers.get inside i.isLt
  obtain ⟨asked, expects⟩ := List.mem_filter.mp (List.get_mem _ ⟨↑i, inside⟩)
  exact ⟨_, asked, by simpa using expects, answers⟩

theorem tagged (h : Replied proto cmds replies) : ∀ reply ∈ replies, reply.id ≠ 0 := by
  intro reply mem
  obtain ⟨cmd, asked, expects, answers⟩ := h.of_mem mem
  rw [answers.id]
  exact h.numbered cmd asked expects

theorem encodable (h : Replied proto cmds replies) : encodableReplies proto replies := by
  rw [encodableReplies, List.all_eq_true]
  intro reply mem
  obtain ⟨cmd, _, _, answers⟩ := h.of_mem mem
  rw [Option.all_eq_true]
  exact answers.encodable

end Replied

/-! ## Operations that answer -/

/-- The operation leads to an answer to the command. -/
def Op.Answers (node : Node) (proto : ProtocolType) (cmd : Command) : Op → Prop
  | .register _ other creds => other = cmd ∧ cmd.method = .connect ∧
      ∃ (session : Session) (readings : Readings) (req : ConnectRequest),
        session.parseConnect node cmd = .ok req ∧
        (session.identify readings.uuid).checkConnect node readings req = .ok creds
  | .serverSide _ other _ _ _ _ | .report _ other _ _ _ _ _ | .subscribeReply _ other _ _ _ =>
      other = cmd
  | .answer outcome => ∃ result, outcome = .reply (okReply proto cmd.id result)
  | .access _ | .serverUnsubscribe _ => False

/-- The outcome answers the command, and closes the connection only if a handler does. -/
def CommandOutcome.Due (node : Node) (proto : ProtocolType) (cmd : Command)
    (outcome : CommandOutcome) : Prop :=
  outcome.Answers proto cmd ∧
    ∀ disconnect, outcome = .refuse cmd.id (.close disconnect) → cmd.Closes node disconnect

theorem CommandOutcome.due_reply {node : Node} {proto : ProtocolType} {cmd : Command}
    (informs : cmd.method.Informs) (result : Result) :
    (CommandOutcome.reply (okReply proto cmd.id result)).Due node proto cmd := by
  refine ⟨Session.reply_okReply_answers informs result, fun disconnect same => ?_⟩
  cases same

theorem Session.due_handleCommand (s : Session) (node : Node) (readings : Readings)
    (cmd : Command) :
    (s.handleCommand node readings cmd).2.Due node s.client.proto cmd :=
  ⟨handleCommand_answers, fun _ same => ⟨s, readings, same⟩⟩

/-- A CONNECT over the connection limit is closed, whenever its session gets to register. -/
theorem Session.closes_overLimit {session : Session} {node : Node} {readings : Readings}
    {cmd : Command} {req : ConnectRequest} {creds : Creds} {hub : Hub}
    (method : cmd.method = .connect) (parsed : session.parseConnect node cmd = .ok req)
    (checked : (session.identify readings.uuid).checkConnect node readings req = .ok creds)
    (limit : overConnectionLimit node hub creds.user) : cmd.Closes node .connectionLimit := by
  -- the checks do not look at the hub
  let later : Session := { session with world := { session.world with hub := hub } }
  have parsed : later.parseConnect node cmd = .ok req := parsed
  have checked : (later.identify readings.uuid).checkConnect node readings req = .ok creds :=
    checked
  refine ⟨later, readings, ?_⟩
  rw [handleCommand_connect method parsed checked]
  simp [applyConnect, authenticate, identify, later, limit]

/-- A command goes on with operations of which the last one answers it, or it is answered. -/
inductive Reader.Proceeds (node : Node) (cmd : Command) (r r' : Reader) : List Op → Prop
  | working (accesses : List Access) {last : Op} (informs : cmd.method.Informs)
      (answers : last.Answers node r.client.proto cmd) (phase : r'.phase = r.phase) :
      Proceeds node cmd r r' (accesses.map .access ++ [last])
  | answered (outcome : CommandOutcome) (channels : List String)
      (phase : r'.phase = (r.answer outcome channels).phase)
      (due : outcome.Due node r.client.proto cmd) : Proceeds node cmd r r' []

section Proceeds

variable {node : Node} {op : Op} {r r' : Reader} {s s' : Shared} {ops : List Op} {cmd : Command}
  {readings : Readings}

theorem Op.Answers.exec (h : op.Answers node r.client.proto cmd) (informs : cmd.method.Informs)
    (ran : Ran node r s op r' s' ops) : r.Proceeds node cmd r' ops := by
  cases ran with
  | accessed _ => cases h
  | overLimit readings _ creds limit =>
      obtain ⟨rfl, method, session, readings, req, parsed, checked⟩ := h
      refine .answered _ [] rfl ⟨.closed _, fun disconnect same => ?_⟩
      cases same
      exact Session.closes_overLimit method parsed checked limit
  | registering readings _ creds _ _ =>
      obtain ⟨rfl, _⟩ := h
      exact .working [_, _] informs rfl rfl
  | connected readings _ creds subs i =>
      cases h
      exact .answered _ _ rfl (CommandOutcome.due_reply informs _)
  | joining _ _ _ _ _ channel _ =>
      cases h
      exact .working _ informs rfl rfl
  | reported _ _ _ _ _ _ _ after _ =>
      cases h
      exact .working [] informs rfl rfl
  | subscribed readings _ req opts grant after finished =>
      cases h
      refine .answered after.2 [req.channel] rfl ?_
      rw [finished]
      simp only [Session.finishSubscribe, Session.subscribeResult_client]
      exact CommandOutcome.due_reply informs _
  | answered outcome =>
      obtain ⟨result, rfl⟩ := h
      exact .answered _ [] rfl (CommandOutcome.due_reply informs result)
  | absent _ _ => cases h
  | unsubscribed _ _ _ _ => cases h

/-- A refused command gets what the handler answers. -/
theorem Reader.proceeds_refused (s : Shared) (readings : Readings) {refusal : Refusal}
    (refused : ((r.session s).handleCommand node readings cmd).2 = .refuse cmd.id refusal)
    (phase : r'.phase = (r.answer (.refuse cmd.id refusal) []).phase) :
    r.Proceeds node cmd r' [] := by
  refine .answered _ [] phase ?_
  rw [← refused]
  exact (r.session s).due_handleCommand node readings cmd

theorem Reader.onCommand_proceeds (h : r.onCommand s node readings cmd = ((r', s'), ops)) :
    r.Proceeds node cmd r' ops := by
  unfold onCommand at h
  split at h
  next first =>
    cases h
    refine proceeds_refused s readings ?_ rfl
    simp only [Bool.not_eq_true'] at first
    simp [Session.handleCommand, Session.handle, Guard.demand, session, first]
  next first =>
    have ready : (r.client.authenticated || decide (cmd.method = .connect)) = true := by
      rwa [Bool.not_eq_true, Bool.not_eq_false'] at first
    have handled : (r.session s).handleCommand node readings cmd =
        (r.session s).dispatch node readings cmd := by
      simp only [Session.handleCommand, Session.handle, Guard.demand, session, ready, if_true]
    split at h
    next method =>
      have informs : cmd.method.Informs := by simp [MethodType.Informs, method]
      simp only at h
      split at h
      next refusal parsed =>
        cases h
        refine proceeds_refused s readings ?_ rfl
        simp [handled, Session.dispatch, method, Session.onConnect, Session.handle, parsed]
      next req parsed =>
        split at h
        next refusal checked =>
          cases h
          refine proceeds_refused s readings ?_ rfl
          simp [handled, Session.dispatch, method, Session.onConnect, Session.handle, parsed,
            checked]
        next creds checked =>
          cases h
          exact .working [] informs ⟨rfl, method, r.session s, readings, req, parsed, checked⟩ rfl
    next method =>
      have informs : cmd.method.Informs := by simp [MethodType.Informs, method]
      simp only at h
      split at h
      next refusal checked =>
        cases h
        refine proceeds_refused s readings ?_ rfl
        simp [handled, Session.dispatch, method, Session.onSubscribe, Session.handle, checked]
      next req opts grant checked =>
        cases h
        exact .working _ informs rfl rfl
    next method =>
      have informs : cmd.method.Informs := by simp [MethodType.Informs, method]
      simp only at h
      split at h
      next refusal checked =>
        cases h
        refine proceeds_refused s readings ?_ rfl
        simp [handled, Session.dispatch, method, Session.onPublish, Session.handle, checked]
      next channel data checked =>
        cases h
        exact .working [_] informs ⟨_, rfl⟩ rfl
    next method =>
      have informs : cmd.method.Informs := by simp [MethodType.Informs, method]
      simp only at h
      split at h
      next refusal checked =>
        cases h
        refine proceeds_refused s readings ?_ rfl
        simp [handled, Session.dispatch, method, Session.onUnsubscribe, Session.handle, checked]
      next channel checked =>
        cases h
        exact .working _ informs ⟨_, rfl⟩ rfl
    next =>
      cases h
      exact .answered _ [] rfl ((r.session s).due_handleCommand node readings cmd)

end Proceeds

/-! ## Sessions in a frame -/

/-- The loop is in a frame whose replies are not sent yet. -/
def Phase.answering : Phase → Bool
  | .batch _ _ | .replying _ _ => true
  | .reading | .flushing _ | .leaving | .ended => false

/-- How far a session is with the commands of its last frame. -/
inductive Serving (node : Node) (cmds : List Command) : Job → Prop
  | between {reader : Reader} {done left : List Command} {replies : List (Reply Result)}
      (phase : reader.phase = .batch left replies) (all : cmds = done ++ left)
      (replied : Replied reader.client.proto done replies) : Serving node cmds ⟨reader, []⟩
  | handling {reader : Reader} {cmd : Command} {done left : List Command}
      {replies : List (Reply Result)} {work : List Op} {accesses : List Access} {last : Op}
      (phase : reader.phase = .batch left replies) (all : cmds = done ++ cmd :: left)
      (replied : Replied reader.client.proto done replies) (numbered : cmd.id ≠ 0)
      (informs : cmd.method.Informs) (answers : last.Answers node reader.client.proto cmd)
      (same : work = accesses.map .access ++ [last]) : Serving node cmds ⟨reader, work⟩
  | replying {reader : Reader} {done left : List Command} {replies : List (Reply Result)}
      {disconnect : Option Disconnect} (phase : reader.phase = .replying replies disconnect)
      (all : cmds = done ++ left) (replied : Replied reader.client.proto done replies)
      (stops : Stops node left disconnect) : Serving node cmds ⟨reader, []⟩
  | outside {job : Job} (phase : job.reader.phase.answering = false) : Serving node cmds job

namespace Reader

variable {node : Node} {r r' : Reader} {s s' : Shared} {event : Event} {ops : List Op}

/-- Outside of a frame, an answer does not change the phase. -/
theorem answer_phase_outside (outside : r.phase.answering = false) (outcome : CommandOutcome)
    (channels : List String) : (r.answer outcome channels).phase = r.phase := by
  unfold answer
  cases phase : r.phase with
  | batch cmds replies =>
      rw [phase] at outside
      cases outside
  | _ => rfl

theorem onExpiryTick_phase (node : Node) (readings : Readings) (now : UnixTime) :
    (r.onExpiryTick s node readings now).1.phase = r.phase ∨
      (r.onExpiryTick s node readings now).1.phase = .leaving := by
  unfold onExpiryTick
  split
  next => exact .inr rfl
  next =>
    split
    · exact .inr rfl
    · exact .inl rfl

theorem onSignal_phase (signal : Signal) :
    (r.onSignal signal).1.phase = r.phase ∨ (r.onSignal signal).1.phase = .leaving := by
  cases signal with
  | unsubscribe channel =>
      left
      simp only [onSignal]
      split <;> rfl
  | disconnect disconnect => exact .inr rfl

/-- What can become of the replies to a frame. -/
theorem onReply_cases {replies : List (Reply Result)} {disconnect : Option Disconnect}
    (h : r.onReply s replies disconnect = some ((r', s'), ops)) :
    replies = [] ∧ r' = { r with phase := .flushing disconnect } ∧ s' = s ∧ ops = [] ∨
    encodableReplies r.client.proto replies = false ∧ r'.phase = .leaving ∨
    s.world.gone r.client.tx ∧ r' = { r with phase := .leaving } ∧ s' = s ∧ ops = [] ∨
    replies ≠ [] ∧ s.world.hasRoom r.client.tx ∧ r' = { r with phase := .flushing disconnect } ∧
      s' = { s with
        world := s.world.send r.client.tx (.frame (.replies replies))
        log := s.log ++ [.told r.client.id r.confirmed] } ∧ ops = [] := by
  unfold onReply at h
  split at h
  next empty =>
    cases h
    exact .inl ⟨by simpa using empty, rfl, rfl, rfl⟩
  next some =>
    right
    split at h
    next garbled =>
      cases h
      exact .inl ⟨by simpa using garbled, rfl⟩
    next =>
      right
      split at h
      next gone =>
        cases h
        exact .inl ⟨gone, rfl, rfl, rfl⟩
      next =>
        right
        split at h
        next room =>
          cases h
          exact ⟨by simpa using some, room, rfl, rfl, rfl⟩
        next => cases h

/-- Only a frame and its commands lead to where replies are to be sent. -/
theorem begin_outside (h : r.begin s node event = some ((r', s'), ops))
    (frame : ∀ cmds, event ≠ .frame (some cmds)) (command : ∀ readings, event ≠ .command readings) :
    r'.phase.answering = false := by
  -- between frames, the phase is kept or the loop ends
  have reading : r.phase = .reading → r'.phase = r.phase ∨ r'.phase = .leaving →
      r'.phase.answering = false := by
    intro phase same
    obtain same | same := same
    · rw [same, phase]
      rfl
    · rw [same]
      rfl
  unfold Reader.begin at h
  cases event with
  | frame cmds =>
      cases cmds with
      | some cmds => exact absurd rfl (frame cmds)
      | none =>
          simp only at h
          split at h
          next => contradiction
          next =>
            cases h
            rfl
          next => cases h
  | command readings => exact absurd rfl (command readings)
  | hangUp =>
      simp only at h
      split at h
      next =>
        cases h
        rfl
      next => cases h
  | presenceTick =>
      simp only at h
      split at h
      next phase =>
        cases h
        exact reading phase (.inl rfl)
      next => cases h
  | expiryTick readings now =>
      simp only at h
      split at h
      next phase =>
        cases h
        exact reading phase (onExpiryTick_phase node readings now)
      next => cases h
  | signal signal =>
      simp only at h
      split at h
      next phase =>
        cases h
        exact reading phase (onSignal_phase signal)
      next => cases h
  | reply =>
      simp only at h
      split at h
      next =>
        obtain ⟨_, rfl, _⟩ | ⟨_, phase⟩ | ⟨_, rfl, _⟩ | ⟨_, _, rfl, _⟩ := onReply_cases h
        · rfl
        · rw [phase]
          rfl
        · rfl
        · rfl
      next => cases h
  | flush =>
      simp only at h
      split at h
      next disconnect _ =>
        cases disconnect <;> cases h <;> rfl
      next => cases h
  | leave =>
      simp only at h
      split at h
      next =>
        cases h
        rfl
      next => cases h
  | interference world => cases h

end Reader

/-- Outside of a frame, an operation does not change the phase. -/
theorem Op.Ran.phase_outside {node : Node} {op : Op} {r r' : Reader} {s s' : Shared}
    {more : List Op} (ran : Ran node r s op r' s' more) (outside : r.phase.answering = false) :
    r'.phase = r.phase := by
  cases ran with
  | overLimit _ cmd _ _ =>
      exact Reader.answer_phase_outside outside (.refuse cmd.id (.close .connectionLimit)) []
  | connected _ _ _ _ _ => exact Reader.answer_phase_outside outside _ _
  | subscribed _ _ req _ _ after _ =>
      exact Reader.answer_phase_outside outside after.2 [req.channel]
  | answered _ => exact Reader.answer_phase_outside outside _ _
  | _ => rfl

namespace Serving

variable {node : Node} {cmds : List Command} {r r' : Reader} {s s' : Shared} {event : Event}
  {ops rest more : List Op} {op : Op}

/-- A command in hand is still in hand, or its answer is with the others. -/
theorem of_proceeds {cmd : Command} {done left : List Command} {replies : List (Reply Result)}
    (phase : r.phase = .batch left replies) (all : cmds = done ++ cmd :: left)
    (replied : Replied r.client.proto done replies) (numbered : cmd.method ≠ .send → cmd.id ≠ 0)
    (proto : r'.client.proto = r.client.proto) (proceeds : r.Proceeds node cmd r' ops) :
    Serving node cmds ⟨r', ops⟩ := by
  have all' : cmds = (done ++ [cmd]) ++ left := by simp [all]
  rw [← proto] at replied
  cases proceeds with
  | working accesses informs answers same =>
      rw [← proto] at answers
      exact .handling (same.trans phase) all replied (numbered informs.2) informs answers rfl
  | answered outcome channels same due =>
      rw [← proto] at due
      simp only [Reader.answer, phase] at same
      obtain ⟨answers, closes⟩ := due
      cases answers with
      | replied expects answers =>
          exact .between same all' (replied.append expects (numbered expects) answers)
      | closed disconnect =>
          rw [CommandOutcome.refuse] at same
          simp only [List.append_nil] at same
          exact .replying same all replied (.closed numbered (closes disconnect rfl))
      | silent send =>
          simp only [List.append_nil] at same
          exact .between same all' (replied.silent send)

theorem exec (h : Serving node cmds ⟨r, op :: rest⟩)
    (ran : op.exec node (r, s) = some ((r', s'), more)) : Serving node cmds ⟨r', more ++ rest⟩ := by
  have ran := Op.exec_ran ran
  cases h with
  | @handling _ _ _ _ _ _ accesses last phase all replied numbered informs answers same =>
      cases accesses with
      | nil =>
          obtain ⟨rfl, rfl⟩ := List.cons.inj same
          rw [List.append_nil]
          exact of_proceeds phase all replied (fun _ => numbered) ran.client.2.proto
            (answers.exec informs ran)
      | cons a accesses =>
          obtain ⟨rfl, rfl⟩ := List.cons.inj same
          cases ran with
          | @accessed _ _ next _ =>
              refine @handling _ _ _ _ _ _ _ _ (next ++ accesses) last phase all replied numbered
                informs answers ?_
              simp
  | outside phase =>
      refine .outside ?_
      show r'.phase.answering = false
      rw [ran.phase_outside phase]
      exact phase

/-- A frame starts with all its commands left. -/
theorem framed (begun : r.begin s node (.frame (some cmds)) = some ((r', s'), ops)) :
    Serving node cmds ⟨r', ops⟩ := by
  simp only [Reader.begin] at begun
  split at begun
  next same =>
    cases begun
    obtain rfl := Option.some.inj same
    exact .between rfl (List.nil_append _).symm .nil
  next => contradiction
  next => cases begun

/-- An event goes on with the frame, unless it is the next frame. -/
theorem begin (h : Serving node cmds ⟨r, []⟩)
    (begun : r.begin s node event = some ((r', s'), ops)) :
    Serving node cmds ⟨r', ops⟩ ∨
      ∃ next, event = .frame (some next) ∧ Serving node next ⟨r', ops⟩ := by
  have proto := (Reader.begin_begun begun).client.1.proto
  by_cases frame : ∃ next, event = .frame (some next)
  · obtain ⟨next, rfl⟩ := frame
    exact .inr ⟨next, rfl, framed begun⟩
  · left
    by_cases command : ∃ readings, event = .command readings
    · obtain ⟨readings, rfl⟩ := command
      cases h with
      | between phase all replied =>
          rename_i done left replies
          cases left with
          | nil =>
              simp only [Reader.begin, phase] at begun
              cases begun
              exact .replying rfl all replied .done
          | cons cmd left =>
              simp only [Reader.begin, phase] at begun
              split at begun
              next rejected =>
                cases begun
                exact .replying rfl all replied (.rejected rejected.1 rejected.2)
              next accepted =>
                have numbered : cmd.method ≠ .send → cmd.id ≠ 0 := fun expects id =>
                  accepted ⟨id, expects⟩
                exact @of_proceeds _ _ { r with phase := .batch left replies } _ _ _ _ _ _ rfl all
                  replied numbered proto (Reader.onCommand_proceeds (Option.some.inj begun))
      | handling _ _ _ _ _ _ same => simp at same
      | replying phase _ _ _ =>
          simp only [Reader.begin, phase] at begun
          cases begun
      | outside phase =>
          cases same : r.phase with
          | batch _ _ => simp [same, Phase.answering] at phase
          | _ =>
              simp only [Reader.begin, same] at begun
              cases begun
    · refine .outside (Reader.begin_outside begun ?_ ?_)
      · exact fun cmds same => frame ⟨cmds, same⟩
      · exact fun readings same => command ⟨readings, same⟩

end Serving

end Centrifugo
