import Centrifugo.Core.Client.Frame

/-!
# Answers to commands

A handler answers a command with one reply, or closes the connection without one. The reply
has the id of its command. It has an error or a result, unless the command is a PING, which is
answered with the id alone. A SEND gets no reply.
-/

namespace Centrifugo

/-- A method whose replies tell an error or a result. -/
def MethodType.Informs (method : MethodType) : Prop := method ≠ .ping ∧ method ≠ .send

/-- A reply to a command. -/
structure Reply.Answers (proto : ProtocolType) (cmd : Command) (reply : Reply Result) : Prop where
  id : reply.id = cmd.id
  content : if cmd.method = .ping then reply.error = none ∧ reply.result = none
    else reply.error.isSome ≠ reply.result.isSome
  encodable : ∀ result ∈ reply.result, result.encodable proto

/-- What a command is answered with. -/
inductive CommandOutcome.Answers (proto : ProtocolType) (cmd : Command) : CommandOutcome → Prop
  | replied {reply : Reply Result} (expected : cmd.method ≠ .send)
      (answers : reply.Answers proto cmd) : Answers proto cmd (.reply reply)
  | closed (disconnect : Disconnect) : Answers proto cmd (.refuse cmd.id (.close disconnect))
  | silent (send : cmd.method = .send) : Answers proto cmd {}

namespace Session

variable {proto : ProtocolType} {cmd : Command}

theorem okReply_answers (informs : cmd.method.Informs) (result : Result) :
    (okReply proto cmd.id result).Answers proto cmd := by
  unfold okReply
  split
  next able => exact ⟨rfl, by simp [informs.1, Reply.ok], by simpa [Reply.ok] using able⟩
  next => exact ⟨rfl, by simp [informs.1, Reply.err], by simp [Reply.err]⟩

theorem reply_okReply_answers (informs : cmd.method.Informs) (result : Result) :
    (CommandOutcome.reply (okReply proto cmd.id result)).Answers proto cmd :=
  .replied informs.2 (okReply_answers informs result)

theorem refuse_answers (informs : cmd.method.Informs) (refusal : Refusal) :
    (CommandOutcome.refuse cmd.id refusal).Answers proto cmd := by
  cases refusal with
  | error error =>
      refine .replied informs.2 ⟨rfl, ?_, by simp [Reply.err]⟩
      simp [informs.1, Reply.err]
  | close disconnect => exact .closed disconnect

/-- A checked command is refused, or what it applies answers it. -/
theorem handle_answers {α : Type} {s : Session} {check : Check α}
    {apply : α → Session × CommandOutcome} (informs : cmd.method.Informs)
    (granted : ∀ a, (apply a).2.Answers proto cmd) :
    (s.handle cmd check apply).2.Answers proto cmd := by
  cases check with
  | ok a => exact granted a
  | error refusal => exact refuse_answers informs refusal

variable {s : Session} {node : Node} {readings : Readings}

theorem applyConnect_answers (informs : cmd.method.Informs) (creds : Creds) :
    (s.applyConnect node readings cmd creds).2.Answers s.client.proto cmd := by
  simp only [applyConnect]
  split
  · exact refuse_answers informs (.close .connectionLimit)
  · obtain ⟨subscriptions, pendingJoins, client⟩ := serverSideSubscribes_client node readings
      (connectChannels node creds) (s.authenticate creds).register ∅ 0
    have same : (serverSideSubscribes node readings (s.authenticate creds).register ∅ 0
        (connectChannels node creds)).1.client.proto = s.client.proto := by
      rw [client]
      rfl
    rw [same]
    exact reply_okReply_answers informs _

theorem applySubscribe_answers (informs : cmd.method.Informs) (req : SubscribeRequest)
    (opts : ChannelOptions) (grant : Grant) :
    (s.applySubscribe node readings cmd req opts grant).2.Answers s.client.proto cmd := by
  simp only [applySubscribe, subscribeResult_client, addSubscription_client]
  exact reply_okReply_answers informs _

theorem applyRefresh_answers (informs : cmd.method.Informs) (ct : ConnectToken) :
    (s.applyRefresh node readings cmd ct).2.Answers s.client.proto cmd := by
  simp only [applyRefresh]
  split
  · exact refuse_answers informs (.error .expired)
  · apply reply_okReply_answers informs

theorem applySubRefresh_answers (informs : cmd.method.Informs) (channel : String)
    (token : Option SubscribeToken) :
    (s.applySubRefresh readings cmd channel token).2.Answers s.client.proto cmd := by
  cases token with
  | some t => exact reply_okReply_answers informs _
  | none => exact reply_okReply_answers informs _

theorem dispatch_answers : (s.dispatch node readings cmd).2.Answers s.client.proto cmd := by
  unfold dispatch
  cases method : cmd.method with
  | ping =>
      refine .replied (by simp [method]) ⟨rfl, ?_, by simp [Reply.bare]⟩
      simp [method, Reply.bare]
  | send => exact .silent method
  | connect =>
      have informs : cmd.method.Informs := by simp [MethodType.Informs, method]
      apply handle_answers informs
      intro req
      apply handle_answers informs
      intro creds
      exact @applyConnect_answers _ (s.identify readings.uuid) node readings informs creds
  | unknown =>
      have informs : cmd.method.Informs := by simp [MethodType.Informs, method]
      exact refuse_answers informs (.error .methodNotFound)
  | _ =>
      have informs : cmd.method.Informs := by simp [MethodType.Informs, method]
      apply handle_answers informs
      intro granted
      first
        | exact reply_okReply_answers informs _
        | exact applySubscribe_answers informs _ _ _
        | exact applyRefresh_answers informs _
        | exact applySubRefresh_answers informs _ _

theorem handleCommand_answers :
    (s.handleCommand node readings cmd).2.Answers s.client.proto cmd := by
  unfold handleCommand handle
  split
  next => exact dispatch_answers
  next refusal refused =>
    have same : refusal = .close .badRequest := by
      unfold Guard.demand at refused
      split at refused <;> cases refused
      rfl
    rw [same]
    exact .closed _

end Session

end Centrifugo
