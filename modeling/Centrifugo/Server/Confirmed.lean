import Centrifugo.Core.Client.Rollback
import Centrifugo.Server.Dialogue
import Centrifugo.Server.Unknown
import Centrifugo.Server.Unsubscribe

/-!
# Pushes after replies

A session enters a subscription in the hub before it replies, and its reply goes out with the
replies to the rest of the frame. In between, the session owes its client the confirmation. A
broadcast that copies the session then may send to a client that knows of no subscription.

Without such broadcasts, and without replies that fail in their encoding, every push comes after
the frame that confirms its subscription.
-/

namespace Centrifugo

open Server

/-! ## Confirmations in the log -/

/-- The log has a frame with the reply to the latest subscription of the client. -/
def Informed (log : List Fact) (id : ClientId) (channel : String) : Prop :=
  ∃ before channels after, log = before ++ .told id channels :: after ∧
    .subscribed id channel ∈ before ∧ channel ∈ channels ∧ .subscribed id channel ∉ after

namespace Informed

variable {log facts : List Fact} {id : ClientId} {channel : String}

theorem append (h : Informed log id channel) (silent : .subscribed id channel ∉ facts) :
    Informed (log ++ facts) id channel := by
  obtain ⟨before, channels, after, same, subscribed, confirmed, later⟩ := h
  refine ⟨before, channels, after ++ facts, ?_, subscribed, confirmed, ?_⟩
  · rw [same, List.append_assoc, List.cons_append]
  · intro mem
    exact (List.mem_append.mp mem).elim later silent

theorem of_told {channels : List String} (subscribed : .subscribed id channel ∈ log)
    (confirmed : channel ∈ channels) : Informed (log ++ [.told id channels]) id channel :=
  ⟨log, channels, [], rfl, subscribed, confirmed, List.not_mem_nil⟩

/-- The frame comes after every subscription, of which there is one. -/
theorem place (h : Informed log id channel) :
    ∃ k t channels, k < t ∧ log[k]? = some (Fact.subscribed id channel) ∧
      log[t]? = some (Fact.told id channels) ∧ channel ∈ channels ∧
      ∀ j : Nat, log[j]? = some (Fact.subscribed id channel) → j < t := by
  obtain ⟨before, channels, after, rfl, subscribed, confirmed, later⟩ := h
  obtain ⟨k, found⟩ := List.mem_iff_getElem?.mp subscribed
  have inside := (List.getElem?_eq_some_iff.mp found).1
  refine ⟨k, before.length, channels, inside, ?_, by simp, confirmed, fun j found => ?_⟩
  · rw [List.getElem?_append_left inside, found]
  · by_contra beyond
    rw [List.getElem?_append_right (not_lt.mp beyond)] at found
    obtain told | mem := List.mem_cons.mp (List.mem_of_getElem? found)
    · cases told
    · exact later mem

end Informed

/-! ## What a session owes -/

/-- The operation leads to the reply to a command. -/
def Op.concludes : Op → Bool
  | .access _ | .serverUnsubscribe _ => false
  | _ => true

/-- The operation has still to confirm the channel. -/
def Op.owes (channel : String) : Op → Bool
  | .subscribeReply _ _ req _ _ => req.channel = channel
  | .report _ _ _ subs _ other _ => other = channel || (subs.lookup channel).isSome
  | .serverSide _ _ _ subs _ _ => (subs.lookup channel).isSome
  | _ => false

/-- The session is in the frame in which it subscribes to the channel, and has entered it in the
hub or is about to. -/
def Job.owes (job : Job) (channel : String) : Bool :=
  job.reader.phase.answering && job.reader.confirmed.contains channel ||
    job.work.any (Op.owes channel)

/-- The reply cannot be encoded, and the client gets an error for a subscription that stays. -/
def Op.fails (session : Session) : Op → Bool
  | .subscribeReply readings _ req opts _ =>
      session.client.proto = .json && opts.historyRecover && req.recover &&
        (session.world.engine.historySince (readings.engine 0) (readings.epoch 0) req.channel
          req.position req.epoch).2.1.any fun publication => publication.toJson.isNone
  | .serverSide _ _ creds _ _ [] =>
      session.client.proto = .json && creds.data.any fun data => data.toJson.isNone
  | _ => false

/-- A broadcast copies no session that owes the confirmation of the channel, and a session does
not fail to encode a confirmation. -/
def Server.Patient (s : Server) (turn : Turn) : Bool :=
  match turn, s.current turn with
  | _, some (.access (.fanOut message)) =>
      (s.shared.world.hub.subscribers message.channel).all fun handle =>
        s.jobs[handle.tx]?.all fun job => !job.owes message.channel
  | .work i, some op => s.jobs[i]?.all fun job => !op.fails (job.reader.session s.shared)
  | _, _ => true

/-- What a CONNECT reports of its subscriptions can be encoded. -/
def Op.Reports : Op → Prop
  | .serverSide _ _ _ subs _ _ | .report _ _ _ subs _ _ _ =>
      ∀ channel sub, subs.lookup channel = some sub → sub.toJson.isSome
  | _ => True

namespace Session

variable {node : Node} {s : Session} {readings : Readings} {cmd : Command}

theorem finishSubscribe_failed {req : SubscribeRequest} {opts : ChannelOptions} {grant : Grant} :
    (s.finishSubscribe node readings cmd req opts grant).2.failed =
      Op.fails s (.subscribeReply readings cmd req opts grant) := by
  rw [Bool.eq_iff_iff]
  simp only [finishSubscribe, failed_okReply, Bool.not_eq_true', subscribeResult_unencodable_iff,
    subscribeResult_client]
  simp [Op.fails, Client.enter, and_assoc]

theorem finishConnect_failed {creds : Creds} {subs : Map String SubscribeResult} {i : Nat}
    (reports : Op.Reports (.serverSide readings cmd creds subs i [])) :
    (s.finishConnect node readings cmd creds subs).failed =
      Op.fails s (.serverSide readings cmd creds subs i []) := by
  have encoded : ∀ channel sub, subs.lookup channel = some sub → sub.toJson.isSome := reports
  rw [Bool.eq_iff_iff, finishConnect, failed_okReply, Bool.not_eq_true',
    connect_unencodable_iff encoded]
  simp [Op.fails, Option.any_eq_true]

theorem report_encodable (clock : Clock) (fresh channel : String) :
    (s.report node clock fresh channel).2.toJson.isSome := by
  rw [SubscribeResult.toJson_isSome]
  have empty : (s.report node clock fresh channel).2.publications = [] := by
    simp only [report]
    split <;> simp [reportTop]
  simp [empty]

end Session

theorem Op.concludes_of_owes {op : Op} {channel : String} (h : op.owes channel) :
    op.concludes := by
  cases op with
  | access a => cases h
  | serverUnsubscribe other => cases h
  | _ => rfl

theorem Op.owes_of_enters {op : Op} {channel : String} (h : op.Enters channel) :
    op.owes channel := by
  cases op with
  | report readings cmd creds subs i other channels =>
      cases h
      simp [owes]
  | subscribeReply readings cmd req opts grant =>
      cases h
      simp [owes]
  | _ => cases h

/-- Accesses neither reply nor report. -/
theorem Op.plain {accesses : List Access} {op : Op} (mem : op ∈ accesses.map Op.access) :
    op.concludes = false ∧ op.Reports := by
  obtain ⟨a, _, rfl⟩ := List.mem_map.mp mem
  exact ⟨rfl, trivial⟩

/-- A confirmation is among replies, and replies are given in a frame. -/
structure Job.Sound (job : Job) : Prop where
  unsent : job.reader.phase.answering → job.reader.confirmed ≠ [] → job.reader.phase.replies ≠ []
  working : ∀ op ∈ job.work, op.concludes → job.reader.phase.answering

namespace Reader

variable {node : Node} {r r' : Reader} {s s' : Shared} {event : Event} {ops : List Op}
  {readings : Readings} {cmd : Command} {cmds : List Command} {replies : List (Reply Result)}

theorem answer_batch (phase : r.phase = .batch cmds replies) (outcome : CommandOutcome)
    (channels : List String) : (r.answer outcome channels).phase.answering ∧
      (r.answer outcome channels).phase.replies = replies ++ outcome.replies := by
  simp only [answer, phase]
  cases outcome.disconnect <;> exact ⟨rfl, rfl⟩

@[simp] theorem answer_confirmed_nil (outcome : CommandOutcome) :
    (r.answer outcome []).confirmed = r.confirmed := by
  simp [answer]

/-- Within a frame, replies are added and confirmations stay. -/
structure Keeps (r r' : Reader) : Prop where
  answering : r'.phase.answering
  confirmed : r'.confirmed = r.confirmed
  replies : r.phase.replies <+: r'.phase.replies

theorem Keeps.answer {client : Client} (phase : r.phase = .batch cmds replies)
    (outcome : CommandOutcome) : r.Keeps ({ r with client := client }.answer outcome []) := by
  obtain ⟨answering, more⟩ := @answer_batch { r with client := client } _ _ phase outcome []
  refine ⟨answering, answer_confirmed_nil outcome, outcome.replies, ?_⟩
  rw [more, phase]
  rfl

theorem Commanded.keeps (h : Commanded node r s readings cmd r' s' ops)
    (phase : r.phase = .batch cmds replies) : r.Keeps r' := by
  have same : r.Keeps r := ⟨by rw [phase]; rfl, rfl, List.prefix_refl _⟩
  cases h with
  | refused refusal => exact .answer phase _
  | identified refusal _ => exact .answer phase _
  | instant after _ _ _ => exact .answer phase after.2
  | _ => exact ⟨same.answering, same.confirmed, same.replies⟩

theorem begin_command (h : r.begin s node (.command readings) = some ((r', s'), ops)) :
    r.phase.answering ∧ r.Keeps r' := by
  simp only [Reader.begin] at h
  split at h
  next cmd cmds replies phase =>
    refine ⟨by rw [phase]; rfl, ?_⟩
    split at h
    next =>
      cases h
      exact ⟨rfl, rfl, by rw [phase]; exact List.prefix_refl _⟩
    next =>
      have keeps := (onCommand_commanded node _ s readings cmd (Option.some.inj h)).keeps rfl
      exact ⟨keeps.answering, keeps.confirmed, by rw [phase]; exact keeps.replies⟩
  next replies phase =>
    cases h
    exact ⟨by rw [phase]; rfl, rfl, rfl, by rw [phase]; exact List.prefix_refl _⟩
  next => cases h

/-- Only commands lead to replies. -/
theorem Begun.concludes (h : r.Begun node s event r' s' ops)
    (other : ∀ readings, event ≠ .command readings) : ∀ op ∈ ops, op.concludes = false := by
  cases h with
  | settled _ _ _ _ _ => simp
  | closing _ _ _ _ => exact fun op mem => (@Op.plain [_] op mem).1
  | pinged _ => exact fun op mem => (Op.plain mem).1
  | dropping _ channels _ =>
      intro op mem
      obtain ⟨_, _, rfl⟩ := List.mem_map.mp mem
      rfl
  | command readings _ _ _ _ _ => exact absurd rfl (other readings)
  | replied _ _ _ _ => simp
  | flushed disconnect _ _ =>
      intro op mem
      obtain mem | mem := List.mem_append.mp mem
      · exact (Op.plain mem).1
      · obtain ⟨d, _, rfl⟩ := Option.map_eq_some_iff.mp (Option.mem_toList.mp mem)
        rfl
  | left _ => exact fun op mem => (Op.plain mem).1

theorem Begun.reports (h : r.Begun node s event r' s' ops) : ∀ op ∈ ops, op.Reports := by
  cases h with
  | closing _ _ _ _ => exact fun op mem => (@Op.plain [_] op mem).2
  | pinged _ => exact fun op mem => (Op.plain mem).2
  | dropping _ channels _ =>
      intro op mem
      obtain ⟨_, _, rfl⟩ := List.mem_map.mp mem
      trivial
  | command _ _ _ _ _ commanded =>
      cases commanded with
      | connecting _ _ _ _ => simp [Op.Reports]
      | subscribing _ _ _ _ _ =>
          intro op mem
          obtain mem | mem := List.mem_append.mp mem
          · exact (Op.plain mem).2
          · rw [List.mem_singleton.mp mem]
            trivial
      | publishing _ _ _ _ => simp [Op.Reports]
      | unsubscribing _ _ =>
          intro op mem
          obtain mem | mem := List.mem_append.mp mem
          · exact (Op.plain mem).2
          · rw [List.mem_singleton.mp mem]
            trivial
      | _ => simp
  | flushed disconnect _ _ =>
      intro op mem
      obtain mem | mem := List.mem_append.mp mem
      · exact (Op.plain mem).2
      · obtain ⟨d, _, rfl⟩ := Option.map_eq_some_iff.mp (Option.mem_toList.mp mem)
        trivial
  | left _ => exact fun op mem => (Op.plain mem).2
  | _ => simp

end Reader

theorem Op.Ran.reports {node : Node} {op : Op} {r r' : Reader} {s s' : Shared} {more : List Op}
    (ran : op.Ran node r s r' s' more) (reports : op.Reports) : ∀ next ∈ more, next.Reports := by
  cases ran with
  | accessed _ => exact fun op mem => (Op.plain mem).2
  | registering _ _ _ _ _ =>
      intro next mem
      simp only [List.mem_cons, List.not_mem_nil, or_false] at mem
      obtain rfl | rfl | rfl := mem
      · trivial
      · trivial
      · simp [Op.Reports]
  | joining _ _ _ subs _ _ _ =>
      intro next mem
      obtain mem | mem := List.mem_append.mp mem
      · exact (Op.plain mem).2
      · rw [List.mem_singleton.mp mem]
        exact reports
  | reported _ _ _ subs _ other _ after read =>
      intro next mem
      rw [List.mem_singleton.mp mem]
      intro channel sub found
      rw [Map.lookup_insert_eq] at found
      split at found
      · cases found
        subst read
        exact Session.report_encodable _ _ _
      · exact reports channel sub found
  | unsubscribed _ _ _ _ => exact fun op mem => (Op.plain mem).2
  | _ => simp

theorem Op.Ran.answering {node : Node} {op : Op} {r r' : Reader} {s s' : Shared} {more : List Op}
    (ran : op.Ran node r s r' s' more) (answering : r.phase.answering) : r'.phase.answering := by
  have answer : ∀ (r : Reader) (outcome : CommandOutcome) (channels : List String),
      r.phase.answering → (r.answer outcome channels).phase.answering := by
    intro r outcome channels answering
    cases phase : r.phase with
    | batch cmds replies => exact (Reader.answer_batch phase outcome channels).1
    | replying replies disconnect => simp [Reader.answer, phase, Phase.answering]
    | _ =>
        rw [phase] at answering
        cases answering
  cases ran with
  | overLimit _ _ _ _ => exact answer _ _ _ answering
  | connected _ _ _ _ _ => exact answer _ _ _ answering
  | subscribed _ _ _ _ _ after _ => exact answer _ _ _ answering
  | answered _ => exact answer _ _ _ answering
  | _ => exact answering

/-- What a session confirms stays confirmed within its frame. -/
theorem Op.Ran.confirmed {node : Node} {op : Op} {r r' : Reader} {s s' : Shared} {more : List Op}
    (ran : op.Ran node r s r' s' more) : r.confirmed ⊆ r'.confirmed := by
  have answer : ∀ (r : Reader) (outcome : CommandOutcome) (channels : List String),
      r.confirmed ⊆ (r.answer outcome channels).confirmed := by
    intro r outcome channels
    unfold Reader.answer
    dsimp only
    split
    · exact List.Subset.refl _
    · exact List.subset_append_left _ _
  cases ran with
  | overLimit _ _ _ _ => exact answer _ _ _
  | connected _ _ _ _ _ => exact answer _ _ _
  | subscribed _ _ _ _ _ after _ => exact answer _ _ _
  | answered _ => exact answer _ _ _
  | _ => exact List.Subset.refl _

namespace Job

variable {node : Node} {op : Op} {r r' : Reader} {s s' : Shared} {event : Event}
  {rest more ops : List Op} {cmds : List Command} {channel : String}

theorem Sound.begin (h : Sound ⟨r, []⟩) (begun : r.begin s node event = some ((r', s'), ops)) :
    Sound ⟨r', ops⟩ := by
  by_cases command : ∃ readings, event = .command readings
  · obtain ⟨readings, rfl⟩ := command
    obtain ⟨answering, keeps⟩ := Reader.begin_command begun
    refine ⟨fun _ owed empty => ?_, fun _ _ _ => keeps.answering⟩
    have before := h.unsent answering (keeps.confirmed ▸ owed)
    exact before (List.prefix_nil.mp (empty ▸ keeps.replies))
  · have other : ∀ readings, event ≠ .command readings := fun readings same =>
      command ⟨readings, same⟩
    refine ⟨fun answering owed => ?_, fun op mem concludes => ?_⟩
    · by_cases frame : ∃ next, event = .frame (some next)
      · obtain ⟨next, rfl⟩ := frame
        simp only [Reader.begin] at begun
        split at begun
        next => cases begun; exact absurd rfl owed
        next => contradiction
        next => cases begun
      · have outside := Reader.begin_outside begun (fun next same => frame ⟨next, same⟩) other
        rw [outside] at answering
        cases answering
    · rw [(Reader.begin_begun begun).concludes other op mem] at concludes
      cases concludes

theorem Sound.exec (h : Sound ⟨r, op :: rest⟩) (serving : Serving node cmds ⟨r, op :: rest⟩)
    (ran : op.exec node (r, s) = some ((r', s'), more)) : Sound ⟨r', more ++ rest⟩ := by
  have runs := Op.exec_ran ran
  cases serving with
  | @handling _ _ _ left replies _ _ _ phase _ _ _ _ _ _ =>
      have answering : r.phase.answering := by
        rw [phase]
        rfl
      refine ⟨fun _ owed => ?_, fun _ _ _ => runs.answering answering⟩
      have before : r.confirmed ≠ [] → replies ≠ [] := by
        have unsent := h.unsent answering
        rwa [phase] at unsent
      have answered : ∀ {r : Reader} {outcome : CommandOutcome} {channels : List String},
          r.phase = .batch left replies → replies ≠ [] ∨ outcome.replies ≠ [] →
            (r.answer outcome channels).phase.replies ≠ [] := by
        intro r outcome channels phase replied
        rw [(Reader.answer_batch phase outcome channels).2]
        intro empty
        obtain ⟨front, back⟩ := List.append_eq_nil_iff.mp empty
        exact replied.elim (fun some => some front) fun some => some back
      cases runs with
      | overLimit _ _ _ _ => exact answered phase (.inl (before (by simpa using owed)))
      | connected _ _ _ _ _ => exact answered phase (.inr (List.cons_ne_nil _ _))
      | subscribed _ _ _ _ _ after finished =>
          subst finished
          exact answered phase (.inr (List.cons_ne_nil _ _))
      | answered _ => exact answered phase (.inl (before (by simpa using owed)))
      | registering _ _ _ _ client =>
          show r.phase.replies ≠ []
          rw [phase]
          exact before owed
      | reported _ _ _ _ _ _ _ after _ =>
          show r.phase.replies ≠ []
          rw [phase]
          exact before owed
      | _ =>
          rw [phase]
          exact before owed
  | outside outside =>
      have kept : r'.phase = r.phase := runs.phase_outside outside
      have idle : ∀ next ∈ op :: rest, next.concludes = false := by
        intro next mem
        by_contra concludes
        have answering := h.working next mem (by simpa using concludes)
        rw [outside] at answering
        cases answering
      refine ⟨fun answering => ?_, fun next mem concludes => ?_⟩
      · rw [kept, outside] at answering
        cases answering
      · obtain new | old := List.mem_append.mp mem
        · have first := idle op List.mem_cons_self
          cases runs with
          | accessed _ =>
              obtain ⟨_, _, rfl⟩ := List.mem_map.mp new
              cases concludes
          | unsubscribed _ _ _ _ =>
              obtain ⟨_, _, rfl⟩ := List.mem_map.mp new
              cases concludes
          | absent _ _ => cases new
          | _ => cases first
        · rw [idle next (List.mem_cons_of_mem _ old)] at concludes
          cases concludes

theorem owes_iff {job : Job} : job.owes channel ↔
    (job.reader.phase.answering ∧ channel ∈ job.reader.confirmed) ∨
      ∃ op ∈ job.work, op.owes channel := by
  simp [owes]

/-- An operation that does not fail pays no debt of its session. -/
theorem owes_exec (h : Job.owes ⟨r, op :: rest⟩ channel) (sound : Sound ⟨r, op :: rest⟩)
    (reports : op.Reports) (ran : op.Ran node r s r' s' more)
    (fine : op.fails (r.session s) = false) :
    Job.owes ⟨r', more ++ rest⟩ channel := by
  rw [owes_iff] at h ⊢
  obtain ⟨answering, mem⟩ | ⟨next, mem, owing⟩ := h
  · exact .inl ⟨ran.answering answering, ran.confirmed mem⟩
  obtain rfl | later := List.mem_cons.mp mem
  · have answering := ran.answering
      (sound.working next List.mem_cons_self (Op.concludes_of_owes owing))
    have confirm : ∀ {r : Reader} {outcome : CommandOutcome} {channels : List String},
        outcome.failed = false → channel ∈ channels →
          channel ∈ (r.answer outcome channels).confirmed := by
      intro r outcome channels fine mem
      simp [Reader.answer, fine, mem]
    cases ran with
    | connected _ _ _ subs _ =>
        rw [← Session.finishConnect_failed reports] at fine
        exact .inl ⟨answering, confirm fine (AList.lookup_isSome.mp owing)⟩
    | joining _ _ _ subs _ other _ =>
        refine .inr ⟨_, List.mem_append_left _ (List.mem_append_right _ List.mem_cons_self), ?_⟩
        have held : (subs.lookup channel).isSome := owing
        simp [Op.owes, held]
    | reported _ _ _ subs _ other _ after _ =>
        refine .inr ⟨_, List.mem_cons_self, ?_⟩
        have held : other = channel ∨ (subs.lookup channel).isSome := by
          simpa [Op.owes] using owing
        simp only [Op.owes, Map.lookup_insert_eq]
        split
        · rfl
        next apart => exact held.resolve_left (Ne.symm apart)
    | subscribed _ _ req _ _ after finished =>
        subst finished
        rw [← Session.finishSubscribe_failed] at fine
        have same : req.channel = channel := by simpa [Op.owes] using owing
        exact .inl ⟨answering, confirm fine (by simp [same])⟩
    | _ => cases owing
  · exact .inr ⟨next, List.mem_append_right _ later, owing⟩

theorem owes_begin (h : Job.owes ⟨r, []⟩ channel) (sound : Sound ⟨r, []⟩)
    (serving : Serving node cmds ⟨r, []⟩)
    (begun : r.begin s node event = some ((r', s'), ops)) :
    Job.owes ⟨r', ops⟩ channel ∨ s.world.gone r.client.tx ∨
      ∃ channels, channel ∈ channels ∧ s'.log = s.log ++ [.told r.client.id channels] := by
  obtain ⟨answering, mem⟩ | ⟨op, mem, _⟩ := owes_iff.mp h
  swap
  · cases mem
  simp only at answering mem
  cases phase : r.phase with
  | batch cmds replies =>
      cases event with
      | command readings =>
          obtain ⟨_, keeps⟩ := Reader.begin_command begun
          exact .inl (owes_iff.mpr (.inl ⟨keeps.answering, keeps.confirmed ▸ mem⟩))
      | _ => simp [Reader.begin, phase] at begun
  | replying replies disconnect =>
      have some : replies ≠ [] := by
        have unsent := sound.unsent answering (List.ne_nil_of_mem mem)
        rwa [phase] at unsent
      have encodable : encodableReplies r.client.proto replies := by
        obtain ⟨_, _, _, replied, _⟩ := serving.replied phase
        exact replied.encodable
      cases event with
      | reply =>
          simp only [Reader.begin, phase] at begun
          right
          obtain ⟨nothing, _⟩ | ⟨garbled, _⟩ | ⟨gone, _⟩ | ⟨_, _, _, told, _⟩ :=
            Reader.onReply_cases begun
          · exact absurd nothing some
          · rw [encodable] at garbled
            cases garbled
          · exact .inl gone
          · exact .inr ⟨r.confirmed, mem, by rw [told]⟩
      | _ => simp [Reader.begin, phase] at begun
  | _ =>
      rw [phase] at answering
      cases answering

end Job

/-! ## Queues that are gone -/

namespace World

variable {world world' : World} {tx other : QueueId}

theorem gone_congr (same : world'.queues = world.queues) : world'.gone tx = world.gone tx := by
  rw [gone, gone, same]

@[simp] theorem gone_send (item : Out Sent) : (world.send other item).gone tx = world.gone tx := by
  unfold send
  split
  next => rfl
  next queue found =>
    split
    next => rfl
    next =>
      by_cases same : tx = other
      · subst same
        simp [gone, found]
      · simp [gone, same]

theorem not_gone_of_hasRoom (room : world.hasRoom tx) : world.gone tx = false := by
  obtain ⟨queue, found, able⟩ := (Option.any_eq_true _ _).mp room
  rw [gone, found]
  unfold Queue.hasRoom at able
  simp_all

end World

theorem Access.gone_perform {node : Node} (a : Access) (s : Shared) (tx : QueueId) :
    (a.perform node s).world.gone tx = s.world.gone tx := by
  cases a with
  | offer n push handle =>
      have queues := World.offered_eq node s.world n push handle
      split at queues
      · exact (World.gone_congr queues).trans (World.gone_send _)
      · exact World.gone_congr queues
  | put other item => exact (World.gone_congr rfl).trans (World.gone_send item)
  | _ => rfl

/-- The session cannot reach its client any more. -/
def Server.Gone (s : Server) (i : Nat) : Prop := i < s.jobs.length ∧ s.shared.world.gone i

theorem Server.Gone.step {node : Node} {s s' : Server} {turn : Turn} {i : Nat} (h : s.Gone i)
    (move : Server.Step node s turn s') : s'.Gone i := by
  obtain ⟨inside, gone⟩ := h
  refine ⟨?_, ?_⟩
  · obtain ⟨job', found, _⟩ := move.follows (List.getElem?_eq_getElem inside)
    exact (List.getElem?_eq_some_iff.mp found).1
  cases move.moved with
  | accepted proto transport =>
      have apart : i ≠ s.jobs.length := inside.ne
      simpa [World.gone, Server.onAccept, apart] using gone
  | began _ _ prepared begun =>
      have same := (Reader.prepare_quiet prepared).2
      rw [← same] at gone
      cases Reader.begin_begun begun with
      | command readings cmd cmds replies _ commanded =>
          cases commanded with
          | instant after _ method effect =>
              exact (World.gone_congr (effect.reads method).queues).trans gone
          | _ => exact gone
      | replied replies disconnect _ _ => exact (World.gone_send _).trans gone
      | _ => exact gone
  | @worked _ _ _ op _ _ _ _ ran =>
      cases kind : op.access? with
      | none =>
          obtain ⟨reads, _, _⟩ := (Op.exec_ran ran).reads kind
          exact (World.gone_congr reads.queues).trans gone
      | some a =>
          cases Op.exec_ran ran with
          | accessed performed =>
              obtain ⟨rfl, _⟩ := Access.exec_eq performed
              exact (Access.gone_perform _ _ _).trans gone
          | _ => cases kind
  | advanced _ ran =>
      obtain ⟨rfl, _⟩ := Access.exec_eq ran
      exact (Access.gone_perform _ _ _).trans gone
  | drained other =>
      by_cases same : i = other
      · subst same
        cases found : s.shared.world.queues.lookup i <;>
          simp_all [World.gone, World.drain]
      · simpa [World.gone, World.drain, Map.lookup_alter, same] using gone
  | released other =>
      by_cases same : i = other
      · subst same
        cases found : s.shared.world.queues.lookup i <;>
          simp_all [World.gone, World.release]
      · simpa [World.gone, World.release, Map.lookup_alter, same] using gone
  | slowClosed _ _ => exact (World.gone_congr rfl).trans ((World.gone_send _).trans gone)
  | _ => exact gone

/-! ## Subscriptions of a node -/

theorem Stage.of_subscribe {client : Client} {id : ClientId} {channel : String} {rest : List Op}
    (stage : Stage client (.access (.subscribe id channel) :: rest)) :
    client.authenticated ∧ client.id = id := by
  generalize whole : Op.access (.subscribe id channel) :: rest = work at stage
  cases stage with
  | counting _ _ _ _ _ => cases whole
  | inserting _ _ _ _ _ _ _ => cases whole
  | indexing _ _ _ _ _ _ _ => cases whole
  | settled settled =>
      obtain mine | nobody := settled _ (whole ▸ List.mem_cons_self)
      · simp only [Access.ofClient, Bool.and_eq_true, decide_eq_true_eq] at mine
        exact ⟨mine.2, mine.1.symm⟩
      · cases nobody

/-- A session that has just entered a channel in the hub owes the confirmation. -/
theorem Course.owes_of_subscribe {client : Client} {reader : Reader} {id : ClientId}
    {channel : String} {rest : List Op}
    (course : Course client (.access (.subscribe id channel) :: rest)) :
    Job.owes ⟨reader, rest⟩ channel := by
  cases course with
  | handling followed _ =>
      obtain ⟨next, mem, enters⟩ := followed.1 id channel rfl
      exact Job.owes_iff.mpr (.inr ⟨next, mem, Op.owes_of_enters enters⟩)
  | dropping accesses push channels plain told same =>
      cases accesses with
      | cons a accesses =>
          obtain ⟨first, _⟩ := List.cons.inj same
          cases first
          cases plain _ List.mem_cons_self
      | nil =>
          obtain rfl | ⟨tx, ch, rfl, _⟩ := told
          · cases channels <;> cases same
          · cases same

namespace Server

/-- The client of an authenticated session was told about its latest subscription to the channel,
or the session owes this, or cannot tell any more. -/
def Confirms (s : Server) (id : ClientId) (channel : String) : Prop :=
  ∃ (i : Nat) (job : Job), s.jobs[i]? = some job ∧ job.reader.client.authenticated ∧
    job.reader.client.id = id ∧
    (Informed s.shared.log id channel ∨ job.owes channel ∨ s.Gone i)

end Server

namespace Server.Patient

variable {s : Server} {turn : Turn}

theorem settled {message : NodeMessage} {handle : ClientHandle} {job : Job}
    (h : s.Patient turn) (current : s.current turn = some (.access (.fanOut message)))
    (mem : handle ∈ s.shared.world.hub.subscribers message.channel)
    (found : s.jobs[handle.tx]? = some job) : job.owes message.channel = false := by
  unfold Patient at h
  rw [current] at h
  have all := List.all_eq_true.mp h handle mem
  simpa [found] using all

theorem fine {i : Nat} {r : Reader} {op : Op} {rest : List Op} (h : s.Patient (.work i))
    (found : s.jobs[i]? = some ⟨r, op :: rest⟩) : op.fails (r.session s.shared) = false := by
  have current : s.current (.work i) = some op := by simp [Server.current, found]
  cases op with
  | access a => rfl
  | _ =>
      unfold Patient at h
      rw [current] at h
      simpa [found] using h

end Server.Patient

/-- What was told, owed or lost stays so until the next subscription. -/
theorem Server.Confirms.step {node : Node} {s s' : Server} {turn : Turn} {id : ClientId}
    {channel : String} {facts : List Fact} (h : s.Confirms id channel)
    (conversing : Conversing node s) (seated : Seated s)
    (sound : ∀ {i : Nat} {job : Job}, s.jobs[i]? = some job → job.Sound)
    (reports : ∀ {i : Nat} {job : Job}, s.jobs[i]? = some job → ∀ op ∈ job.work, op.Reports)
    (patient : s.Patient turn) (move : Server.Step node s turn s')
    (log : s'.shared.log = s.shared.log ++ facts) (silent : .subscribed id channel ∉ facts)
    (subscribed : .subscribed id channel ∈ s.shared.log) : s'.Confirms id channel := by
  obtain ⟨i, job, found, authenticated, named, state⟩ := h
  obtain ⟨job', found', follows⟩ := move.follows found
  refine ⟨i, job', found', follows.authenticated authenticated,
    (follows.id authenticated).trans named, ?_⟩
  obtain informed | owing | gone := state
  · left
    rw [log]
    exact informed.append silent
  · -- the other sessions stay as they are
    have stayed : s.jobs[i]? = some job' → job'.owes channel := by
      intro old
      rw [found] at old
      cases old
      exact owing
    cases move.moved with
    | accepted _ _ =>
        obtain old | ⟨last, _⟩ := getElem?_append_singleton found'
        · exact .inr (.inl (stayed old))
        · rw [← last, List.getElem?_eq_none (le_refl _)] at found
          cases found
    | began there _ prepared begun =>
        obtain ⟨rfl, rfl⟩ | ⟨_, old⟩ := getElem?_set_of_some found'
        · rw [found] at there
          cases there
          obtain ⟨cmds, serving⟩ := conversing.serving found
          obtain owing | gone | ⟨channels, mem, told⟩ :=
            Job.owes_begin owing (sound found) serving begun
          · exact .inr (.inl owing)
          · rw [(Reader.prepare_quiet prepared).2, (seated.seat found).tx] at gone
            have lost : s.Gone i := ⟨(List.getElem?_eq_some_iff.mp found).1, gone⟩
            exact .inr (.inr (lost.step move))
          · obtain ⟨_, before, _⟩ := (Reader.prepare_quiet prepared).1.log
            left
            rw [told, named, before]
            exact .of_told (List.mem_append_left _ subscribed) mem
        · exact .inr (.inl (stayed old))
    | worked there ran =>
        obtain ⟨rfl, rfl⟩ | ⟨_, old⟩ := getElem?_set_of_some found'
        · rw [found] at there
          cases there
          have fine := Server.Patient.fine patient found
          have encoded := reports found _ List.mem_cons_self
          exact .inr (.inl (Job.owes_exec owing (sound found) encoded (Op.exec_ran ran) fine))
        · exact .inr (.inl (stayed old))
    | _ => exact .inr (.inl (stayed found'))
  · exact .inr (.inr (gone.step move))

/-- A broadcast copies the sessions that can count on what their clients know. -/
structure Confirming (node : Node) (s : Server) : Prop where
  sound : ∀ {i : Nat} {job : Job}, s.jobs[i]? = some job → job.Sound
  reports : ∀ {i : Nat} {job : Job}, s.jobs[i]? = some job → ∀ op ∈ job.work, op.Reports
  confirms : ∀ {id channel}, .subscribed id channel ∈ s.shared.log → s.Confirms id channel
  listed : ∀ {id channel}, id ∈ s.shared.world.hub.subscriberIds channel →
    .subscribed id channel ∈ s.shared.log
  copied : ∀ {n message handles handle}, s.shared.log[n]? = some (.copied message handles) →
    handle ∈ handles →
      Informed (s.shared.log.take n) handle.id message.channel ∨ s.Gone handle.tx
  placed : ∀ {p n push handle}, s.shared.log[p]? = some (.offered n push handle .placed) →
    n < p ∧ ∃ message : NodeMessage, push = message.toPush node.useSeqGen ∧
      Informed (s.shared.log.take n) handle.id message.channel

namespace Confirming

variable {node : Node} {s s' : Server} {turn : Turn} {facts : List Fact}

theorem sound_step (h : Confirming node s) (conversing : Conversing node s)
    (move : Server.Step node s turn s') {i : Nat} {job : Job} (found : s'.jobs[i]? = some job) :
    job.Sound := by
  cases move.moved with
  | accepted _ _ =>
      obtain old | ⟨_, rfl⟩ := getElem?_append_singleton found
      · exact h.sound old
      · exact ⟨(fun answering => nomatch answering), by simp⟩
  | began there _ _ begun =>
      obtain ⟨rfl, rfl⟩ | ⟨_, old⟩ := getElem?_set_of_some found
      · exact (h.sound there).begin begun
      · exact h.sound old
  | worked there ran =>
      obtain ⟨rfl, rfl⟩ | ⟨_, old⟩ := getElem?_set_of_some found
      · obtain ⟨cmds, serving⟩ := conversing.serving there
        exact (h.sound there).exec serving ran
      · exact h.sound old
  | _ => exact h.sound found

theorem reports_step (h : Confirming node s) (move : Server.Step node s turn s') {i : Nat}
    {job : Job} (found : s'.jobs[i]? = some job) : ∀ op ∈ job.work, op.Reports := by
  refine move.each (p := fun job => ∀ op ∈ job.work, op.Reports) h.reports (by simp) ?_ ?_ found
  · intro r r' shared shared' event ops _ begun
    exact (Reader.begin_begun begun).reports
  · intro r r' shared shared' op rest more here ran next mem
    obtain new | old := List.mem_append.mp mem
    · exact (Op.exec_ran ran).reports (here op List.mem_cons_self) next new
    · exact here next (List.mem_cons_of_mem _ old)

theorem listed_step (h : Confirming node s) (seated : Seated s)
    (move : Server.Step node s turn s') {id : ClientId} {channel : String}
    (listed : id ∈ s'.shared.world.hub.subscriberIds channel) :
    .subscribed id channel ∈ s'.shared.log := by
  cases move.outline seated with
  | @access a _ _ _ _ _ shared _ =>
      rw [shared, Access.perform_hub] at listed
      rw [shared, Access.perform_log]
      cases a with
      | subscribe id' channel' =>
          obtain ⟨rfl, rfl⟩ | old := Hub.mem_subscribe.mp listed
          · exact List.mem_append_right _ List.mem_cons_self
          · exact List.mem_append_left _ (h.listed old)
      | unsubscribe _ _ => exact List.mem_append_left _ (h.listed (Hub.mem_unsubscribe.mp listed).2)
      | sweep _ _ => exact List.mem_append_left _ (h.listed (Hub.mem_sweep.mp listed).2)
      | _ => exact List.mem_append_left _ (h.listed listed)
  | registering _ _ _ _ _ shared _ =>
      rw [shared] at listed ⊢
      exact h.listed listed
  | quiet _ _ quiet =>
      obtain ⟨facts, log, _⟩ := quiet.log
      rw [quiet.hub] at listed
      rw [log]
      exact List.mem_append_left _ (h.listed listed)

/-- The subscribers that a broadcast copies now. -/
theorem copies (h : Confirming node s) (registry : Registry s) (patient : s.Patient turn)
    {message : NodeMessage} (current : s.current turn = some (.access (.fanOut message)))
    {handle : ClientHandle} (mem : handle ∈ s.shared.world.hub.subscribers message.channel) :
    Informed s.shared.log handle.id message.channel ∨ s.Gone handle.tx := by
  obtain ⟨id, listed, found⟩ := Hub.mem_subscribers.mp mem
  obtain ⟨rfl, job, there, authenticated, named, _⟩ := registry.conns found
  obtain ⟨i, other, there', _, named', state⟩ := h.confirms (h.listed listed)
  have nonempty := (registry.seated.seat there).named authenticated
  have place := registry.seated.distinct there there' (named.trans named'.symm) nonempty
  subst place
  rw [there] at there'
  cases there'
  have settled : job.owes message.channel = false :=
    Server.Patient.settled patient current mem there
  rw [settled] at state
  simpa using state

theorem confirms_step (h : Confirming node s) (reached : Server.Reached node s)
    (patient : s.Patient turn) (move : Server.Step node s turn s') {id : ClientId}
    {channel : String} (mem : .subscribed id channel ∈ s'.shared.log) : s'.Confirms id channel := by
  have seated := Seated.of_reached reached
  obtain ⟨facts, log, origin⟩ := move.facts seated
  by_cases new : .subscribed id channel ∈ facts
  · obtain aside | ⟨a, _, _, place, rfl⟩ := origin
    · cases aside _ new
    cases a with
    | subscribe id' channel' =>
        cases List.mem_singleton.mp new
        cases place with
        | task there =>
            obtain ⟨task, there, inside⟩ := there
            cases seated.tasks task there _ inside
        | @session i reader rest found after =>
            have stage : Stage reader.client _ := (seated.seat found).stage
            have course := (Accounted.of_reached reached).course found
            obtain ⟨authenticated, named⟩ := stage.of_subscribe
            exact ⟨i, _, after, authenticated, named, .inr (.inl course.owes_of_subscribe)⟩
    | _ => simp [Access.facts] at new
  · rw [log] at mem
    have old := (List.mem_append.mp mem).resolve_right new
    exact (h.confirms old).step (.of_reached reached) seated h.sound h.reports patient move log new
      old

theorem step (h : Confirming node s) (reached : Server.Reached node s)
    (patient : s.Patient turn) (move : Server.Step node s turn s') : Confirming node s' := by
  have registry := Registry.of_reached reached
  have seated := registry.seated
  obtain ⟨facts, log, origin⟩ := move.facts seated
  -- a place in the log before this turn is what it was
  have before : ∀ {n : Nat}, n ≤ s.shared.log.length →
      s'.shared.log.take n = s.shared.log.take n := by
    intro n inside
    rw [log, List.take_append_of_le_length inside]
  have places : ∀ {n : Nat} {fact : Fact}, s'.shared.log[n]? = some fact →
      s.shared.log[n]? = some fact ∨ s.shared.log.length ≤ n ∧ fact ∈ facts := by
    intro n fact found
    rw [log] at found
    by_cases inside : n < s.shared.log.length
    · rw [List.getElem?_append_left inside] at found
      exact .inl found
    · rw [List.getElem?_append_right (not_lt.mp inside)] at found
      exact .inr ⟨not_lt.mp inside, List.mem_of_getElem? found⟩
  refine ⟨h.sound_step (.of_reached reached) move, h.reports_step move,
    h.confirms_step reached patient move, h.listed_step seated move, ?_, ?_⟩
  · intro n message handles handle found mem
    obtain old | ⟨later, new⟩ := places found
    · rw [before (List.getElem?_eq_some_iff.mp old).1.le]
      exact (h.copied old mem).imp_right fun gone => gone.step move
    · obtain aside | ⟨a, current, _, _, rfl⟩ := origin
      · cases aside _ new
      obtain ⟨rfl, single, rfl⟩ := Access.copied_of_facts new
      have last : n = s.shared.log.length := by
        have bound := (List.getElem?_eq_some_iff.mp found).1
        rw [log, List.length_append, single, List.length_singleton] at bound
        omega
      rw [last, before le_rfl, List.take_length]
      exact (h.copies registry patient current mem).imp_right fun gone => gone.step move
  · intro p n push handle found
    obtain old | ⟨later, new⟩ := places found
    · have inside := (List.getElem?_eq_some_iff.mp old).1
      obtain ⟨earlier, message, same, informed⟩ := h.placed old
      rw [before (earlier.trans inside).le]
      exact ⟨earlier, message, same, informed⟩
    · obtain aside | ⟨a, _, pending, _, rfl⟩ := origin
      · cases aside _ new
      cases a with
      | offer n' push' handle' =>
          simp only [Access.facts, List.mem_singleton, Fact.offered.injEq] at new
          obtain ⟨rfl, rfl, rfl, placed⟩ := new
          obtain ⟨message, handles, sent, mem, same⟩ := (Offered.of_reached reached).pending pending
          have inside := (List.getElem?_eq_some_iff.mp sent).1
          rw [before inside.le]
          refine ⟨inside.trans_le later, message, same, (h.copied sent mem).resolve_right ?_⟩
          rintro ⟨_, gone⟩
          rw [World.not_gone_of_hasRoom (World.delivery_eq_placed.mp placed.symm).2] at gone
          cases gone
      | _ => simp [Access.facts] at new

theorem initial (h : s.Initial) : Confirming node s := by
  obtain ⟨hash, ttl, verifier, rfl⟩ := h
  refine ⟨by simp, by simp, by simp, fun listed => ?_, by simp, by simp⟩
  cases listed

theorem of_reached (h : Reachable Server.Initial
    (guarded (Server.Step node) fun k turn => k.Patient turn) s) : Confirming node s := by
  have both : Server.Reached node s ∧ Confirming node s :=
    h.invariant (fun s => Server.Reached node s ∧ Confirming node s)
      (fun _ start => ⟨.start start, initial start⟩)
      fun _ _ _ ⟨reached, confirming⟩ ⟨patient, move⟩ =>
        ⟨.next reached move, confirming.step reached patient move⟩
  exact both.2

end Confirming

/-! ## Pushes after replies -/

/-- A push in a queue comes after the frame that confirms the subscription, the latest one when
the broadcast copied the subscribers. -/
def Server.RepliesFirst (s : Server) : Prop :=
  ∀ (p n : Nat) (push : Sent) (handle : ClientHandle) (channel : String),
    s.shared.log[p]? = some (.offered n push handle .placed) → push.channel? = some channel →
    ∃ (k t : Nat) (channels : List String), k < t ∧ t < p ∧
      s.shared.log[k]? = some (.subscribed handle.id channel) ∧
      s.shared.log[t]? = some (.told handle.id channels) ∧ channel ∈ channels ∧
      ∀ j < n, s.shared.log[j]? = some (.subscribed handle.id channel) → j < t

theorem replies_precede_pushes {node : Node} {s : Server} (h : Reachable Server.Initial
    (guarded (Server.Step node) fun k turn => k.Patient turn) s) : s.RepliesFirst := by
  intro p n push handle channel found same
  obtain ⟨earlier, message, rfl, informed⟩ := (Confirming.of_reached h).placed found
  rw [message.channel?_toPush, Option.some.injEq] at same
  rw [same] at informed
  obtain ⟨k, t, channels, before, subscribed, told, confirmed, latest⟩ := informed.place
  have inside : t < n := by
    have bound := (List.getElem?_eq_some_iff.mp told).1
    rw [List.length_take] at bound
    omega
  rw [List.getElem?_take_of_lt (before.trans inside)] at subscribed
  rw [List.getElem?_take_of_lt inside] at told
  refine ⟨k, t, channels, before, inside.trans earlier, subscribed, told, confirmed, ?_⟩
  intro j early found
  exact latest j (by rw [List.getElem?_take_of_lt early, found])

namespace Sample

/-- The news come from another node. -/
def headlines : List Turn :=
  [.spawn (.fanOut (.publication "news" { data := some ⟨[123, 125]⟩ })), .task 0, .task 0]

end Sample

open Sample

theorem replies_precede_pushes_settled :
    (after pressNode (settledReader ++ headlines)).RepliesFirst := by
  have run : Steps (guarded (Server.Step pressNode) fun k turn => k.Patient turn) started
      (settledReader ++ headlines) (after pressNode (settledReader ++ headlines)) :=
    .guarded_of_foldlM rfl
  exact replies_precede_pushes (run.reachable (.start started_initial))

/-- A session has entered the channel in the hub, and has not replied yet. -/
theorem not_replies_precede_pushes :
    ¬ ∀ (node : Node) (s : Server), Server.Reached node s → s.RepliesFirst := by
  intro all
  have early : Server.Reached pressNode (after pressNode (joins 0 .protobuf "7c3d" ++ headlines)) :=
    after_reached (by decide +kernel)
  obtain ⟨_, t, channels, _, _, _, told, _⟩ :=
    all pressNode _ early 2 1 (.publication "news" { data := some ⟨[123, 125]⟩ })
      ⟨"7c3d", "42", .protobuf, 0, some 0⟩ "news" (by decide +kernel) rfl
  have silent : (after pressNode (joins 0 .protobuf "7c3d" ++ headlines)).shared.log.all
      (fun fact => match fact with
        | .told _ _ => false
        | _ => true) := by decide +kernel
  cases List.all_eq_true.mp silent _ (List.mem_of_getElem? told)

end Centrifugo
