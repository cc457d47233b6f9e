import Centrifugo.Core.Client.Commands

/-!
# Recovery

A SUBSCRIBE can ask for the publications after a position. The reply says whether
nothing was missed: the epoch is that of the stream, the position lies inside it, and
every publication after the position is still in the buffer. The session decides that
by one look at the first publication that the engine returns.
-/

namespace Centrifugo

namespace MemoryEngine

/-- The shortcut for a client that is up to date finds what the filter would find. -/
theorem historySince_pubs {engine : MemoryEngine} (h : engine.history.Consistent)
    (clock : Clock) (fresh channel : String) (offset : Nat) (epoch : String) :
    (engine.historySince clock fresh channel offset epoch).2.1 =
      (streamAt clock fresh engine.history channel).pubs.filter
        fun publication => offset < publication.offset := by
  have stream := consistent_streamAt h clock fresh channel
  simp only [historySince]
  split
  next same =>
    symm
    rw [List.filter_eq_nil_iff]
    intro publication mem
    have bound := (stream.numbered.bounds (stream.suffix.mem mem)).2
    have top : (streamAt clock fresh engine.history channel).offset = offset := same.1
    rw [stream.offset_eq] at top
    have past : publication.offset ≤ offset := by omega
    simpa using past
  next => rfl

@[simp] theorem historySince_position (engine : MemoryEngine) (clock : Clock)
    (fresh channel : String) (offset : Nat) (epoch : String) :
    (engine.historySince clock fresh channel offset epoch).2.2 =
      (streamAt clock fresh engine.history channel).position := by
  simp only [historySince]
  split <;> rfl

end MemoryEngine

/-- What a reply to a recovery tells about a stream. -/
structure SubscribeResult.Recovers (result : SubscribeResult) (stream : Stream)
    (req : SubscribeRequest) (useSeqGen : Bool) : Prop where
  recovered_iff : result.recovered ↔
    stream.epoch = req.epoch ∧ req.position ≤ stream.offset ∧
      ∀ publication ∈ stream.log, req.position < publication.offset → publication ∈ stream.pubs
  /-- In offset mode the missed publications ascend, in seq/gen mode they descend. -/
  publications : result.recovered → ∃ missed : List Publication,
    (∀ publication, publication ∈ missed ↔
      publication ∈ stream.log ∧ req.position < publication.offset) ∧
    missed.Pairwise (fun a b => a.offset < b.offset) ∧
    result.publications =
      if useSeqGen then (missed.map Publication.toSeqGen).reverse else missed

namespace Session

@[simp] theorem addSubscription_history (s : Session) (channel : String) (state : SubState) :
    (s.addSubscription channel state).world.engine.history = s.world.engine.history := by
  simp only [addSubscription]
  split <;> rfl

variable {s : Session} {node : Node} {clock : Clock} {fresh : String} {req : SubscribeRequest}

/-- The test of the session is the test by the first entry of a log. -/
theorem recoverSince_recovered (consistent : s.world.engine.history.Consistent)
    (bound : req.position < 2 ^ 64 - 1) :
    let stream := MemoryEngine.streamAt clock fresh s.world.engine.history req.channel
    (s.recoverSince node clock fresh req).2.recovered =
      (Log.caughtUp Publication.offset
          (stream.pubs.filter fun publication => req.position < publication.offset)
          req.position stream.log.length &&
        decide (stream.epoch = req.epoch)) := by
  intro stream
  have offset_eq : stream.offset = stream.log.length :=
    (MemoryEngine.consistent_streamAt consistent clock fresh req.channel).offset_eq
  have next : (req.position + 1) % 2 ^ 64 = req.position + 1 := Nat.mod_eq_of_lt (by omega)
  have pubs := MemoryEngine.historySince_pubs consistent clock fresh req.channel req.position
    req.epoch
  simp only [recoverSince, World.historySince, encodePosition_recovered, next, pubs,
    MemoryEngine.historySince_position, Log.caughtUp]
  cases (stream.pubs.filter fun publication => req.position < publication.offset).head? with
  | none =>
      rw [← offset_eq]
      rfl
  | some first => rfl

theorem recoverSince_recovers (consistent : s.world.engine.history.Consistent)
    (bound : req.position < 2 ^ 64 - 1) :
    (s.recoverSince node clock fresh req).2.Recovers
      (MemoryEngine.streamAt clock fresh s.world.engine.history req.channel) req
      node.useSeqGen := by
  have stream := MemoryEngine.consistent_streamAt consistent clock fresh req.channel
  have test := Log.caughtUp_iff stream.numbered stream.suffix req.position
  have recovered := @recoverSince_recovered s node clock fresh req consistent bound
  refine ⟨?_, ?_⟩
  · rw [recovered, Bool.and_eq_true, test, decide_eq_true_iff, ← stream.offset_eq]
    exact And.comm
  · intro success
    rw [recovered, Bool.and_eq_true, test] at success
    obtain ⟨inside, all⟩ := success.1
    let log := (MemoryEngine.streamAt clock fresh s.world.engine.history req.channel).log
    refine ⟨log.filter fun publication => req.position < publication.offset, ?_, ?_, ?_⟩
    · intro publication
      rw [List.mem_filter, decide_eq_true_iff]
    · exact stream.numbered.increasing.filter _
    · have following := Log.following_of_caughtUp stream.numbered stream.suffix inside all
      rw [stream.numbered.filter_gt req.position, Nat.sub_zero, ← following,
        ← MemoryEngine.historySince_pubs consistent clock fresh req.channel req.position req.epoch]
      simp only [recoverSince, World.historySince, encodePosition_publications]

theorem subscribeResult_recovers {opts : ChannelOptions} {hist : History}
    (same : s.world.engine.history = hist) (consistent : hist.Consistent)
    (bound : req.position < 2 ^ 64 - 1) (recoverable : opts.historyRecover)
    (recover : req.recover) :
    (s.subscribeResult node clock fresh opts req).2.Recovers
      (MemoryEngine.streamAt clock fresh hist req.channel) req node.useSeqGen := by
  subst same
  rw [subscribeResult, if_pos recoverable, if_pos recover]
  exact recoverSince_recovers consistent bound

/-- Every successful SUBSCRIBE that recovers, on a channel with recovery, tells the truth
about the stream it finds. -/
theorem subscribe_recovers {s : Session} {node : Node} {readings : Readings} {cmd : Command}
    {req : SubscribeRequest} {opts : ChannelOptions} {result : SubscribeResult}
    (reached : s.world.engine.Reached) (method : cmd.method = .subscribe)
    (params : parseParams node.decoders.subscribe {} s.client.proto cmd.params = some req)
    (options : node.channelOptions req.channel = some opts) (recoverable : opts.historyRecover)
    (recover : req.recover) (bound : req.position < 2 ^ 64 - 1)
    (success :
      (s.handleCommand node readings cmd).2 = .reply (.ok cmd.id (.subscribe result))) :
    result.Recovers
      (MemoryEngine.streamAt (readings.engine 0) (readings.epoch 0) s.world.engine.history
        req.channel) req node.useSeqGen := by
  have effect := s.handleCommand_effect node readings cmd
  generalize s.handleCommand node readings cmd = after at effect success
  cases effect with
  | refused refusal => exact absurd success (CommandOutcome.refuse_ne_ok _ _ _)
  | subscribed req' opts' grant _ _ checked =>
      obtain ⟨params', -, options', -⟩ := checkSubscribe_ok checked
      rw [params] at params'
      cases params'
      rw [options] at options'
      cases options'
      simp only [applySubscribe, CommandOutcome.reply, CommandOutcome.mk.injEq, List.cons.injEq,
        and_true, okReply_eq_ok, Result.subscribe.injEq] at success
      rw [← success.2]
      exact subscribeResult_recovers (addSubscription_history _ _ _) reached.consistent bound
        recoverable recover
  | _ => simp_all

end Session

/-! ## One kept publication -/

namespace Sample

def recoverRequest : SubscribeRequest := { channel := "ch", recover := true, epoch := "xyz" }

def recoverParams : Raw := ⟨[10, 2, 99, 104, 24, 1, 50, 3, 120, 121, 122]⟩

def recoverCommand : Command := ⟨2, .subscribe, some recoverParams⟩

/-- Every channel has a history; recovery is offered or not. -/
def recoveryNode (historyRecover : Bool) : Node :=
  { node with
    namespaces := { default :=
      { historySize := 10, historyLifetime := 60, historyRecover := historyRecover } }
    decoders := { decoders with
      subscribe := fun _ raw => if raw = recoverParams then some recoverRequest else none } }

def keptEngine : MemoryEngine :=
  (MemoryEngine.new 0).apply (fun _ => noon) "xyz"
    (.publish "ch" ⟨[123, 125]⟩ none ⟨10, 60⟩)

theorem keptEngine_reached : keptEngine.Reached := .next (.start ⟨0, rfl⟩) ⟨_, _, rfl⟩

def recoverySession : Session := { session with world := { world with engine := keptEngine } }

end Sample

theorem Session.subscribe_recovers_kept : ∃ result : SubscribeResult,
    (Sample.recoverySession.handleCommand (Sample.recoveryNode true)
      (Sample.readings Sample.noon) Sample.recoverCommand).2 =
        .reply (.ok 2 (.subscribe result)) ∧
      result.Recovers (MemoryEngine.streamAt (fun _ => Sample.noon) "xyz"
        Sample.keptEngine.history "ch") Sample.recoverRequest false := by
  refine ⟨_, rfl, ?_⟩
  exact @subscribe_recovers Sample.recoverySession (Sample.recoveryNode true)
    (Sample.readings Sample.noon) Sample.recoverCommand Sample.recoverRequest _ _
    Sample.keptEngine_reached rfl rfl rfl rfl rfl (by decide) rfl

/-- A channel can have a history and offer no recovery. Nothing is recovered then. -/
theorem Session.not_subscribe_recovers_of_history :
    ¬ ∀ (s : Session) (node : Node) (readings : Readings) (cmd : Command)
      (req : SubscribeRequest) (opts : ChannelOptions) (result : SubscribeResult),
      s.world.engine.Reached → cmd.method = .subscribe →
      parseParams node.decoders.subscribe {} s.client.proto cmd.params = some req →
      node.channelOptions req.channel = some opts → opts.historyEnabled → req.recover →
      req.position < 2 ^ 64 - 1 →
      (s.handleCommand node readings cmd).2 = .reply (.ok cmd.id (.subscribe result)) →
      result.Recovers
        (MemoryEngine.streamAt (readings.engine 0) (readings.epoch 0) s.world.engine.history
          req.channel) req node.useSeqGen := by
  intro all
  have recovers := all Sample.recoverySession (Sample.recoveryNode false)
    (Sample.readings Sample.noon) Sample.recoverCommand Sample.recoverRequest
    { historySize := 10, historyLifetime := 60 } {} Sample.keptEngine_reached rfl rfl rfl rfl rfl
    (by decide) rfl
  have missed := recovers.recovered_iff.mpr (by decide)
  cases missed

end Centrifugo
