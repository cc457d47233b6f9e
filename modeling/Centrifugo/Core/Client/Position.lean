import Centrifugo.Core.Client.Recovery

/-!
# Positions that clients echo

In seq/gen mode a client is told an offset as two halves and sends them back to resume. The
halves are cut at 2 ^ 32 and put together again at 2 ^ 32 - 1, as the clients of this protocol
era expect. So a client is taken to be at the offset that it was told up to there, and past it
at an earlier one: it is sent what it missed after some publications that it has.
-/

namespace Centrifugo

/-- A client in seq/gen mode is told an offset by the reply to a SUBSCRIBE, with a publication
that it missed, and with a live publication that has an offset. -/
inductive Told (t : Nat) : UInt32 → UInt32 → Prop
  | reply (result : SubscribeResult) :
      Told t (encodePosition result t true).seq (encodePosition result t true).gen
  | recovered {body : Publication} : body.offset = t → Told t body.toSeqGen.seq body.toSeqGen.gen
  | live {channel : String} {body sent : Publication} : body.offset = t → t ≠ 0 →
      (NodeMessage.publication channel body).toPush true = .publication channel sent →
      Told t sent.seq sent.gen

theorem Told.unpacked {t : Nat} {seq gen : UInt32} (told : Told t seq gen) :
    (seq, gen) = unpackOffset t := by
  cases told with
  | reply result => rfl
  | recovered offset =>
      subst offset
      rfl
  | @live _ body _ offset nonzero push =>
      subst offset
      simp only [NodeMessage.toPush, Bool.true_and, decide_eq_true nonzero, if_true,
        Sent.publication.injEq, true_and] at push
      subst push
      rfl

/-- Every second half counts one less than it was cut off for. -/
theorem packOffset_unpackOffset {t : Nat} (fits : t < 2 ^ 64) :
    packOffset (unpackOffset t).1 (unpackOffset t).2 = t - t / 2 ^ 32 := by
  have low : (UInt32.ofNat t).toNat = t % 2 ^ 32 := UInt32.toNat_ofNat'
  have high : (UInt32.ofNat (t / 2 ^ 32)).toNat = t / 2 ^ 32 :=
    UInt32.toNat_ofNat_of_lt' (show t / 2 ^ 32 < 2 ^ 32 by omega)
  rw [packOffset, unpackOffset, low, high]
  omega

namespace SubscribeRequest

variable {t : Nat} {req : SubscribeRequest}

theorem position_of_told (fits : t < 2 ^ 64) (told : Told t req.seq req.gen)
    (unset : t = 0 → req.offset = 0) : req.position = t - t / 2 ^ 32 := by
  have halves := told.unpacked
  obtain ⟨seq, gen⟩ := Prod.mk.inj halves
  unfold position
  split
  next =>
    rw [seq, gen]
    exact packOffset_unpackOffset fits
  next zero =>
    -- both halves are zero, and the request falls back to its offset
    have start : t = 0 := by
      simp only [gt_iff_lt, Bool.or_eq_true, decide_eq_true_eq, not_or, UInt32.not_lt,
        UInt32.le_zero_iff, seq, gen] at zero
      obtain ⟨low, high⟩ := zero
      have low' := congrArg UInt32.toNat low
      have high' := congrArg UInt32.toNat high
      rw [UInt32.toNat_ofNat'] at low' high'
      simp only [UInt32.toNat_zero] at low' high'
      omega
    rw [unset start, start]
    rfl

theorem position_of_told_low (low : t < 2 ^ 32) (told : Told t req.seq req.gen)
    (unset : t = 0 → req.offset = 0) : req.position = t := by
  rw [position_of_told (by omega) told unset]
  omega

end SubscribeRequest

/-- A client that has everything is recovered with nothing to catch up. -/
theorem SubscribeResult.Recovers.of_upToDate {result : SubscribeResult} {stream : Stream}
    {req : SubscribeRequest} {useSeqGen : Bool} (recovers : result.Recovers stream req useSeqGen)
    (consistent : stream.Consistent) (epoch : stream.epoch = req.epoch)
    (top : stream.offset = req.position) : result.recovered ∧ result.publications = [] := by
  have nothing : ∀ publication ∈ stream.log, ¬ req.position < publication.offset := by
    intro publication mem
    have bound := (consistent.numbered.bounds mem).2
    rw [← consistent.offset_eq, top] at bound
    omega
  have recovered : result.recovered := by
    refine recovers.recovered_iff.mpr ⟨epoch, Nat.le_of_eq top.symm, ?_⟩
    intro publication mem after
    exact absurd after (nothing publication mem)
  obtain ⟨missed, spec, -, publications⟩ := recovers.publications recovered
  have none : missed = [] := by
    apply List.eq_nil_iff_forall_not_mem.mpr
    intro publication mem
    obtain ⟨logged, after⟩ := (spec publication).mp mem
    exact nothing publication logged after
  refine ⟨recovered, ?_⟩
  rw [publications, none]
  cases useSeqGen <;> rfl

namespace Session

/-- A client that echoes an offset is taken to be there, less one for each 2 ^ 32 before it,
and is told the truth about the stream from there on. -/
theorem echo_recovers {s : Session} {node : Node} {readings : Readings} {cmd : Command}
    {req : SubscribeRequest} {opts : ChannelOptions} {result : SubscribeResult} {t : Nat}
    (fits : t < 2 ^ 64) (told : Told t req.seq req.gen) (unset : t = 0 → req.offset = 0)
    (seqGen : node.useSeqGen) (reached : s.world.engine.Reached) (method : cmd.method = .subscribe)
    (params : parseParams node.decoders.subscribe {} s.client.proto cmd.params = some req)
    (options : node.channelOptions req.channel = some opts) (recoverable : opts.historyRecover)
    (recover : req.recover)
    (success :
      (s.handleCommand node readings cmd).2 = .reply (.ok cmd.id (.subscribe result))) :
    let stream := MemoryEngine.streamAt (readings.engine 0) (readings.epoch 0)
      s.world.engine.history req.channel
    req.position = t - t / 2 ^ 32 ∧ (t < 2 ^ 32 → req.position = t) ∧
      result.Recovers stream req true ∧
      (t < 2 ^ 32 → stream.epoch = req.epoch → stream.offset = t →
        result.recovered ∧ result.publications = []) := by
  intro stream
  have position := SubscribeRequest.position_of_told fits told unset
  have exact := fun low => SubscribeRequest.position_of_told_low low told unset
  have bound : req.position < 2 ^ 64 - 1 := by omega
  have recovers : result.Recovers stream req true := by
    have inMode := subscribe_recovers reached method params options recoverable recover bound
      success
    rwa [seqGen] at inMode
  refine ⟨position, exact, recovers, ?_⟩
  intro low epoch top
  have consistent := MemoryEngine.consistent_streamAt reached.consistent (readings.engine 0)
    (readings.epoch 0) req.channel
  exact recovers.of_upToDate consistent epoch (by rw [exact low]; exact top)

end Session

/-! ## A stream of any length -/

namespace Sample

def numbered (offset : Nat) : Publication := { data := some ⟨[123, 125]⟩, offset := offset }

/-- All publications of noon, of which the last two are kept. -/
def longStream (n : Nat) : Stream where
  offset := n + 2
  epoch := "xyz"
  pubs := [numbered (n + 1), numbered (n + 2)]
  expireAt := 43260
  metaExpireAt := i64Max
  log := (List.range' 1 (n + 2)).map numbered

def longEngine (n : Nat) : MemoryEngine := ⟨∅, (∅ : History).insert "ch" (longStream n), 0⟩

def publishKept : MemoryEngine.Op := .publish "ch" ⟨[123, 125]⟩ none ⟨2, 60⟩

theorem longEngine_succ (n : Nat) :
    longEngine (n + 1) = (longEngine n).apply (fun _ => noon) "xyz" publishKept := by
  have current : MemoryEngine.evictIfExpired (fun _ => noon) (longEngine n).history "ch" =
      (longEngine n).history := by
    simp only [MemoryEngine.evictIfExpired, longEngine, AList.lookup_insert]
    rfl
  have found : MemoryEngine.streamAt (fun _ => noon) "xyz" (longEngine n).history "ch" =
      longStream n := by
    rw [MemoryEngine.streamAt, current, longEngine, AList.lookup_insert]
    rfl
  have pushed : { (longStream n).push ⟨[123, 125]⟩ none 2 with
      expireAt := 43260, metaExpireAt := i64Max } = longStream (n + 1) := by
    simp [Stream.push, longStream, numbered, List.range'_concat, Nat.add_comm 1]
  have enabled : (PublishOptions.mk 2 60).historyEnabled := rfl
  simp only [publishKept, MemoryEngine.apply, MemoryEngine.append, enabled, if_true,
    MemoryEngine.addToHistory, current, found]
  rw [longEngine, longEngine, AList.insert_insert, ← pushed]
  rfl

theorem longEngine_reached (n : Nat) : (longEngine n).Reached := by
  induction n with
  | zero =>
      have first : MemoryEngine.Step (.new 0) publishKept
        ((MemoryEngine.new 0).apply (fun _ => noon) "xyz" publishKept) := ⟨_, _, rfl⟩
      have second : longEngine 0 = ((MemoryEngine.new 0).apply (fun _ => noon) "xyz"
        publishKept).apply (fun _ => noon) "xyz" publishKept := rfl
      exact .next (.next (.start ⟨0, rfl⟩) first) ⟨_, _, second⟩
  | succ n ih => exact .next ih ⟨_, _, longEngine_succ n⟩

def echoRequest (seq gen : UInt8) : SubscribeRequest :=
  { channel := "ch", recover := true, seq := seq.toUInt32, gen := gen.toUInt32, epoch := "xyz" }

def echoParams (seq gen : UInt8) : Raw :=
  ⟨[10, 2, 99, 104, 24, 1, 32, seq, 40, gen, 50, 3, 120, 121, 122]⟩

def echoNode (seq gen : UInt8) : Node :=
  { recoveryNode true with
    useSeqGen := true
    decoders := { decoders with
      subscribe := fun _ raw =>
        if raw = echoParams seq gen then some (echoRequest seq gen) else none } }

def echoCommand (seq gen : UInt8) : Command := ⟨2, .subscribe, some (echoParams seq gen)⟩

def longSession (n : Nat) : Session :=
  { session with world := { world with engine := longEngine n } }

end Sample

open Sample in
/-- A client that was told four and has everything, and one that was told 2 ^ 32 + 6 and has
missed one publication. -/
theorem Session.echo_recovers_long :
    (∃ result : SubscribeResult,
      ((longSession 2).handleCommand (echoNode 4 0) (readings noon) (echoCommand 4 0)).2 =
        .reply (.ok 2 (.subscribe result)) ∧ result.recovered ∧ result.publications = []) ∧
    ∃ result : SubscribeResult,
      ((longSession (2 ^ 32 + 5)).handleCommand (echoNode 6 1) (readings noon)
        (echoCommand 6 1)).2 = .reply (.ok 2 (.subscribe result)) ∧
      (echoRequest 6 1).position = 2 ^ 32 + 5 ∧
      result.Recovers (MemoryEngine.streamAt (fun _ => noon) "xyz"
        (longEngine (2 ^ 32 + 5)).history "ch") (echoRequest 6 1) true := by
  constructor
  · refine ⟨_, rfl, ?_⟩
    have low := @echo_recovers (longSession 2) (echoNode 4 0) (readings noon) (echoCommand 4 0)
      (echoRequest 4 0) _ _ 4 (by decide) (.reply {}) nofun rfl (longEngine_reached 2) rfl rfl rfl
      rfl rfl rfl
    exact low.2.2.2 (by decide) rfl rfl
  · refine ⟨_, rfl, ?_⟩
    have high := @echo_recovers (longSession (2 ^ 32 + 5)) (echoNode 6 1) (readings noon)
      (echoCommand 6 1) (echoRequest 6 1) _ _ (2 ^ 32 + 6) (by decide) (.reply {}) nofun rfl
      (longEngine_reached _) rfl rfl rfl rfl rfl rfl
    exact ⟨high.1, high.2.2.1⟩

/-- A client that was told 2 ^ 32 is taken to be one publication before it. -/
theorem Session.not_echo_exact :
    ¬ ∀ (t : Nat) (req : SubscribeRequest), t < 2 ^ 64 → Told t req.seq req.gen →
      (t = 0 → req.offset = 0) → req.position = t := by
  intro all
  have position := all (2 ^ 32) { seq := 0, gen := 1 } (by decide) (.reply {}) nofun
  exact absurd position (by decide)

end Centrifugo
