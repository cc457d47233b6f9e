import Centrifugo.Core.Client.Expiry
import Centrifugo.Core.Client.Recovery

/-!
# Failed commands

A command that fails, with an error reply or a disconnect, should leave no trace. The
checks run before any effect, so refused commands leave none. There are four ways to fail
late: the connection limit, results of CONNECT and of SUBSCRIBE that JSON cannot carry,
and a refreshed deadline that has passed by the time of the reply.
-/

namespace Centrifugo

open Guard

namespace MemoryEngine

/-- A stream with publications is found as it was before the access. -/
theorem lookup_of_streamAt_pubs {clock : Clock} {fresh channel : String} {hist : History}
    (kept : (streamAt clock fresh hist channel).pubs ≠ []) :
    hist.lookup channel = some (streamAt clock fresh hist channel) ∧
      evictIfExpired clock hist channel = hist := by
  unfold streamAt at kept ⊢
  cases found : hist.lookup channel with
  | none => simp [evictIfExpired, found, Stream.new] at kept
  | some stream =>
      simp only [evictIfExpired, found] at kept ⊢
      split at kept
      · simp [Stream.new] at kept
      next current =>
        rw [if_neg current]
        split at kept
        · simp [Stream.clear] at kept
        next live =>
          rw [if_neg live, found]
          exact ⟨rfl, rfl⟩

/-- What is missed depends on the streams only. -/
theorem historySince_congr {engine engine' : MemoryEngine}
    (same : engine.history = engine'.history) (clock : Clock) (fresh channel : String)
    (offset : Nat) (epoch : String) :
    (engine.historySince clock fresh channel offset epoch).2 =
      (engine'.historySince clock fresh channel offset epoch).2 := by
  have read : (engine.touch clock fresh channel).2 = (engine'.touch clock fresh channel).2 := by
    simp only [touch, same]
  simp only [historySince, apply_ite Prod.snd, read]

theorem lookup_touch_of_pubs {engine : MemoryEngine} {clock : Clock} {fresh channel : String}
    (kept : (streamAt clock fresh engine.history channel).pubs ≠ []) (other : String) :
    (engine.touch clock fresh channel).1.history.lookup other = engine.history.lookup other := by
  obtain ⟨found, unchanged⟩ := lookup_of_streamAt_pubs kept
  simp only [touch, unchanged, Map.lookup_insert_eq]
  split
  next same => rw [same, found]
  next => rfl

end MemoryEngine

/-- The publications that a history keeps for a channel. -/
def History.kept (hist : History) (channel : String) : List Publication :=
  ((hist.lookup channel).map Stream.pubs).getD []

namespace Session

/-- A session before and after a command without effect. -/
structure Unaffected (before after : Session) : Prop where
  authenticated : after.client.authenticated = before.client.authenticated
  user : after.client.user = before.client.user
  connInfo : after.client.connInfo = before.client.connInfo
  expireAt : after.client.expireAt = before.client.expireAt
  subscriptions : ∀ channel, after.client.subscriptions.lookup channel =
    before.client.subscriptions.lookup channel
  pendingJoins : after.client.pendingJoins = before.client.pendingJoins
  conns : ∀ id, after.world.hub.conns.lookup id = before.world.hub.conns.lookup id
  users : ∀ user, after.world.hub.users.lookup user = before.world.hub.users.lookup user
  subscribers : ∀ channel, after.world.hub.subscriberIds channel =
    before.world.hub.subscriberIds channel
  presence : ∀ channel, after.world.engine.presence.lookup channel =
    before.world.engine.presence.lookup channel
  history : ∀ channel, after.world.engine.history.kept channel =
    before.world.engine.history.kept channel

theorem Unaffected.refl (s : Session) : Unaffected s s := by
  constructor <;> intros <;> rfl

/-- The commands that fail after an effect. -/
inductive Leaks (s : Session) (node : Node) (readings : Readings) (cmd : Command) : Prop
  /-- The identity is taken before the connection limit is checked. -/
  | connectionLimit (req : ConnectRequest) (creds : Creds) (method : cmd.method = .connect)
      (parsed : s.parseConnect node cmd = .ok req)
      (checked : (s.identify readings.uuid).checkConnect node readings req = .ok creds)
      (exceeded : overConnectionLimit node s.world.hub creds.user)
  /-- The data that the connect proxy answers is not JSON. -/
  | connectData (req : ConnectRequest) (creds : Creds) (data : Raw)
      (method : cmd.method = .connect) (parsed : s.parseConnect node cmd = .ok req)
      (checked : (s.identify readings.uuid).checkConnect node readings req = .ok creds)
      (json : s.client.proto = .json) (sent : creds.data = some data)
      (malformed : data.toJson = none)
  /-- A publication to recover is not JSON. -/
  | recovery (req : SubscribeRequest) (opts : ChannelOptions) (grant : Grant)
      (publication : Publication) (method : cmd.method = .subscribe)
      (authenticated : s.client.authenticated)
      (checked : s.checkSubscribe node readings cmd = .ok (req, opts, grant))
      (json : s.client.proto = .json) (offered : opts.historyRecover) (asked : req.recover)
      (missed : publication ∈ (s.world.engine.historySince (readings.engine 0)
        (readings.epoch 0) req.channel req.position req.epoch).2.1)
      (malformed : publication.toJson = none)
  /-- The deadline of a new token has passed when it is replied. -/
  | refresh (ct : ConnectToken) (method : cmd.method = .refresh)
      (authenticated : s.client.authenticated)
      (checked : s.checkRefresh node readings cmd = .ok ct) (limited : ct.expireAt > 0)
      (passed : i64 (ct.expireAt - readings.repliedAt.seconds) ≤ 0)
      (differs : ct.user ≠ "" ∧ ct.user ≠ s.client.user ∨ ct.info ≠ s.client.connInfo ∨
        ct.expireAt ≠ s.client.expireAt)

variable {s : Session} {node : Node} {readings : Readings} {cmd : Command}

@[simp] theorem failed_okReply (proto : ProtocolType) (id : UInt32) (result : Result) :
    (CommandOutcome.reply (okReply proto id result)).failed = !result.encodable proto := by
  unfold okReply
  cases result.encodable proto <;> rfl

theorem encodable_eq_false {proto : ProtocolType} {result : Result} :
    result.encodable proto = false ↔ proto = .json ∧ result.toJson.isSome = false := by
  cases proto <;> simp [Result.encodable]

/-! ## CONNECT -/

/-- Subscriptions on connect report no publications, so they can be encoded. -/
theorem serverSideSubscribe_encodable (s : Session) (node : Node) (clock : Clock)
    (fresh channel : String) :
    (s.serverSideSubscribe node clock fresh channel).2.toJson.isSome := by
  rw [SubscribeResult.toJson_isSome]
  have empty : (s.serverSideSubscribe node clock fresh channel).2.publications = [] := by
    simp only [serverSideSubscribe]
    split <;> simp [reportTop]
  simp [empty]

theorem serverSideSubscribes_encodable (node : Node) (readings : Readings)
    (channels : List String) (s : Session) (subs : Map String SubscribeResult) (i : Nat)
    (before : ∀ channel result, subs.lookup channel = some result → result.toJson.isSome) :
    ∀ channel result, (serverSideSubscribes node readings s subs i channels).2.lookup channel =
      some result → result.toJson.isSome := by
  induction channels generalizing s subs i with
  | nil => exact before
  | cons channel channels ih =>
      apply ih
      intro other result found
      rw [Map.lookup_insert_eq] at found
      split at found
      · cases found
        exact serverSideSubscribe_encodable s node _ _ channel
      · exact before other result found

/-- The result of a CONNECT can be encoded, up to its data. -/
theorem connect_unencodable_iff {proto : ProtocolType} {result : ConnectResult}
    (subs : ∀ channel sub, result.subs.lookup channel = some sub → sub.toJson.isSome) :
    (Result.connect result).encodable proto = false ↔
      proto = .json ∧ ∃ data, result.data = some data ∧ data.toJson = none := by
  rw [encodable_eq_false]
  refine and_congr_right fun _ => ?_
  rw [Result.toJson, ← Bool.not_eq_true, ConnectResult.toJson_isSome]
  constructor
  · intro fails
    by_contra fine
    apply fails
    refine ⟨?_, ?_⟩
    · intro data sent
      by_contra malformed
      exact fine ⟨data, sent, by simpa using malformed⟩
    · intro entry mem
      exact subs entry.1 entry.2 (Map.mem_toPairs.mp mem)
  · intro bad all
    obtain ⟨data, sent, malformed⟩ := bad
    have encoded := all.1 data sent
    rw [malformed] at encoded
    cases encoded

/-- A granted CONNECT below the limit fails exactly when its data is not JSON. -/
theorem applyConnect_failed {creds : Creds}
    (below : overConnectionLimit node s.world.hub creds.user = false) :
    (s.applyConnect node readings cmd creds).2.failed = true ↔
      s.client.proto = .json ∧ ∃ data, creds.data = some data ∧ data.toJson = none := by
  have below' : overConnectionLimit node (s.authenticate creds).world.hub creds.user = false :=
    below
  have subs := serverSideSubscribes_encodable node readings (connectChannels node creds)
    (s.authenticate creds).register ∅ 0 (by simp)
  obtain ⟨_, _, client⟩ := serverSideSubscribes_client node readings
    (connectChannels node creds) (s.authenticate creds).register ∅ 0
  have proto : (serverSideSubscribes node readings (s.authenticate creds).register ∅ 0
      (connectChannels node creds)).1.client.proto = s.client.proto := by
    rw [client]
    rfl
  simp only [applyConnect, below', Bool.false_eq_true, if_false, failed_okReply,
    Bool.not_eq_true', proto]
  exact connect_unencodable_iff subs

theorem not_unaffected_applyConnect {creds : Creds} (req : ConnectRequest)
    (parsed : s.parseConnect node cmd = .ok req) :
    ¬ Unaffected s ((s.identify readings.uuid).applyConnect node readings cmd creds).1 := by
  intro same
  obtain ⟨_, _, client⟩ :=
    applyConnect_client (s.identify readings.uuid) node readings cmd creds
  have authenticated := same.authenticated
  rw [client, (parseConnect_ok parsed).1] at authenticated
  cases authenticated

/-! ## SUBSCRIBE -/

theorem not_unaffected_applySubscribe {req : SubscribeRequest} {opts : ChannelOptions}
    {grant : Grant} (checked : s.checkSubscribe node readings cmd = .ok (req, opts, grant)) :
    ¬ Unaffected s (s.applySubscribe node readings cmd req opts grant).1 := by
  intro same
  have held := same.subscriptions req.channel
  rw [applySubscribe_client, AList.lookup_insert, (checkSubscribe_ok checked).2.1] at held
  cases held

theorem toSeqGen_isSome (publication : Publication) :
    publication.toSeqGen.toJson.isSome = publication.toJson.isSome :=
  Publication.toJson_isSome_congr rfl rfl

/-- The order and the positions of recovered publications do not matter for encoding. -/
theorem recoverSince_encodable (s : Session) (node : Node) (clock : Clock) (fresh : String)
    (req : SubscribeRequest) :
    (s.recoverSince node clock fresh req).2.toJson.isSome ↔
      ∀ publication ∈ (s.world.engine.historySince clock fresh req.channel req.position
        req.epoch).2.1, publication.toJson.isSome := by
  rw [SubscribeResult.toJson_isSome]
  simp only [recoverSince, encodePosition_publications, World.historySince]
  cases node.useSeqGen with
  | false => simp
  | true => simp [toSeqGen_isSome]

/-- The result of a SUBSCRIBE can be encoded, up to the publications that it recovers. -/
theorem subscribeResult_unencodable_iff (s : Session) (node : Node) (clock : Clock)
    (fresh : String) (opts : ChannelOptions) (req : SubscribeRequest) {proto : ProtocolType} :
    (Result.subscribe (s.subscribeResult node clock fresh opts req).2).encodable proto = false ↔
      proto = .json ∧ opts.historyRecover = true ∧ req.recover = true ∧
        ∃ publication ∈ (s.world.engine.historySince clock fresh req.channel req.position
          req.epoch).2.1, publication.toJson = none := by
  rw [encodable_eq_false, Result.toJson]
  refine and_congr_right fun _ => ?_
  by_cases recovers : opts.historyRecover ∧ req.recover
  · rw [subscribeResult, if_pos recovers.1, if_pos recovers.2, ← Bool.not_eq_true,
      recoverSince_encodable]
    simp [recovers]
  · have empty : (s.subscribeResult node clock fresh opts req).2.publications = [] := by
      rw [subscribeResult]
      split
      next offered =>
        rw [if_neg fun asked => recovers ⟨offered, asked⟩]
        simp [reportTop]
      next => rfl
    have encoded := (SubscribeResult.toJson_isSome
      (s.subscribeResult node clock fresh opts req).2).mpr (by simp [empty])
    rw [encoded]
    constructor
    · intro h
      cases h
    · intro h
      exact absurd ⟨h.1, h.2.1⟩ recovers

/-- A granted SUBSCRIBE fails exactly when it recovers a publication that is not JSON. -/
theorem applySubscribe_failed {req : SubscribeRequest} {opts : ChannelOptions} {grant : Grant} :
    (s.applySubscribe node readings cmd req opts grant).2.failed = true ↔
      s.client.proto = .json ∧ opts.historyRecover = true ∧ req.recover = true ∧
        ∃ publication ∈ (s.world.engine.historySince (readings.engine 0) (readings.epoch 0)
          req.channel req.position req.epoch).2.1, publication.toJson = none := by
  have found := MemoryEngine.historySince_congr
    (addSubscription_history s req.channel (grantedState opts grant)) (readings.engine 0)
    (readings.epoch 0) req.channel req.position req.epoch
  simp only [applySubscribe, failed_okReply, Bool.not_eq_true', subscribeResult_unencodable_iff,
    subscribeResult_client, addSubscription_client, found]

/-! ## HISTORY -/

/-- A history that cannot be encoded is not empty, so nothing in it had expired. -/
theorem unaffected_readHistory {channel : String}
    (failed : (s.applyRead cmd (readHistory node readings) channel).2.failed = true) :
    Unaffected s (s.applyRead cmd (readHistory node readings) channel).1 := by
  have kept : (MemoryEngine.streamAt (readings.engine 0) (readings.epoch 0)
      s.world.engine.history channel).pubs ≠ [] := by
    intro empty
    simp only [applyRead, failed_okReply, Bool.not_eq_true', encodable_eq_false,
      Result.toJson] at failed
    have encoded := (HistoryResult.toJson_isSome ⟨[]⟩).mpr (by simp)
    have none := failed.2
    simp only [readHistory, World.history, MemoryEngine.readHistory, MemoryEngine.touch, empty,
      List.map_nil, ite_self] at none
    rw [encoded] at none
    cases none
  constructor
  case history =>
    intro other
    have same := MemoryEngine.lookup_touch_of_pubs kept other
    exact congrArg (fun found : Option Stream => (found.map Stream.pubs).getD []) same
  all_goals intros; rfl

/-! ## REFRESH -/

/-- Taking a new token has no effect when it is the token in force. -/
theorem unaffected_renew_iff {ct : ConnectToken} :
    Unaffected s (s.renew ct) ↔ ¬ (ct.user ≠ "" ∧ ct.user ≠ s.client.user ∨
      ct.info ≠ s.client.connInfo ∨ ct.expireAt ≠ s.client.expireAt) := by
  constructor
  · intro same differs
    obtain ⟨named, user⟩ | info | expireAt := differs
    · apply user
      have taken := same.user
      simpa [renew, named] using taken
    · exact info same.connInfo
    · exact expireAt same.expireAt
  · intro same
    simp only [not_or, not_and, not_not] at same
    obtain ⟨user, info, expireAt⟩ := same
    constructor
    case user =>
      show (if ct.user ≠ "" then ct.user else s.client.user) = s.client.user
      split
      next named => exact user named
      next => rfl
    case connInfo => exact info
    case expireAt => exact expireAt
    all_goals intros; rfl

theorem applyRefresh_failed {ct : ConnectToken} :
    (s.applyRefresh node readings cmd ct).2.failed = true ↔
      ct.expireAt > 0 ∧ i64 (ct.expireAt - readings.repliedAt.seconds) ≤ 0 := by
  simp only [applyRefresh]
  split
  next passed =>
    simpa using passed
  next current =>
    have encoded : ∀ result : RefreshResult,
        (Result.refresh result).encodable (s.renew ct).client.proto := by
      intro result
      cases (s.renew ct).client.proto <;> rfl
    simp only [failed_okReply, encoded, Bool.not_true, Bool.false_eq_true, false_iff]
    simpa using current

/-! ## Every command -/

theorem applyConnect_overLimit {creds : Creds}
    (exceeded : overConnectionLimit node s.world.hub creds.user) :
    (s.applyConnect node readings cmd creds).2.failed = true := by
  have exceeded' : overConnectionLimit node (s.authenticate creds).world.hub creds.user := exceeded
  simp only [applyConnect, exceeded', if_true, CommandOutcome.failed_refuse]

theorem unaffected_of_not_leaks (tight : ¬ s.Leaks node readings cmd)
    (failed : (s.handleCommand node readings cmd).2.failed = true) :
    Unaffected s (s.handleCommand node readings cmd).1 := by
  have effect := s.handleCommand_effect node readings cmd
  generalize s.handleCommand node readings cmd = after at effect failed
  cases effect with
  | refused refusal => exact .refl s
  | identified refusal method => constructor <;> intros <;> rfl
  | answered outcome method => exact .refl s
  | connected req creds method parsed checked =>
      cases limit : overConnectionLimit node s.world.hub creds.user with
      | true => exact absurd (.connectionLimit req creds method parsed checked limit) tight
      | false =>
          obtain ⟨json, data, sent, malformed⟩ :=
            (applyConnect_failed (s := s.identify readings.uuid) limit).mp failed
          exact absurd (.connectData req creds data method parsed checked json sent malformed) tight
  | subscribed req opts grant method authenticated checked =>
      obtain ⟨json, offered, asked, publication, missed, malformed⟩ :=
        applySubscribe_failed.mp failed
      exact absurd (.recovery req opts grant publication method authenticated checked json
        offered asked missed malformed) tight
  | published channel data method _ _ =>
      have encoded : Result.publish.encodable s.client.proto := by
        cases s.client.proto <;> rfl
      simp [applyPublish, encoded] at failed
  | unsubscribed channel method _ _ =>
      have encoded : Result.unsubscribe.encodable s.client.proto := by
        cases s.client.proto <;> rfl
      simp [applyUnsubscribe, encoded] at failed
  | historyRead channel method _ _ => exact unaffected_readHistory failed
  | refreshed ct method authenticated checked =>
      obtain ⟨limited, passed⟩ := applyRefresh_failed.mp failed
      by_cases same : Unaffected s (s.renew ct)
      · have taken : (s.applyRefresh node readings cmd ct).1 = s.renew ct := by
          simp only [applyRefresh]
          split <;> rfl
        rw [taken]
        exact same
      · rw [unaffected_renew_iff, not_not] at same
        exact absurd (.refresh ct method authenticated checked limited passed same) tight
  | subRefreshed channel token method _ _ =>
      have encoded : ∀ result : SubRefreshResult,
          (Result.subRefresh result).encodable s.client.proto := by
        intro result
        cases s.client.proto <;> rfl
      cases token <;> simp [applySubRefresh, encoded] at failed

theorem failed_of_leaks (leaks : s.Leaks node readings cmd) :
    (s.handleCommand node readings cmd).2.failed = true ∧
      ¬ Unaffected s (s.handleCommand node readings cmd).1 := by
  cases leaks with
  | connectionLimit req creds method parsed checked exceeded =>
      rw [handleCommand_connect method parsed checked]
      exact ⟨applyConnect_overLimit exceeded, not_unaffected_applyConnect req parsed⟩
  | connectData req creds data method parsed checked json sent malformed =>
      rw [handleCommand_connect method parsed checked]
      refine ⟨?_, not_unaffected_applyConnect req parsed⟩
      cases limit : overConnectionLimit node s.world.hub creds.user with
      | true => exact applyConnect_overLimit limit
      | false =>
          exact (applyConnect_failed (s := s.identify readings.uuid) limit).mpr
            ⟨json, data, sent, malformed⟩
  | recovery req opts grant publication method authenticated checked json offered asked missed
      malformed =>
      rw [handleCommand_subscribe method authenticated checked]
      exact ⟨applySubscribe_failed.mpr ⟨json, offered, asked, publication, missed, malformed⟩,
        not_unaffected_applySubscribe checked⟩
  | refresh ct method authenticated checked limited passed differs =>
      rw [handleCommand_refresh method authenticated checked]
      refine ⟨applyRefresh_failed.mpr ⟨limited, passed⟩, ?_⟩
      have taken : (s.applyRefresh node readings cmd ct).1 = s.renew ct := by
        simp only [applyRefresh]
        split <;> rfl
      rw [taken, unaffected_renew_iff, not_not]
      exact differs

/-- A failed command leaves no trace, except for those that `Leaks` lists. -/
theorem unaffected_iff_not_leaks (s : Session) (node : Node) (readings : Readings)
    (cmd : Command) :
    ((s.handleCommand node readings cmd).2.failed = true →
      Unaffected s (s.handleCommand node readings cmd).1) ↔ ¬ s.Leaks node readings cmd := by
  constructor
  · intro tight leaks
    obtain ⟨failed, affected⟩ := failed_of_leaks leaks
    exact affected (tight failed)
  · exact unaffected_of_not_leaks

end Session

/-! ## A second connection of a user who may have one -/

namespace Sample

/-- The connect proxy takes every client for user 42, who may connect once. -/
def limitedNode : Node :=
  { node with
    proxies := { connect := some fun _ _ => some (.credentials { user := "42" }) }
    limits := { userConnectionLimit := 1 } }

def firstSession : Session := (freshSession.handleCommand limitedNode (readings noon) connect).1

def secondSession : Session := ⟨{ proto := .protobuf, tx := 1 }, firstSession.world⟩

def secondReadings : Readings := { readings noon with uuid := "7c3d" }

end Sample

/-- A CONNECT over the limit is disconnected, and leaves the session authenticated. -/
theorem Session.not_unaffected_connectionLimit :
    (Sample.secondSession.handleCommand Sample.limitedNode Sample.secondReadings
      Sample.connect).2.failed = true ∧
    ¬ Unaffected Sample.secondSession
      (Sample.secondSession.handleCommand Sample.limitedNode Sample.secondReadings
        Sample.connect).1 := by
  refine ⟨by decide +kernel, ?_⟩
  intro same
  exact absurd same.authenticated (by decide +kernel)

end Centrifugo
