import Centrifugo.Core.Client.Expiry
import Centrifugo.Core.Client.Run

/-!
# Integers from outside

Positions come from clients, deadlines from tokens and proxies, lifetimes and intervals from the
configuration. Each operation on them has a result type, which a debug build checks for sums and
products and a release build does not. The operations of a step are listed here with their exact
results, in the order in which the step gets to them.
-/

namespace Centrifugo

open Guard

/-! ## Operations -/

inductive IntType
  | u32
  | u64
  | i64

/-- The integers of a type. -/
def IntType.Holds : IntType → Int → Prop
  | .u32, n => 0 ≤ n ∧ n < 2 ^ 32
  | .u64, n => 0 ≤ n ∧ n < 2 ^ 64
  | .i64, n => -2 ^ 63 ≤ n ∧ n < 2 ^ 63

/-- A sum, a difference, a product or a conversion. -/
structure Operation where
  type : IntType
  exact : Int

def Operation.InRange (op : Operation) : Prop := op.type.Holds op.exact

/-- Every result fits in its type. -/
def InRange (ops : List Operation) : Prop := ∀ op ∈ ops, op.InRange

@[simp] theorem inRange_nil : InRange [] := by
  intro op mem
  cases mem

@[simp] theorem inRange_cons {op : Operation} {ops : List Operation} :
    InRange (op :: ops) ↔ op.type.Holds op.exact ∧ InRange ops := by
  simp only [InRange, List.forall_mem_cons]
  rfl

@[simp] theorem inRange_append {ops more : List Operation} :
    InRange (ops ++ more) ↔ InRange ops ∧ InRange more := by
  simp only [InRange, List.forall_mem_append]

/-- The remaining seconds are told in 32 bits. -/
def Near (deadline : Int) (now : UnixTime) : Prop := 0 < deadline → deadline - now.seconds < 2 ^ 32

/-- The remaining seconds of a deadline, cut off at zero. -/
def ttlOperations (deadline : Int) (now : UnixTime) : List Operation :=
  if deadline > 0 then
    [⟨.i64, deadline - now.seconds⟩, ⟨.u32, max (i64 (deadline - now.seconds)) 0⟩]
  else []

/-- The same for REFRESH, which does not convert what is not positive. -/
def refreshOperations (deadline : Int) (now : UnixTime) : List Operation :=
  if deadline > 0 then
    ⟨.i64, deadline - now.seconds⟩ ::
      if i64 (deadline - now.seconds) ≤ 0 then [] else [⟨.u32, i64 (deadline - now.seconds)⟩]
  else []

section Ttl

variable {deadline : Int} {now : UnixTime}

theorem difference_inRange (bounded : deadline ≤ i64Max) (positive : 0 < deadline) :
    IntType.Holds .i64 (deadline - now.seconds) ∧
      i64 (deadline - now.seconds) = deadline - now.seconds := by
  have nonneg := now.nonneg
  have top := now.bounded
  simp only [i64Max] at bounded top
  refine ⟨⟨by omega, by omega⟩, ?_⟩
  apply i64_eq <;> omega

theorem ttlOperations_inRange_iff (bounded : deadline ≤ i64Max) :
    InRange (ttlOperations deadline now) ↔ Near deadline now := by
  unfold ttlOperations Near
  split
  next positive =>
    obtain ⟨fits, exact⟩ := @difference_inRange _ now bounded positive
    rw [inRange_cons, inRange_cons, exact]
    simp only [fits, true_and, inRange_nil, and_true]
    simp only [IntType.Holds]
    omega
  next absent => simp [absent]

theorem refreshOperations_inRange_iff (bounded : deadline ≤ i64Max) :
    InRange (refreshOperations deadline now) ↔ Near deadline now := by
  unfold refreshOperations Near
  split
  next positive =>
    obtain ⟨fits, exact⟩ := @difference_inRange _ now bounded positive
    rw [exact, inRange_cons]
    split
    next gone =>
      simp only [fits, inRange_nil, and_true, true_iff]
      intro _
      omega
    next ahead =>
      rw [inRange_cons]
      simp only [fits, true_and, inRange_nil, and_true]
      simp only [IntType.Holds]
      omega
  next absent => simp [absent]

/-- A report of a near deadline is not too small. -/
theorem le_ttl_of_near {ttl : UInt32} (near : Near deadline now)
    (told : Session.expiry deadline now = (true, ttl)) :
    min (deadline - now.seconds) (2 ^ 32 - 1) ≤ ttl.toNat := by
  unfold Session.expiry at told
  split at told
  next positive =>
    cases told
    have exact := ttlUntil_toNat positive (near positive)
    omega
  next => cases told

end Ttl

/-- The position of a recovery request, and the one that follows it. -/
def SubscribeRequest.positionOperations (req : SubscribeRequest) : List Operation :=
  (if req.seq > 0 || req.gen > 0 then
    [⟨.u64, req.gen.toNat * (2 ^ 32 - 1)⟩, ⟨.u64, req.gen.toNat * (2 ^ 32 - 1) + req.seq.toNat⟩]
  else []) ++ [⟨.u64, req.position + 1⟩]

/-- The last offset is not a position to recover from. -/
theorem SubscribeRequest.positionOperations_inRange_iff (req : SubscribeRequest) :
    InRange req.positionOperations ↔ req.position ≠ 2 ^ 64 - 1 := by
  have seq := req.seq.toNat_lt
  have gen := req.gen.toNat_lt
  have offset := req.offset.toNat_lt
  have next : IntType.Holds .u64 ((req.position : Int) + 1) ↔ req.position ≠ 2 ^ 64 - 1 := by
    have bounded : req.position < 2 ^ 64 := by
      unfold position packOffset
      split
      · omega
      · exact offset
    simp only [IntType.Holds]
    omega
  rw [positionOperations, inRange_append, inRange_cons, next]
  simp only [inRange_nil, and_true]
  refine ⟨fun fits => fits.2, fun fits => ⟨?_, fits⟩⟩
  split
  · simp only [inRange_cons, inRange_nil, and_true, IntType.Holds]
    omega
  · exact inRange_nil

/-- The deadlines of a stream after a publish. -/
def publishOperations (engine : MemoryEngine) (clock : Clock) (opts : PublishOptions) :
    List Operation :=
  if opts.historyEnabled then
    [⟨.i64, opts.historyLifetime⟩, ⟨.i64, (clock 2).seconds + i64 opts.historyLifetime⟩] ++
      if engine.metaTtl > 0 then [⟨.i64, (clock 3).seconds + engine.metaTtl⟩] else []
  else []

/-- A publish whose history expires within the range of the clock. -/
def Lasts (engine : MemoryEngine) (clock : Clock) (opts : PublishOptions) : Prop :=
  opts.historyEnabled → (clock 2).seconds + opts.historyLifetime ≤ i64Max ∧
    (engine.metaTtl > 0 → (clock 3).seconds + engine.metaTtl ≤ i64Max)

theorem publishOperations_inRange_iff (engine : MemoryEngine) (clock : Clock)
    (opts : PublishOptions) :
    InRange (publishOperations engine clock opts) ↔ Lasts engine clock opts := by
  have start := (clock 2).nonneg
  have last := (clock 3).nonneg
  unfold publishOperations Lasts
  split
  next enabled =>
    have whole : InRange (if engine.metaTtl > 0 then
        [⟨.i64, (clock 3).seconds + engine.metaTtl⟩] else []) ↔
        (engine.metaTtl > 0 → (clock 3).seconds + engine.metaTtl ≤ i64Max) := by
      split
      next kept =>
        rw [inRange_cons]
        simp only [inRange_nil, and_true, IntType.Holds, kept, forall_const, i64Max]
        omega
      next free => simp [free]
    simp only [inRange_append, inRange_cons, inRange_nil, and_true, whole, enabled, forall_const]
    refine and_congr ?_ Iff.rfl
    simp only [IntType.Holds, i64Max]
    constructor
    · rintro ⟨small, sum⟩
      rw [i64_eq small.1 small.2] at sum
      omega
    · intro fits
      have exact : i64 opts.historyLifetime = opts.historyLifetime := by
        apply i64_eq <;> omega
      rw [exact]
      omega
  next disabled => simp [disabled]

/-! ## The expiry timer -/

/-- The deadlines that a check looks at: up to the first one that it finds in the past. -/
def lookedAt (now : UnixTime) : List Int → List Int
  | [] => []
  | deadline :: deadlines =>
      deadline :: if Client.pastDeadline now deadline then [] else lookedAt now deadlines

/-- The deadlines of a client, its own first. The order of the others is that of a hash map. -/
def Client.deadlines (client : Client) : List Int :=
  client.expireAt :: client.subscriptions.entries.map fun entry => entry.2.expireAt

/-- The grace period is added to deadlines that are set. -/
def Client.expiryOperations (client : Client) (now : UnixTime) : List Operation :=
  if client.authenticated then
    ((lookedAt now client.deadlines).filter fun deadline => deadline > 0).map fun deadline =>
      ⟨.i64, deadline + closeDelay⟩
  else []

/-- No deadline that is looked at lies within the grace period of the end of time. -/
def Client.Expirable (client : Client) (now : UnixTime) : Prop :=
  client.authenticated → ∀ deadline ∈ lookedAt now client.deadlines,
    deadline ≤ i64Max - closeDelay

theorem Client.expiryOperations_inRange_iff (client : Client) (now : UnixTime) :
    InRange (client.expiryOperations now) ↔ client.Expirable now := by
  unfold expiryOperations Expirable
  by_cases authenticated : client.authenticated
  · simp only [authenticated, if_true, forall_const]
    constructor
    · intro fits deadline mem
      by_cases positive : deadline > 0
      · have op := fits ⟨.i64, deadline + closeDelay⟩
          (List.mem_map_of_mem (List.mem_filter.mpr ⟨mem, by simpa using positive⟩))
        have high : deadline + closeDelay < 2 ^ 63 := op.2
        simp only [i64Max]
        omega
      · simp only [i64Max, closeDelay]
        omega
    · intro near op mem
      obtain ⟨deadline, kept, rfl⟩ := List.mem_map.mp mem
      obtain ⟨looked, positive⟩ := List.mem_filter.mp kept
      have positive : 0 < deadline := by simpa using positive
      have high := near deadline looked
      simp only [i64Max, closeDelay] at high
      constructor <;> simp only [closeDelay] <;> omega
  · simp [authenticated]

/-- A deadline far from the end of time is found past only after its grace period. -/
theorem Client.lt_of_pastDeadline {now : UnixTime} {deadline : Int}
    (near : deadline ≤ i64Max - closeDelay) (past : pastDeadline now deadline) :
    0 < deadline ∧ deadline + closeDelay < now.seconds := by
  simp only [pastDeadline, Bool.and_eq_true, decide_eq_true_iff] at past
  obtain ⟨positive, past⟩ := past
  simp only [i64Max, closeDelay] at near
  have exact : i64 (deadline + closeDelay) = deadline + closeDelay := by
    apply i64_eq <;> simp only [closeDelay] <;> omega
  rw [exact] at past
  exact ⟨positive, past⟩

/-- If any deadline is past, the first of those is looked at. -/
theorem exists_lookedAt {now : UnixTime} {deadlines : List Int}
    (past : ∃ deadline ∈ deadlines, Client.pastDeadline now deadline) :
    ∃ deadline ∈ lookedAt now deadlines, Client.pastDeadline now deadline := by
  induction deadlines with
  | nil =>
      obtain ⟨deadline, mem, _⟩ := past
      cases mem
  | cons first deadlines ih =>
      by_cases here : Client.pastDeadline now first
      · exact ⟨first, List.mem_cons_self, here⟩
      · obtain ⟨deadline, mem, gone⟩ := past
        obtain rfl | mem := List.mem_cons.mp mem
        · exact absurd gone here
        obtain ⟨other, mem, gone⟩ := ih ⟨deadline, mem, gone⟩
        refine ⟨other, ?_, gone⟩
        rw [lookedAt, if_neg here]
        exact List.mem_cons_of_mem _ mem

theorem mem_of_mem_lookedAt {now : UnixTime} {deadlines : List Int} {deadline : Int}
    (mem : deadline ∈ lookedAt now deadlines) : deadline ∈ deadlines := by
  induction deadlines with
  | nil => exact mem
  | cons first deadlines ih =>
      rw [lookedAt] at mem
      obtain rfl | mem := List.mem_cons.mp mem
      · exact List.mem_cons_self
      · split at mem
        · cases mem
        · exact List.mem_cons_of_mem _ (ih mem)

/-- The timer closes a session only after one of its deadlines and the grace period. -/
theorem Client.checkExpired_late {client : Client} {now : UnixTime} {disconnect : Disconnect}
    (near : client.Expirable now) (closed : client.checkExpired now = some disconnect) :
    ∃ deadline ∈ client.deadlines, 0 < deadline ∧ deadline + closeDelay < now.seconds := by
  unfold checkExpired at closed
  split at closed
  next => cases closed
  next authenticated =>
    have past : ∃ deadline ∈ client.deadlines, pastDeadline now deadline := by
      split at closed
      next own => exact ⟨_, List.mem_cons_self, own⟩
      next =>
        split at closed
        next found =>
          obtain ⟨entry, mem, gone⟩ := List.any_eq_true.mp found
          exact ⟨_, List.mem_cons_of_mem _ (List.mem_map_of_mem mem), gone⟩
        next => cases closed
    obtain ⟨deadline, mem, gone⟩ := exists_lookedAt past
    have late := lt_of_pastDeadline (near (by simpa using authenticated) deadline mem) gone
    exact ⟨deadline, mem_of_mem_lookedAt mem, late⟩

namespace Session

/-! ## The operations of a step -/

variable {s : Session} {node : Node} {readings : Readings} {cmd : Command}

/-- What a command computes once it has passed its checks. -/
def grantedOperations {α : Type} (check : Check α) (operations : α → List Operation) :
    List Operation :=
  match check with
  | .ok a => operations a
  | .error _ => []

theorem grantedOperations_inRange_iff {α : Type} (check : Check α)
    (operations : α → List Operation) :
    InRange (grantedOperations check operations) ↔
      ∀ a, check = .ok a → InRange (operations a) := by
  cases check with
  | ok a => simp [grantedOperations]
  | error refusal => simp [grantedOperations]

/-- The integers from outside that a command computes with. -/
def methodOperations (s : Session) (node : Node) (readings : Readings) (cmd : Command) :
    List Operation :=
  match cmd.method with
  | .connect =>
      grantedOperations (s.parseConnect node cmd) fun req =>
        grantedOperations ((s.identify readings.uuid).checkConnect node readings req) fun creds =>
          if overConnectionLimit node s.world.hub creds.user then []
          else ttlOperations creds.expireAt readings.repliedAt
  | .subscribe =>
      grantedOperations (s.checkSubscribe node readings cmd) fun (req, opts, _) =>
        if opts.historyRecover && req.recover then req.positionOperations else []
  | .publish =>
      grantedOperations (s.checkPublish node readings cmd) fun (channel, _) =>
        publishOperations s.world.engine (readings.engine 0)
          (((node.channelOptions channel).map ChannelOptions.publishOptions).getD {})
  | .refresh =>
      grantedOperations (s.checkRefresh node readings cmd) fun ct =>
        refreshOperations ct.expireAt readings.repliedAt
  | .subRefresh =>
      grantedOperations (s.checkSubRefresh node readings cmd) fun (_, token) =>
        match token with
        | some t => ttlOperations t.expireAt readings.repliedAt
        | none => []
  | _ => []

def commandOperations (s : Session) (node : Node) (readings : Readings) (cmd : Command) :
    List Operation :=
  if s.client.authenticated || cmd.method = .connect then s.methodOperations node readings cmd
  else []

/-- The differences of a proactive refresh. -/
def refreshTickOperations (s : Session) (node : Node) (readings : Readings) : List Operation :=
  match node.proxies.refresh with
  | none => []
  | some proxy =>
      if !s.client.authenticated || s.client.expireAt ≤ 0 then []
      else
        ⟨.i64, s.client.expireAt - readings.checkedAt.seconds⟩ ::
          if i64 (s.client.expireAt - readings.checkedAt.seconds) > i64 node.presencePingInterval
          then []
          else
            match proxy readings.attempt s.client.proxyRequest with
            | some (.result creds) =>
                if !creds.expired && creds.expireAt > 0 then
                  [⟨.i64, creds.expireAt - readings.repliedAt.seconds⟩]
                else []
            | _ => []

/-! ## Inputs that fit -/

/-- The checks of a command grant nothing that its arithmetic cannot take. -/
def MethodFits (s : Session) (node : Node) (readings : Readings) (cmd : Command) : Prop :=
  match cmd.method with
  | .connect => ∀ req, s.parseConnect node cmd = .ok req →
      ∀ creds, (s.identify readings.uuid).checkConnect node readings req = .ok creds →
        overConnectionLimit node s.world.hub creds.user = false →
        Near creds.expireAt readings.repliedAt
  | .subscribe => ∀ granted, s.checkSubscribe node readings cmd = .ok granted →
      granted.2.1.historyRecover → granted.1.recover → granted.1.position ≠ 2 ^ 64 - 1
  | .publish => ∀ granted, s.checkPublish node readings cmd = .ok granted →
      Lasts s.world.engine (readings.engine 0)
        (((node.channelOptions granted.1).map ChannelOptions.publishOptions).getD {})
  | .refresh => ∀ ct, s.checkRefresh node readings cmd = .ok ct →
      Near ct.expireAt readings.repliedAt
  | .subRefresh => ∀ granted, s.checkSubRefresh node readings cmd = .ok granted →
      ∀ t, granted.2 = some t → Near t.expireAt readings.repliedAt
  | _ => True

def CommandFits (s : Session) (node : Node) (readings : Readings) (cmd : Command) : Prop :=
  s.client.authenticated ∨ cmd.method = .connect → s.MethodFits node readings cmd

/-! ## What is promised -/

/-- A command computes in range, and a reply tells no fewer seconds than remain or than 32 bits
hold. -/
structure CommandSafe (s : Session) (node : Node) (readings : Readings) (cmd : Command) :
    Prop where
  inRange : InRange (s.commandOperations node readings cmd)
  ttl : ∀ result ttl, cmd.method ∈ [.connect, .subscribe, .refresh, .subRefresh] →
    (s.handleCommand node readings cmd).2 = .reply (.ok cmd.id result) →
    result.expiry = some (true, ttl) →
    min ((s.handleCommand node readings cmd).1.storedDeadline node cmd -
      readings.repliedAt.seconds) (2 ^ 32 - 1) ≤ ttl.toNat

/-- A proactive refresh computes in range and goes on with a session whose deadline it has moved
ahead. -/
structure RefreshSafe (s : Session) (node : Node) (readings : Readings) : Prop where
  inRange : InRange (s.refreshTickOperations node readings)
  renewed : ∀ proxy creds, node.proxies.refresh = some proxy →
    proxy readings.attempt s.client.proxyRequest = some (.result creds) →
    creds.expired = false → readings.repliedAt.seconds < creds.expireAt →
    (s.proactiveRefresh node readings).2 = none

end Session

/-- A check for expiry computes in range and closes only a session with a deadline that has
passed. -/
structure Client.ExpirySafe (client : Client) (now : UnixTime) : Prop where
  inRange : InRange (client.expiryOperations now)
  late : ∀ disconnect, client.checkExpired now = some disconnect →
    ∃ deadline ∈ client.deadlines, 0 < deadline ∧ deadline < now.seconds

/-! ## Deadlines are 64-bit integers -/

/-- The expire_at of a proxy reply is an i64. -/
structure Proxies.Typed (proxies : Proxies) : Prop where
  connect : ∀ proxy attempt req creds, proxies.connect = some proxy →
    proxy attempt req = some (.credentials creds) → creds.expireAt ≤ i64Max
  refresh : ∀ proxy attempt req creds, proxies.refresh = some proxy →
    proxy attempt req = some (.result creds) → creds.expireAt ≤ i64Max

namespace TokenVerifier

theorem expireAtSecs_le (exp : Option ℚ) : expireAtSecs exp ≤ i64Max := by
  cases exp with
  | none => decide
  | some e =>
      simp only [expireAtSecs, i64Max]
      omega

theorem verifyConnectToken_le {verifier : TokenVerifier} {now : UnixTime} {token : String}
    {ct : ConnectToken} (h : verifier.verifyConnectToken now token = .ok ct) :
    ct.expireAt ≤ i64Max := by
  simp only [verifyConnectToken, bind_eq_ok] at h
  obtain ⟨claims, -, _, -, info, -, made⟩ := h
  cases made
  exact expireAtSecs_le _

theorem verifySubscribeToken_le {verifier : TokenVerifier} {now : UnixTime} {token : String}
    {t : SubscribeToken} (h : verifier.verifySubscribeToken now token = .ok t) :
    t.expireAt ≤ i64Max := by
  simp only [verifySubscribeToken, bind_eq_ok] at h
  obtain ⟨claims, -, _, -, info, -, made⟩ := h
  cases made
  exact expireAtSecs_le _

end TokenVerifier

namespace Session

variable {s : Session} {node : Node} {readings : Readings} {cmd : Command}

theorem checkConnect_le (typed : node.proxies.Typed) {req : ConnectRequest} {creds : Creds}
    (checked : s.checkConnect node readings req = .ok creds) : creds.expireAt ≤ i64Max := by
  obtain ⟨established, verified, origin⟩ := checkConnect_ok checked
  obtain rfl | ⟨_, rfl⟩ := origin
  · unfold connectCreds at verified
    split at verified
    next =>
      split at verified
      next ct token =>
        cases verified
        dsimp only
        split
        · decide
        · exact TokenVerifier.verifyConnectToken_le token
      next => cases verified
      next => cases verified
    next =>
      split at verified
      next => cases verified
      next proxy configured =>
        split at verified
        next reply answered =>
          cases verified
          exact typed.connect proxy _ _ _ configured answered
        all_goals cases verified
  · decide

theorem proactiveRefresh_le (typed : node.proxies.Typed) (bounded : s.client.expireAt ≤ i64Max)
    (readings : Readings) : (s.proactiveRefresh node readings).1.client.expireAt ≤ i64Max := by
  unfold proactiveRefresh
  split
  next => exact bounded
  next proxy configured =>
    split
    next => exact bounded
    split
    next => exact bounded
    split
    next creds answered =>
      have granted := typed.refresh proxy _ _ _ configured answered
      split
      next => exact bounded
      dsimp only
      split
      next =>
        split
        · exact granted
        · exact granted
      next => exact bounded
    next => exact bounded
    next => exact bounded
    next => exact bounded

/-- Every session run keeps the deadline of the connection a 64-bit integer. -/
theorem act_le (typed : node.proxies.Typed) (bounded : s.client.expireAt ≤ i64Max)
    (action : Action) : (s.act node action).client.expireAt ≤ i64Max := by
  cases action with
  | command readings cmd =>
      have effect := s.handleCommand_effect node readings cmd
      rw [act]
      generalize s.handleCommand node readings cmd = after at effect
      cases effect with
      | connected req creds _ parsed checked =>
          obtain ⟨subscriptions, pendingJoins, client⟩ :=
            applyConnect_client (s.identify readings.uuid) node readings cmd creds
          rw [client]
          exact checkConnect_le typed checked
      | subscribed req opts grant _ _ _ =>
          rw [applySubscribe_client]
          exact bounded
      | unsubscribed channel _ _ _ =>
          obtain ⟨subscriptions, handed, client⟩ := s.unsubscribeChannel_frame node channel
          rwa [applyUnsubscribe, client]
      | refreshed ct _ _ checked =>
          obtain ⟨token, verified⟩ := checkRefresh_ok checked
          rw [applyRefresh_client]
          exact TokenVerifier.verifyConnectToken_le verified
      | subRefreshed channel token _ _ _ =>
          rw [applySubRefresh_session]
          exact bounded
      | _ => exact bounded
  | serverUnsubscribe channel =>
      obtain ⟨subscriptions, handed, client⟩ := s.unsubscribeChannel_frame node channel
      rwa [act, serverUnsubscribe_client, client]
  | flushPendingJoins =>
      rw [act, flushPendingJoins_client]
      exact bounded
  | refreshPresence =>
      rw [act, refreshPresence_client]
      exact bounded
  | proactiveRefresh readings => exact proactiveRefresh_le typed bounded readings
  | interference world => exact bounded

theorem Reached.le (typed : node.proxies.Typed) (reached : Reached node s) :
    s.client.expireAt ≤ i64Max := by
  refine reached.invariant (fun s => s.client.expireAt ≤ i64Max) ?_ ?_
  · intro s fresh
    obtain ⟨proto, transport, tx, ctrl, client⟩ := fresh
    rw [client]
    show (0 : Int) ≤ i64Max
    decide
  · intro s action _ bounded step
    rw [step]
    exact act_le typed bounded action

/-! ## When the promise is kept -/

theorem methodOperations_inRange_iff (typed : node.proxies.Typed) :
    InRange (s.methodOperations node readings cmd) ↔ s.MethodFits node readings cmd := by
  unfold methodOperations MethodFits
  cases cmd.method with
  | connect =>
      simp only [grantedOperations_inRange_iff]
      refine forall₄_congr fun req parsed creds checked => ?_
      have bounded := checkConnect_le typed checked
      cases limited : overConnectionLimit node s.world.hub creds.user with
      | true => simp
      | false => simpa using ttlOperations_inRange_iff bounded
  | subscribe =>
      simp only [grantedOperations_inRange_iff]
      refine forall₂_congr fun granted checked => ?_
      obtain ⟨req, opts, grant⟩ := granted
      cases opts.historyRecover with
      | false => simp
      | true =>
          cases req.recover with
          | false => simp
          | true => simpa using req.positionOperations_inRange_iff
  | publish =>
      simp only [grantedOperations_inRange_iff]
      exact forall₂_congr fun granted checked => publishOperations_inRange_iff _ _ _
  | refresh =>
      simp only [grantedOperations_inRange_iff]
      refine forall₂_congr fun ct checked => ?_
      obtain ⟨token, verified⟩ := checkRefresh_ok checked
      exact refreshOperations_inRange_iff (TokenVerifier.verifyConnectToken_le verified)
  | subRefresh =>
      simp only [grantedOperations_inRange_iff]
      refine forall₂_congr fun granted checked => ?_
      obtain ⟨channel, token⟩ := granted
      cases token with
      | none => simp
      | some t =>
          obtain ⟨req, state, _, _, _, verified⟩ := checkSubRefresh_ok checked
          have bounded := TokenVerifier.verifySubscribeToken_le verified.1
          simpa using ttlOperations_inRange_iff bounded
  | _ => simp

/-- A report that tells nothing tells no seconds. -/
theorem expiry_eq_of_told {deadline : Int} {now : UnixTime} {result : Result} {ttl : UInt32}
    (report : result.expiry = some (Session.expiry deadline now))
    (told : result.expiry = some (true, ttl)) : Session.expiry deadline now = (true, ttl) := by
  rw [report] at told
  exact Option.some.inj told

theorem applyConnect_expiry {creds : Creds} {result : Result}
    (success : (s.applyConnect node readings cmd creds).2 = .reply (.ok cmd.id result)) :
    overConnectionLimit node s.world.hub creds.user = false ∧
      result.expiry = some (Session.expiry creds.expireAt readings.repliedAt) := by
  simp only [applyConnect] at success
  split at success
  next => cases success
  next below =>
    simp only [CommandOutcome.reply, CommandOutcome.mk.injEq, List.cons.injEq, and_true,
      okReply_eq_ok] at success
    refine ⟨Bool.eq_false_iff.mpr below, ?_⟩
    rw [← success.2]
    rfl

theorem applyRefresh_expiry {ct : ConnectToken} {result : Result}
    (success : (s.applyRefresh node readings cmd ct).2 = .reply (.ok cmd.id result)) :
    result.expiry = some (Session.expiry ct.expireAt readings.repliedAt) := by
  simp only [applyRefresh] at success
  split at success
  next => cases success
  next =>
    simp only [CommandOutcome.reply, CommandOutcome.mk.injEq, List.cons.injEq, and_true,
      okReply_eq_ok] at success
    rw [← success.2]
    rfl

theorem applySubRefresh_expiry {channel : String} {t : SubscribeToken} {result : Result}
    (success : (s.applySubRefresh readings cmd channel (some t)).2 =
      .reply (.ok cmd.id result)) :
    result.expiry = some (Session.expiry t.expireAt readings.repliedAt) := by
  simp only [applySubRefresh, CommandOutcome.reply, CommandOutcome.mk.injEq, List.cons.injEq,
    and_true, okReply_eq_ok] at success
  rw [← success.2]
  rfl

/-- A reply to a command that fits tells enough seconds. -/
theorem le_ttl_of_fits (fits : s.CommandFits node readings cmd) {result : Result} {ttl : UInt32}
    (method : cmd.method ∈ [.connect, .subscribe, .refresh, .subRefresh])
    (success : (s.handleCommand node readings cmd).2 = .reply (.ok cmd.id result))
    (told : result.expiry = some (true, ttl)) :
    min ((s.handleCommand node readings cmd).1.storedDeadline node cmd -
      readings.repliedAt.seconds) (2 ^ 32 - 1) ≤ ttl.toNat := by
  have effect := s.handleCommand_effect node readings cmd
  generalize s.handleCommand node readings cmd = after at effect success
  cases effect with
  | refused refusal => exact absurd success (CommandOutcome.refuse_ne_ok _ _ _)
  | identified refusal _ => exact absurd success (CommandOutcome.refuse_ne_ok _ _ _)
  | connected req creds connect parsed checked =>
      have same := applyConnect_client (s.identify readings.uuid) node readings cmd creds
      rw [storedDeadline_connect connect same]
      obtain ⟨below, report⟩ := applyConnect_expiry success
      have granted := fits (.inr connect)
      simp only [MethodFits, connect] at granted
      exact le_ttl_of_near (granted req parsed creds checked below) (expiry_eq_of_told report told)
  | subscribed req opts grant subscribe _ checked =>
      simp only [applySubscribe, CommandOutcome.reply, CommandOutcome.mk.injEq, List.cons.injEq,
        and_true, okReply_eq_ok] at success
      rw [← success.2, subscribeResult_expiry] at told
      cases told
  | refreshed ct refresh authenticated checked =>
      have stored : (s.applyRefresh node readings cmd ct).1.storedDeadline node cmd =
          ct.expireAt := by
        simp [storedDeadline, refresh, applyRefresh_client, renew]
      rw [stored]
      have granted := fits (.inl authenticated)
      simp only [MethodFits, refresh] at granted
      exact le_ttl_of_near (granted ct checked)
        (expiry_eq_of_told (applyRefresh_expiry success) told)
  | subRefreshed channel token subRefresh authenticated checked =>
      obtain ⟨req, state, params, rfl, held, _⟩ := checkSubRefresh_ok checked
      have stored : (s.applySubRefresh readings cmd req.channel token).1.storedDeadline node cmd =
          refreshedDeadline token := by
        rw [applySubRefresh_session]
        cases token <;>
          simp [storedDeadline, subRefresh, updateSubscription, params, Client.deadlineOf, held,
            SubState.refreshed, refreshedDeadline]
      rw [stored]
      cases token with
      | none =>
          simp only [applySubRefresh, CommandOutcome.reply, CommandOutcome.mk.injEq,
            List.cons.injEq, and_true, okReply_eq_ok] at success
          rw [← success.2] at told
          cases told
      | some t =>
          have granted := fits (.inl authenticated)
          simp only [MethodFits, subRefresh] at granted
          exact le_ttl_of_near (granted (req.channel, some t) checked t rfl)
            (expiry_eq_of_told (applySubRefresh_expiry success) told)
  | answered outcome quiet =>
      revert method quiet
      cases cmd.method <;> simp
  | published _ _ publish => simp [publish] at method
  | unsubscribed _ unsubscribe => simp [unsubscribe] at method
  | historyRead _ history => simp [history] at method

/-- A command keeps the promise just if what its checks grant fits. -/
theorem commandSafe_iff (typed : node.proxies.Typed) :
    s.CommandSafe node readings cmd ↔ s.CommandFits node readings cmd := by
  have operations : InRange (s.commandOperations node readings cmd) ↔
      s.CommandFits node readings cmd := by
    unfold commandOperations CommandFits
    rw [← methodOperations_inRange_iff typed]
    by_cases ready : s.client.authenticated ∨ cmd.method = .connect
    · simp [ready]
    · simp [ready]
  constructor
  · exact fun safe => operations.mp safe.inRange
  · intro fits
    exact ⟨operations.mpr fits, fun result ttl => le_ttl_of_fits fits⟩

theorem refreshTickOperations_inRange (typed : node.proxies.Typed)
    (bounded : s.client.expireAt ≤ i64Max) : InRange (s.refreshTickOperations node readings) := by
  unfold refreshTickOperations
  split
  next => exact inRange_nil
  next proxy configured =>
    split
    next => exact inRange_nil
    next due =>
      have positive : 0 < s.client.expireAt := by
        simp only [Bool.or_eq_true, decide_eq_true_iff, not_or, not_le] at due
        exact due.2
      rw [inRange_cons]
      refine ⟨(difference_inRange bounded positive).1, ?_⟩
      split
      next => exact inRange_nil
      split
      next creds answered =>
        have granted := typed.refresh proxy _ _ _ configured answered
        split
        next ahead =>
          simp only [Bool.and_eq_true, decide_eq_true_iff] at ahead
          rw [inRange_cons]
          exact ⟨(difference_inRange granted ahead.2).1, inRange_nil⟩
        next => exact inRange_nil
      next => exact inRange_nil

/-- A deadline that the proxy moved ahead keeps the session open. -/
theorem proactiveRefresh_renewed (typed : node.proxies.Typed)
    {proxy : Proxy ProxyRequest (ProxyOutcome RefreshCreds)} {creds : RefreshCreds}
    (configured : node.proxies.refresh = some proxy)
    (answered : proxy readings.attempt s.client.proxyRequest = some (.result creds))
    (unexpired : creds.expired = false) (ahead : readings.repliedAt.seconds < creds.expireAt) :
    (s.proactiveRefresh node readings).2 = none := by
  have nonneg := readings.repliedAt.nonneg
  have positive : 0 < creds.expireAt := by omega
  have exact := (@difference_inRange _ readings.repliedAt
    (typed.refresh proxy _ _ _ configured answered) positive).2
  unfold proactiveRefresh
  rw [configured]
  dsimp only
  split
  next => rfl
  split
  next => rfl
  next =>
    rw [answered]
    dsimp only
    rw [unexpired, exact, if_neg Bool.false_ne_true, if_pos positive, if_neg (by omega)]

theorem refreshSafe (typed : node.proxies.Typed) (bounded : s.client.expireAt ≤ i64Max) :
    s.RefreshSafe node readings := by
  refine ⟨refreshTickOperations_inRange typed bounded, ?_⟩
  intro proxy creds configured answered unexpired ahead
  exact proactiveRefresh_renewed typed configured answered unexpired ahead

end Session

/-- A check keeps the promise just if the deadlines that it looks at leave room. -/
theorem Client.expirySafe_iff {client : Client} {now : UnixTime} :
    client.ExpirySafe now ↔ client.Expirable now := by
  rw [← expiryOperations_inRange_iff]
  constructor
  · exact fun safe => safe.inRange
  · intro fits
    refine ⟨fits, ?_⟩
    intro disconnect closed
    have near := client.expiryOperations_inRange_iff now |>.mp fits
    obtain ⟨deadline, mem, positive, late⟩ := checkExpired_late near closed
    refine ⟨deadline, mem, positive, ?_⟩
    simp only [closeDelay] at late
    omega

/-! ## The configuration -/

/-- The conversions at the start of a node and of a connection. -/
def Node.startOperations (node : Node) (presenceExpire historyMetaTtl : Nat) : List Operation :=
  [⟨.u64, presenceExpire * 1000⟩, ⟨.i64, historyMetaTtl⟩, ⟨.i64, node.presencePingInterval⟩]

/-- The conversions are in range, and the period of the presence timer is not zero, for which the
timer panics. -/
def Node.StartSafe (node : Node) (presenceExpire historyMetaTtl : Nat) : Prop :=
  InRange (node.startOperations presenceExpire historyMetaTtl) ∧ node.presencePingInterval ≠ 0

/-- The intervals are as long as milliseconds in 64 bits and signed seconds allow. -/
structure Node.StartFits (node : Node) (presenceExpire historyMetaTtl : Nat) : Prop where
  expire : presenceExpire < 2 ^ 64 / 1000 + 1
  metaTtl : historyMetaTtl < 2 ^ 63
  ping : 0 < node.presencePingInterval ∧ node.presencePingInterval < 2 ^ 63

theorem Node.startSafe_iff (node : Node) (presenceExpire historyMetaTtl : Nat) :
    node.StartSafe presenceExpire historyMetaTtl ↔
      node.StartFits presenceExpire historyMetaTtl := by
  simp only [StartSafe, startOperations, inRange_cons, inRange_nil, IntType.Holds]
  constructor
  · rintro ⟨⟨expire, metaTtl, ping, _⟩, zero⟩
    exact ⟨by omega, by omega, by omega⟩
  · rintro ⟨expire, metaTtl, ping⟩
    refine ⟨⟨?_, ?_, ?_, trivial⟩, ?_⟩ <;> omega

namespace Session

variable {s : Session} {node : Node}

/-- In every session run each command and each check for expiry keeps its promise just if the
integers that it is given fit, and so do the starts of the node and of its connections. A proactive
refresh always does. -/
theorem integers_safe_iff (typed : node.proxies.Typed) (reached : Reached node s) :
    (∀ readings cmd, s.CommandSafe node readings cmd ↔ s.CommandFits node readings cmd) ∧
    (∀ readings, s.RefreshSafe node readings) ∧
    (∀ now, s.client.ExpirySafe now ↔ s.client.Expirable now) ∧
    ∀ presenceExpire historyMetaTtl, node.StartSafe presenceExpire historyMetaTtl ↔
      node.StartFits presenceExpire historyMetaTtl := by
  refine ⟨fun _ _ => commandSafe_iff typed, fun _ => ?_, fun _ => Client.expirySafe_iff,
    node.startSafe_iff⟩
  exact refreshSafe typed (reached.le typed)

end Session

/-! ## A deadline at the end of time -/

namespace Sample

/-- The connect proxy grants user 42 a session until the last second. -/
def lastingNode : Node :=
  { node with proxies :=
      { connect := some fun _ _ => some (.credentials { user := "42", expireAt := i64Max }) } }

theorem lastingNode_typed : lastingNode.proxies.Typed := by
  constructor
  · intro proxy attempt req creds configured answered
    cases configured
    cases answered
    exact le_rfl
  · intro proxy attempt req creds configured answered
    cases configured

def lastingSession : Session := freshSession.act lastingNode (.command (readings noon) connect)

theorem lastingSession_reached : Session.Reached lastingNode lastingSession :=
  .next (.start ⟨_, _, _, _, rfl⟩) rfl

end Sample

theorem Session.integers_safe_lasting :
    Sample.lastingSession.client.ExpirySafe Sample.noon ↔
      Sample.lastingSession.client.Expirable Sample.noon :=
  (integers_safe_iff Sample.lastingNode_typed Sample.lastingSession_reached).2.2.1 _

/-- With the grace period added the deadline wraps around, and the first check closes the
session. -/
theorem Session.not_integers_safe :
    ¬ ∀ (s : Session) (node : Node), node.proxies.Typed → Reached node s →
      (∀ readings cmd, s.CommandSafe node readings cmd) ∧
      (∀ readings, s.RefreshSafe node readings) ∧ ∀ now, s.client.ExpirySafe now := by
  intro all
  have safe := (all Sample.lastingSession Sample.lastingNode Sample.lastingNode_typed
    Sample.lastingSession_reached).2.2 Sample.noon
  have closed : Sample.lastingSession.client.checkExpired Sample.noon = some .expired := by
    decide +kernel
  have deadlines : Sample.lastingSession.client.deadlines = [i64Max] := by
    decide +kernel
  obtain ⟨deadline, mem, _, late⟩ := safe.late .expired closed
  rw [deadlines] at mem
  obtain rfl := List.mem_singleton.mp mem
  revert late
  decide +kernel

end Centrifugo
