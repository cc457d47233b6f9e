import Centrifugo.Server.Index

/-!
# Authorization

A channel gets into the subscriptions of a session, and into the hub under its id, by a
CONNECT or by a SUBSCRIBE. `Authorizes` states what such a command has to show for a channel.
A session does not hold a channel before a command that authorizes it.
-/

namespace Centrifugo

open Server Guard

/-! ## What a command has to show -/

/-- A CONNECT may take the channel: its verified token or the connect proxy lists it, or it is
the personal channel of the user. -/
inductive MayConnect (node : Node) (s : Session) (readings : Readings) (req : ConnectRequest)
    (channel : String) : Prop
  | token (ct : ConnectToken) (present : req.token ≠ "")
      (verified : s.world.verifier.verifyConnectToken readings.verifiedAt req.token = .ok ct)
      (listed : channel ∈ ct.channels ∨ node.namespaces.personalChannel ct.user = some channel)
  | proxy (proxy : Proxy ProxyConnectRequest ProxyConnectOutcome) (creds : ProxyConnectReply)
      (configured : node.proxies.connect = some proxy)
      (granted : proxy readings.attempt (s.connectProxyRequest readings.uuid req) =
        some (.credentials creds))
      (listed : channel ∈ creds.channels ∨
        node.namespaces.personalChannel creds.user = some channel)

/-- A SUBSCRIBE may take the channel. -/
structure MaySubscribe (node : Node) (s : Session) (readings : Readings) (req : SubscribeRequest)
    (opts : ChannelOptions) : Prop where
  known : node.channelOptions req.channel = some opts
  clientSide : opts.serverSide = false
  identified : s.client.user ≠ "" ∨ opts.anonymous ∨ node.clientInsecure
  listed : ∀ allowed, afterLast '#' req.channel.toList = some allowed →
    s.client.user.toList ∈ allowed.splitOn ','
  token : node.isPrivate req.channel → ∃ t,
    s.world.verifier.verifySubscribeToken readings.verifiedAt req.token = .ok t ∧
      t.client = s.client.id ∧ t.channel = req.channel ∧
      (t.expireAt = 0 ∨ readings.verifiedAt.seconds ≤ t.expireAt)
  proxied : opts.proxySubscribe → node.isPrivate req.channel = false →
    isUserLimited req.channel = false → ∃ proxy creds, node.proxies.subscribe = some proxy ∧
      proxy readings.attempt
        { s.client.proxyRequest with channel := req.channel, token := req.token } =
          some (.result creds)

/-- The turn starts a command of the session that may take the channel. -/
inductive Authorizes (node : Node) (s : Server) (i : Nat) (channel : String) : Turn → Prop
  | connect {reader : Reader} {readings : Readings} {cmd : Command} {cmds : List Command}
      {replies : List (Reply Result)} {req : ConnectRequest}
      (found : s.jobs[i]? = some ⟨reader, []⟩) (phase : reader.phase = .batch (cmd :: cmds) replies)
      (first : reader.client.authenticated = false)
      (parsed : parseParams node.decoders.connect {} reader.client.proto cmd.params = some req)
      (may : MayConnect node (reader.session s.shared) readings req channel) :
      Authorizes node s i channel (.event i (.command readings))
  | subscribe {reader : Reader} {readings : Readings} {cmd : Command} {cmds : List Command}
      {replies : List (Reply Result)} {req : SubscribeRequest} {opts : ChannelOptions}
      (found : s.jobs[i]? = some ⟨reader, []⟩) (phase : reader.phase = .batch (cmd :: cmds) replies)
      (authenticated : reader.client.authenticated)
      (parsed : parseParams node.decoders.subscribe {} reader.client.proto cmd.params = some req)
      (asked : req.channel = channel)
      (may : MaySubscribe node (reader.session s.shared) readings req opts) :
      Authorizes node s i channel (.event i (.command readings))

/-! ## The checks show it -/

namespace Session

variable {node : Node} {s : Session} {readings : Readings} {cmd : Command} {channel : String}

theorem mayConnect {req : ConnectRequest} {creds : Creds}
    (checked : (s.identify readings.uuid).checkConnect node readings req = .ok creds)
    (mem : channel ∈ connectChannels node creds) : MayConnect node s readings req channel := by
  have listed := mem_connectChannels mem
  obtain ⟨established, verified, rfl | ⟨rfl, rfl⟩⟩ := checkConnect_ok checked
  · unfold connectCreds at verified
    split at verified
    next present =>
      split at verified
      next ct token =>
        cases verified
        exact .token ct present token listed
      next => cases verified
      next => cases verified
    next =>
      split at verified
      next => cases verified
      next proxy configured =>
        split at verified <;> cases verified
        exact .proxy proxy creds configured (by assumption) listed
  · have nobody : node.namespaces.personalChannel "" = none := by
      simp [Namespaces.personalChannel]
    obtain mem | personal := listed
    · cases mem
    · rw [nobody] at personal
      cases personal

theorem maySubscribe {req : SubscribeRequest} {opts : ChannelOptions} {grant : Grant}
    (checked : s.checkSubscribe node readings cmd = .ok (req, opts, grant)) :
    MaySubscribe node s readings req opts := by
  simp only [checkSubscribe, require_bind, demand_bind] at checked
  obtain ⟨parsed, _, _, _, _, _, options, known, clientSide, identified, allowed, checked⟩ :=
    checked
  obtain ⟨authorized, granted, same⟩ := bind_eq_ok.mp checked
  cases same
  refine ⟨known, by simpa using clientSide, ?_, ?_, ?_, ?_⟩
  · simp only [Bool.or_eq_true, decide_eq_true_eq] at identified
    tauto
  · intro list limited
    unfold userAllowed at allowed
    rw [limited] at allowed
    simpa using allowed
  · intro isPrivate
    rw [authorizeSubscribe, if_pos isPrivate, subscribeByToken, demand_bind] at granted
    obtain ⟨_, granted⟩ := granted
    split at granted
    next t verified =>
      obtain ⟨same, _⟩ := demand_bind.mp granted
      simp only [Bool.and_eq_true, decide_eq_true_eq] at same
      exact ⟨t, verified, same.1, same.2, TokenVerifier.verifySubscribeToken_deadline verified⟩
    next => cases granted
    next => cases granted
  · intro proxied isPublic unlimited
    rw [authorizeSubscribe, isPublic, proxied, unlimited, if_neg (by simp), if_pos (by simp),
      subscribeByProxy, require_bind] at granted
    obtain ⟨proxy, configured, granted⟩ := granted
    dsimp only at granted
    split at granted <;> cases granted
    exact ⟨proxy, _, configured, by assumption⟩

end Session

/-! ## Channels that a session does not hold -/

/-- The operation may give the channel to its session. -/
def Op.Takes (node : Node) (channel : String) : Op → Prop
  | .access (.subscribe _ other) => other = channel
  | .register _ _ creds => channel ∈ Session.connectChannels node creds
  | .serverSide _ _ _ _ _ channels => channel ∈ channels
  | .report _ _ _ _ _ other channels => other = channel ∨ channel ∈ channels
  | .subscribeReply _ _ req _ _ => req.channel = channel
  | _ => False

namespace Access

/-- The access neither enters a subscription in the hub nor announces the end of one. -/
def plain : Access → Bool
  | .subscribe _ _ | .put _ (.frame (.unsub _)) => false
  | _ => true

variable {node : Node} {a b : Access} {s : Shared} {channel : String}

theorem not_takes_of_plain (h : a.plain) : ¬ (Op.access a).Takes node channel := by
  cases a with
  | subscribe _ _ => cases h
  | _ => exact not_false

theorem plain_more (h : b ∈ a.more node s) : b.plain := by
  cases follows_of_mem h <;> rfl

end Access

namespace Client

variable {node : Node} (client : Client) {channel other : String} {state : SubState}

theorem plain_leaving : ∀ a ∈ client.leaving other state, a.plain := by
  intro a mem
  unfold leaving at mem
  obtain mem | mem := List.mem_append.mp mem <;> split at mem
  · rw [List.mem_singleton.mp mem]
    rfl
  · cases mem
  · rw [List.mem_singleton.mp mem]
    rfl
  · cases mem

theorem plain_unsubscribing : ∀ a ∈ (client.unsubscribing other).2, a.plain := by
  intro a mem
  unfold unsubscribing at mem
  split at mem
  next => cases mem
  next =>
    obtain leaving | removal := List.mem_append.mp mem
    · exact client.plain_leaving a leaving
    · rw [List.mem_singleton.mp removal]
      rfl

theorem plain_disconnecting : ∀ a ∈ client.disconnecting.2, a.plain := by
  intro a mem
  obtain leaving | removal := List.mem_append.mp mem
  · obtain ⟨entry, _, inside⟩ := List.mem_flatMap.mp leaving
    exact client.plain_leaving a inside
  · rw [List.mem_singleton.mp removal]
    rfl

theorem plain_refreshing : ∀ a ∈ client.refreshing, a.plain := by
  intro a mem
  unfold refreshing at mem
  split at mem
  next =>
    obtain ⟨entry, _, rfl⟩ := List.mem_map.mp mem
    rfl
  next => cases mem

theorem plain_flushing : ∀ a ∈ client.flushing.2, a.plain := by
  intro a mem
  obtain ⟨join, _, rfl⟩ := List.mem_map.mp mem
  rfl

theorem isSubscribed_unsubscribing (free : client.isSubscribed channel = false) :
    (client.unsubscribing other).1.isSubscribed channel = false := by
  unfold unsubscribing
  split
  next => exact free
  next =>
    simp only [isSubscribed, Map.lookup_erase_eq] at free ⊢
    split
    · rfl
    · exact free

theorem takes_subscribing
    (h : ∃ a ∈ client.subscribing other state, (Op.access a).Takes node channel) :
    other = channel := by
  obtain ⟨a, mem, takes⟩ := h
  unfold subscribing at mem
  obtain rfl | later := List.mem_cons.mp mem
  · exact takes
  · split at later
    · rw [List.mem_singleton.mp later] at takes
      cases takes
    · cases later

end Client

/-- The session neither holds the channel nor is about to take it. -/
structure Job.Free (node : Node) (job : Job) (channel : String) : Prop where
  unsubscribed : job.reader.client.isSubscribed channel = false
  work : ∀ op ∈ job.work, ¬ op.Takes node channel

namespace Job.Free

variable {node : Node} {channel : String} {reader reader' : Reader} {shared shared' : Shared}

theorem exec {op : Op} {rest more : List Op}
    (ran : op.Ran node reader shared reader' shared' more)
    (free : Job.Free node ⟨reader, op :: rest⟩ channel) :
    Job.Free node ⟨reader', more ++ rest⟩ channel := by
  have now := free.work op List.mem_cons_self
  have later : (∀ next ∈ more, ¬ next.Takes node channel) →
      ∀ next ∈ more ++ rest, ¬ next.Takes node channel := by
    intro first next mem
    obtain mem | mem := List.mem_append.mp mem
    · exact first next mem
    · exact free.work next (List.mem_cons_of_mem _ mem)
  have held : reader.client.isSubscribed channel = false := free.unsubscribed
  cases ran with
  | accessed ran =>
      obtain ⟨_, rfl⟩ := Access.exec_eq ran
      refine ⟨held, later fun next mem => ?_⟩
      obtain ⟨b, follows, rfl⟩ := List.mem_map.mp mem
      exact Access.not_takes_of_plain (Access.plain_more follows)
  | overLimit _ _ _ _ => exact ⟨held, later (by simp)⟩
  | registering readings cmd creds room same =>
      subst same
      refine ⟨held, later ?_⟩
      simpa [Op.Takes] using now
  | connected _ _ _ _ _ => exact ⟨held, later (by simp)⟩
  | joining _ _ _ _ _ other channels =>
      have apart : other ≠ channel := by
        rintro rfl
        exact now List.mem_cons_self
      refine ⟨held, later fun next mem takes => ?_⟩
      obtain mem | mem := List.mem_append.mp mem
      · obtain ⟨a, inside, rfl⟩ := List.mem_map.mp mem
        exact apart (Client.takes_subscribing _ ⟨a, inside, takes⟩)
      · rw [List.mem_singleton.mp mem] at takes
        obtain same | mem := takes
        · exact apart same
        · exact now (List.mem_cons_of_mem _ mem)
  | reported _ _ _ _ _ other channels after read =>
      subst read
      obtain ⟨apart, away⟩ := not_or.mp now
      refine ⟨?_, later fun next mem takes => ?_⟩
      · rw [Reader.resume_client, Session.report_client]
        simpa [Client.isSubscribed, Reader.session, Map.lookup_insert_eq, Ne.symm apart] using held
      · rw [List.mem_singleton.mp mem] at takes
        exact away takes
  | subscribed _ _ req _ _ after finished =>
      subst finished
      refine ⟨?_, later (by simp)⟩
      have apart : channel ≠ req.channel := Ne.symm now
      simp only [Reader.answer_client, Reader.resume_client, Session.finishSubscribe_client]
      simpa [Client.isSubscribed, Reader.session, Map.lookup_insert_eq, apart] using held
  | answered _ => exact ⟨held, later (by simp)⟩
  | absent _ _ => exact ⟨held, later (by simp)⟩
  | unsubscribed other _ push pushed =>
      refine ⟨Client.isSubscribed_unsubscribing _ held, later fun next mem takes => ?_⟩
      obtain ⟨a, inside, rfl⟩ := List.mem_map.mp mem
      obtain leaving | pushing := List.mem_append.mp inside
      · exact Access.not_takes_of_plain (Client.plain_unsubscribing _ a leaving) takes
      · obtain rfl | ⟨tx, rfl⟩ := pushed
        · cases pushing
        · rw [List.mem_singleton.mp pushing] at takes
          cases takes

theorem begin {s : Server} {i : Nat} {event : Event} {ops : List Op}
    (found : s.jobs[i]? = some ⟨reader, []⟩) (same : shared.world = s.shared.world)
    (begun : reader.Begun node shared event reader' shared' ops)
    (free : Job.Free node ⟨reader, []⟩ channel) :
    Job.Free node ⟨reader', ops⟩ channel ∨ Authorizes node s i channel (.event i event) := by
  have held : reader.client.isSubscribed channel = false := free.unsubscribed
  have session : reader.session shared = reader.session s.shared := by
    rw [Reader.session, Reader.session, same]
  cases begun with
  | settled _ _ connInfo expireAt client =>
      refine .inl ⟨?_, by simp⟩
      rw [client]
      exact held
  | closing _ _ _ _ => exact .inl ⟨held, by simp [Op.Takes]⟩
  | pinged _ =>
      refine .inl ⟨held, fun op mem => ?_⟩
      obtain ⟨a, inside, rfl⟩ := List.mem_map.mp mem
      exact Access.not_takes_of_plain (Client.plain_refreshing _ a inside)
  | dropping _ channels _ =>
      refine .inl ⟨held, fun op mem => ?_⟩
      obtain ⟨other, _, rfl⟩ := List.mem_map.mp mem
      exact id
  | command readings cmd cmds replies phase commanded =>
      cases commanded with
      | refused _ => exact .inl ⟨held, by simp⟩
      | identified _ _ => exact .inl ⟨held, by simp⟩
      | connecting req creds parsed checked =>
          obtain ⟨fresh, parsed⟩ := Session.parseConnect_ok parsed
          by_cases mem : channel ∈ Session.connectChannels node creds
          · right
            exact .connect found phase fresh parsed (session ▸ Session.mayConnect checked mem)
          · exact .inl ⟨held, by simpa [Op.Takes] using mem⟩
      | subscribing req opts grant authenticated checked =>
          by_cases same : req.channel = channel
          · right
            exact .subscribe found phase authenticated
              (Session.checkSubscribe_ok checked).1 same (session ▸ Session.maySubscribe checked)
          · refine .inl ⟨held, fun op mem takes => ?_⟩
            obtain mem | mem := List.mem_append.mp mem
            · obtain ⟨a, inside, rfl⟩ := List.mem_map.mp mem
              exact same (Client.takes_subscribing _ ⟨a, inside, takes⟩)
            · rw [List.mem_singleton.mp mem] at takes
              exact same takes
      | publishing _ _ _ _ => exact .inl ⟨held, by simp [Op.Takes]⟩
      | unsubscribing other _ =>
          refine .inl ⟨Client.isSubscribed_unsubscribing _ held, fun op mem => ?_⟩
          obtain mem | mem := List.mem_append.mp mem
          · obtain ⟨a, inside, rfl⟩ := List.mem_map.mp mem
            exact Access.not_takes_of_plain (Client.plain_unsubscribing _ a inside)
          · rw [List.mem_singleton.mp mem]
            exact id
      | instant after _ method effect =>
          refine .inl ⟨?_, by simp⟩
          rw [Reader.answer_client, Reader.resume_client, (effect.client_of_instant method).2]
          exact held
  | replied _ _ _ _ => exact .inl ⟨held, by simp⟩
  | flushed disconnect _ _ =>
      refine .inl ⟨held, fun op mem => ?_⟩
      obtain mem | mem := List.mem_append.mp mem
      · obtain ⟨a, inside, rfl⟩ := List.mem_map.mp mem
        exact Access.not_takes_of_plain (Client.plain_flushing _ a inside)
      · obtain ⟨d, _, rfl⟩ := Option.map_eq_some_iff.mp (Option.mem_toList.mp mem)
        exact id
  | left _ =>
      refine .inl ⟨rfl, fun op mem => ?_⟩
      obtain ⟨a, inside, rfl⟩ := List.mem_map.mp mem
      exact Access.not_takes_of_plain (Client.plain_disconnecting _ a inside)

end Job.Free

/-- The session, if there is one in this place, is free of the channel, and so is the hub under
its id. -/
structure Server.Free (node : Node) (s : Server) (i : Nat) (channel : String) : Prop where
  job : ∀ {job : Job}, s.jobs[i]? = some job → Job.Free node job channel
  hub : ∀ {job : Job}, s.jobs[i]? = some job →
    job.reader.client.id ∉ s.shared.world.hub.subscriberIds channel

namespace Server

variable {node : Node} {s s' : Server} {turn : Turn} {i : Nat} {id : ClientId} {channel : String}

/-- Only a subscription that is under way adds a subscriber. -/
theorem Step.mem_subscriberIds (seated : Seated s) (move : Step node s turn s')
    (mem : id ∈ s'.shared.world.hub.subscriberIds channel) :
    id ∈ s.shared.world.hub.subscriberIds channel ∨ .subscribe id channel ∈ s.pending := by
  cases move.outline seated with
  | @access a _ _ here _ _ shared _ =>
      rw [shared, Access.perform_hub] at mem
      cases a with
      | subscribe id' channel' =>
          obtain ⟨rfl, rfl⟩ | old := Hub.mem_subscribe.mp mem
          · exact .inr (here.mem_iff.mpr List.mem_cons_self)
          · exact .inl old
      | unsubscribe _ _ => exact .inl (Hub.mem_unsubscribe.mp mem).2
      | sweep _ _ => exact .inl (Hub.mem_sweep.mp mem).2
      | _ => exact .inl mem
  | registering _ _ _ _ _ shared _ =>
      rw [shared] at mem
      exact .inl mem
  | quiet _ _ quiet =>
      rw [quiet.hub] at mem
      exact .inl mem

/-- The id of a session after a turn is the one it had, or a new one. -/
theorem Step.id_cases {job' : Job} (move : Step node s turn s')
    (found : s'.jobs[i]? = some job') :
    (∃ job, s.jobs[i]? = some job ∧ job'.reader.client.id = job.reader.client.id) ∨
      job'.reader.client.id ∉ s.ids ∨ job'.reader.client.id = "" := by
  cases move.moved with
  | accepted proto transport =>
      obtain old | ⟨_, rfl⟩ := getElem?_append_singleton found
      · exact .inl ⟨job', old, rfl⟩
      · exact .inr (.inr rfl)
  | began there drawn _ begun =>
      obtain ⟨rfl, rfl⟩ | ⟨_, old⟩ := getElem?_set_of_some found
      · obtain kept | ⟨readings, same, new⟩ := (Reader.begin_begun begun).client.2
        · exact .inl ⟨_, there, kept⟩
        · exact .inr (.inl (new ▸ ((draw_cases drawn).2 readings same).2))
      · exact .inl ⟨job', old, rfl⟩
  | worked there ran =>
      obtain ⟨rfl, rfl⟩ | ⟨_, old⟩ := getElem?_set_of_some found
      · exact .inl ⟨_, there, (Op.exec_ran ran).client.1⟩
      · exact .inl ⟨job', old, rfl⟩
  | _ => exact .inl ⟨job', found, rfl⟩

/-- A session that is a subscriber after a turn was one before, or was about to become one. -/
theorem Step.subscriber_cases (registry : Registry s) (move : Step node s turn s') {job' : Job}
    (found : s'.jobs[i]? = some job')
    (mem : job'.reader.client.id ∈ s'.shared.world.hub.subscriberIds channel) :
    ∃ job, s.jobs[i]? = some job ∧ job'.reader.client.id = job.reader.client.id ∧
      (job.reader.client.id ∈ s.shared.world.hub.subscriberIds channel ∨
        .access (.subscribe job.reader.client.id channel) ∈ job.work) := by
  have seated := registry.seated
  have before : job'.reader.client.id ∈ s.shared.world.hub.subscriberIds channel ∨
      .subscribe job'.reader.client.id channel ∈ s.pending := move.mem_subscriberIds seated mem
  obtain ⟨j, other, there, authenticated, same⟩ : s.Known job'.reader.client.id := by
    obtain old | pending := before
    · exact registry.subs old
    · exact seated.known_of_subscribe pending
  have seat := seated.seat there
  have named := seat.named authenticated
  obtain ⟨job, there', kept⟩ | new | blank := move.id_cases found
  · refine ⟨job, there', kept, ?_⟩
    rw [kept] at before
    refine before.imp_right fun pending => ?_
    obtain ⟨k, owner, found', work, id⟩ := seated.owned pending rfl
    have place := seated.distinct found' there' id (id ▸ kept ▸ same ▸ named)
    subst place
    rw [there'] at found'
    cases found'
    exact work
  · exact absurd (same ▸ seat.drawn) new
  · exact absurd (same.trans blank) named

namespace Free

theorem initial (h : s.Initial) : s.Free node i channel := by
  obtain ⟨hash, ttl, verifier, rfl⟩ := h
  exact ⟨by simp, by simp⟩

theorem hub_step (h : s.Free node i channel) (registry : Registry s)
    (move : Step node s turn s') {job' : Job} (found : s'.jobs[i]? = some job') :
    job'.reader.client.id ∉ s'.shared.world.hub.subscriberIds channel := by
  intro mem
  obtain ⟨job, there, _, listed | entering⟩ := move.subscriber_cases registry found mem
  · exact h.hub there listed
  · exact (h.job there).work _ entering rfl

/-- The same for the session alone. -/
theorem job_step (h : ∀ {job}, s.jobs[i]? = some job → Job.Free node job channel)
    (move : Step node s turn s') :
    (∀ {job}, s'.jobs[i]? = some job → Job.Free node job channel) ∨
      Authorizes node s i channel turn := by
  cases move.moved with
  | accepted proto transport =>
      refine .inl fun found => ?_
      obtain old | ⟨_, rfl⟩ := getElem?_append_singleton found
      · exact h old
      · exact ⟨rfl, by simp⟩
  | @began j event reader reader' _ _ ops _ there _ prepared begun =>
      by_cases same : j = i
      · subst same
        have inside := (List.getElem?_eq_some_iff.mp there).1
        obtain free | authorizes := Job.Free.begin there (Reader.prepare_quiet prepared).2
          (Reader.begin_begun begun) (h there)
        · refine .inl fun found => ?_
          rw [List.getElem?_set_self inside] at found
          cases found
          exact free
        · exact .inr authorizes
      · refine .inl fun found => ?_
        rw [List.getElem?_set_ne same] at found
        exact h found
  | @worked j reader reader' op rest more _ there ran =>
      refine .inl fun found => ?_
      obtain ⟨rfl, rfl⟩ | ⟨_, old⟩ := getElem?_set_of_some found
      · exact (h there).exec (Op.exec_ran ran)
      · exact h old
  | _ => exact .inl h

/-- A session stays free of a channel until a command authorizes it. -/
theorem step (h : s.Free node i channel) (registry : Registry s) (move : Step node s turn s') :
    s'.Free node i channel ∨ Authorizes node s i channel turn :=
  (job_step h.job move).imp_left fun job => ⟨job, fun found => h.hub_step registry move found⟩

end Free

/-- In every run, what a session holds was authorized by its last command that could have
taken it, and it was not free of the channel since. -/
theorem channels_authorized {s₀ : Server} {turns : List Turn} {job : Job} (begin : s₀.Initial)
    (run : Steps (Step node) s₀ turns s) (found : s.jobs[i]? = some job)
    (held : job.reader.client.isSubscribed channel ∨
      job.reader.client.id ∈ s.shared.world.hub.subscriberIds channel) :
    ∃ front turn rest m m', turns = front ++ turn :: rest ∧ Steps (Step node) s₀ front m ∧
      Authorizes node m i channel turn ∧ Step node m turn m' ∧
      Steps (guarded (Step node) fun k _ => ¬ k.Free node i channel) m' rest s := by
  have outcome := run.kept_or_lost (fun k => Registry k ∧ k.Free node i channel)
    (fun k turn => Authorizes node k i channel turn)
    (fun k turn k' here move => (here.2.step here.1 move).imp_left fun free =>
      ⟨here.1.step move, free⟩) ⟨.initial begin, .initial begin⟩
  obtain ⟨_, free⟩ | ⟨front, turn, rest, m, m', split, before, authorizes, move, after⟩ := outcome
  · obtain subscribed | indexed := held
    · have unsubscribed := (free.job found).unsubscribed
      rw [subscribed] at unsubscribed
      cases unsubscribed
    · exact absurd indexed (free.hub found)
  · have registry : Registry m' :=
      (before.invariant Registry (fun _ _ _ here => here.step) (.initial begin)).step move
    refine ⟨front, turn, rest, m, m', split, before, authorizes, move, after.mono Registry
      (fun _ _ _ here move => here.step move.2) (fun _ _ _ here move => ⟨?_, move.2⟩) registry⟩
    exact fun free => move.1 ⟨here, free⟩

end Server

open Sample

/-- A session that has its subscription. -/
def Sample.joined : List Turn := joins 0 .protobuf "7c3d" ++ [.work 0]

theorem Server.channels_authorized_news : ∃ front turn rest m m',
    joined = front ++ turn :: rest ∧ Steps (Server.Step pressNode) started front m ∧
      Authorizes pressNode m 0 "news" turn ∧ Server.Step pressNode m turn m' ∧
      Steps (guarded (Server.Step pressNode) fun k _ => ¬ k.Free pressNode 0 "news") m' rest
        (after pressNode joined) := by
  have there : (after pressNode joined).jobs[0]?.isSome := by decide +kernel
  have held : (after pressNode joined).jobs.all fun job =>
      job.reader.client.isSubscribed "news" := by decide +kernel
  obtain ⟨job, found⟩ := Option.isSome_iff_exists.mp there
  exact channels_authorized started_initial (after_steps (by decide +kernel)) found
    (.inl (List.all_eq_true.mp held job (List.mem_of_getElem? found)))

end Centrifugo
