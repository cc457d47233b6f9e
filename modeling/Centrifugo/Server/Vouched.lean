import Centrifugo.Server.CurrentUser
import Centrifugo.Server.Disconnect
import Centrifugo.Server.Endpoints

/-!
# Who vouches for a user

An info names a client and its user. Infos stand in presence maps, in the publications of a
history, and in what is broadcast. A user other than the empty one is not named for a client
before somebody vouched for it: a token, the connect endpoint, or whoever brought the info from
outside of the sessions.
-/

namespace Centrifugo

open Server Guard

/-! ## What names a user -/

/-- The client and the user of an info meet a condition. -/
def ClientInfo.Meets (p : ClientId → String → Prop) (info : ClientInfo) : Prop :=
  p info.client info.user

def NodeMessage.info : NodeMessage → Option ClientInfo
  | .publication _ body => body.info
  | .join _ body | .leave _ body => some body

/-- The info that an access brings. -/
def Access.info : Access → Option ClientInfo
  | .addPresence _ _ info => some info
  | .append _ _ _ _ info => info
  | .fanOut message => message.info
  | _ => none

def Access.Meets (p : ClientId → String → Prop) (a : Access) : Prop :=
  ∀ info ∈ a.info, info.Meets p

/-- A registration is about to give the client its user. -/
def Op.Meets (p : ClientId → String → Prop) (id : ClientId) : Op → Prop
  | .access a => a.Meets p
  | .register _ _ creds => p id creds.user
  | _ => True

structure Job.Meets (p : ClientId → String → Prop) (job : Job) : Prop where
  client : p job.reader.client.id job.reader.client.user
  blank : job.reader.client.authenticated = false → job.reader.client.user = ""
  joins : ∀ join ∈ job.reader.client.pendingJoins, join.2.Meets p
  work : ∀ op ∈ job.work, op.Meets p job.reader.client.id

/-- The infos of the publications that a history keeps. -/
def History.Meets (p : ClientId → String → Prop) (hist : History) : Prop :=
  ∀ channel stream, hist.lookup channel = some stream →
    ∀ publication ∈ stream.pubs, ∀ info ∈ publication.info, info.Meets p

structure Shared.Meets (p : ClientId → String → Prop) (s : Shared) : Prop where
  presence : ∀ {channel id info},
    (s.world.engine.presenceOf channel).lookup id = some info → info.Meets p
  history : s.world.engine.history.Meets p
  copied : ∀ {message handles}, .copied message handles ∈ s.log →
    ∀ info ∈ message.info, info.Meets p

structure Server.Meets (p : ClientId → String → Prop) (s : Server) : Prop where
  jobs : ∀ {i : Nat} {job : Job}, s.jobs[i]? = some job → job.Meets p
  tasks : ∀ task ∈ s.tasks, ∀ a ∈ task, a.Meets p
  shared : s.shared.Meets p

variable {p : ClientId → String → Prop} {node : Node}

/-! ## Accesses -/

namespace History

variable {hist : History} {clock : Clock} {channel : String}

theorem Meets.erase (h : hist.Meets p) : Meets p (hist.erase channel) := by
  intro other stream found
  rw [Map.lookup_erase_eq] at found
  split at found
  next => cases found
  next => exact h other stream found

theorem Meets.insert (h : hist.Meets p) {stream : Stream}
    (all : ∀ publication ∈ stream.pubs, ∀ info ∈ publication.info, info.Meets p) :
    Meets p (hist.insert channel stream) := by
  intro other stream' found
  rw [Map.lookup_insert_eq] at found
  split at found
  next =>
    cases found
    exact all
  next => exact h other stream' found

theorem Meets.evict (h : hist.Meets p) :
    Meets p (MemoryEngine.evictIfExpired clock hist channel) := by
  unfold MemoryEngine.evictIfExpired
  split
  next => exact h
  next stream found =>
    split
    · exact h.erase
    split
    · refine h.insert ?_
      intro publication mem
      cases mem
    · exact h

theorem Meets.streamAt (h : hist.Meets p) (epoch : String) :
    ∀ publication ∈ (MemoryEngine.streamAt clock epoch hist channel).pubs,
      ∀ info ∈ publication.info, info.Meets p := by
  unfold MemoryEngine.streamAt
  cases found : (MemoryEngine.evictIfExpired clock hist channel).lookup channel with
  | none =>
      intro publication mem
      cases mem
  | some stream => exact h.evict channel stream found

end History

namespace MemoryEngine

variable {engine : MemoryEngine} {clock : Clock} {fresh channel : String}

theorem meets_touch (h : engine.history.Meets p) :
    (engine.touch clock fresh channel).1.history.Meets p :=
  h.evict.insert (h.streamAt fresh)

theorem meets_append (h : engine.history.Meets p) {data : Raw} {info : Option ClientInfo}
    {opts : PublishOptions} (meets : ∀ i ∈ info, i.Meets p) :
    (engine.append clock fresh channel data info opts).1.history.Meets p := by
  unfold append
  split
  · refine h.evict.insert ?_
    intro publication mem
    obtain old | new := List.mem_append.mp (List.mem_of_mem_drop mem)
    · exact h.streamAt fresh publication old
    · rw [List.mem_singleton.mp new]
      exact meets
  · exact h

theorem info_append (engine : MemoryEngine) (clock : Clock) (fresh channel : String) (data : Raw)
    (info : Option ClientInfo) (opts : PublishOptions) :
    (engine.append clock fresh channel data info opts).2.info = info := by
  unfold append
  split
  · rfl
  · rfl

end MemoryEngine

namespace Access

variable {a b : Access} {s : Shared}

/-- What follows from an access brings no other info. -/
theorem Meets.more (h : a.Meets p) (mem : b ∈ a.more node s) : b.Meets p := by
  cases follows_of_mem mem with
  | route =>
      intro info mem
      refine h info ?_
      rwa [Access.info, NodeMessage.info, MemoryEngine.info_append] at mem
  | _ => exact nofun

theorem history_engine (h : s.world.engine.history.Meets p) (meets : a.Meets p) :
    (a.engine node s.world.engine).history.Meets p := by
  cases a with
  | append _ _ _ _ _ => exact MemoryEngine.meets_append h meets
  | readHistory _ _ _ => exact MemoryEngine.meets_touch h
  | removeHistory _ => exact h.erase
  | _ => exact h

theorem presence_engine {channel : String} {id : ClientId} {info : ClientInfo}
    (found : ((a.engine node s.world.engine).presenceOf channel).lookup id = some info) :
    (s.world.engine.presenceOf channel).lookup id = some info ∨ info ∈ a.info := by
  cases a with
  | addPresence _ _ _ =>
      rw [engine, MemoryEngine.lookup_addPresence] at found
      split at found
      next => exact .inr found
      next => exact .inl found
  | removePresence _ _ =>
      rw [engine, MemoryEngine.lookup_removePresence] at found
      split at found
      next => cases found
      next => exact .inl found
  | append _ _ _ _ _ =>
      rw [engine, MemoryEngine.presenceOf, MemoryEngine.presence_append] at found
      exact .inl found
  | _ => exact .inl found

theorem copied_facts {message : NodeMessage} {handles : List ClientHandle}
    (mem : .copied message handles ∈ a.facts s) : a.info = message.info := by
  unfold facts at mem
  split at mem
  all_goals simp only [List.mem_singleton, List.mem_map, reduceCtorEq, and_false, exists_false,
    List.not_mem_nil] at mem
  cases mem
  rfl

end Access

namespace Shared.Meets

variable {s s' : Shared}

theorem perform (h : s.Meets p) {a : Access} (meets : a.Meets p) : (a.perform node s).Meets p := by
  refine ⟨?_, Access.history_engine h.history meets, ?_⟩
  · intro channel id info found
    obtain old | new := Access.presence_engine found
    · exact h.presence old
    · exact meets info new
  · intro message handles mem info brought
    obtain old | new := List.mem_append.mp mem
    · exact h.copied old info brought
    · exact meets info (Access.copied_facts new ▸ brought)

theorem quiet (h : s.Meets p) (quiet : s.Quiet s') : s'.Meets p := by
  obtain ⟨facts, log, aside⟩ := quiet.log
  refine ⟨?_, ?_, ?_⟩
  · intro channel id info found
    rw [MemoryEngine.presenceOf, quiet.presence] at found
    exact h.presence found
  · have read := quiet.engine
    generalize s'.world.engine = engine at read
    cases read with
    | nothing => exact h.history
    | history clock fresh channel => exact MemoryEngine.meets_touch h.history
  · intro message handles mem info brought
    rw [log] at mem
    obtain old | new := List.mem_append.mp mem
    · exact h.copied old info brought
    · cases aside _ new

end Shared.Meets

/-! ## What a session signs -/

namespace Client

variable (client : Client) {channel : String} {state : SubState} {a : Access}

/-- The access brings at most an info of this client. -/
def Signs (client : Client) (a : Access) : Prop :=
  ∀ info ∈ a.info, info.client = client.id ∧ info.user = client.user

variable {client} in
theorem Signs.meets (h : client.Signs a) (meets : p client.id client.user) : a.Meets p := by
  intro info brought
  obtain ⟨same, user⟩ := h info brought
  rw [ClientInfo.Meets, same, user]
  exact meets

theorem signs_subscribing (mem : a ∈ client.subscribing channel state) : client.Signs a := by
  unfold subscribing at mem
  obtain rfl | later := List.mem_cons.mp mem
  · exact nofun
  · split at later
    next =>
      rw [List.mem_singleton.mp later]
      intro info brought
      cases brought
      exact ⟨rfl, rfl⟩
    next => cases later

theorem signs_leaving (mem : a ∈ client.leaving channel state) : client.Signs a := by
  unfold leaving at mem
  obtain mem | mem := List.mem_append.mp mem <;> split at mem
  · rw [List.mem_singleton.mp mem]
    exact nofun
  · cases mem
  · rw [List.mem_singleton.mp mem]
    intro info brought
    cases brought
    exact ⟨rfl, rfl⟩
  · cases mem

theorem signs_unsubscribing (mem : a ∈ (client.unsubscribing channel).2) : client.Signs a := by
  unfold unsubscribing at mem
  split at mem
  next => cases mem
  next =>
    obtain leaving | removal := List.mem_append.mp mem
    · exact client.signs_leaving leaving
    · rw [List.mem_singleton.mp removal]
      exact nofun

theorem signs_disconnecting (mem : a ∈ client.disconnecting.2) : client.Signs a := by
  obtain leaving | removal := List.mem_append.mp mem
  · obtain ⟨entry, _, inside⟩ := List.mem_flatMap.mp leaving
    exact client.signs_leaving inside
  · rw [List.mem_singleton.mp removal]
    exact nofun

theorem signs_refreshing (mem : a ∈ client.refreshing) : client.Signs a := by
  unfold refreshing at mem
  split at mem
  next =>
    obtain ⟨entry, _, rfl⟩ := List.mem_map.mp mem
    intro info brought
    cases brought
    exact ⟨rfl, rfl⟩
  next => cases mem

/-- Dropping a channel leaves the client what it is. -/
theorem joins_unsubscribing (channel : String) :
    (client.unsubscribing channel).1.pendingJoins = client.pendingJoins := by
  unfold unsubscribing
  split
  next => rfl
  next => rfl

end Client

theorem Session.Effect.joins {s : Session} {readings : Readings} {cmd : Command}
    {after : Session × CommandOutcome} (effect : Effect s node readings cmd after)
    (method : cmd.method.Instant) : after.1.client.pendingJoins = s.client.pendingJoins := by
  cases effect with
  | refreshed ct _ _ _ =>
      rw [applyRefresh_client]
      rfl
  | subRefreshed channel token _ _ _ =>
      rw [applySubRefresh_session]
      rfl
  | identified _ connect => exact absurd (by simp [connect]) method
  | connected _ _ connect _ _ => exact absurd (by simp [connect]) method
  | subscribed _ _ _ subscribe _ _ => exact absurd (by simp [subscribe]) method
  | published _ _ publish _ _ => exact absurd (by simp [publish]) method
  | unsubscribed _ unsubscribe _ _ => exact absurd (by simp [unsubscribe]) method
  | _ => rfl

theorem Reader.Begun.joins {r r' : Reader} {s s' : Shared} {event : Event} {ops : List Op}
    (h : Begun node r s event r' s' ops) :
    ∀ join ∈ r'.client.pendingJoins, join ∈ r.client.pendingJoins := by
  intro join mem
  cases h with
  | settled _ _ connInfo expireAt client =>
      rw [client] at mem
      exact mem
  | command readings cmd cmds replies _ commanded =>
      cases commanded with
      | unsubscribing channel _ => exact r.client.joins_unsubscribing channel ▸ mem
      | instant after _ method effect => exact effect.joins method ▸ mem
      | _ => exact mem
  | flushed _ _ _ => cases mem
  | _ => exact mem

/-- Nobody gets a user by an event before the registration. -/
theorem Reader.Begun.user_of_fresh {r r' : Reader} {s s' : Shared} {event : Event} {ops : List Op}
    (h : Begun node r s event r' s' ops) (fresh : r.client.authenticated = false) :
    r'.client.user = r.client.user := by
  cases h with
  | settled _ _ connInfo expireAt client => rw [client]
  | command readings cmd cmds replies _ commanded =>
      cases commanded with
      | unsubscribing channel _ => exact r.client.user_unsubscribing channel
      | instant after authenticated _ _ =>
          have known : r.client.authenticated := authenticated
          rw [fresh] at known
          cases known
      | _ => rfl
  | _ => rfl

namespace Job.Meets

variable {reader reader' : Reader} {shared shared' : Shared}

theorem accesses {accesses : List Access} {id : ClientId} (all : ∀ a ∈ accesses, a.Meets p) :
    ∀ op ∈ accesses.map Op.access, op.Meets p id := by
  intro op mem
  obtain ⟨a, inside, rfl⟩ := List.mem_map.mp mem
  exact all a inside

/-- The user that an event gives to a session has to meet the condition. -/
theorem begin {event : Event} {ops : List Op} (h : Job.Meets p ⟨reader, []⟩)
    (nobody : ∀ id, p id "") (begun : reader.Begun node shared event reader' shared' ops)
    (connects : ∀ {readings cmd cmds replies req creds}, event = .command readings →
      reader.phase = .batch (cmd :: cmds) replies →
      (reader.session shared).parseConnect node cmd = .ok req →
      ((reader.session shared).identify readings.uuid).checkConnect node readings req = .ok creds →
        p readings.uuid creds.user)
    (refreshes : ∀ {readings cmd cmds replies ct}, event = .command readings →
      reader.phase = .batch (cmd :: cmds) replies → reader.client.authenticated →
      cmd.method = .refresh → (reader.session shared).checkRefresh node readings cmd = .ok ct →
        p reader.client.id ct.user) : Job.Meets p ⟨reader', ops⟩ := by
  have own : p reader.client.id reader.client.user := h.client
  refine ⟨?_, ?_, fun join mem => h.joins join (begun.joins join mem), ?_⟩
  · show p reader'.client.id reader'.client.user
    cases known : reader.client.authenticated with
    | false =>
        rw [begun.user_of_fresh known, h.blank known]
        exact nobody _
    | true =>
        rw [begun.client.1.id known]
        obtain same | ⟨readings, cmd, cmds, replies, ct, event, phase, refresh, checked, user⟩ :=
          begun.user
        · exact same ▸ own
        · rw [user]
          split
          · exact refreshes event phase known refresh checked
          · exact own
  · intro fresh
    have fresh : reader.client.authenticated = false := begun.authenticated ▸ fresh
    exact (begun.user_of_fresh fresh).trans (h.blank fresh)
  · intro op mem
    cases begun with
    | settled _ _ _ _ _ => cases mem
    | closing _ _ _ _ =>
        rw [List.mem_singleton.mp mem]
        exact nofun
    | pinged _ =>
        exact accesses (fun a inside => (reader.client.signs_refreshing inside).meets own) op mem
    | dropping _ channels _ =>
        obtain ⟨channel, _, rfl⟩ := List.mem_map.mp mem
        trivial
    | command readings cmd cmds replies phase commanded =>
        cases commanded with
        | connecting req creds parsed checked =>
            rw [List.mem_singleton.mp mem]
            exact connects rfl phase parsed checked
        | subscribing req opts grant _ _ =>
            obtain mem | mem := List.mem_append.mp mem
            · exact accesses
                (fun a inside => (reader.client.signs_subscribing inside).meets own) op mem
            · rw [List.mem_singleton.mp mem]
              trivial
        | publishing channel data _ _ =>
            obtain rfl | mem := List.mem_cons.mp mem
            · intro info brought
              cases brought
              exact own
            · rw [List.mem_singleton.mp mem]
              trivial
        | unsubscribing channel _ =>
            obtain mem | mem := List.mem_append.mp mem
            · exact accesses
                (fun a inside => (reader.client.signs_unsubscribing inside).meets own) op mem
            · rw [List.mem_singleton.mp mem]
              trivial
        | _ => cases mem
    | replied _ _ _ _ => cases mem
    | flushed disconnect _ _ =>
        obtain mem | mem := List.mem_append.mp mem
        · refine accesses (fun a inside => ?_) op mem
          obtain ⟨message, waiting, rfl⟩ := List.mem_map.mp inside
          obtain ⟨join, there, rfl⟩ := List.mem_map.mp waiting
          intro info brought
          cases brought
          exact h.joins join there
        · obtain ⟨d, _, rfl⟩ := Option.map_eq_some_iff.mp (Option.mem_toList.mp mem)
          exact nofun
    | left _ =>
        exact accesses (fun a inside => (reader.client.signs_disconnecting inside).meets own) op mem

theorem exec {op : Op} {rest more : List Op} (h : Job.Meets p ⟨reader, op :: rest⟩)
    (ran : op.Ran node reader shared reader' shared' more) :
    Job.Meets p ⟨reader', more ++ rest⟩ := by
  have own : p reader.client.id reader.client.user := h.client
  have now : op.Meets p reader.client.id := h.work op List.mem_cons_self
  have same : reader'.client.id = reader.client.id := ran.client.1
  refine ⟨?_, ?_, ?_, ?_⟩
  · show p reader'.client.id reader'.client.user
    rw [same]
    obtain kept | ⟨readings, cmd, creds, rfl⟩ := ran.user
    · exact kept ▸ own
    · cases ran with
      | overLimit _ _ _ _ => exact now
      | registering _ _ _ _ granted =>
          subst granted
          exact now
  · intro fresh
    obtain kept | ⟨readings, cmd, creds, rfl⟩ := ran.authenticated
    · obtain user | ⟨readings, cmd, creds, rfl⟩ := ran.user
      · exact user.trans (h.blank (kept ▸ fresh))
      · cases ran with
        | overLimit _ _ _ _ => cases fresh
        | registering _ _ _ _ granted =>
            subst granted
            cases fresh
    · cases ran with
      | overLimit _ _ _ _ => cases fresh
      | registering _ _ _ _ granted =>
          subst granted
          cases fresh
  · intro join mem
    cases ran with
    | registering _ _ _ _ granted =>
        subst granted
        exact h.joins join mem
    | reported _ _ _ _ _ channel _ after read =>
        subst read
        rw [Reader.resume_client, Session.report_client] at mem
        obtain old | new := List.mem_append.mp mem
        · exact h.joins join old
        · split at new
          next =>
            rw [List.mem_singleton.mp new]
            exact own
          next => cases new
    | subscribed _ _ req opts _ after finished =>
        subst finished
        rw [Reader.answer_client, Reader.resume_client, Session.finishSubscribe_client] at mem
        obtain old | new := List.mem_append.mp mem
        · exact h.joins join old
        · split at new
          next =>
            rw [List.mem_singleton.mp new]
            exact own
          next => cases new
    | unsubscribed channel _ _ _ =>
        exact h.joins join (reader.client.joins_unsubscribing channel ▸ mem)
    | _ => exact h.joins join mem
  · intro next mem
    rw [show (⟨reader', more ++ rest⟩ : Job).reader.client.id = reader.client.id from same]
    obtain new | old := List.mem_append.mp mem
    · cases ran with
      | accessed performed =>
          obtain ⟨_, rfl⟩ := Access.exec_eq performed
          exact accesses (fun b inside => Access.Meets.more now inside) next new
      | registering _ _ _ _ _ =>
          simp only [List.mem_cons, List.not_mem_nil, or_false] at new
          obtain rfl | rfl | rfl := new
          · exact nofun
          · exact nofun
          · trivial
      | joining _ _ _ _ _ channel _ =>
          obtain new | new := List.mem_append.mp new
          · exact accesses
              (fun a inside => (reader.client.signs_subscribing inside).meets own) next new
          · rw [List.mem_singleton.mp new]
            trivial
      | reported _ _ _ _ _ _ _ _ _ =>
          rw [List.mem_singleton.mp new]
          trivial
      | unsubscribed channel _ push pushed =>
          refine accesses (fun a inside => ?_) next new
          obtain leaving | pushing := List.mem_append.mp inside
          · exact (reader.client.signs_unsubscribing leaving).meets own
          · obtain rfl | ⟨tx, rfl⟩ := pushed
            · cases pushing
            · rw [List.mem_singleton.mp pushing]
              exact nofun
      | _ => cases new
    · exact h.work next (List.mem_cons_of_mem _ old)

end Job.Meets

/-! ## Who vouches -/

section

variable (format : Json.FloatFormat) (base64 : Base64) (node : Node) (settings : Settings)
  (http : String → ProxyHttp.Endpoint)

/-- The turn vouches for the user of a client. -/
inductive Vouches (s : Server) (id : ClientId) (user : String) : Turn → Prop
  /-- The client connects with a token of the user. -/
  | token {i : Nat} {reader : Reader} {readings : Readings} {cmd : Command} {cmds : List Command}
      {replies : List (Reply Result)} {req : ConnectRequest} {ct : ConnectToken}
      (found : s.jobs[i]? = some ⟨reader, []⟩) (phase : reader.phase = .batch (cmd :: cmds) replies)
      (first : reader.client.authenticated = false)
      (parsed : parseParams node.decoders.connect {} reader.client.proto cmd.params = some req)
      (present : req.token ≠ "") (verified :
        s.shared.world.verifier.verifyConnectToken readings.verifiedAt req.token = .ok ct)
      (drawn : readings.uuid = id) (named : ct.user = user) :
      Vouches s id user (.event i (.command readings))
  /-- The client connects without a token, and the connect endpoint knows the user. -/
  | endpoint {i : Nat} {reader : Reader} {readings : Readings} {cmd : Command}
      {cmds : List Command} {replies : List (Reply Result)} {req : ConnectRequest}
      {result : ProxyHttp.ConnectResult}
      (found : s.jobs[i]? = some ⟨reader, []⟩) (phase : reader.phase = .batch (cmd :: cmds) replies)
      (first : reader.client.authenticated = false)
      (parsed : parseParams node.decoders.connect {} reader.client.proto cmd.params = some req)
      (absent : req.token = "") (configured : settings.proxyConnectEndpoint ≠ "")
      (granted : ProxyHttp.Grants ProxyHttp.connectResult (http settings.proxyConnectEndpoint)
        readings.attempt (ProxyHttp.connectBody format base64
          ((reader.session s.shared).connectProxyRequest id req)) result)
      (drawn : readings.uuid = id) (named : result.user = user) :
      Vouches s id user (.event i (.command readings))
  /-- The client refreshes its connection with a token of the user. -/
  | refresh {i : Nat} {reader : Reader} {readings : Readings} {cmd : Command} {cmds : List Command}
      {replies : List (Reply Result)} {req : RefreshRequest} {ct : ConnectToken}
      (found : s.jobs[i]? = some ⟨reader, []⟩) (phase : reader.phase = .batch (cmd :: cmds) replies)
      (authenticated : reader.client.authenticated) (method : cmd.method = .refresh)
      (parsed : parseParams node.decoders.refresh {} reader.client.proto cmd.params = some req)
      (present : req.token ≠ "") (verified :
        s.shared.world.verifier.verifyConnectToken readings.verifiedAt req.token = .ok ct)
      (same : reader.client.id = id) (named : ct.user = user) :
      Vouches s id user (.event i (.command readings))
  /-- Another node or the server API brings the info. -/
  | outside {a : Access} {info : ClientInfo} (external : a.external) (brought : info ∈ a.info)
      (same : info.client = id) (named : info.user = user) : Vouches s id user (.spawn a)

end

/-- A session, a presence map, a history or a broadcast names the user for the client. -/
inductive Server.Shows (s : Server) (id : ClientId) (user : String) : Prop
  | session {i : Nat} {job : Job} (found : s.jobs[i]? = some job)
      (same : job.reader.client.id = id) (named : job.reader.client.user = user)
  | present {channel : String} {key : ClientId} {info : ClientInfo}
      (found : (s.shared.world.engine.presenceOf channel).lookup key = some info)
      (same : info.client = id) (named : info.user = user)
  | kept {channel : String} {stream : Stream} {publication : Publication} {info : ClientInfo}
      (found : s.shared.world.engine.history.lookup channel = some stream)
      (mem : publication ∈ stream.pubs) (brought : info ∈ publication.info)
      (same : info.client = id) (named : info.user = user)
  | sent {message : NodeMessage} {handles : List ClientHandle} {info : ClientInfo}
      (copied : .copied message handles ∈ s.shared.log) (brought : info ∈ message.info)
      (same : info.client = id) (named : info.user = user)

namespace Session

variable {format : Json.FloatFormat} {base64 : Base64} {settings : Settings}
  {http : String → ProxyHttp.Endpoint} {s : Session} {readings : Readings}

/-- Where the user of a CONNECT that passes its checks comes from. -/
theorem user_of_checkConnect
    (wired : node.proxies = ProxyHttp.buildProxies format base64 settings http)
    {req : ConnectRequest} {creds : Creds}
    (checked : (s.identify readings.uuid).checkConnect node readings req = .ok creds) :
    creds.user = "" ∨
      (∃ ct, req.token ≠ "" ∧
        s.world.verifier.verifyConnectToken readings.verifiedAt req.token = .ok ct ∧
          ct.user = creds.user) ∨
      ∃ result, req.token = "" ∧ settings.proxyConnectEndpoint ≠ "" ∧
        ProxyHttp.Grants ProxyHttp.connectResult (http settings.proxyConnectEndpoint)
          readings.attempt (ProxyHttp.connectBody format base64
            (s.connectProxyRequest readings.uuid req)) result ∧ result.user = creds.user := by
  obtain ⟨established, verified, rfl | ⟨-, rfl⟩⟩ := checkConnect_ok checked
  · right
    unfold connectCreds at verified
    split at verified
    next present =>
      split at verified
      next ct token =>
        cases verified
        exact .inl ⟨ct, present, token, rfl⟩
      next => cases verified
      next => cases verified
    next absent =>
      split at verified
      next => cases verified
      next proxy configured =>
        rw [wired] at configured
        obtain ⟨named, rfl⟩ := ProxyHttp.connect_buildProxies configured
        split at verified <;> cases verified
        next granted =>
          obtain ⟨result, grants, user⟩ := ProxyHttp.connect_credentials granted
          exact .inr ⟨result, not_not.mp absent, named, grants, user.symm⟩
  · exact .inl rfl

theorem token_of_checkRefresh {cmd : Command} {ct : ConnectToken}
    (checked : s.checkRefresh node readings cmd = .ok ct) :
    ∃ req, parseParams node.decoders.refresh {} s.client.proto cmd.params = some req ∧
      req.token ≠ "" ∧
        s.world.verifier.verifyConnectToken readings.verifiedAt req.token = .ok ct := by
  simp only [checkRefresh, require_bind, demand_bind] at checked
  obtain ⟨req, parsed, present, -, checked⟩ := checked
  split at checked <;> cases checked
  exact ⟨req, parsed, of_decide_eq_true present, by assumption⟩

end Session

namespace Server

variable {format : Json.FloatFormat} {base64 : Base64} {settings : Settings}
  {http : String → ProxyHttp.Endpoint} {s s' : Server} {turn : Turn}

/-- What all names in a node meet, they meet after a turn when the names that it vouches for do. -/
theorem Meets.jobs_step (h : s.Meets p) (nobody : ∀ id, p id "")
    (wired : node.proxies = ProxyHttp.buildProxies format base64 settings http)
    (vouched : ∀ {id user}, Vouches format base64 node settings http s id user turn → p id user)
    (move : Step node s turn s') {i : Nat} {job : Job} (found : s'.jobs[i]? = some job) :
    job.Meets p := by
  cases move.became found with
  | accepted _ _ _ =>
      exact ⟨nobody _, fun _ => rfl, List.forall_mem_nil _, List.forall_mem_nil _⟩
  | @began event reader reader' shared _ ops there prepared begun =>
      have same : reader.session shared = reader.session s.shared := by
        rw [Reader.session, Reader.session, (Reader.prepare_quiet prepared).2]
      refine (h.jobs there).begin nobody (Reader.begin_begun begun) ?_ ?_
      · rintro readings cmd cmds replies req creds rfl phase parsed checked
        obtain ⟨first, parsed⟩ := Session.parseConnect_ok parsed
        rw [same] at checked
        obtain anonymous | ⟨ct, present, verified, named⟩ |
          ⟨result, absent, configured, granted, named⟩ := Session.user_of_checkConnect wired checked
        · exact anonymous ▸ nobody _
        · exact vouched (.token there phase first parsed present verified rfl named)
        · exact vouched (.endpoint there phase first parsed absent configured granted rfl named)
      · rintro readings cmd cmds replies ct rfl phase authenticated method checked
        rw [same] at checked
        obtain ⟨req, parsed, present, verified⟩ := Session.token_of_checkRefresh checked
        exact vouched (.refresh there phase authenticated method parsed present verified rfl rfl)
  | worked there ran => exact (h.jobs there).exec (Op.exec_ran ran)
  | stayed there => exact h.jobs there

theorem Meets.tasks_step (h : s.Meets p)
    (vouched : ∀ {id user}, Vouches format base64 node settings http s id user turn → p id user)
    (move : Step node s turn s') : ∀ task ∈ s'.tasks, ∀ a ∈ task, a.Meets p := by
  cases move.moved with
  | spawned external =>
      intro task mem a inside
      obtain old | new := List.mem_append.mp mem
      · exact h.tasks task old a inside
      · rw [List.mem_singleton.mp new] at inside
        rw [List.mem_singleton.mp inside]
        intro info brought
        exact vouched (.outside external brought rfl rfl)
  | @advanced k a rest more shared' there ran =>
      obtain ⟨_, rfl⟩ := Access.exec_eq ran
      have running := h.tasks _ (List.mem_of_getElem? there)
      intro task mem b inside
      obtain old | rfl := List.mem_or_eq_of_mem_set mem
      · exact h.tasks task old b inside
      · obtain new | old := List.mem_append.mp inside
        · exact (running a List.mem_cons_self).more new
        · exact running b (List.mem_cons_of_mem _ old)
  | _ => exact h.tasks

theorem Meets.shared_step (h : s.Meets p) (move : Step node s turn s') : s'.shared.Meets p := by
  cases move.moved with
  | began there _ prepared begun =>
      obtain ⟨quiet, world⟩ := Reader.prepare_quiet prepared
      exact h.shared.quiet (quiet.trans world (Reader.begin_begun begun).quiet)
  | @worked i reader reader' op rest more shared' there ran =>
      cases op with
      | access a =>
          obtain ⟨⟨shared'', accesses⟩, performed, same⟩ := Option.map_eq_some_iff.mp ran
          cases same
          obtain ⟨rfl, _⟩ := Access.exec_eq performed
          exact h.shared.perform ((h.jobs there).work _ List.mem_cons_self)
      | _ =>
          obtain ⟨reads, -, log⟩ := (Op.exec_ran ran).reads rfl
          exact h.shared.quiet (.of_reads reads log)
  | @advanced k a rest more shared' there ran =>
      obtain ⟨rfl, _⟩ := Access.exec_eq ran
      exact h.shared.perform (h.tasks _ (List.mem_of_getElem? there) a List.mem_cons_self)
  | @slowClosed tx _ _ =>
      obtain ⟨hub, engine⟩ := s.shared.world.send_hub tx (.close .slow)
      refine h.shared.quiet ⟨hub, ?_, [], (List.append_nil _).symm, List.forall_mem_nil _⟩
      show s.shared.world.engine.Reads (s.shared.world.send tx (.close .slow)).engine
      rw [engine]
      exact .nothing
  | _ => exact ⟨h.shared.presence, h.shared.history, h.shared.copied⟩

theorem Meets.step (h : s.Meets p) (nobody : ∀ id, p id "")
    (wired : node.proxies = ProxyHttp.buildProxies format base64 settings http)
    (vouched : ∀ {id user}, Vouches format base64 node settings http s id user turn → p id user)
    (move : Step node s turn s') : s'.Meets p :=
  ⟨h.jobs_step nobody wired vouched move, h.tasks_step vouched move, h.shared_step move⟩

theorem Meets.initial (h : s.Initial) : s.Meets p := by
  obtain ⟨hash, ttl, verifier, rfl⟩ := h
  refine ⟨?_, List.forall_mem_nil _, ?_, ?_, ?_⟩
  · intro i job found
    cases found
  · intro channel id info found
    cases found
  · intro channel stream found
    cases found
  · intro message handles copied
    cases copied

/-- In every run, a user is named for a client only after a turn that vouches for it. -/
theorem user_vouched (wired : node.proxies = ProxyHttp.buildProxies format base64 settings http)
    {s₀ : Server} {turns : List Turn} (begin : s₀.Initial) (run : Steps (Step node) s₀ turns s)
    {id : ClientId} {user : String} (somebody : user ≠ "") (shown : s.Shows id user) :
    ∃ front turn rest m, turns = front ++ turn :: rest ∧ Steps (Step node) s₀ front m ∧
      Vouches format base64 node settings http m id user turn := by
  have nobody : ∀ other, ¬ (other = id ∧ "" = user) := fun _ same => somebody same.2.symm
  obtain unnamed | vouched := run.kept_or_exists
    (Meets fun other name => ¬ (other = id ∧ name = user))
    (fun m turn => Vouches format base64 node settings http m id user turn) (by
      intro m turn m' here move
      by_cases vouches : Vouches format base64 node settings http m id user turn
      · exact .inr vouches
      · refine .inl (here.step nobody wired ?_ move)
        rintro other name vouched ⟨rfl, rfl⟩
        exact vouches vouched) (.initial begin)
  · exfalso
    cases shown with
    | session found same named => exact (unnamed.jobs found).client ⟨same, named⟩
    | present found same named => exact unnamed.shared.presence found ⟨same, named⟩
    | kept found mem brought same named =>
        exact unnamed.shared.history _ _ found _ mem _ brought ⟨same, named⟩
    | sent copied brought same named => exact unnamed.shared.copied copied _ brought ⟨same, named⟩
  · exact vouched

end Server

/-! ## An endpoint that knows a user -/

namespace Sample

def knowing : ProxyHttp.Endpoint :=
  fun _ _ => some "\x7b\"result\":\x7b\"user\":\"42\",\"channels\":[\"news\"]\x7d\x7d".toList

def connectSettings : Settings :=
  Settings.fromArgs { defaultArgs with proxyConnectEndpoint := "http://localhost:3000/connect" }

def knowingNode : Node :=
  { openNode with
    proxies := ProxyHttp.buildProxies ProxyHttp.Sample.tenth ProxyHttp.Sample.bytewise
      connectSettings fun _ => knowing }

end Sample

open Sample in
theorem Server.user_vouched_visiting : ∃ front turn rest m, visiting = front ++ turn :: rest ∧
    Steps (Server.Step knowingNode) started front m ∧
      Vouches ProxyHttp.Sample.tenth ProxyHttp.Sample.bytewise knowingNode connectSettings
        (fun _ => knowing) m "2a1f" "42" turn := by
  have present : ((after knowingNode visiting).shared.world.engine.presenceOf "news").lookup
      "2a1f" = some { user := "42", client := "2a1f" } := rfl
  exact user_vouched rfl started_initial (after_steps rfl) (by decide)
    (.present present rfl rfl)

end Centrifugo
