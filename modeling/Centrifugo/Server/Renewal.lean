import Centrifugo.Server.CurrentUser
import Centrifugo.Server.Disconnect
import Centrifugo.Server.Endpoints

/-!
# Connections that the refresh endpoint renews

With a refresh endpoint a client cannot renew its connection itself. Its session asks the endpoint
at each expiry tick from shortly before the deadline on. Only a result with a new deadline moves
the deadline, and a due tick without one starts to close the connection.
-/

namespace Centrifugo

open Server Guard

/-! ## What an expiry tick does -/

section

variable (format : Json.FloatFormat) (node : Node) (settings : Settings)
  (http : String → ProxyHttp.Endpoint)

/-- The deadline of a client is near enough to ask the endpoint. -/
def Client.Due (client : Client) (node : Node) (readings : Readings) : Prop :=
  i64 (client.expireAt - readings.checkedAt.seconds) ≤ i64 node.presencePingInterval

/-- The refresh endpoint gives a client a new deadline. -/
def Prolongs (client : Client) (readings : Readings) (deadline : Int) : Prop :=
  client.Due node readings ∧ 0 < deadline ∧
    ∃ result, ProxyHttp.Grants ProxyHttp.refreshResult (http settings.proxyRefreshEndpoint)
      readings.attempt (ProxyHttp.refreshBody format client.proxyRequest) result ∧
        result.expired = false ∧ result.expireAt = deadline

/-- The outcomes of a tick for the deadline: it is not due, the connection is to be closed, or it
is renewed with some seconds remaining. -/
inductive Session.Ticked (s : Session) (readings : Readings) : Session × Option Disconnect → Prop
  | early {after : Session × Option Disconnect} (far : ¬ s.client.Due node readings)
      (same : after = (s, none)) : Session.Ticked s readings after
  | closed {after : Session × Option Disconnect} (disconnect : Disconnect)
      (same : after.2 = some disconnect) (kept : after.1.client.expireAt = s.client.expireAt ∨
        Prolongs format node settings http s.client readings after.1.client.expireAt) :
      Session.Ticked s readings after
  | renewed {after : Session × Option Disconnect} (open' : after.2 = none)
      (renews : Prolongs format node settings http s.client readings after.1.client.expireAt)
      (ahead : 0 < i64 (after.1.client.expireAt - readings.repliedAt.seconds)) :
      Session.Ticked s readings after

end

variable {format : Json.FloatFormat} {base64 : Base64} {node : Node} {settings : Settings}
  {http : String → ProxyHttp.Endpoint}

theorem Session.proactiveRefresh_ticked {s : Session}
    (wired : node.proxies = ProxyHttp.buildProxies format base64 settings http)
    (named : settings.proxyRefreshEndpoint ≠ "") (authenticated : s.client.authenticated)
    (expiring : 0 < s.client.expireAt) (readings : Readings) :
    s.Ticked format node settings http readings (s.proactiveRefresh node readings) := by
  have proxy : node.proxies.refresh =
      some (ProxyHttp.refresh format base64 (http settings.proxyRefreshEndpoint)) := by
    rw [wired]
    exact ProxyHttp.refresh_buildProxies named
  unfold proactiveRefresh
  rw [proxy]
  dsimp only
  rw [if_neg (by simp [authenticated, expiring])]
  split
  next far => exact .early (not_le.mpr far) rfl
  next near =>
    have due : s.client.Due node readings := not_lt.mp near
    split
    next creds granted =>
      split
      next => exact .closed _ rfl (.inl rfl)
      next valid =>
        obtain ⟨result, grants, fresh, said⟩ :=
          ProxyHttp.refresh_result granted (Bool.eq_false_iff.mpr valid)
        split
        next ahead =>
          have renews : Prolongs format node settings http s.client readings creds.expireAt :=
            ⟨due, ahead, result, grants, fresh, said⟩
          split
          next => exact .closed _ rfl (.inr renews)
          next open' => exact .renewed rfl renews (not_le.mp open')
        next => exact .closed _ rfl (.inl rfl)
    all_goals exact .closed _ rfl (.inl rfl)

namespace Reader

variable {r r' : Reader} {s s' : Shared} {event : Event} {ops : List Op} {readings : Readings}

/-- A tick leaves the deadline alone or renews it. It starts to close the connection, unless it
is not due or is renewed in time. -/
theorem begin_expiryTick {now : UnixTime}
    (wired : node.proxies = ProxyHttp.buildProxies format base64 settings http)
    (named : settings.proxyRefreshEndpoint ≠ "") (authenticated : r.client.authenticated)
    (expiring : 0 < r.client.expireAt)
    (begun : r.begin s node (.expiryTick readings now) = some ((r', s'), ops)) :
    (r'.client.expireAt = r.client.expireAt ∨
      Prolongs format node settings http r.client readings r'.client.expireAt) ∧
    ((∃ disconnect, r'.phase = .leaving ∧
        ops = [.access (.put r.client.tx (.close disconnect))]) ∨
      (r.client.Due node readings →
        Prolongs format node settings http r.client readings r'.client.expireAt ∧
          0 < i64 (r'.client.expireAt - readings.repliedAt.seconds))) := by
  have ticked := Session.proactiveRefresh_ticked (s := r.session s) wired named authenticated
    expiring readings
  unfold Reader.begin at begun
  simp only at begun
  split at begun
  next =>
    obtain ⟨_, _, client⟩ := (r.session s).proactiveRefresh_client node readings
    have same : ((r.session s).proactiveRefresh node readings).1.client.tx = r.client.tx := by
      rw [client]
      rfl
    unfold onExpiryTick at begun
    cases refreshed : (r.session s).proactiveRefresh node readings with | mk after closing =>
    rw [refreshed] at ticked begun same
    cases closing with
    | some disconnect =>
        cases begun
        refine ⟨?_, .inl ⟨disconnect, rfl, same ▸ rfl⟩⟩
        cases ticked with
        | early _ same => cases same
        | closed _ _ kept => exact kept
        | renewed open' _ _ => cases open'
    | none =>
        have kept : (after.client.expireAt = r.client.expireAt ∧ ¬ r.client.Due node readings) ∨
            Prolongs format node settings http r.client readings after.client.expireAt ∧
              0 < i64 (after.client.expireAt - readings.repliedAt.seconds) := by
          cases ticked with
          | early far same =>
              cases same
              exact .inl ⟨rfl, far⟩
          | closed _ same _ => cases same
          | renewed _ renews ahead => exact .inr ⟨renews, ahead⟩
        dsimp only at begun
        split at begun
        next disconnect _ =>
          cases begun
          exact ⟨kept.imp And.left And.left, .inl ⟨disconnect, rfl, same ▸ rfl⟩⟩
        next =>
          cases begun
          refine ⟨kept.imp And.left And.left, .inr fun due => ?_⟩
          exact kept.resolve_left fun far => far.2 due
  next => cases begun

end Reader

/-! ## Everything else -/

theorem Session.not_checkRefresh {s : Session} {readings : Readings} {cmd : Command}
    {ct : ConnectToken} (on : node.proxies.refresh.isSome) :
    s.checkRefresh node readings cmd ≠ .ok ct := by
  intro checked
  simp only [checkRefresh, require_bind, demand_bind] at checked
  obtain ⟨_, _, _, off, _⟩ := checked
  rw [Option.isNone_iff_eq_none.mp off] at on
  cases on

theorem Session.Effect.expireAt {s : Session} {readings : Readings} {cmd : Command}
    {after : Session × CommandOutcome} (effect : Effect s node readings cmd after)
    (method : cmd.method.Instant) (on : node.proxies.refresh.isSome) :
    after.1.client.expireAt = s.client.expireAt := by
  cases effect with
  | refreshed _ _ _ checked => exact absurd checked (not_checkRefresh on)
  | subRefreshed channel token _ _ _ =>
      rw [applySubRefresh_session]
      rfl
  | identified _ connect => exact absurd (by simp [connect]) method
  | connected _ _ connect _ _ => exact absurd (by simp [connect]) method
  | subscribed _ _ _ subscribe _ _ => exact absurd (by simp [subscribe]) method
  | published _ _ publish _ _ => exact absurd (by simp [publish]) method
  | unsubscribed _ unsubscribe _ _ => exact absurd (by simp [unsubscribe]) method
  | _ => rfl

theorem Client.expireAt_unsubscribing (client : Client) (channel : String) :
    (client.unsubscribing channel).1.expireAt = client.expireAt := by
  unfold unsubscribing
  split
  next => rfl
  next => rfl

namespace Reader

variable {r r' : Reader} {s s' : Shared} {event : Event} {ops : List Op}

theorem Commanded.expireAt {readings : Readings} {cmd : Command}
    (h : Commanded node r s readings cmd r' s' ops) (on : node.proxies.refresh.isSome) :
    r'.client.expireAt = r.client.expireAt := by
  cases h with
  | unsubscribing channel _ => exact r.client.expireAt_unsubscribing channel
  | instant _ _ method effect => exact effect.expireAt method on
  | _ => rfl

/-- No other event moves the deadline. -/
theorem begin_expireAt (on : node.proxies.refresh.isSome)
    (other : ∀ readings now, event ≠ .expiryTick readings now)
    (begun : r.begin s node event = some ((r', s'), ops)) :
    r'.client.expireAt = r.client.expireAt := by
  unfold Reader.begin at begun
  cases event with
  | expiryTick readings now => exact absurd rfl (other readings now)
  | command readings =>
      simp only at begun
      split at begun
      next cmd cmds replies _ =>
        split at begun
        next => cases begun; rfl
        next =>
          exact (onCommand_commanded node _ s readings cmd (Option.some.inj begun)).expireAt on
      next => cases begun; rfl
      next => cases begun
  | signal signal =>
      simp only at begun
      split at begun
      next =>
        cases signal with
        | unsubscribe channel =>
            unfold onSignal at begun
            dsimp only at begun
            split at begun <;> cases begun <;> rfl
        | disconnect disconnect => cases begun; rfl
      next => cases begun
  | reply =>
      simp only at begun
      split at begun
      next =>
        unfold onReply at begun
        split at begun
        next => cases begun; rfl
        next =>
          split at begun
          next => cases begun; rfl
          next =>
            split at begun
            next => cases begun; rfl
            next =>
              split at begun
              next => cases begun; rfl
              next => cases begun
      next => cases begun
  | flush =>
      simp only at begun
      split at begun
      next disconnect _ =>
        cases disconnect <;> cases begun <;> rfl
      next => cases begun
  | interference world => cases begun
  | _ =>
      simp only at begun
      split at begun <;> cases begun <;> rfl

theorem begin_user (on : node.proxies.refresh.isSome)
    (begun : r.begin s node event = some ((r', s'), ops)) : r'.client.user = r.client.user := by
  obtain same | ⟨_, _, _, _, _, _, _, _, checked, _⟩ := (begin_begun begun).user
  · exact same
  · exact absurd checked (Session.not_checkRefresh on)

end Reader

/-- Only the registration gives a deadline. -/
theorem Op.Ran.expireAt {op : Op} {r r' : Reader} {s s' : Shared} {more : List Op}
    (h : Ran node r s op r' s' more) :
    r'.client.expireAt = r.client.expireAt ∨
      ∃ readings cmd creds, op = .register readings cmd creds := by
  cases h with
  | overLimit readings cmd creds _ => exact .inr ⟨readings, cmd, creds, rfl⟩
  | registering readings cmd creds _ _ => exact .inr ⟨readings, cmd, creds, rfl⟩
  | reported _ _ _ _ _ _ _ after read =>
      subst read
      rw [Reader.resume_client, Session.report_client]
      exact .inl rfl
  | subscribed _ _ _ _ _ after finished =>
      subst finished
      rw [Reader.answer_client, Reader.resume_client, Session.finishSubscribe_client]
      exact .inl rfl
  | unsubscribed channel _ _ _ => exact .inl (r.client.expireAt_unsubscribing channel)
  | _ => exact .inl rfl

/-! ## Runs -/

namespace Server

variable (format node settings http) in
/-- The turn is a tick at which the endpoint renews the session. -/
inductive RenewedAt (s : Server) (i : Nat) (deadline : Int) : Turn → Prop
  | tick {reader : Reader} {readings : Readings} {now : UnixTime}
      (found : s.jobs[i]? = some ⟨reader, []⟩)
      (renews : Prolongs format node settings http reader.client readings deadline) :
      RenewedAt s i deadline (.event i (.expiryTick readings now))

/-- The session has this user and a deadline. -/
structure Expiring (s : Server) (i : Nat) (id : ClientId) (user : String) (deadline : Int) :
    Prop where
  positive : 0 < deadline
  there : ∃ job, s.jobs[i]? = some job ∧ job.reader.client.authenticated ∧
    job.reader.client.id = id ∧ job.reader.client.user = user ∧
      job.reader.client.expireAt = deadline

variable {s s' : Server} {turn : Turn} {i : Nat} {id : ClientId} {user : String} {deadline : Int}

theorem Expiring.step (h : s.Expiring i id user deadline) (reached : Reached node s)
    (wired : node.proxies = ProxyHttp.buildProxies format base64 settings http)
    (named : settings.proxyRefreshEndpoint ≠ "") (move : Step node s turn s') :
    ∃ later, s'.Expiring i id user later ∧ (later = deadline ∨
      s.RenewedAt format node settings http i later turn) := by
  have on : node.proxies.refresh.isSome := by
    rw [wired, ProxyHttp.refresh_buildProxies named]
    rfl
  obtain ⟨positive, job, found, authenticated, rfl, rfl, rfl⟩ := h
  obtain ⟨job', found', follows⟩ := move.follows found
  have known := follows.authenticated authenticated
  have same := follows.id authenticated
  suffices job'.reader.client.user = job.reader.client.user ∧
      (job'.reader.client.expireAt = job.reader.client.expireAt ∨
        0 < job'.reader.client.expireAt ∧
          s.RenewedAt format node settings http i job'.reader.client.expireAt turn) by
    obtain ⟨user, deadline⟩ := this
    refine ⟨_, ⟨?_, job', found', known, same, user, rfl⟩, deadline.imp_right And.right⟩
    obtain kept | ⟨ahead, _⟩ := deadline
    · exact kept ▸ positive
    · exact ahead
  cases move.became found' with
  | accepted _ _ last =>
      have inside := (List.getElem?_eq_some_iff.mp found).1
      exact absurd last inside.ne
  | @began event reader reader' shared _ ops there prepared begun =>
      rw [found] at there
      cases there
      refine ⟨Reader.begin_user on begun, ?_⟩
      by_cases tick : ∃ readings now, event = .expiryTick readings now
      · obtain ⟨readings, now, rfl⟩ := tick
        obtain kept | renews :=
          (Reader.begin_expiryTick wired named authenticated positive begun).1
        · exact .inl kept
        · exact .inr ⟨renews.2.1, .tick found renews⟩
      · refine .inl (Reader.begin_expireAt on ?_ begun)
        rintro readings now rfl
        exact tick ⟨readings, now, rfl⟩
  | @worked reader reader' op rest more shared' there ran =>
      rw [found] at there
      cases there
      have unregistered : ¬ ∃ readings cmd creds, op = .register readings cmd creds := by
        rintro ⟨readings, cmd, creds, rfl⟩
        rw [((Seated.of_reached reached).seat found).stage.of_register.1] at authenticated
        cases authenticated
      have ran := Op.exec_ran ran
      exact ⟨ran.user.resolve_right unregistered, .inl (ran.expireAt.resolve_right unregistered)⟩
  | stayed there =>
      rw [found] at there
      cases there
      exact ⟨rfl, .inl rfl⟩

/-- A due tick starts to close the connection, unless the endpoint renews it in time. -/
theorem Expiring.tick (h : s.Expiring i id user deadline)
    (wired : node.proxies = ProxyHttp.buildProxies format base64 settings http)
    (named : settings.proxyRefreshEndpoint ≠ "") {readings : Readings} {now : UnixTime}
    (due : i64 (deadline - readings.checkedAt.seconds) ≤ i64 node.presencePingInterval)
    (move : Step node s (.event i (.expiryTick readings now)) s') :
    (∃ reader disconnect, s'.jobs[i]? = some
      ⟨reader, [.access (.put reader.client.tx (.close disconnect))]⟩ ∧ reader.phase = .leaving) ∨
    ∃ later, s'.Expiring i id user later ∧ 0 < i64 (later - readings.repliedAt.seconds) ∧
      s.RenewedAt format node settings http i later (.event i (.expiryTick readings now)) := by
  have on : node.proxies.refresh.isSome := by
    rw [wired, ProxyHttp.refresh_buildProxies named]
    rfl
  obtain ⟨positive, job, found, authenticated, rfl, rfl, rfl⟩ := h
  cases move.moved with
  | @began _ _ reader reader' shared shared' ops ids there _ prepared begun =>
      rw [found] at there
      cases there
      have inside := (List.getElem?_eq_some_iff.mp found).1
      have follows := (Reader.begin_begun begun).client.1
      obtain ⟨disconnect, phase, rfl⟩ | renewed :=
        (Reader.begin_expiryTick wired named authenticated positive begun).2
      · refine .inl ⟨reader', disconnect, ?_, phase⟩
        rw [List.getElem?_set_self inside, follows.tx]
      · obtain ⟨renews, ahead⟩ := renewed due
        exact .inr ⟨_, ⟨renews.2.1, _, List.getElem?_set_self inside,
          follows.authenticated authenticated, follows.id authenticated,
          Reader.begin_user on begun, rfl⟩, ahead, .tick found renews⟩

/-- With a refresh endpoint, a connection with a deadline keeps its user. The deadline moves only
to where the endpoint puts it, and a tick at which it is due without being renewed closes the
connection. -/
theorem renewed_by_endpoint (reached : Reached node s)
    (wired : node.proxies = ProxyHttp.buildProxies format base64 settings http)
    (named : settings.proxyRefreshEndpoint ≠ "") (expiring : s.Expiring i id user deadline)
    {turns : List Turn} (run : Steps (Step node) s turns s') :
    ∃ later, s'.Expiring i id user later ∧
      (later = deadline ∨ ∃ front turn rest m, turns = front ++ turn :: rest ∧
        Steps (Step node) s front m ∧ m.RenewedAt format node settings http i later turn) ∧
      ∀ {readings now s''}, Step node s' (.event i (.expiryTick readings now)) s'' →
        i64 (later - readings.checkedAt.seconds) ≤ i64 node.presencePingInterval →
          (∃ reader disconnect, s''.jobs[i]? = some
            ⟨reader, [.access (.put reader.client.tx (.close disconnect))]⟩ ∧
              reader.phase = .leaving) ∨
          ∃ next, s''.Expiring i id user next ∧ 0 < i64 (next - readings.repliedAt.seconds) ∧
            s'.RenewedAt format node settings http i next
              (.event i (.expiryTick readings now)) := by
  induction run generalizing deadline with
  | nil s =>
      exact ⟨deadline, expiring, .inl rfl, fun move due => expiring.tick wired named due move⟩
  | @cons s m s' turn turns move _ ih =>
      obtain ⟨first, expiring', now⟩ := expiring.step reached wired named move
      obtain ⟨later, expiring'', outcome, ticks⟩ := ih (reached.next move) expiring'
      refine ⟨later, expiring'', ?_, ticks⟩
      obtain rfl | ⟨front, turn', rest, k, rfl, before, renewed⟩ := outcome
      · exact now.imp_right fun renewed => ⟨[], turn, turns, s, rfl, .nil s, renewed⟩
      · exact .inr ⟨turn :: front, turn', rest, k, rfl, .cons move before, renewed⟩

end Server

/-! ## A connection that is renewed -/

namespace Sample

/-- Connections last ten seconds after noon, and an hour longer when they are renewed. -/
def renewing (endpoint : String) : ProxyHttp.Endpoint := fun _ _ =>
  if endpoint = "http://localhost:3000/connect" then
    some ("\x7b\"result\":\x7b\"user\":\"42\",\"expire_at\":43210," ++
      "\"channels\":[\"news\"]\x7d\x7d").toList
  else some "\x7b\"result\":\x7b\"expire_at\":46810\x7d\x7d".toList

def renewalSettings : Settings :=
  Settings.fromArgs { defaultArgs with
    proxyConnectEndpoint := "http://localhost:3000/connect"
    proxyRefreshEndpoint := "http://localhost:3000/refresh" }

def renewalNode : Node :=
  { openNode with
    proxies := ProxyHttp.buildProxies ProxyHttp.Sample.tenth ProxyHttp.Sample.bytewise
      renewalSettings renewing }

/-- The reader gets its reply, and stays until an expiry tick. -/
def staying : List Turn := [
  .event 0 (commandAs "7c3e"), .event 0 .reply, .event 0 .flush, .work 0, .work 0,
  .event 0 (.expiryTick (readings noon) noon)]

def oneOClock : UnixTime := .ofNat 46800 (by decide)

/-- The tick at which it is due again. -/
def nextTick : Turn := .event 0 (.expiryTick (readings oneOClock) oneOClock)

end Sample

namespace Server

open Sample

theorem renewed_by_endpoint_staying : ∃ s' s'' : Server,
    Steps (Step renewalNode) (after renewalNode visiting) staying s' ∧
    (∃ front turn rest m, staying = front ++ turn :: rest ∧
      Steps (Step renewalNode) (after renewalNode visiting) front m ∧
        m.RenewedAt ProxyHttp.Sample.tenth renewalNode renewalSettings renewing 0 46810 turn) ∧
    Step renewalNode s' nextTick s'' ∧
    ∃ next, s''.Expiring 0 "2a1f" "42" next ∧ 0 < i64 (next - 46800) ∧
      s'.RenewedAt ProxyHttp.Sample.tenth renewalNode renewalSettings renewing 0 next nextTick := by
  have there : (after renewalNode visiting).jobs[0]?.any fun job =>
      job.reader.client.authenticated ∧ job.reader.client.id = "2a1f" ∧
        job.reader.client.user = "42" ∧ job.reader.client.expireAt = 43210 := rfl
  obtain ⟨job, found, there⟩ := Option.any_eq_true _ _ |>.mp there
  have expiring : (after renewalNode visiting).Expiring 0 "2a1f" "42" 43210 :=
    ⟨by decide, job, found, of_decide_eq_true there⟩
  have stays : (staying.foldlM (fun (s : Server) turn => s.step renewalNode turn)
      (after renewalNode visiting)).any fun s' =>
        s'.jobs[0]?.any (fun job => job.reader.client.expireAt = 46810) &&
          (s'.step renewalNode nextTick).any fun s'' =>
            s''.jobs[0]?.any fun job => job.work.isEmpty := rfl
  obtain ⟨s', ran, stays⟩ := (Option.any_eq_true _ _).mp stays
  obtain ⟨moved, ticked⟩ := (Bool.and_eq_true _ _).mp stays
  obtain ⟨s'', tick, idle⟩ := (Option.any_eq_true _ _).mp ticked
  have run : Steps (Step renewalNode) (after renewalNode visiting) staying s' :=
    .of_foldlM (fun _ _ _ move => move) ran
  obtain ⟨later, expiring', outcome, ticks⟩ := renewed_by_endpoint (after_reached rfl)
    rfl (by decide) expiring run
  have later_eq : later = 46810 := by
    obtain ⟨job, found, -, -, -, rfl⟩ := expiring'.there
    rw [found] at moved
    exact of_decide_eq_true moved
  subst later_eq
  refine ⟨s', s'', run, outcome.resolve_left (by decide), tick, ?_⟩
  refine (ticks tick (by decide)).resolve_left fun closed => ?_
  obtain ⟨reader, disconnect, found, -⟩ := closed
  rw [found] at idle
  cases idle

end Server

end Centrifugo
