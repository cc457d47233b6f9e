import Centrifugo.Core.Client.Personal
import Centrifugo.Server.Authorization
import Centrifugo.Server.Held

/-!
# The user of a connection

The hub files a connection under the user it had at its registration. The session can get
another one by a REFRESH with a token of somebody else, which the hub does not notice. The two
agree in every run in which each REFRESH keeps the user.
-/

namespace Centrifugo

open Server

/-! ## What changes the user -/

theorem Client.user_unsubscribing (client : Client) (channel : String) :
    (client.unsubscribing channel).1.user = client.user := by
  unfold unsubscribing
  split
  next => rfl
  next => rfl

/-- Of the operations, only the registration does. -/
theorem Op.Ran.user {node : Node} {op : Op} {r r' : Reader} {s s' : Shared} {more : List Op}
    (h : Ran node r s op r' s' more) :
    r'.client.user = r.client.user ∨ ∃ readings cmd creds, op = .register readings cmd creds := by
  cases h with
  | overLimit readings cmd creds _ => exact .inr ⟨readings, cmd, creds, rfl⟩
  | registering readings cmd creds _ _ => exact .inr ⟨readings, cmd, creds, rfl⟩
  | reported _ _ _ _ _ _ _ after read =>
      subst read
      rw [Reader.resume_client, Session.report_client]
      exact .inl rfl
  | subscribed _ _ _ _ _ after finished =>
      subst finished
      rw [Reader.answer_client, Reader.resume_client, Session.finishSubscribe_client]
      exact .inl rfl
  | unsubscribed channel _ _ _ => exact .inl (r.client.user_unsubscribing channel)
  | _ => exact .inl rfl

/-- Of the events, only a REFRESH does. -/
theorem Reader.Begun.user {node : Node} {r r' : Reader} {s s' : Shared} {event : Event}
    {ops : List Op} (h : Begun node r s event r' s' ops) :
    r'.client.user = r.client.user ∨ ∃ readings cmd cmds replies ct,
      event = .command readings ∧ r.phase = .batch (cmd :: cmds) replies ∧
      cmd.method = .refresh ∧ (r.session s).checkRefresh node readings cmd = .ok ct ∧
      r'.client.user = if ct.user ≠ "" then ct.user else r.client.user := by
  cases h with
  | settled _ _ connInfo expireAt client =>
      rw [client]
      exact .inl rfl
  | command readings cmd cmds replies phase commanded =>
      cases commanded with
      | unsubscribing channel _ => exact .inl (r.client.user_unsubscribing channel)
      | instant after authenticated method effect =>
          cases effect with
          | refreshed ct refresh _ checked =>
              right
              refine ⟨readings, cmd, cmds, replies, ct, rfl, phase, refresh, checked, ?_⟩
              rw [Reader.answer_client, Reader.resume_client, Session.applyRefresh_client]
              rfl
          | subRefreshed channel token _ _ _ =>
              left
              rw [Reader.answer_client, Reader.resume_client, Session.applySubRefresh_session]
              rfl
          | identified _ connect => exact absurd (by simp [connect]) method
          | connected _ _ connect _ _ => exact absurd (by simp [connect]) method
          | subscribed _ _ _ subscribe _ _ => exact absurd (by simp [subscribe]) method
          | published _ _ publish _ _ => exact absurd (by simp [publish]) method
          | unsubscribed _ unsubscribe _ _ => exact absurd (by simp [unsubscribe]) method
          | _ => exact .inl rfl
      | _ => exact .inl rfl
  | _ => exact .inl rfl

namespace Server

/-- A REFRESH that passes its checks names no other user. -/
def KeepsUser (node : Node) (s : Server) : Turn → Bool
  | .event i (.command readings) =>
      match s.jobs[i]? with
      | some ⟨reader, []⟩ =>
          match reader.phase with
          | .batch (cmd :: _) _ =>
              match cmd.method, (reader.session s.shared).checkRefresh node readings cmd with
              | .refresh, .ok ct => ct.user = "" || ct.user = reader.client.user
              | _, _ => true
          | _ => true
      | _ => true
  | _ => true

/-- The authenticated session with this id has this user. -/
def Bears (s : Server) (id : ClientId) (user : String) : Prop :=
  ∃ (i : Nat) (job : Job), s.jobs[i]? = some job ∧ job.reader.client.authenticated ∧
    job.reader.client.id = id ∧ job.reader.client.user = user

variable {node : Node} {s s' : Server} {turn : Turn} {i : Nat} {job : Job} {id : ClientId}
  {user channel : String} {handle : ClientHandle}

/-- An event that keeps the user. -/
theorem user_of_begun {event : Event} {reader reader' : Reader} {shared shared' : Shared}
    {ops : List Op} (keeps : s.KeepsUser node (.event i event))
    (found : s.jobs[i]? = some ⟨reader, []⟩)
    (prepared : reader.prepare s.shared event = some shared)
    (begun : reader.Begun node shared event reader' shared' ops) :
    reader'.client.user = reader.client.user := by
  obtain same | ⟨readings, cmd, cmds, replies, ct, rfl, phase, refresh, checked, user⟩ := begun.user
  · exact same
  · cases prepared
    have kept : ct.user = "" ∨ ct.user = reader.client.user := by
      simpa [KeepsUser, found, phase, refresh, checked] using keeps
    rw [user]
    obtain nobody | same := kept
    · rw [if_neg fun named => named nobody]
    · rw [same, ite_self]

theorem Bears.step (h : s.Bears id user) (seated : Seated s) (keeps : s.KeepsUser node turn)
    (move : Step node s turn s') : s'.Bears id user := by
  obtain ⟨i, job, found, authenticated, rfl, rfl⟩ := h
  obtain ⟨job', found', follows⟩ := move.follows found
  refine ⟨i, job', found', follows.authenticated authenticated, follows.id authenticated, ?_⟩
  cases move.became found' with
  | accepted _ _ last =>
      have inside := (List.getElem?_eq_some_iff.mp found).1
      exact absurd last inside.ne
  | began there prepared begun =>
      rw [found] at there
      cases there
      exact user_of_begun keeps found prepared (Reader.begin_begun begun)
  | worked there ran =>
      rw [found] at there
      cases there
      obtain same | ⟨readings, cmd, creds, rfl⟩ := (Op.exec_ran ran).user
      · exact same
      · rw [(seated.seat found).stage.of_register.1] at authenticated
        cases authenticated
  | stayed there =>
      rw [found] at there
      cases there
      rfl

end Server

/-- The user under which an access files a client. -/
def Access.files : Access → Option (ClientId × String)
  | .insertConn handle => some (handle.id, handle.user)
  | .indexUser user id => some (id, user)
  | _ => none

theorem Seated.bears {s : Server} (h : Seated s) {a : Access} {id : ClientId} {user : String}
    (mem : a ∈ s.pending) (files : a.files = some (id, user)) : s.Bears id user := by
  have registers : a.registers := by
    cases a with
    | insertConn _ => rfl
    | indexUser _ _ => rfl
    | _ => cases files
  obtain ⟨i, job, found, work, authenticated, _, _⟩ := h.registering mem registers
  refine ⟨i, job, found, authenticated, ?_⟩
  have stage := (h.seat found).stage
  generalize job.work = ops at work stage
  cases stage with
  | counting _ _ _ _ _ => simp at work
  | inserting _ _ _ _ _ _ _ =>
      simp only [List.mem_cons, Op.access.injEq, List.not_mem_nil, or_false, reduceCtorEq] at work
      obtain rfl | rfl := work
      · cases files
        exact ⟨rfl, rfl⟩
      · cases files
        exact ⟨rfl, rfl⟩
  | indexing _ _ _ _ _ _ _ =>
      simp only [List.mem_cons, Op.access.injEq, List.not_mem_nil, or_false, reduceCtorEq] at work
      subst work
      cases files
      exact ⟨rfl, rfl⟩
  | settled settled =>
      obtain mine | nobody := settled _ work
      · rw [Access.registers_of_ofClient mine] at registers
        cases registers
      · rw [Access.registers_of_owner nobody] at registers
        cases registers

/-! ## The hub -/

/-- Every client is filed under the user of its session. -/
structure Filed (s : Server) : Prop where
  conns : ∀ {id : ClientId} {handle : ClientHandle},
    s.shared.world.hub.conns.lookup id = some handle → s.Bears id handle.user
  users : ∀ {user : String} {id : ClientId},
    id ∈ s.shared.world.hub.userIds user → s.Bears id user

namespace Filed

variable {node : Node} {s s' : Server} {turn : Turn}

theorem initial (h : s.Initial) : Filed s := by
  obtain ⟨hash, ttl, verifier, rfl⟩ := h
  refine ⟨?_, ?_⟩
  · intro id handle found
    cases found
  · intro user id listed
    cases listed

theorem step (h : Filed s) (seated : Seated s) (keeps : s.KeepsUser node turn)
    (move : Server.Step node s turn s') : Filed s' := by
  have kept : ∀ {id user}, s.Bears id user → s'.Bears id user := fun bears =>
    bears.step seated keeps move
  cases move.outline seated with
  | @access a others current here place able shared there =>
      have mem : a ∈ s.pending := here.mem_iff.mpr List.mem_cons_self
      refine ⟨?_, ?_⟩
      · intro id handle found
        rw [shared, Access.perform_hub] at found
        cases a with
        | insertConn inserted =>
            rw [Access.hub, Hub.conns_insertConn, Map.lookup_insert_eq] at found
            split at found
            next same =>
              cases found
              subst same
              exact kept (seated.bears mem rfl)
            next => exact kept (h.conns found)
        | removeConn removed slow =>
            rw [Access.hub, Hub.conns_removeConn, Map.lookup_erase_eq] at found
            split at found
            next => cases found
            next => exact kept (h.conns found)
        | _ => exact kept (h.conns found)
      · intro user id listed
        rw [shared, Access.perform_hub] at listed
        cases a with
        | indexUser user' id' =>
            obtain ⟨rfl, rfl⟩ | old := Hub.mem_indexUser.mp listed
            · exact kept (seated.bears mem rfl)
            · exact kept (h.users old)
        | unindexUser user' id' => exact kept (h.users (Hub.mem_unindexUser.mp listed).2)
        | _ => exact kept (h.users listed)
  | registering _ _ _ _ _ shared _ =>
      refine ⟨?_, ?_⟩
      · intro id handle found
        exact kept (h.conns (shared ▸ found))
      · intro user id listed
        exact kept (h.users (shared ▸ listed))
  | quiet _ _ quiet =>
      refine ⟨?_, ?_⟩
      · intro id handle found
        exact kept (h.conns (quiet.hub ▸ found))
      · intro user id listed
        exact kept (h.users (quiet.hub ▸ listed))

end Filed

/-! ## Subscriptions to user-limited channels -/

/-- The session holds, and is about to take, the user-limited channels of its user only. -/
def Job.Entitled (job : Job) : Prop :=
  job.Holds fun channel state =>
    state.serverSide = false → userAllowed channel job.reader.client.user

namespace Job.Entitled

variable {node : Node} {reader reader' : Reader} {shared shared' : Shared}

theorem lasting (user : String) :
    Lasting fun channel state => state.serverSide = false → userAllowed channel user := by
  intro channel state state' allowed serverSide _ clientSide
  exact allowed (serverSide ▸ clientSide)

theorem begin {event : Event} {ops : List Op} (h : Job.Entitled ⟨reader, []⟩)
    (begun : reader.Begun node shared event reader' shared' ops)
    (same : reader'.client.user = reader.client.user) : Job.Entitled ⟨reader', ops⟩ := by
  show Job.Holds (fun channel state =>
    state.serverSide = false → userAllowed channel reader'.client.user) ⟨reader', ops⟩
  rw [same]
  exact Job.Holds.begin h (lasting _) begun fun checked _ =>
    Session.userAllowed_of_checkSubscribe checked

/-- The registration sets the user, and finds no subscription. -/
theorem exec {op : Op} {rest more : List Op} (h : Job.Entitled ⟨reader, op :: rest⟩)
    (ran : op.Ran node reader shared reader' shared' more)
    (stage : Stage reader.client (op :: rest)) (fresh : Job.Fresh ⟨reader, op :: rest⟩) :
    Job.Entitled ⟨reader', more ++ rest⟩ := by
  obtain same | ⟨readings, cmd, creds, rfl⟩ := ran.user
  · show Job.Holds (fun channel state =>
      state.serverSide = false → userAllowed channel reader'.client.user) ⟨reader', more ++ rest⟩
    rw [same]
    refine Job.Holds.exec h (lasting _) ran ?_
    intro channel clientSide
    cases clientSide
  · obtain ⟨unknown, rfl⟩ := stage.of_register
    have kept : reader'.client.subscriptions = reader.client.subscriptions := by
      cases ran with
      | overLimit _ _ _ _ => rfl
      | registering _ _ _ _ granted => rw [granted]; rfl
    refine ⟨?_, ?_⟩
    · intro channel state found
      have absent := fresh.free unknown channel
      have found : reader'.client.subscriptions.lookup channel = some state := found
      rw [kept] at found
      rw [Client.isSubscribed, found] at absent
      cases absent
    · intro readings cmd req opts grant mem
      rw [List.append_nil] at mem
      exact absurd mem ran.subscribeReply_notMem

end Job.Entitled

/-! ## What the hub says of the current users -/

namespace Server

variable {node : Node} {s s' : Server} {turn : Turn}

theorem entitled_step (reached : Reached node s) (keeps : s.KeepsUser node turn)
    (move : Step node s turn s')
    (all : ∀ {i : Nat} {job : Job}, s.jobs[i]? = some job → job.Entitled) {i : Nat} {job : Job}
    (found : s'.jobs[i]? = some job) : job.Entitled := by
  cases move.became found with
  | accepted _ _ _ =>
      refine ⟨?_, by simp⟩
      intro channel state held
      cases held
  | began there prepared begun =>
      have begins := Reader.begin_begun begun
      exact (all there).begin begins (user_of_begun keeps there prepared begins)
  | worked there ran =>
      exact (all there).exec (Op.exec_ran ran) ((Seated.of_reached reached).seat there).stage
        (fresh_of_reached reached there)
  | stayed there => exact all there

/-- What the hub and the subscriptions say of users is true of the sessions now. -/
structure Current (s : Server) : Prop where
  conns : ∀ {id : ClientId} {handle : ClientHandle},
    s.shared.world.hub.conns.lookup id = some handle → ∃ job, s.jobs[handle.tx]? = some job ∧
      job.reader.client.id = id ∧ job.reader.client.user = handle.user
  users : ∀ {user : String} {id : ClientId}, id ∈ s.shared.world.hub.userIds user →
    ∀ {i : Nat} {job : Job}, s.jobs[i]? = some job → job.reader.client.id = id →
      job.reader.client.user = user
  /-- The connections that control commands for a user address, and that are counted for it. -/
  addressed : ∀ {user : String} {handle : ClientHandle},
    handle ∈ s.shared.world.hub.userClients user →
      s.shared.world.hub.conns.lookup handle.id = some handle ∧
        ∃ job, s.jobs[handle.tx]? = some job ∧ job.reader.client.user = user
  /-- None is left out, except while its registration is under way. -/
  complete : ∀ {handle : ClientHandle} {job : Job},
    s.shared.world.hub.conns.lookup handle.id = some handle → s.jobs[handle.tx]? = some job →
      handle ∈ s.shared.world.hub.userClients job.reader.client.user ∨
        .indexUser handle.user handle.id ∈ s.pending
  once : ∀ user, (s.shared.world.hub.userClients user).Nodup
  limited : ∀ {i : Nat} {job : Job} {channel : String} {state : SubState},
    s.jobs[i]? = some job → job.reader.client.subscriptions.lookup channel = some state →
      state.serverSide = false → userAllowed channel job.reader.client.user

theorem Current.of_filed (registry : Registry s) (indexed : Indexed s) (filed : Filed s)
    (entitled : ∀ {i : Nat} {job : Job}, s.jobs[i]? = some job → job.Entitled) : s.Current := by
  have seated := registry.seated
  have bearer : ∀ {id user} {i : Nat} {job : Job}, s.Bears id user → s.jobs[i]? = some job →
      job.reader.client.id = id → job.reader.client.user = user := by
    intro id user i job bears found same
    obtain ⟨j, other, there, authenticated, same', user⟩ := bears
    have named := (seated.seat there).named authenticated
    have place := seated.distinct there found (same'.trans same.symm) named
    subst place
    rw [found] at there
    cases there
    exact user
  have conns : ∀ {id handle}, s.shared.world.hub.conns.lookup id = some handle →
      ∃ job, s.jobs[handle.tx]? = some job ∧ job.reader.client.id = id ∧
        job.reader.client.user = handle.user := by
    intro id handle found
    obtain ⟨same, job, there, _, id', _⟩ := registry.conns found
    have same' := id'.trans same
    exact ⟨job, there, same', bearer (filed.conns found) there same'⟩
  refine ⟨conns, fun listed => bearer (filed.users listed), ?_, ?_, ?_, ?_⟩
  · intro user handle mem
    obtain ⟨id, listed, found⟩ := Hub.mem_userClients.mp mem
    obtain ⟨job, there, same, _⟩ := conns found
    have own := (registry.conns found).1
    exact ⟨own ▸ found, job, there, bearer (filed.users listed) there same⟩
  · intro handle job found there
    obtain ⟨job', there', _, user⟩ := conns found
    rw [there] at there'
    cases there'
    rw [user]
    exact (indexed.indexed found).imp_left fun listed =>
      Hub.mem_userClients.mpr ⟨handle.id, listed, found⟩
  · intro user
    unfold Hub.userClients
    split
    next => exact .nil
    next ids _ =>
      refine List.Nodup.filterMap ?_ ids.nodupKeys
      intro id id' handle found found'
      exact (registry.conns found).1.symm.trans (registry.conns found').1
  · intro i job channel state found
    exact (entitled found).held channel state

/-- The hub files every connection under the current user of its session, in every run in which
each REFRESH keeps the user. -/
theorem current_of_keepsUser
    (h : Reachable Initial (guarded (Step node) fun s turn => KeepsUser node s turn) s) :
    s.Current := by
  have all : Reached node s ∧ Filed s ∧
      ∀ {i : Nat} {job : Job}, s.jobs[i]? = some job → job.Entitled := by
    refine h.invariant (fun s => Reached node s ∧ Filed s ∧
      ∀ {i : Nat} {job : Job}, s.jobs[i]? = some job → job.Entitled) ?_ ?_
    · intro s start
      refine ⟨.start start, .initial start, ?_⟩
      obtain ⟨hash, ttl, verifier, rfl⟩ := start
      intro i job found
      cases found
    · rintro s turn s' ⟨reached, filed, entitled⟩ ⟨keeps, move⟩
      exact ⟨reached.next move, filed.step (.of_reached reached) keeps move,
        entitled_step reached keeps move entitled⟩
  obtain ⟨reached, filed, entitled⟩ := all
  exact .of_filed (.of_reached reached) (.of_reached reached) filed entitled

end Server

/-! ## A token of somebody else -/

namespace Sample

def signingKey : DecodingKey := ⟨[115]⟩

/-- Two tokens are signed, one for user 42 and one for user 43. -/
def signedTokens : TokenVerifier :=
  { verifier with
    codec := { verifier.codec with
      decodeHeader := fun token => if token ∈ ["t42", "t43"] then some ⟨.hs256, none⟩ else none
      decodeConnect := fun token key algorithm =>
        if key ≠ signingKey ∨ algorithm ≠ .hs256 then none
        else if token = "t42" then some { sub := some "42" }
        else if token = "t43" then some { sub := some "43" }
        else none }
    hmac := some signingKey }

/-- A request with one field, the token. -/
def refreshParams (user : UInt8) : Raw := ⟨[10, 3, 116, 52, user]⟩

def refreshNode : Node :=
  { pressNode with
    decoders := { decoders with
      refresh := fun _ raw =>
        if raw = refreshParams 50 then some ⟨"t42"⟩
        else if raw = refreshParams 51 then some ⟨"t43"⟩
        else none } }

/-- User 42 connects, and then refreshes with the token of this user. -/
def refreshing (user : UInt8) : List Turn :=
  .rekey signedTokens :: joined ++ [
    .work 0, .event 0 (commandAs "7c3e"), .event 0 .reply, .event 0 .flush,
    .event 0 (.frame (some [⟨2, .refresh, some (refreshParams user)⟩])),
    .event 0 (commandAs "7c3f")]

end Sample

namespace Server

open Sample

theorem current_of_keepsUser_refreshed :
    (after refreshNode (refreshing 50)).shared.world.hub.userClients "42" ≠ [] ∧
      (after refreshNode (refreshing 50)).Current := by
  have run : Steps (guarded (Step refreshNode) fun s turn => KeepsUser refreshNode s turn)
      started (refreshing 50) (after refreshNode (refreshing 50)) :=
    .guarded_of_foldlM rfl
  exact ⟨by decide +kernel, current_of_keepsUser (run.reachable (.start started_initial))⟩

/-- The session is user 43 now, and the hub still has it under user 42. -/
theorem not_current_of_refresh : ¬ ∀ (node : Node) (s : Server), Reached node s →
    ∀ id handle, s.shared.world.hub.conns.lookup id = some handle →
      ∀ (i : Nat) (job : Job), s.jobs[i]? = some job → job.reader.client.id = id →
        job.reader.client.user = handle.user := by
  intro all
  have reached : Reached refreshNode (after refreshNode (refreshing 51)) :=
    after_reached (by decide +kernel)
  have there : ((after refreshNode (refreshing 51)).shared.world.hub.conns.lookup "7c3d").any
      fun handle => (after refreshNode (refreshing 51)).jobs[0]?.any fun job =>
        job.reader.client.id = "7c3d" ∧ job.reader.client.user = "43" ∧ handle.user = "42" := by
    decide +kernel
  obtain ⟨handle, found, there⟩ := (Option.any_eq_true _ _).mp there
  obtain ⟨job, here, said⟩ := (Option.any_eq_true _ _).mp there
  obtain ⟨id, user, filed⟩ := of_decide_eq_true said
  have same := all refreshNode _ reached "7c3d" handle found 0 job here id
  rw [user, filed] at same
  exact absurd same (by decide)

end Server

end Centrifugo
