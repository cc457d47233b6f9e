import Centrifugo.Server.Registry

/-!
# The subscriptions of a session

A subscription gets into a session at the end of a SUBSCRIBE that passed its checks, or of a
server-side subscription. Everything else leaves a subscription alone, renews its deadline, or
drops it. So what the checks establish holds of every subscription, and a session that is not
authenticated has none.
-/

namespace Centrifugo

open Server

/-- The second client has no subscription that the first one has not. -/
def Client.Narrows (client client' : Client) : Prop :=
  ∀ channel state', client'.subscriptions.lookup channel = some state' →
    ∃ state, client.subscriptions.lookup channel = some state ∧
      state'.serverSide = state.serverSide ∧ state'.presence = state.presence

namespace Client.Narrows

variable {client client' : Client}

theorem of_eq (same : client'.subscriptions = client.subscriptions) : client.Narrows client' := by
  intro channel state' found
  rw [same] at found
  exact ⟨state', found, rfl, rfl⟩

theorem unsubscribing (client : Client) (other : String) :
    client.Narrows (client.unsubscribing other).1 := by
  unfold Client.unsubscribing
  split
  next => exact of_eq rfl
  next =>
    intro channel state' found
    rw [Map.lookup_erase_eq] at found
    split at found
    next => cases found
    next => exact ⟨state', found, rfl, rfl⟩

theorem isSubscribed (h : client.Narrows client')
    (free : ∀ channel, client.isSubscribed channel = false) (channel : String) :
    client'.isSubscribed channel = false := by
  refine Bool.eq_false_iff.mpr fun held => ?_
  obtain ⟨state', found⟩ := Option.isSome_iff_exists.mp held
  obtain ⟨state, before, _⟩ := h channel state' found
  have absent := free channel
  rw [Client.isSubscribed, before] at absent
  cases absent

end Client.Narrows

theorem Session.Effect.narrows {node : Node} {s : Session} {readings : Readings} {cmd : Command}
    {after : Session × CommandOutcome} (effect : Effect s node readings cmd after)
    (method : cmd.method.Instant) : s.client.Narrows after.1.client := by
  cases effect with
  | refreshed ct _ _ _ =>
      rw [applyRefresh_client]
      exact .of_eq rfl
  | subRefreshed channel token _ _ _ =>
      rw [applySubRefresh_session]
      intro other state' found
      simp only [updateSubscription, Map.lookup_alter] at found
      split at found
      next same =>
        obtain ⟨state, before, rfl⟩ := Option.map_eq_some_iff.mp found
        refine ⟨state, same ▸ before, ?_⟩
        cases token with
        | none => exact ⟨rfl, rfl⟩
        | some _ => exact ⟨rfl, rfl⟩
      next => exact ⟨state', found, rfl, rfl⟩
  | identified _ connect => exact absurd (by simp [connect]) method
  | connected _ _ connect _ _ => exact absurd (by simp [connect]) method
  | subscribed _ _ _ subscribe _ _ => exact absurd (by simp [subscribe]) method
  | published _ _ publish _ _ => exact absurd (by simp [publish]) method
  | unsubscribed _ unsubscribe _ _ => exact absurd (by simp [unsubscribe]) method
  | _ => exact .of_eq rfl

theorem Reader.Begun.narrows {node : Node} {r r' : Reader} {s s' : Shared} {event : Event}
    {ops : List Op} (h : Begun node r s event r' s' ops) : r.client.Narrows r'.client := by
  cases h with
  | settled _ _ connInfo expireAt client =>
      rw [client]
      exact .of_eq rfl
  | command readings cmd cmds replies _ commanded =>
      cases commanded with
      | unsubscribing channel _ => exact .unsubscribing r.client channel
      | instant after authenticated method effect => exact effect.narrows method
      | _ => exact .of_eq rfl
  | left _ =>
      intro channel state' found
      cases found
  | _ => exact .of_eq rfl

/-! ## Where a subscription comes from -/

theorem Op.subscribeReply_notMem_accesses {readings : Readings} {cmd : Command}
    {req : SubscribeRequest} {opts : ChannelOptions} {grant : Session.Grant}
    (accesses : List Access) :
    Op.subscribeReply readings cmd req opts grant ∉ accesses.map .access := by
  intro mem
  obtain ⟨_, _, same⟩ := List.mem_map.mp mem
  cases same

/-- A SUBSCRIBE that is under way passed its checks. -/
theorem Reader.Begun.checked {node : Node} {r r' : Reader} {s s' : Shared} {event : Event}
    {ops : List Op} (h : Begun node r s event r' s' ops) {readings : Readings} {cmd : Command}
    {req : SubscribeRequest} {opts : ChannelOptions} {grant : Session.Grant}
    (mem : .subscribeReply readings cmd req opts grant ∈ ops) :
    r.client.authenticated ∧
      (r.session s).checkSubscribe node readings cmd = .ok (req, opts, grant) := by
  cases h with
  | settled _ _ _ _ _ => cases mem
  | closing _ _ _ _ => exact absurd mem (Op.subscribeReply_notMem_accesses [_])
  | pinged _ => exact absurd mem (Op.subscribeReply_notMem_accesses _)
  | dropping _ channels _ =>
      obtain ⟨_, _, same⟩ := List.mem_map.mp mem
      cases same
  | command readings' cmd' cmds replies _ commanded =>
      cases commanded with
      | subscribing req' opts' grant' authenticated checked =>
          obtain mem | mem := List.mem_append.mp mem
          · exact absurd mem (Op.subscribeReply_notMem_accesses _)
          · cases List.mem_singleton.mp mem
            exact ⟨authenticated, checked⟩
      | unsubscribing channel _ =>
          obtain mem | mem := List.mem_append.mp mem
          · exact absurd mem (Op.subscribeReply_notMem_accesses _)
          · cases List.mem_singleton.mp mem
      | connecting _ _ _ _ => cases List.mem_singleton.mp mem
      | publishing _ _ _ _ =>
          obtain same | mem := List.mem_cons.mp mem
          · cases same
          · cases List.mem_singleton.mp mem
      | _ => cases mem
  | flushed disconnect _ _ =>
      obtain mem | mem := List.mem_append.mp mem
      · exact absurd mem (Op.subscribeReply_notMem_accesses _)
      · cases disconnect with
        | none => cases mem
        | some _ => cases List.mem_singleton.mp mem
  | left _ => exact absurd mem (Op.subscribeReply_notMem_accesses _)
  | _ => cases mem

theorem Op.Ran.subscribeReply_notMem {node : Node} {op : Op} {r r' : Reader} {s s' : Shared}
    {more : List Op} (h : Ran node r s op r' s' more) {readings : Readings} {cmd : Command}
    {req : SubscribeRequest} {opts : ChannelOptions} {grant : Session.Grant} :
    .subscribeReply readings cmd req opts grant ∉ more := by
  cases h with
  | accessed _ => exact subscribeReply_notMem_accesses _
  | registering _ _ _ _ _ => simp
  | joining _ _ _ _ _ _ _ => simp
  | reported _ _ _ _ _ _ _ _ _ => simp
  | unsubscribed _ _ _ _ => exact subscribeReply_notMem_accesses _
  | _ => exact List.not_mem_nil

/-- Every subscription of the session has the property, and so will the one that it asks for. -/
structure Job.Holds (p : String → SubState → Prop) (job : Job) : Prop where
  held : ∀ channel state, job.reader.client.subscriptions.lookup channel = some state →
    p channel state
  asked : ∀ readings cmd req opts grant, .subscribeReply readings cmd req opts grant ∈ job.work →
    p req.channel (Session.grantedState opts grant)

/-- The property does not look at what a session renews. -/
def Lasting (p : String → SubState → Prop) : Prop :=
  ∀ channel state state', p channel state → state'.serverSide = state.serverSide →
    state'.presence = state.presence → p channel state'

namespace Job.Holds

variable {node : Node} {reader reader' : Reader} {shared shared' : Shared}
  {p : String → SubState → Prop}

theorem begin {event : Event} {ops : List Op} (h : Job.Holds p ⟨reader, []⟩) (lasting : Lasting p)
    (begun : reader.Begun node shared event reader' shared' ops)
    (checks : ∀ {readings cmd req opts grant},
      (reader.session shared).checkSubscribe node readings cmd = .ok (req, opts, grant) →
        p req.channel (Session.grantedState opts grant)) : Job.Holds p ⟨reader', ops⟩ := by
  refine ⟨?_, fun _ _ _ _ _ mem => checks (begun.checked mem).2⟩
  intro channel state' found
  obtain ⟨state, before, serverSide, presence⟩ := begun.narrows channel state' found
  exact lasting channel state state' (h.held channel state before) serverSide presence

theorem exec {op : Op} {rest more : List Op} (h : Job.Holds p ⟨reader, op :: rest⟩)
    (lasting : Lasting p) (ran : op.Ran node reader shared reader' shared' more)
    (serverSide : ∀ channel, p channel (Session.serverSideState node channel)) :
    Job.Holds p ⟨reader', more ++ rest⟩ := by
  refine ⟨?_, ?_⟩
  · intro channel state found
    cases ran with
    | registering _ _ _ _ same =>
        subst same
        exact h.held channel state found
    | reported _ _ _ _ _ other _ after read =>
        subst read
        rw [Reader.resume_client, Session.report_client] at found
        have found : (reader.client.subscriptions.insert other
          (Session.serverSideState node other)).lookup channel = some state := found
        rw [Map.lookup_insert_eq] at found
        split at found
        next same =>
          cases found
          exact same ▸ serverSide other
        next => exact h.held channel state found
    | subscribed readings cmd req opts grant after finished =>
        subst finished
        rw [Reader.answer_client, Reader.resume_client, Session.finishSubscribe_client] at found
        have found : (reader.client.subscriptions.insert req.channel
          (Session.grantedState opts grant)).lookup channel = some state := found
        rw [Map.lookup_insert_eq] at found
        split at found
        next same =>
          cases found
          exact same ▸ h.asked _ _ _ _ _ List.mem_cons_self
        next => exact h.held channel state found
    | unsubscribed other _ _ _ =>
        obtain ⟨before, found, side, presence⟩ :=
          Client.Narrows.unsubscribing reader.client other channel state found
        exact lasting channel before state (h.held channel before found) side presence
    | _ => exact h.held channel state found
  · intro readings cmd req opts grant mem
    obtain new | old := List.mem_append.mp mem
    · exact absurd new ran.subscribeReply_notMem
    · exact h.asked readings cmd req opts grant (List.mem_cons_of_mem _ old)

end Job.Holds

/-! ## Sessions that are not authenticated -/

/-- A session that is not registered yet is not authenticated. -/
theorem Stage.of_register {client : Client} {readings : Readings} {cmd : Command}
    {creds : Session.Creds} {rest : List Op}
    (stage : Stage client (.register readings cmd creds :: rest)) :
    client.authenticated = false ∧ rest = [] := by
  cases stage with
  | counting _ _ _ fresh _ => exact ⟨fresh, rfl⟩
  | settled settled => cases settled _ List.mem_cons_self

/-- The operation is part of a subscription that begins. -/
def Op.joins : Op → Bool
  | .access (.subscribe _ _) | .access (.addPresence _ _ _) | .serverSide _ _ _ _ _ _
  | .report _ _ _ _ _ _ _ | .subscribeReply _ _ _ _ _ => true
  | _ => false

theorem Access.joins_more {node : Node} {a b : Access} {s : Shared} (h : b ∈ a.more node s) :
    (Op.access b).joins = false := by
  cases follows_of_mem h <;> rfl

/-- Without an authentication there is no subscription, and none begins. -/
structure Job.Fresh (job : Job) : Prop where
  free : job.reader.client.authenticated = false →
    ∀ channel, job.reader.client.isSubscribed channel = false
  idle : job.reader.client.authenticated = false → ∀ op ∈ job.work, op.joins = false

theorem Client.joins_leaving (client : Client) {channel : String} {state : SubState} {a : Access}
    (mem : a ∈ client.leaving channel state) : (Op.access a).joins = false := by
  unfold leaving at mem
  obtain mem | mem := List.mem_append.mp mem
  · split at mem
    next =>
      rw [List.mem_singleton.mp mem]
      rfl
    next => cases mem
  · split at mem
    next =>
      rw [List.mem_singleton.mp mem]
      rfl
    next => cases mem

theorem Client.joins_disconnecting (client : Client) {a : Access}
    (mem : a ∈ client.disconnecting.2) : (Op.access a).joins = false := by
  obtain leaving | removal := List.mem_append.mp mem
  · obtain ⟨entry, _, inside⟩ := List.mem_flatMap.mp leaving
    exact client.joins_leaving inside
  · rw [List.mem_singleton.mp removal]
    rfl

namespace Job.Fresh

variable {node : Node} {reader reader' : Reader} {shared shared' : Shared}

theorem begin {event : Event} {ops : List Op} (h : Job.Fresh ⟨reader, []⟩)
    (begun : reader.Begun node shared event reader' shared' ops) : Job.Fresh ⟨reader', ops⟩ := by
  have kept := begun.authenticated
  refine ⟨fun fresh => begun.narrows.isSubscribed (h.free (kept ▸ fresh)), ?_⟩
  intro fresh op mem
  have fresh : reader.client.authenticated = false := kept ▸ fresh
  have never : reader.client.authenticated ≠ true := by
    rw [fresh]
    exact Bool.false_ne_true
  cases begun with
  | settled _ _ _ _ _ => cases mem
  | closing _ _ _ _ =>
      rw [List.mem_singleton.mp mem]
      rfl
  | pinged _ =>
      rw [Client.refreshing, fresh, if_neg Bool.false_ne_true] at mem
      cases mem
  | dropping _ channels _ =>
      obtain ⟨_, _, rfl⟩ := List.mem_map.mp mem
      rfl
  | command readings cmd cmds replies _ commanded =>
      cases commanded with
      | connecting _ _ _ _ =>
          rw [List.mem_singleton.mp mem]
          rfl
      | subscribing _ _ _ authenticated _ => exact absurd authenticated never
      | publishing _ _ authenticated _ => exact absurd authenticated never
      | unsubscribing _ authenticated => exact absurd authenticated never
      | _ => cases mem
  | replied _ _ _ _ => cases mem
  | flushed disconnect _ _ =>
      obtain mem | mem := List.mem_append.mp mem
      · obtain ⟨a, inside, rfl⟩ := List.mem_map.mp mem
        obtain ⟨join, _, rfl⟩ := List.mem_map.mp inside
        rfl
      · obtain ⟨d, _, rfl⟩ := Option.map_eq_some_iff.mp (Option.mem_toList.mp mem)
        rfl
  | left _ =>
      obtain ⟨a, inside, rfl⟩ := List.mem_map.mp mem
      exact Client.joins_disconnecting _ inside

theorem exec {op : Op} {rest more : List Op} (h : Job.Fresh ⟨reader, op :: rest⟩)
    (ran : op.Ran node reader shared reader' shared' more)
    (stage : Stage reader.client (op :: rest)) : Job.Fresh ⟨reader', more ++ rest⟩ := by
  obtain same | ⟨readings, cmd, creds, rfl⟩ := ran.authenticated
  · suffices reader.client.authenticated = false →
        (∀ channel, reader'.client.isSubscribed channel = false) ∧
          ∀ next ∈ more, next.joins = false by
      refine ⟨fun fresh => (this (same ▸ fresh)).1, ?_⟩
      intro fresh next mem
      have fresh : reader.client.authenticated = false := same ▸ fresh
      obtain new | old := List.mem_append.mp mem
      · exact (this fresh).2 next new
      · exact h.idle fresh next (List.mem_cons_of_mem _ old)
    intro fresh
    have free := h.free fresh
    have now := h.idle fresh op List.mem_cons_self
    cases ran with
    | accessed ran =>
        obtain ⟨_, rfl⟩ := Access.exec_eq ran
        refine ⟨free, ?_⟩
        intro next mem
        obtain ⟨b, follows, rfl⟩ := List.mem_map.mp mem
        exact Access.joins_more follows
    | overLimit _ _ _ _ => cases same.trans fresh
    | registering _ _ _ _ granted =>
        subst granted
        cases same.trans fresh
    | answered _ => exact ⟨free, by simp⟩
    | absent _ _ => exact ⟨free, by simp⟩
    | unsubscribed channel held _ _ =>
        rw [free channel] at held
        cases held
    | _ => cases now
  · have yes : reader'.client.authenticated = true := by
      cases ran with
      | overLimit _ _ _ _ => rfl
      | registering _ _ _ _ granted =>
          subst granted
          rfl
    have never : reader'.client.authenticated ≠ false := by
      rw [yes]
      exact Bool.false_ne_true.symm
    exact ⟨fun fresh => absurd fresh never, fun fresh => absurd fresh never⟩

end Job.Fresh

namespace Server

variable {node : Node} {s : Server}

theorem fresh_of_reached (h : Reached node s) {i : Nat} {job : Job}
    (found : s.jobs[i]? = some job) : job.Fresh := by
  have all : Seated s ∧ ∀ {i : Nat} {job : Job}, s.jobs[i]? = some job → job.Fresh := by
    refine h.invariant (fun s => Seated s ∧
      ∀ {i : Nat} {job : Job}, s.jobs[i]? = some job → job.Fresh) ?_ ?_
    · intro s start
      refine ⟨.initial start, ?_⟩
      obtain ⟨hash, ttl, verifier, rfl⟩ := start
      intro i job found
      cases found
    · rintro s turn s' ⟨seated, fresh⟩ move
      refine ⟨seated.step move, ?_⟩
      intro i job found
      cases move.became found with
      | accepted _ _ _ =>
          refine ⟨fun _ _ => rfl, ?_⟩
          intro _ op mem
          exact absurd mem List.not_mem_nil
      | began there _ begun => exact (fresh there).begin (Reader.begin_begun begun)
      | worked there ran => exact (fresh there).exec (Op.exec_ran ran) (seated.seat there).stage
      | stayed there => exact fresh there
  exact all.2 found

end Server

end Centrifugo
