import Centrifugo.Server.Authorization
import Centrifugo.Server.Delivery

/-!
# After an unsubscription

A session that ends a subscription takes its channel out of the hub before it says so, with
the reply to an UNSUBSCRIBE or with an Unsub push. A broadcast that copied the subscribers
earlier may still send to it. A broadcast that copies them later does not, until the session
starts to subscribe again.

`Accounted` is the invariant behind this: the hub lists a session only for channels that the
session holds, or has work to do about.
-/

namespace Centrifugo

open Server

/-! ## The courses of subscriptions -/

/-- The operation puts the channel into the subscriptions of its session. -/
def Op.Enters (channel : String) : Op → Prop
  | .report _ _ _ _ _ other _ => other = channel
  | .subscribeReply _ _ req _ _ => req.channel = channel
  | _ => False

/-- The operation drops a subscription on behalf of the server, or announces this. -/
def Op.Drops : Op → Prop
  | .serverUnsubscribe _ | .access (.put _ (.frame (.unsub _))) => True
  | _ => False

/-- A session that enters a channel in the hub will put it into its subscriptions. -/
def Followed : List Op → Prop
  | [] => True
  | op :: rest =>
      (∀ id channel, op = .access (.subscribe id channel) → ∃ next ∈ rest, next.Enters channel) ∧
        Followed rest

namespace Followed

theorem append {front back : List Op} (h : Followed front) (h' : Followed back) :
    Followed (front ++ back) := by
  induction front with
  | nil => exact h'
  | cons op front ih =>
      refine ⟨fun id channel same => ?_, ih h.2⟩
      obtain ⟨next, mem, enters⟩ := h.1 id channel same
      exact ⟨next, List.mem_append_left _ mem, enters⟩

theorem of_plain {accesses : List Access} (plain : ∀ a ∈ accesses, a.plain) :
    Followed (accesses.map .access) := by
  induction accesses with
  | nil => trivial
  | cons a accesses ih =>
      refine ⟨fun id channel same => ?_, ih fun b mem => plain b (List.mem_cons_of_mem _ mem)⟩
      cases same
      cases plain _ List.mem_cons_self

/-- An operation that is no access. -/
theorem single {op : Op} (other : op.access? = none) : Followed [op] := by
  refine ⟨fun id channel same => ?_, trivial⟩
  subst same
  cases other

theorem subscribing (client : Client) (channel : String) (state : SubState) {op : Op}
    (enters : op.Enters channel) :
    Followed ((client.subscribing channel state).map .access ++ [op]) := by
  have other : op.access? = none := by
    cases op with
    | access a => cases enters
    | _ => rfl
  have presence : Followed ((if state.presence then [.addPresence channel client.id
      (client.clientInfoWith state.chanInfo)] else []).map .access ++ [op]) := by
    refine (of_plain fun a mem => ?_).append (single other)
    split at mem
    · rw [List.mem_singleton.mp mem]
      rfl
    · cases mem
  refine ⟨fun id ch same => ?_, presence⟩
  cases same
  exact ⟨op, List.mem_append_right _ List.mem_cons_self, enters⟩

/-- What enters the channel in the hub is not the last about it. -/
theorem enters {op : Op} {rest : List Op} {id : ClientId} {channel : String}
    (h : Followed (op :: rest)) (mem : .access (.subscribe id channel) ∈ op :: rest) :
    ∃ next ∈ rest, next.Enters channel := by
  induction rest generalizing op with
  | nil =>
      obtain rfl := List.mem_singleton.mp mem
      exact h.1 id channel rfl
  | cons next rest ih =>
      obtain same | later := List.mem_cons.mp mem
      · exact h.1 id channel same.symm
      · obtain ⟨last, inside, enters⟩ := ih h.2 later
        exact ⟨last, List.mem_cons_of_mem _ inside, enters⟩

end Followed

/-- The work of a session is a command, a tick or the end of the session, or it drops
subscriptions one after the other. -/
inductive Course (client : Client) : List Op → Prop
  | handling {work : List Op} (followed : Followed work) (others : ∀ op ∈ work, ¬ op.Drops) :
      Course client work
  | dropping {work : List Op} (accesses push : List Access) (channels : List String)
      (plain : ∀ a ∈ accesses, a.plain)
      (told : push = [] ∨ ∃ tx channel, push = [.put tx (.frame (.unsub channel))] ∧
        client.isSubscribed channel = false)
      (same : work = (accesses ++ push).map .access ++ channels.map .serverUnsubscribe) :
      Course client work

theorem Client.isSubscribed_unsubscribing_self (client : Client) {channel : String} :
    (client.unsubscribing channel).1.isSubscribed channel = false := by
  unfold unsubscribing
  split
  next absent => simp [isSubscribed, absent]
  next => simp [isSubscribed]

/-- A subscription stays in the client, or is to be taken out of the hub. -/
theorem Client.held_unsubscribing (client : Client) (other : String) {channel : String}
    (held : client.isSubscribed channel) :
    (client.unsubscribing other).1.isSubscribed channel ∨
      .unsubscribe client.id channel ∈ (client.unsubscribing other).2 := by
  by_cases same : other = channel
  · subst same
    right
    obtain ⟨state, found⟩ := Option.isSome_iff_exists.mp held
    simp [unsubscribing, found]
  · left
    have apart : channel ≠ other := Ne.symm same
    unfold unsubscribing
    split
    next => exact held
    next => simpa [isSubscribed, Map.lookup_erase_eq, apart] using held

theorem Access.not_drops_of_plain {a : Access} (h : a.plain) : ¬ (Op.access a).Drops := by
  unfold Op.Drops
  split
  · next same => cases same
  · next same =>
      cases same
      cases h
  · exact not_false

namespace Course

variable {node : Node} {client : Client} {reader reader' : Reader} {shared shared' : Shared}
  {op : Op} {rest more work : List Op}

theorem of_plain {accesses : List Access} (plain : ∀ a ∈ accesses, a.plain) :
    Course client (accesses.map .access) := by
  refine .handling (.of_plain plain) fun op mem => ?_
  obtain ⟨a, inside, rfl⟩ := List.mem_map.mp mem
  exact Access.not_drops_of_plain (plain a inside)

theorem nil : Course client [] := .handling trivial (by simp)

theorem subscribing_others (client : Client) (channel : String) (state : SubState) {last : Op}
    (other : ¬ last.Drops) :
    ∀ op ∈ (client.subscribing channel state).map .access ++ [last], ¬ op.Drops := by
  intro op mem
  obtain mem | mem := List.mem_append.mp mem
  · obtain ⟨a, inside, rfl⟩ := List.mem_map.mp mem
    unfold Client.subscribing at inside
    obtain rfl | later := List.mem_cons.mp inside
    · exact not_false
    · split at later
      · rw [List.mem_singleton.mp later]
        exact not_false
      · cases later
  · rw [List.mem_singleton.mp mem]
    exact other

/-- An operation of a course. -/
theorem exec (ran : op.Ran node reader shared reader' shared' more)
    (course : Course reader.client (op :: rest)) : Course reader'.client (more ++ rest) := by
  cases course with
  | handling followed others =>
      have later : Followed rest := followed.2
      have silent : ∀ next ∈ rest, ¬ next.Drops := fun next mem =>
        others next (List.mem_cons_of_mem _ mem)
      suffices Followed more ∧ ∀ next ∈ more, ¬ next.Drops by
        refine .handling (this.1.append later) fun next mem => ?_
        exact (List.mem_append.mp mem).elim (this.2 next) (silent next)
      cases ran with
      | accessed ran =>
          obtain ⟨_, rfl⟩ := Access.exec_eq ran
          refine ⟨.of_plain fun b mem => Access.plain_more mem, fun next mem => ?_⟩
          obtain ⟨b, follows, rfl⟩ := List.mem_map.mp mem
          exact Access.not_drops_of_plain (Access.plain_more follows)
      | registering _ _ _ _ _ => exact ⟨by simp [Followed], by simp [Op.Drops]⟩
      | joining _ _ _ _ _ channel _ =>
          exact ⟨.subscribing _ _ _ rfl, subscribing_others _ _ _ not_false⟩
      | reported _ _ _ _ _ _ _ _ _ => exact ⟨.single rfl, by simp [Op.Drops]⟩
      | absent _ _ => exact absurd trivial (others _ List.mem_cons_self)
      | unsubscribed _ _ _ _ => exact absurd trivial (others _ List.mem_cons_self)
      | _ => exact ⟨trivial, by simp⟩
  | dropping accesses push channels plain told same =>
      cases accesses with
      | cons a accesses =>
          obtain ⟨rfl, rfl⟩ := List.cons.inj same
          cases ran with
          | accessed ran =>
              obtain ⟨_, rfl⟩ := Access.exec_eq ran
              refine .dropping (a.more node shared ++ accesses) push channels ?_ told (by simp)
              intro b mem
              obtain next | old := List.mem_append.mp mem
              · exact Access.plain_more next
              · exact plain b (List.mem_cons_of_mem _ old)
      | nil =>
          obtain rfl | ⟨tx, channel, rfl, free⟩ := told
          · cases channels with
            | nil => cases same
            | cons channel channels =>
                obtain ⟨rfl, rfl⟩ := List.cons.inj same
                cases ran with
                | absent _ _ => exact .dropping [] [] channels (by simp) (.inl rfl) rfl
                | unsubscribed _ _ push pushed =>
                    refine .dropping _ push channels (Client.plain_unsubscribing _) ?_ rfl
                    refine pushed.imp_right fun pushed => ?_
                    obtain ⟨tx, rfl⟩ := pushed
                    exact ⟨tx, channel, rfl, Client.isSubscribed_unsubscribing_self _⟩
          · obtain ⟨rfl, rfl⟩ := List.cons.inj same
            cases ran with
            | accessed ran =>
                obtain ⟨_, rfl⟩ := Access.exec_eq ran
                exact .dropping [] [] channels (by simp) (.inl rfl) rfl

theorem begin {event : Event} (begun : reader.Begun node shared event reader' shared' work) :
    Course reader'.client work := by
  cases begun with
  | pinged _ => exact .of_plain (Client.plain_refreshing _)
  | dropping _ channels _ => exact .dropping [] [] channels (by simp) (.inl rfl) rfl
  | closing _ _ _ _ => exact @of_plain _ [_] (by simp [Access.plain])
  | command readings cmd cmds replies _ commanded =>
      cases commanded with
      | connecting _ _ _ _ => exact .handling (.single rfl) (by simp [Op.Drops])
      | subscribing req _ _ _ _ =>
          exact .handling (.subscribing _ _ _ rfl) (subscribing_others _ _ _ not_false)
      | publishing _ _ _ _ => exact .handling (by simp [Followed]) (by simp [Op.Drops])
      | unsubscribing channel _ =>
          have plain := @Client.plain_unsubscribing reader.client channel
          refine .handling ((Followed.of_plain plain).append (.single rfl)) fun op mem => ?_
          obtain mem | mem := List.mem_append.mp mem
          · obtain ⟨a, inside, rfl⟩ := List.mem_map.mp mem
            exact Access.not_drops_of_plain (plain a inside)
          · rw [List.mem_singleton.mp mem]
            exact not_false
      | _ => exact .nil
  | flushed disconnect _ _ =>
      have plain := reader.client.plain_flushing
      cases disconnect with
      | none =>
          rw [Option.map_none, Option.toList_none, List.append_nil]
          exact .of_plain plain
      | some d =>
          refine @of_plain _ (reader.client.flushing.2 ++ [.put reader.client.tx (.close d)])
            ?_ |> fun course => by simpa using course
          intro a mem
          obtain mem | mem := List.mem_append.mp mem
          · exact plain a mem
          · rw [List.mem_singleton.mp mem]
            rfl
  | left _ => exact .of_plain (Client.plain_disconnecting _)
  | _ => exact .nil

end Course

/-! ## Subscribers in the hub -/

/-- The operation makes the session agree with the hub on the channel: it enters the channel, or
takes the session out of the shard of the channel. -/
def Op.Resolves (id : ClientId) (shard : Fin 16) (channel : String) : Op → Prop
  | .access (.unsubscribe other ch) => other = id ∧ ch = channel
  | .access (.removeConn other _) => other = id
  | .access (.sweep other i) => other = id ∧ i = shard
  | op => op.Enters channel

/-- The session holds the channel, or has work to do about it. -/
def Job.Accounts (shard : Fin 16) (job : Job) (channel : String) : Prop :=
  job.reader.client.isSubscribed channel ∨
    ∃ op ∈ job.work, op.Resolves job.reader.client.id shard channel

theorem Op.resolves_of_enters {op : Op} {id : ClientId} {shard : Fin 16} {channel : String}
    (h : op.Enters channel) : op.Resolves id shard channel := by
  cases op with
  | access a => cases h
  | _ => exact h

theorem Access.sweep_mem_more {node : Node} {s : Shared} {id : ClientId} {slow : Option QueueId}
    (shard : Fin 16) : .sweep id shard ∈ (removeConn id slow).more node s := by
  have mem : sweep id shard ∈ sweeps id := List.mem_map.mpr ⟨shard, List.mem_finRange shard, rfl⟩
  rw [more]
  split
  · exact List.mem_cons_of_mem _ (List.mem_append_left _ mem)
  · exact mem

namespace Job.Accounts

variable {node : Node} {reader reader' : Reader} {shared shared' : Shared} {channel : String}
  {work : List Op}

theorem exec {op : Op} {rest more : List Op}
    (ran : op.Ran node reader shared reader' shared' more)
    (h : Job.Accounts (shared.world.hub.hash channel) ⟨reader, op :: rest⟩ channel)
    (listed : reader.client.id ∈ shared'.world.hub.subscriberIds channel) :
    Job.Accounts (shared.world.hub.hash channel) ⟨reader', more ++ rest⟩ channel := by
  have same : reader'.client.id = reader.client.id := ran.client.1
  -- what is left to do stays so, and the operation itself leaves something to do or a result
  suffices reader.client.isSubscribed channel ∨
      op.Resolves reader.client.id (shared.world.hub.hash channel) channel →
      reader'.client.isSubscribed channel ∨ ∃ next ∈ more,
        next.Resolves reader.client.id (shared.world.hub.hash channel) channel by
    have now : (reader.client.isSubscribed channel ∨
        op.Resolves reader.client.id (shared.world.hub.hash channel) channel) ∨
        ∃ next ∈ rest, next.Resolves reader.client.id (shared.world.hub.hash channel) channel := by
      obtain held | ⟨next, mem, resolves⟩ := h
      · exact .inl (.inl held)
      · obtain rfl | later := List.mem_cons.mp mem
        · exact .inl (.inr resolves)
        · exact .inr ⟨next, later, resolves⟩
    rw [Job.Accounts, same]
    obtain first | ⟨next, mem, resolves⟩ := now
    · refine (this first).imp_right fun found => ?_
      obtain ⟨next, mem, resolves⟩ := found
      exact ⟨next, List.mem_append_left _ mem, resolves⟩
    · exact .inr ⟨next, List.mem_append_right _ mem, resolves⟩
  rintro (held | resolves)
  · cases ran with
    | overLimit _ _ _ _ => exact .inl held
    | registering _ _ _ _ client =>
        subst client
        exact .inl held
    | reported _ _ _ _ _ other _ after read =>
        subst read
        left
        rw [Reader.resume_client, Session.report_client]
        simp only [Client.isSubscribed, Map.lookup_insert_eq] at held ⊢
        split
        · rfl
        · exact held
    | subscribed _ _ req _ _ after finished =>
        subst finished
        left
        simp only [Reader.answer_client, Reader.resume_client, Session.finishSubscribe_client]
        simp only [Client.isSubscribed, Map.lookup_insert_eq] at held ⊢
        split
        · rfl
        · exact held
    | unsubscribed other _ push _ =>
        refine (reader.client.held_unsubscribing other held).imp_right fun mem => ?_
        exact ⟨_, List.mem_map_of_mem (List.mem_append_left _ mem), rfl, rfl⟩
    | _ => exact .inl held
  · cases ran with
    | @accessed a _ _ ran =>
        obtain ⟨rfl, rfl⟩ := Access.exec_eq ran
        cases a with
        | unsubscribe other ch =>
            obtain ⟨rfl, rfl⟩ := resolves
            exact absurd ⟨rfl, rfl⟩ (Hub.mem_unsubscribe.mp listed).1
        | removeConn other slow =>
            cases resolves
            exact .inr ⟨_, List.mem_map_of_mem (Access.sweep_mem_more _), rfl, rfl⟩
        | sweep other shard =>
            obtain ⟨rfl, rfl⟩ := resolves
            exact absurd ⟨rfl, rfl⟩ (Hub.mem_sweep.mp listed).1
        | _ => cases resolves
    | reported _ _ _ _ _ other _ after read =>
        subst read
        left
        cases resolves
        rw [Reader.resume_client, Session.report_client]
        simp [Client.isSubscribed]
    | subscribed _ _ req _ _ after finished =>
        subst finished
        left
        cases resolves
        simp only [Reader.answer_client, Reader.resume_client, Session.finishSubscribe_client]
        simp [Client.isSubscribed]
    | _ => cases resolves

theorem begin {event : Event} (begun : reader.Begun node shared event reader' shared' work)
    (held : reader.client.isSubscribed channel) {shard : Fin 16} :
    Job.Accounts shard ⟨reader', work⟩ channel := by
  cases begun with
  | settled _ _ _ _ client =>
      left
      show reader'.client.isSubscribed channel
      rw [client]
      exact held
  | command readings cmd cmds replies _ commanded =>
      cases commanded with
      | unsubscribing other _ =>
          have id := (reader.client.unsubscribing_connection other).1
          refine (reader.client.held_unsubscribing other held).imp_right fun mem => ?_
          exact ⟨_, List.mem_append_left _ (List.mem_map_of_mem mem), id.symm, rfl⟩
      | instant after _ method effect =>
          left
          show (((reader.resume shared after.1).1).client).isSubscribed channel
          rw [Reader.resume_client, (effect.client_of_instant method).2]
          exact held
      | _ => exact .inl held
  | left _ =>
      refine .inr ⟨.access (.removeConn reader.client.id none), ?_, rfl⟩
      exact List.mem_map_of_mem (List.mem_append_right _ List.mem_cons_self)
  | _ => exact .inl held

end Job.Accounts

/-- The work of every session is a course, and the hub lists it for nothing else than what it
accounts for. -/
structure Accounted (s : Server) : Prop where
  course : ∀ {i : Nat} {job : Job}, s.jobs[i]? = some job → Course job.reader.client job.work
  listed : ∀ {i : Nat} {job : Job} {channel : String}, s.jobs[i]? = some job →
    job.reader.client.id ∈ s.shared.world.hub.subscriberIds channel →
      job.Accounts (s.shared.world.hub.hash channel) channel

theorem Server.Step.hash {node : Node} {s s' : Server} {turn : Turn} (seated : Seated s)
    (move : Step node s turn s') : s'.shared.world.hub.hash = s.shared.world.hub.hash := by
  cases move.outline seated with
  | @access a _ _ _ _ _ shared _ =>
      rw [shared, Access.perform_hub]
      cases a <;> rfl
  | registering _ _ _ _ _ shared _ => rw [shared]
  | quiet _ _ quiet => rw [quiet.hub]

namespace Accounted

variable {node : Node} {s s' : Server} {turn : Turn}

theorem course_step (h : Accounted s) (move : Server.Step node s turn s') {i : Nat} {job' : Job}
    (found : s'.jobs[i]? = some job') : Course job'.reader.client job'.work := by
  cases move.moved with
  | accepted _ _ =>
      obtain old | ⟨_, rfl⟩ := getElem?_append_singleton found
      · exact h.course old
      · exact .nil
  | began there _ _ begun =>
      obtain ⟨rfl, rfl⟩ | ⟨_, old⟩ := getElem?_set_of_some found
      · exact .begin (Reader.begin_begun begun)
      · exact h.course old
  | worked there ran =>
      obtain ⟨rfl, rfl⟩ | ⟨_, old⟩ := getElem?_set_of_some found
      · exact (h.course there).exec (Op.exec_ran ran)
      · exact h.course old
  | _ => exact h.course found

/-- A session that is about to enter a channel in the hub accounts for it. -/
theorem entering (h : Accounted s) {i : Nat} {job : Job} (found : s.jobs[i]? = some job)
    {id : ClientId} {channel : String} {shard : Fin 16}
    (mem : .access (.subscribe id channel) ∈ job.work) : job.Accounts shard channel := by
  have course := h.course found
  right
  cases course with
  | handling followed _ =>
      obtain ⟨op, rest, same⟩ := List.exists_cons_of_ne_nil (List.ne_nil_of_mem mem)
      rw [same] at followed mem ⊢
      obtain ⟨next, inside, enters⟩ := followed.enters mem
      exact ⟨next, List.mem_cons_of_mem _ inside, Op.resolves_of_enters enters⟩
  | dropping accesses push channels plain told same =>
      rw [same] at mem
      obtain mem | mem := List.mem_append.mp mem
      · obtain ⟨a, inside, entry⟩ := List.mem_map.mp mem
        cases entry
        obtain inside | inside := List.mem_append.mp inside
        · cases plain _ inside
        · obtain rfl | ⟨tx, ch, rfl, _⟩ := told
          · cases inside
          · cases List.mem_singleton.mp inside
      · obtain ⟨_, _, same⟩ := List.mem_map.mp mem
        cases same

theorem step (h : Accounted s) (registry : Registry s) (move : Server.Step node s turn s') :
    Accounted s' := by
  refine ⟨h.course_step move, ?_⟩
  intro i job' channel found listed
  obtain ⟨job, there, same, before⟩ := move.subscriber_cases registry found listed
  have accounts : job.Accounts (s.shared.world.hub.hash channel) channel :=
    before.elim (h.listed there) (h.entering there)
  rw [move.hash registry.seated]
  cases move.moved with
  | accepted _ _ =>
      obtain old | ⟨here, rfl⟩ := getElem?_append_singleton found
      · rw [there] at old
        cases old
        exact accounts
      · rw [List.getElem?_eq_none here.le] at there
        cases there
  | began at' _ prepared begun =>
      obtain ⟨rfl, rfl⟩ | ⟨_, old⟩ := getElem?_set_of_some found
      · rw [there] at at'
        cases at'
        obtain held | ⟨_, mem, _⟩ := accounts
        · exact .begin (Reader.begin_begun begun) held
        · cases mem
      · rw [there] at old
        cases old
        exact accounts
  | worked at' ran =>
      obtain ⟨rfl, rfl⟩ | ⟨_, old⟩ := getElem?_set_of_some found
      · rw [there] at at'
        cases at'
        exact accounts.exec (Op.exec_ran ran) (same ▸ listed)
      · rw [there] at old
        cases old
        exact accounts
  | _ =>
      rw [there] at found
      cases found
      exact accounts

theorem initial (h : s.Initial) : Accounted s := by
  obtain ⟨hash, ttl, verifier, rfl⟩ := h
  exact ⟨by simp, by simp⟩

theorem of_reached (h : Server.Reached node s) : Accounted s := by
  have both : Registry s ∧ Accounted s :=
    h.invariant (fun s => Registry s ∧ Accounted s)
      (fun _ start => ⟨.initial start, initial start⟩)
      fun _ _ _ here move => ⟨here.1.step move, here.2.step here.1 move⟩
  exact both.2

/-- A session that neither holds a channel nor has work to do about it is free of it. -/
theorem free (h : Accounted s) {i : Nat} {channel : String} {job : Job}
    (found : s.jobs[i]? = some job) (held : job.reader.client.isSubscribed channel = false)
    (idle : ∀ op ∈ job.work, ¬ op.Takes node channel ∧
      ¬ op.Resolves job.reader.client.id (s.shared.world.hub.hash channel) channel) :
    s.Free node i channel := by
  have only : ∀ {other : Job}, s.jobs[i]? = some other → other = job := by
    intro other there
    rw [found] at there
    exact (Option.some.inj there).symm
  refine ⟨fun there => ?_, fun there listed => ?_⟩
  · obtain rfl := only there
    exact ⟨held, fun op mem => (idle op mem).1⟩
  · obtain rfl := only there
    obtain holds | ⟨op, mem, resolves⟩ := h.listed there listed
    · rw [held] at holds
      cases holds
    · exact (idle op mem).2 resolves

end Accounted

/-! ## Acknowledgements -/

/-- The next command of the session is an UNSUBSCRIBE for the channel. -/
def Server.Asks (node : Node) (s : Server) (i : Nat) (channel : String) : Prop :=
  ∃ reader cmd cmds replies, s.jobs[i]? = some ⟨reader, []⟩ ∧
    reader.phase = .batch (cmd :: cmds) replies ∧ reader.client.authenticated ∧ cmd.id ≠ 0 ∧
    cmd.method = .unsubscribe ∧ (reader.session s.shared).checkUnsubscribe node cmd = .ok channel

/-- The last turn queued what tells the client of the end of its subscription: the replies of a
frame with an UNSUBSCRIBE, after which the session did not subscribe to the channel, or the Unsub
push. -/
inductive Acked (node : Node) (i : Nat) (channel : String) : Server → Prop
  | replied {s₀ s₁ s₂ s : Server} {readings : Readings} {turns : List Turn}
      (reached : Server.Reached node s₀) (asks : s₀.Asks node i channel)
      (handled : Server.Step node s₀ (.event i (.command readings)) s₁)
      (run : Steps (guarded (Server.Step node) fun k turn => ¬ Authorizes node k i channel turn)
        s₁ turns s₂)
      (reply : Server.Step node s₂ (.event i .reply) s) : Acked node i channel s
  | pushed {s₂ s : Server} {reader : Reader} {tx : QueueId} {rest : List Op}
      (reached : Server.Reached node s₂)
      (found : s₂.jobs[i]? = some ⟨reader, .access (.put tx (.frame (.unsub channel))) :: rest⟩)
      (put : Server.Step node s₂ (.work i) s) : Acked node i channel s

theorem Server.Asks.free {node : Node} {s s' : Server} {i : Nat} {channel : String}
    {readings : Readings} (h : s.Asks node i channel)
    (move : Server.Step node s (.event i (.command readings)) s') {job : Job}
    (found : s'.jobs[i]? = some job) : Job.Free node job channel := by
  obtain ⟨reader, cmd, cmds, replies, there, phase, authenticated, id, method, checked⟩ := h
  cases move.moved with
  | began there' _ prepared begun =>
      rw [there] at there'
      cases there'
      cases prepared
      have checked : (Reader.session { reader with phase := .batch cmds replies }
          s.shared).checkUnsubscribe node cmd = .ok channel := checked
      simp only [Reader.begin, phase, id, false_and, if_false, Reader.onCommand, authenticated,
        Bool.true_or, Bool.not_true, Bool.false_eq_true, method, checked, Option.some.injEq,
        Prod.mk.injEq] at begun
      obtain ⟨⟨rfl, rfl⟩, rfl⟩ := begun
      rw [List.getElem?_set_self (List.getElem?_eq_some_iff.mp there).1] at found
      cases found
      refine ⟨Client.isSubscribed_unsubscribing_self _, fun op mem => ?_⟩
      obtain mem | mem := List.mem_append.mp mem
      · obtain ⟨a, inside, rfl⟩ := List.mem_map.mp mem
        exact Access.not_takes_of_plain (Client.plain_unsubscribing _ a inside)
      · rw [List.mem_singleton.mp mem]
        exact not_false

/-- With the acknowledgement, the session is free of the channel. -/
theorem Acked.free {node : Node} {i : Nat} {channel : String} {s : Server}
    (h : Acked node i channel s) : Server.Reached node s ∧ s.Free node i channel := by
  cases h with
  | @replied s₀ s₁ s₂ _ readings turns reached asks handled run reply =>
      have reached₂ : Server.Reached node s₂ := by
        refine run.invariant (Server.Reached node) (fun _ _ _ here move => .next here move.2) ?_
        exact .next reached handled
      refine ⟨.next reached₂ reply, ?_⟩
      have free : ∀ {job}, s₂.jobs[i]? = some job → Job.Free node job channel := by
        refine run.invariant (fun k => ∀ {job}, k.jobs[i]? = some job → Job.Free node job channel)
          ?_ fun found => asks.free handled found
        intro k turn k' here move
        exact (Server.Free.job_step here move.2).resolve_right move.1
      cases reply.moved with
      | began there _ _ _ =>
          have idle : s₂.Free node i channel :=
            (Accounted.of_reached reached₂).free there (free there).unsubscribed (by simp)
          exact (idle.step (.of_reached reached₂) reply).resolve_right (by rintro ⟨⟩)
  | @pushed s₂ _ reader tx rest reached found put =>
      refine ⟨.next reached put, ?_⟩
      have accounted := Accounted.of_reached reached
      have idle : s₂.Free node i channel := by
        have course := accounted.course found
        cases course with
        | handling _ others => exact absurd trivial (others _ List.mem_cons_self)
        | dropping accesses push channels plain told same =>
            cases accesses with
            | cons a accesses =>
                obtain ⟨first, _⟩ := List.cons.inj same
                cases first
                cases plain _ List.mem_cons_self
            | nil =>
                obtain rfl | ⟨tx, ch, rfl, held⟩ := told
                · cases channels <;> cases same
                · cases same
                  refine accounted.free found held fun op mem => ?_
                  obtain rfl | later := List.mem_cons.mp mem
                  · exact ⟨not_false, not_false⟩
                  · obtain ⟨_, _, rfl⟩ := List.mem_map.mp later
                    exact ⟨not_false, not_false⟩
      exact (idle.step (.of_reached reached) put).resolve_right (by rintro ⟨⟩)

/-! ## Broadcasts after an acknowledgement -/

/-- The channel of a Publication, Join or Leave. -/
def Sent.channel? : Sent → Option String
  | .publication ch _ | .join ch _ | .leave ch _ => some ch
  | .replies _ | .unsub _ => none

theorem NodeMessage.channel?_toPush (message : NodeMessage) (useSeqGen : Bool) :
    (message.toPush useSeqGen).channel? = some message.channel := by
  cases message with
  | publication ch body =>
      rw [toPush]
      split <;> rfl
  | _ => rfl

/-- A broadcast that is new in the log copied the subscribers just now. -/
theorem Server.Step.copied {node : Node} {s s' : Server} {turn : Turn} (seated : Seated s)
    (move : Server.Step node s turn s') :
    ∃ facts, s'.shared.log = s.shared.log ++ facts ∧ ∀ message handles,
      .copied message handles ∈ facts →
        handles = s.shared.world.hub.subscribers message.channel := by
  obtain ⟨facts, log, origin⟩ := move.facts seated
  refine ⟨facts, log, fun message handles mem => ?_⟩
  obtain aside | ⟨a, _, _, _, rfl⟩ := origin
  · cases aside _ mem
  · exact (Access.copied_of_facts mem).2.2

/-- No broadcast copies a session that is free of its channel. -/
theorem Server.Free.not_copied {node : Node} {s : Server} {i : Nat} {channel : String}
    (free : s.Free node i channel) (registry : Registry s) {handle : ClientHandle}
    (mem : handle ∈ s.shared.world.hub.subscribers channel) : handle.tx ≠ i := by
  rintro rfl
  obtain ⟨id, listed, found⟩ := Hub.mem_subscribers.mp mem
  obtain ⟨rfl, job, there, _, same, _⟩ := registry.conns found
  exact free.hub there (same.symm ▸ listed)

/-- What a session gets of a channel after it was told the end of its subscription. -/
structure Muted (i : Nat) (channel : String) (s₁ s : Server) : Prop where
  log : s₁.shared.log <+: s.shared.log
  /-- No later broadcast to the channel copies the session. -/
  copied : ∀ {n message handles}, s₁.shared.log.length ≤ n →
    s.shared.log[n]? = some (.copied message handles) → message.channel = channel →
    ∀ handle ∈ handles, handle.tx ≠ i
  /-- A push of the channel that is offered later is one of a broadcast that had copied the
  session before. -/
  offered : ∀ {p n push handle delivery}, s₁.shared.log.length ≤ p →
    s.shared.log[p]? = some (.offered n push handle delivery) → push.channel? = some channel →
    handle.tx = i → ∃ message handles,
      s₁.shared.log[n]? = some (.copied message handles) ∧ handle ∈ handles
  /-- Nothing else is put into a queue. -/
  queued : Queued s

theorem unsubscribed_muted {node : Node} {i : Nat} {channel : String} {s₁ s : Server}
    {turns : List Turn} (acked : Acked node i channel s₁)
    (run : Steps (guarded (Server.Step node) fun k turn => ¬ Authorizes node k i channel turn)
      s₁ turns s) :
    Muted i channel s₁ s := by
  obtain ⟨reached, free⟩ := acked.free
  have all : Server.Reached node s ∧ s.Free node i channel ∧
      ∃ facts, s.shared.log = s₁.shared.log ++ facts ∧ ∀ message handles,
        .copied message handles ∈ facts → message.channel = channel →
          ∀ handle ∈ handles, handle.tx ≠ i := by
    refine run.invariant (fun k => Server.Reached node k ∧ k.Free node i channel ∧
      ∃ facts, k.shared.log = s₁.shared.log ++ facts ∧ ∀ message handles,
        .copied message handles ∈ facts → message.channel = channel →
          ∀ handle ∈ handles, handle.tx ≠ i) ?_ ⟨reached, free, [], by simp, by simp⟩
    rintro k turn k' ⟨reached, free, facts, log, away⟩ ⟨allowed, move⟩
    have registry := Registry.of_reached reached
    obtain ⟨new, log', copies⟩ := move.copied registry.seated
    refine ⟨.next reached move, (free.step registry move).resolve_right allowed, facts ++ new,
      by rw [log', log, List.append_assoc], fun message handles mem same handle inside => ?_⟩
    obtain old | now := List.mem_append.mp mem
    · exact away message handles old same handle inside
    · rw [copies message handles now, same] at inside
      exact free.not_copied registry inside
  obtain ⟨reached, _, facts, log, away⟩ := all
  have copied : ∀ {n message handles}, s₁.shared.log.length ≤ n →
      s.shared.log[n]? = some (.copied message handles) → message.channel = channel →
      ∀ handle ∈ handles, handle.tx ≠ i := by
    intro n message handles later found
    rw [log, List.getElem?_append_right later] at found
    exact away message handles (List.mem_of_getElem? found)
  refine ⟨⟨facts, log.symm⟩, copied, ?_, .of_reached reached⟩
  intro p n push handle delivery _ found same mine
  obtain ⟨message, handles, sent, inside, rfl⟩ :=
    (Offered.of_reached reached).logged (List.mem_of_getElem? found)
  rw [message.channel?_toPush, Option.some.injEq] at same
  refine ⟨message, handles, ?_, inside⟩
  by_cases later : s₁.shared.log.length ≤ n
  · exact absurd mine (copied later sent same handle inside)
  · rwa [log, List.getElem?_append_left (not_le.mp later)] at sent

/-! ## A late push -/

namespace Sample

/-- A reader of the news, between two frames. -/
def settledReader : List Turn :=
  joined ++ [.work 0, .event 0 (commandAs "7c3e"), .event 0 .reply, .event 0 .flush]

/-- The news are on their way when the server unsubscribes the reader. The Unsub push is next. -/
def unsubscribing : List Turn := settledReader ++ [
  .spawn (.fanOut (.publication "news" { data := some ⟨[123, 125]⟩ })), .task 0,
  .spawn (.control (.unsubscribe "42" "news")), .task 1, .task 1,
  .event 0 (.signal (.unsubscribe "news")), .work 0, .work 0]

theorem acked_unsubscribing : Acked pressNode 0 "news"
    (after pressNode (unsubscribing ++ [.work 0])) := by
  have reached : Server.Reached pressNode (after pressNode unsubscribing) :=
    after_reached (by decide +kernel)
  have put : Server.Step pressNode (after pressNode unsubscribing) (.work 0)
      (after pressNode (unsubscribing ++ [.work 0])) := rfl
  exact .pushed reached rfl put

/-- The broadcast goes on. -/
theorem late_push : Steps (guarded (Server.Step pressNode)
      fun k turn => ¬ Authorizes pressNode k 0 "news" turn)
    (after pressNode (unsubscribing ++ [.work 0])) [.task 0]
    (after pressNode (unsubscribing ++ [.work 0, .task 0])) :=
  .cons ⟨by rintro ⟨⟩, rfl⟩ (.nil _)

end Sample

open Sample

theorem unsubscribed_muted_late : Muted 0 "news" (after pressNode (unsubscribing ++ [.work 0]))
    (after pressNode (unsubscribing ++ [.work 0, .task 0])) :=
  unsubscribed_muted acked_unsubscribing late_push

/-- A push of the channel is placed after the Unsub push. -/
theorem not_unsubscribed_muted_late :
    ¬ ∀ (node : Node) (i : Nat) (channel : String) (s₁ s : Server) (turns : List Turn) (p n : Nat)
      (push : Sent) (handle : ClientHandle), Acked node i channel s₁ →
      Steps (guarded (Server.Step node) fun k turn => ¬ Authorizes node k i channel turn)
        s₁ turns s →
      s₁.shared.log.length ≤ p → push.channel? = some channel → handle.tx = i →
      s.shared.log[p]? ≠ some (.offered n push handle .placed) := by
  intro all
  exact all pressNode 0 "news" _ _ _ 6 2 (.publication "news" { data := some ⟨[123, 125]⟩ })
    ⟨"7c3d", "42", .protobuf, 0, some 0⟩ acked_unsubscribing late_push (by decide +kernel) rfl rfl
    (by decide +kernel)

end Centrifugo
