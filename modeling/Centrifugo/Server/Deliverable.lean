import Centrifugo.Server.Disconnect
import Centrifugo.Server.Signals
import Centrifugo.Server.SlowConsumer

/-!
# Deliverable subscribers

A session that holds a channel is among those to which broadcasts of the channel go, unless a
broadcast has dropped its connection. Then a close of the connection is scheduled.
-/

namespace Centrifugo

open Server

namespace Server

variable {node : Node} {s s' : Server} {turn : Turn}

/-- A scheduled close is not forgotten. -/
theorem closes_mono (registry : Registry s) (move : Step node s turn s') (tx : QueueId) :
    s.closes tx ≤ s'.closes tx := by
  cases move.outline registry.seated with
  | access _ here _ _ shared there =>
      rw [closes_access here shared there tx]
      exact Nat.le_add_right _ _
  | registering _ _ _ _ _ shared pending => exact (closes_registering shared pending tx).ge
  | quiet pending starts quiet => exact (closes_quiet pending starts quiet tx).ge

end Server

/-- On the way out, the session holds nothing and asks for nothing. -/
structure Job.Parting (job : Job) : Prop where
  closing : job.reader.phase.closing
  free : ∀ channel, job.reader.client.isSubscribed channel = false
  idle : ∀ op ∈ job.work, op.joins = false

/-- An event on the way out. -/
theorem Reader.joins_begin {node : Node} {r r' : Reader} {s s' : Shared} {event : Event}
    {ops : List Op} (h : r.begin s node event = some ((r', s'), ops)) (closing : r.phase.closing) :
    ∀ op ∈ ops, op.joins = false := by
  have begun := begin_begun h
  cases begun with
  | settled _ _ _ _ _ => simp
  | closing _ _ _ _ =>
      intro op mem
      rw [List.mem_singleton.mp mem]
      rfl
  | pinged reading =>
      rw [reading] at closing
      cases closing
  | dropping _ _ reading =>
      rw [reading] at closing
      cases closing
  | command _ _ _ _ phase _ =>
      rw [phase] at closing
      cases closing
  | replied _ _ _ _ => simp
  | flushed disconnect _ _ =>
      intro op mem
      obtain mem | mem := List.mem_append.mp mem
      · obtain ⟨a, inside, rfl⟩ := List.mem_map.mp mem
        obtain ⟨join, _, rfl⟩ := List.mem_map.mp inside
        rfl
      · obtain ⟨d, _, rfl⟩ := Option.map_eq_some_iff.mp (Option.mem_toList.mp mem)
        rfl
  | left _ =>
      intro op mem
      obtain ⟨a, inside, rfl⟩ := List.mem_map.mp mem
      exact Client.joins_disconnecting _ inside

namespace Job.Parting

variable {node : Node} {reader reader' : Reader} {shared shared' : Shared}

theorem begin {event : Event} {ops : List Op} (h : Job.Parting ⟨reader, []⟩)
    (begun : reader.begin shared node event = some ((reader', shared'), ops)) :
    Job.Parting ⟨reader', ops⟩ :=
  ⟨Reader.closing_begin begun h.closing, (Reader.begin_begun begun).narrows.isSubscribed h.free,
    Reader.joins_begin begun h.closing⟩

theorem exec {op : Op} {rest more : List Op} (h : Job.Parting ⟨reader, op :: rest⟩)
    (ran : op.exec node (reader, shared) = some ((reader', shared'), more))
    (other : ∀ readings cmd creds, op ≠ .register readings cmd creds) :
    Job.Parting ⟨reader', more ++ rest⟩ := by
  have now := h.idle op List.mem_cons_self
  suffices (∀ channel, reader'.client.isSubscribed channel = false) ∧
      ∀ next ∈ more, next.joins = false by
    refine ⟨Op.closing_exec ran h.closing, this.1, ?_⟩
    intro next mem
    obtain new | old := List.mem_append.mp mem
    · exact this.2 next new
    · exact h.idle next (List.mem_cons_of_mem _ old)
  cases Op.exec_ran ran with
  | accessed performed =>
      obtain ⟨_, rfl⟩ := Access.exec_eq performed
      refine ⟨h.free, ?_⟩
      intro next mem
      obtain ⟨b, follows, rfl⟩ := List.mem_map.mp mem
      exact Access.joins_more follows
  | overLimit readings cmd creds _ => exact absurd rfl (other readings cmd creds)
  | registering readings cmd creds _ _ => exact absurd rfl (other readings cmd creds)
  | answered _ => exact ⟨h.free, by simp⟩
  | absent _ _ => exact ⟨h.free, by simp⟩
  | unsubscribed channel held _ _ =>
      rw [h.free channel] at held
      cases held
  | _ => cases now

end Job.Parting

/-! ## Where a session stands -/

/-- A session registers in a frame, and removes its client at its end. -/
def Op.InPhase (phase : Phase) : Op → Prop
  | .register _ _ _ => ∃ cmds replies, phase = .batch cmds replies
  | .access (.removeConn _ none) => phase = .ended
  | _ => True

namespace Op.InPhase

variable {node : Node} {phase : Phase} {client : Client} {channel : String} {state : SubState}
  {op : Op}

theorem of_accesses {accesses : List Access} (own : ∀ a ∈ accesses, ∀ id, a ≠ .removeConn id none)
    (mem : op ∈ accesses.map .access) : op.InPhase phase := by
  obtain ⟨a, inside, rfl⟩ := List.mem_map.mp mem
  unfold InPhase
  split
  next same => cases same
  next id same => exact absurd (Op.access.inj same) (own a inside id)
  next => trivial

theorem leaving {a : Access} (mem : a ∈ client.leaving channel state) (id : ClientId) :
    a ≠ .removeConn id none := by
  rintro rfl
  unfold Client.leaving at mem
  obtain mem | mem := List.mem_append.mp mem
  · split at mem
    next => cases List.mem_singleton.mp mem
    next => cases mem
  · split at mem
    next => cases List.mem_singleton.mp mem
    next => cases mem

theorem subscribing {a : Access} (mem : a ∈ client.subscribing channel state) (id : ClientId) :
    a ≠ .removeConn id none := by
  rintro rfl
  unfold Client.subscribing at mem
  obtain same | mem := List.mem_cons.mp mem
  · cases same
  · split at mem
    next => cases List.mem_singleton.mp mem
    next => cases mem

theorem unsubscribing {a : Access} (mem : a ∈ (client.unsubscribing channel).2) (id : ClientId) :
    a ≠ .removeConn id none := by
  unfold Client.unsubscribing at mem
  split at mem
  next => cases mem
  next =>
    obtain mem | mem := List.mem_append.mp mem
    · exact leaving mem id
    · rw [List.mem_singleton.mp mem]
      intro same
      cases same

end Op.InPhase

theorem Reader.Begun.inPhase {node : Node} {r r' : Reader} {s s' : Shared} {event : Event}
    {ops : List Op} (h : Begun node r s event r' s' ops) {op : Op} (mem : op ∈ ops) :
    op.InPhase r'.phase := by
  cases h with
  | settled _ _ _ _ _ => cases mem
  | closing _ _ _ _ =>
      rw [List.mem_singleton.mp mem]
      trivial
  | pinged _ =>
      refine .of_accesses ?_ mem
      intro a inside id same
      subst same
      unfold Client.refreshing at inside
      split at inside
      next =>
        obtain ⟨_, _, same⟩ := List.mem_map.mp inside
        cases same
      next => cases inside
  | dropping _ _ _ =>
      obtain ⟨_, _, rfl⟩ := List.mem_map.mp mem
      trivial
  | command readings cmd cmds replies _ commanded =>
      cases commanded with
      | connecting _ _ _ _ =>
          rw [List.mem_singleton.mp mem]
          exact ⟨cmds, replies, rfl⟩
      | subscribing _ _ _ _ _ =>
          obtain mem | mem := List.mem_append.mp mem
          · exact .of_accesses (fun a inside => Op.InPhase.subscribing inside) mem
          · rw [List.mem_singleton.mp mem]
            trivial
      | publishing _ _ _ _ =>
          obtain rfl | mem := List.mem_cons.mp mem
          · trivial
          · rw [List.mem_singleton.mp mem]
            trivial
      | unsubscribing _ _ =>
          obtain mem | mem := List.mem_append.mp mem
          · exact .of_accesses (fun a inside => Op.InPhase.unsubscribing inside) mem
          · rw [List.mem_singleton.mp mem]
            trivial
      | _ => cases mem
  | replied _ _ _ _ => cases mem
  | flushed disconnect _ _ =>
      obtain mem | mem := List.mem_append.mp mem
      · obtain ⟨a, inside, rfl⟩ := List.mem_map.mp mem
        obtain ⟨join, _, rfl⟩ := List.mem_map.mp inside
        trivial
      · obtain ⟨d, _, rfl⟩ := Option.map_eq_some_iff.mp (Option.mem_toList.mp mem)
        trivial
  | left _ =>
      obtain ⟨a, inside, rfl⟩ := List.mem_map.mp mem
      obtain leaving | removal := List.mem_append.mp inside
      · obtain ⟨pair, _, inside⟩ := List.mem_flatMap.mp leaving
        exact .of_accesses (fun a inside => Op.InPhase.leaving inside)
          (List.mem_map.mpr ⟨a, inside, rfl⟩)
      · rw [List.mem_singleton.mp removal]
        rfl

namespace Op.Ran

variable {node : Node} {op : Op} {r r' : Reader} {s s' : Shared} {more : List Op}

/-- What follows from an operation neither registers nor leaves. -/
theorem inPhase_more (h : Ran node r s op r' s' more) {next : Op} (mem : next ∈ more)
    (phase : Phase) : next.InPhase phase := by
  cases h with
  | accessed ran =>
      obtain ⟨_, rfl⟩ := Access.exec_eq ran
      refine .of_accesses ?_ mem
      rintro a inside id rfl
      cases Access.owner_more inside
  | registering _ _ _ _ _ =>
      simp only [List.mem_cons, List.not_mem_nil, or_false] at mem
      obtain rfl | rfl | rfl := mem <;> trivial
  | joining _ _ _ _ _ _ _ =>
      obtain mem | mem := List.mem_append.mp mem
      · exact .of_accesses (fun a inside => Op.InPhase.subscribing inside) mem
      · rw [List.mem_singleton.mp mem]
        trivial
  | reported _ _ _ _ _ _ _ _ _ =>
      rw [List.mem_singleton.mp mem]
      trivial
  | unsubscribed channel _ push pushed =>
      refine .of_accesses ?_ mem
      intro a inside id
      obtain inside | inside := List.mem_append.mp inside
      · exact Op.InPhase.unsubscribing inside id
      · obtain rfl | ⟨tx, rfl⟩ := pushed
        · cases inside
        · rw [List.mem_singleton.mp inside]
          intro same
          cases same
  | _ => cases mem

/-- The phase after an operation: the same, unless it answers a command. -/
theorem ended_after (h : Ran node r s op r' s' more) (ended : r.phase = .ended) :
    r'.phase = .ended := by
  have answered : ∀ (r : Reader) outcome channels, r.phase = .ended →
      (r.answer outcome channels).phase = .ended := by
    intro r outcome channels ended
    simp [Reader.answer, ended]
  cases h with
  | overLimit _ _ _ _ => exact answered _ _ _ ended
  | connected _ _ _ _ _ => exact answered _ _ _ ended
  | subscribed _ _ _ _ _ _ _ => exact answered _ _ _ ended
  | answered _ => exact answered _ _ _ ended
  | _ => exact ended

end Op.Ran

namespace Server

variable {node : Node} {s s' : Server} {turn : Turn} {i : Nat} {job : Job}

theorem inPhase_of_reached (h : Reached node s) (found : s.jobs[i]? = some job) :
    ∀ op ∈ job.work, op.InPhase job.reader.phase := by
  have all : Reached node s ∧ ∀ {i : Nat} {job : Job}, s.jobs[i]? = some job →
      ∀ op ∈ job.work, op.InPhase job.reader.phase := by
    refine h.invariant (fun s => Reached node s ∧ ∀ {i : Nat} {job : Job},
      s.jobs[i]? = some job → ∀ op ∈ job.work, op.InPhase job.reader.phase) ?_ ?_
    · intro s start
      refine ⟨.start start, ?_⟩
      obtain ⟨hash, ttl, verifier, rfl⟩ := start
      intro i job found
      cases found
    · rintro s turn s' ⟨reached, all⟩ move
      refine ⟨reached.next move, ?_⟩
      intro i job found
      have seated : Seated s := .of_reached reached
      cases move.became found with
      | accepted _ _ _ =>
          intro op mem
          cases mem
      | began there _ begun =>
          intro op mem
          exact (Reader.begin_begun begun).inPhase mem
      | @worked reader reader' op rest more shared' there ran =>
          intro next mem
          obtain new | old := List.mem_append.mp mem
          · exact (Op.exec_ran ran).inPhase_more new _
          · have before := all there next (List.mem_cons_of_mem _ old)
            unfold Op.InPhase at before ⊢
            split
            next readings cmd creds =>
              -- a registration is all that its session has to do
              have stage : Stage reader.client (op :: rest) := (seated.seat there).stage
              cases stage with
              | counting _ _ _ _ _ => cases old
              | inserting _ _ _ _ _ _ _ => simp at old
              | indexing _ _ _ _ _ _ _ => simp at old
              | settled settled => cases settled _ (List.mem_cons_of_mem _ old)
            next id => exact (Op.exec_ran ran).ended_after before
            next => trivial
      | stayed there => exact all there
  exact all.2 found

/-! ## Anchors -/

/-- Where an authenticated session stands: it is registered, or about to be, or closed by a
broadcast, or on its way out. -/
inductive Anchored (s : Server) (job : Job) : Prop
  | registered {handle : ClientHandle}
      (found : s.shared.world.hub.conns.lookup job.reader.client.id = some handle)
  | registering {handle : ClientHandle} (due : .insertConn handle ∈ s.pending)
      (same : handle.id = job.reader.client.id)
  | dropped (closed : 1 ≤ s.closes job.reader.client.tx)
  | parting (parting : job.Parting)

/-- A connection that is no longer registered: a broadcast dropped it, or its session ends. -/
theorem anchored_of_removed {job' : Job} {handle : ClientHandle} (h : Reached node s)
    (move : Step node s turn s') (found : s.jobs[i]? = some job) (found' : s'.jobs[i]? = some job')
    (tx : job'.reader.client.tx = job.reader.client.tx)
    (authenticated : job.reader.client.authenticated)
    (registered : s.shared.world.hub.conns.lookup job.reader.client.id = some handle)
    (gone : s'.shared.world.hub.conns.lookup job.reader.client.id = none) : s'.Anchored job' := by
  have sound : Sound node s := .of_reached h
  have seated := sound.registry.seated
  have named := (seated.seat found).named authenticated
  cases move.outline seated with
  | @access a others current here place _ shared there =>
      have mem : a ∈ s.pending := here.mem_iff.mpr List.mem_cons_self
      rw [shared, Access.perform_hub] at gone
      cases a with
      | insertConn inserted =>
          rw [Access.hub, Hub.conns_insertConn, Map.lookup_insert_eq] at gone
          split at gone
          next => cases gone
          next =>
            rw [registered] at gone
            cases gone
      | removeConn removed slow =>
          rw [Access.hub, Hub.conns_removeConn, Map.lookup_erase_eq] at gone
          split at gone
          next same =>
            subst same
            cases slow with
            | some queue =>
                obtain ⟨rfl, issued, zero⟩ := sound.closes.drop sound.registry mem registered
                obtain ⟨other, there', _, id, _⟩ := issued
                have own := (sound.registry.conns registered).1
                have place := seated.distinct found there' (id.trans own).symm named
                refine .dropped ?_
                rw [tx, (seated.seat found).tx, place, closes_access here shared there,
                  Access.closes_drop registered, if_pos rfl]
                exact Nat.le_add_left _ _
            | none =>
                cases place with
                | task inside =>
                    obtain ⟨task, running, inside⟩ := inside
                    cases seated.tasks task running _ inside
                | @session k reader rest there' after =>
                    have id := seated.id_of_owner there' List.mem_cons_self rfl
                    have place := seated.distinct there' found id (id ▸ named)
                    subst place
                    have same : job.reader = reader :=
                      congrArg Job.reader (Option.some.inj (found.symm.trans there'))
                    rw [after] at found'
                    cases found'
                    have ended : reader.phase = .ended :=
                      inPhase_of_reached h there' _ List.mem_cons_self
                    obtain ⟨free, accesses, _⟩ := ended_of_reached (h.next move) after ended
                    refine .parting ⟨?_, free, ?_⟩
                    · show reader.phase.closing
                      rw [ended]
                      rfl
                    · intro op mem
                      obtain ⟨_, _, _, joins⟩ := accesses op mem
                      exact joins
          next =>
            rw [registered] at gone
            cases gone
      | _ =>
          have gone : s.shared.world.hub.conns.lookup job.reader.client.id = none := gone
          rw [registered] at gone
          cases gone
  | registering _ _ _ _ _ shared _ =>
      rw [shared, registered] at gone
      cases gone
  | quiet _ _ quiet =>
      rw [quiet.hub, registered] at gone
      cases gone

/-- A registration under way is done, or still under way. -/
theorem anchored_of_inserting {job' : Job} {handle : ClientHandle} (seated : Seated s)
    (move : Step node s turn s') (due : .insertConn handle ∈ s.pending)
    (same : handle.id = job'.reader.client.id) : s'.Anchored job' := by
  cases move.outline seated with
  | @access a others current here place _ shared there =>
      obtain rfl | later := List.mem_cons.mp (here.mem_iff.mp due)
      · refine @Anchored.registered _ _ handle ?_
        rw [shared, Access.perform_hub, Access.hub, Hub.conns_insertConn, ← same]
        exact AList.lookup_insert _
      · exact .registering (there.mem_iff.mpr (List.mem_append_right _ later)) same
  | registering _ _ _ _ _ _ pending =>
      exact .registering (pending.mem_iff.mpr
        (List.mem_cons_of_mem _ (List.mem_cons_of_mem _ due))) same
  | quiet pending _ _ =>
      exact .registering (pending.mem_iff.mpr (List.mem_append_right _ due)) same

theorem Anchored.step {job' : Job} (anchored : s.Anchored job) (h : Reached node s)
    (move : Step node s turn s') (found : s.jobs[i]? = some job) (found' : s'.jobs[i]? = some job')
    (authenticated : job.reader.client.authenticated) : s'.Anchored job' := by
  have seated : Seated s := .of_reached h
  obtain ⟨after, there, follows⟩ := move.follows found
  rw [found'] at there
  cases there
  have id := follows.id authenticated
  cases anchored with
  | @registered handle registered =>
      cases now : s'.shared.world.hub.conns.lookup job.reader.client.id with
      | none =>
          exact anchored_of_removed h move found found' follows.tx authenticated registered now
      | some handle' => exact .registered (id.symm ▸ now)
  | registering due same => exact anchored_of_inserting seated move due (same.trans id.symm)
  | dropped closed =>
      refine .dropped ?_
      rw [follows.tx]
      exact closed.trans (closes_mono (.of_reached h) move _)
  | parting parting =>
      cases move.became found' with
      | accepted _ _ last =>
          have inside := (List.getElem?_eq_some_iff.mp found).1
          exact absurd last inside.ne
      | began there _ begun =>
          rw [found] at there
          cases there
          exact .parting (parting.begin begun)
      | worked there ran =>
          rw [found] at there
          cases there
          refine .parting (parting.exec ran ?_)
          rintro readings cmd creds rfl
          rw [(Stage.of_register (seated.seat found).stage).1] at authenticated
          cases authenticated
      | stayed there =>
          rw [found] at there
          cases there
          exact .parting parting

/-- A session that has just taken an identity. -/
theorem anchored_of_register {reader reader' : Reader} {readings : Readings} {cmd : Command}
    {creds : Session.Creds} {rest more : List Op} {shared' : Shared} (h : Reached node s)
    (found : s.jobs[i]? = some ⟨reader, .register readings cmd creds :: rest⟩)
    (found' : s'.jobs[i]? = some ⟨reader', more ++ rest⟩)
    (ran : Op.Ran node reader s.shared (.register readings cmd creds) reader' shared' more) :
    s'.Anchored ⟨reader', more ++ rest⟩ := by
  obtain ⟨fresh, rfl⟩ := Stage.of_register ((Seated.of_reached h).seat found).stage
  obtain ⟨cmds, replies, phase⟩ := inPhase_of_reached h found _ List.mem_cons_self
  cases ran with
  | overLimit _ _ _ _ =>
      refine .parting ⟨?_, fun channel => (fresh_of_reached h found).free fresh channel, by simp⟩
      have phase : reader.phase = .batch cmds replies := phase
      simp [Reader.answer, phase, Phase.closing, CommandOutcome.refuse]
  | @registering readings cmd creds room client _ =>
      refine @Anchored.registering _ _ client.handle ?_ rfl
      exact Seated.mem_pending.mpr (.inl ⟨i, _, found', List.mem_cons_self⟩)

theorem anchored_of_reached (h : Reached node s) (found : s.jobs[i]? = some job)
    (authenticated : job.reader.client.authenticated) : s.Anchored job := by
  have all : Reached node s ∧ ∀ {i : Nat} {job : Job}, s.jobs[i]? = some job →
      job.reader.client.authenticated → s.Anchored job := by
    refine h.invariant (fun s => Reached node s ∧ ∀ {i : Nat} {job : Job},
      s.jobs[i]? = some job → job.reader.client.authenticated → s.Anchored job) ?_ ?_
    · intro s start
      refine ⟨.start start, ?_⟩
      obtain ⟨hash, ttl, verifier, rfl⟩ := start
      intro i job found
      cases found
    · rintro s turn s' ⟨reached, all⟩ move
      refine ⟨reached.next move, ?_⟩
      intro i job found authenticated
      cases move.became found with
      | accepted _ _ _ => cases authenticated
      | began there _ begun =>
          have before := (Reader.begin_begun begun).authenticated ▸ authenticated
          exact (all there before).step reached move there found before
      | worked there ran =>
          obtain same | ⟨readings, cmd, creds, rfl⟩ := (Op.exec_ran ran).authenticated
          · have before := same ▸ authenticated
            exact (all there before).step reached move there found before
          · exact anchored_of_register reached there found (Op.exec_ran ran)
      | stayed there => exact (all there authenticated).step reached move there found authenticated
  exact all.2 found authenticated

/-- Between two commands, a broadcast of a channel that a session holds goes to its queue, unless
an earlier one found the queue full or gone. Then the close of the connection is scheduled. -/
theorem deliverable_of_subscribed (h : Reached node s) (found : s.jobs[i]? = some job)
    (idle : job.work = []) {channel : String} (held : job.reader.client.isSubscribed channel) :
    (∃ handle ∈ s.shared.world.hub.subscribers channel,
      handle.id = job.reader.client.id ∧ handle.tx = i) ∨ s.closes i = 1 := by
  have sound : Sound node s := .of_reached h
  have seated := sound.registry.seated
  have authenticated : job.reader.client.authenticated := by
    by_contra fresh
    have free := (fresh_of_reached h found).free (Bool.eq_false_iff.mpr fresh) channel
    rw [free] at held
    cases held
  have named := (seated.seat found).named authenticated
  cases anchored_of_reached h found authenticated with
  | @registered handle registered =>
      obtain ⟨same, issued⟩ := sound.registry.conns registered
      obtain entered | ⟨_, gone⟩ := @has_of_held _ _ _ _ h found idle
        ⟨.subscribers, job.reader.client.id, channel⟩ rfl rfl held
      · have listed := of_decide_eq_true entered
        refine .inl ⟨handle, Hub.mem_subscribers.mpr ⟨_, listed, registered⟩, same, ?_⟩
        obtain ⟨other, there, _, id, _⟩ := issued
        exact (seated.distinct found there (id.trans same).symm named).symm
      · rw [gone.free] at registered
        cases registered
  | registering due same =>
      obtain ⟨j, other, there, work, _, own, _⟩ := seated.registering due rfl
      have id : other.reader.client.id = job.reader.client.id :=
        (Option.some.inj own).symm.trans same
      have place := seated.distinct found there id.symm named
      subst place
      rw [found] at there
      cases there
      rw [idle] at work
      cases work
  | dropped closed =>
      rw [(seated.seat found).tx] at closed
      exact .inr (Nat.le_antisymm (sound.closes.once i) closed)
  | parting parting =>
      rw [parting.free channel] at held
      cases held

/-- Whoever is in a subscriber set is registered, so that broadcasts reach the queue, or has been
dropped and is to be closed, or is leaving. -/
theorem subscriber_standing (h : Reached node s) {channel : String} {id : ClientId}
    (listed : id ∈ s.shared.world.hub.subscriberIds channel) :
    (∃ handle ∈ s.shared.world.hub.subscribers channel, handle.id = id) ∨
      ∃ (i : Nat) (job : Job), s.jobs[i]? = some job ∧ job.reader.client.id = id ∧
        (s.closes i = 1 ∨ job.Parting) := by
  have sound : Sound node s := .of_reached h
  obtain ⟨i, job, found, authenticated, rfl⟩ := sound.registry.subs listed
  cases anchored_of_reached h found authenticated with
  | @registered handle registered =>
      refine .inl ⟨handle, Hub.mem_subscribers.mpr ⟨_, listed, registered⟩, ?_⟩
      exact (sound.registry.conns registered).1
  | @registering handle due same =>
      have unseen := sound.indexed.unseen due rfl rfl
      exact absurd listed (same ▸ unseen.subs channel)
  | dropped closed =>
      rw [(sound.registry.seated.seat found).tx] at closed
      exact .inr ⟨i, job, found, rfl, .inl (Nat.le_antisymm (sound.closes.once i) closed)⟩
  | parting parting => exact .inr ⟨i, job, found, rfl, .inr parting⟩

open Sample

theorem deliverable_of_subscribed_visiting : ∃ job,
    (after openNode visiting).jobs[0]? = some job ∧
    ((∃ handle ∈ (after openNode visiting).shared.world.hub.subscribers "news",
      handle.id = job.reader.client.id ∧ handle.tx = 0) ∨
      (after openNode visiting).closes 0 = 1) := by
  have there : (after openNode visiting).jobs[0]?.any fun job =>
      job.work.isEmpty && job.reader.client.isSubscribed "news" := rfl
  obtain ⟨job, found, holds⟩ := Option.any_eq_true _ _ |>.mp there
  obtain ⟨idle, held⟩ := Bool.and_eq_true_iff.mp holds
  exact ⟨job, found, deliverable_of_subscribed (after_reached rfl) found
    (List.isEmpty_iff.mp idle) held⟩

theorem subscriber_standing_visiting :
    (∃ handle ∈ (after openNode visiting).shared.world.hub.subscribers "news",
      handle.id = "2a1f") ∨
    ∃ (i : Nat) (job : Job), (after openNode visiting).jobs[i]? = some job ∧
      job.reader.client.id = "2a1f" ∧ ((after openNode visiting).closes i = 1 ∨ job.Parting) :=
  subscriber_standing (after_reached rfl) (of_decide_eq_true rfl)

end Server

end Centrifugo
