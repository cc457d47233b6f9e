import Centrifugo.Server.Registry

/-!
# The users index

The connection table and the users index are two maps under two locks. They agree up to
registrations and removals under way: an entry of the index belongs to a registered
connection or is about to go, and a registered connection has its entry or is about to get
it. The agreement rests on the order of a registration, during which nobody else knows the
client yet.
-/

namespace Centrifugo

open Server

/-- The access follows from a subscription or a connection of the client. -/
def Access.haunts (id : ClientId) : Access → Bool
  | .offer _ _ handle => handle.id = id
  | .removeConn other (some _) | .unindexUser _ other => other = id
  | _ => false

/-- Nobody sends to the client, or removes it. -/
structure Server.Unseen (s : Server) (id : ClientId) : Prop where
  subs : ∀ channel, id ∉ s.shared.world.hub.subscriberIds channel
  pending : ∀ a ∈ s.pending, a.haunts id = false

structure Indexed (s : Server) : Prop where
  unseen : ∀ {a : Access} {id : ClientId}, a ∈ s.pending → a.registers → a.owner = some id →
    s.Unseen id
  unborn : ∀ {handle : ClientHandle}, .insertConn handle ∈ s.pending →
    s.shared.world.hub.conns.lookup handle.id = none
  half : ∀ {user : String} {id : ClientId}, .indexUser user id ∈ s.pending →
    (∃ handle, s.shared.world.hub.conns.lookup id = some handle ∧ handle.user = user) ∨
      ∃ handle, .insertConn handle ∈ s.pending ∧ handle.id = id ∧ handle.user = user
  gone : ∀ {user : String} {id : ClientId}, .unindexUser user id ∈ s.pending →
    s.shared.world.hub.conns.lookup id = none
  listed : ∀ {user : String} {id : ClientId}, id ∈ s.shared.world.hub.userIds user →
    (∃ handle, s.shared.world.hub.conns.lookup id = some handle ∧ handle.user = user) ∨
      .unindexUser user id ∈ s.pending
  indexed : ∀ {id : ClientId} {handle : ClientHandle},
    s.shared.world.hub.conns.lookup id = some handle →
      id ∈ s.shared.world.hub.userIds handle.user ∨ .indexUser handle.user id ∈ s.pending

/-! ## The order of a registration -/

namespace Stage

variable {client : Client} {handle : ClientHandle} {user : String} {id : ClientId}
  {rest : List Op}

/-- A session that is about to enter the connection table enters the index next. -/
theorem of_insert (stage : Stage client (.access (.insertConn handle) :: rest)) :
    handle = client.handle ∧ client.authenticated ∧
      ∃ op : Op, op.access? = none ∧
        rest = [.access (.indexUser client.user client.id), op] := by
  generalize whole : Op.access (.insertConn handle) :: rest = work at stage
  cases stage with
  | counting _ _ _ _ _ => cases whole
  | inserting readings cmd creds subs i channels authenticated =>
      cases whole
      exact ⟨rfl, authenticated, _, rfl, rfl⟩
  | indexing _ _ _ _ _ _ _ => cases whole
  | settled settled =>
      obtain mine | nobody := settled _ (whole ▸ List.mem_cons_self)
      · cases mine
      · cases nobody

theorem of_index (stage : Stage client (.access (.indexUser user id) :: rest)) :
    user = client.user ∧ id = client.id ∧ client.authenticated ∧
      ∃ op : Op, op.access? = none ∧ rest = [op] := by
  generalize whole : Op.access (.indexUser user id) :: rest = work at stage
  cases stage with
  | counting _ _ _ _ _ => cases whole
  | inserting _ _ _ _ _ _ _ => cases whole
  | indexing readings cmd creds subs i channels authenticated =>
      cases whole
      exact ⟨rfl, rfl, authenticated, _, rfl, rfl⟩
  | settled settled =>
      obtain mine | nobody := settled _ (whole ▸ List.mem_cons_self)
      · cases mine
      · cases nobody

end Stage

namespace Seated

variable {node : Node} {s s' : Server} {handle other : ClientHandle} {user : String}
  {id : ClientId}

/-- After the entry in the connection table comes the one in the index, and no other. -/
theorem after_insert (h : Seated s) (h' : Seated s')
    (place : s.Next node s' (.insertConn handle)) :
    .indexUser handle.user handle.id ∈ s'.pending ∧
      ∀ other, .insertConn other ∈ s'.pending → other.id ≠ handle.id := by
  cases place with
  | task mem =>
      obtain ⟨task, there, inside⟩ := mem
      cases h.tasks task there _ inside
  | @session i reader rest found after =>
      have stage : Stage reader.client _ := (h.seat found).stage
      obtain ⟨rfl, authenticated, op, silent, rfl⟩ := stage.of_insert
      refine ⟨mem_pending.mpr (.inl ⟨i, _, after, ?_⟩), ?_⟩
      · exact List.mem_append_right _ List.mem_cons_self
      · intro other mem same
        obtain ⟨j, job, found', work, id⟩ := h'.owned mem rfl
        have named := (h'.seat after).named authenticated
        have place := h'.distinct found' after (id.trans same) (by
          rw [id, same]
          exact named)
        subst place
        rw [after] at found'
        cases found'
        simp only [Access.more, List.map_nil, List.nil_append, List.mem_cons, Op.access.injEq,
          reduceCtorEq, List.not_mem_nil, or_false, false_or] at work
        rw [← work] at silent
        cases silent

/-- At the entry in the index, the one in the connection table is done. -/
theorem before_index (h : Seated s) (place : s.Next node s' (.indexUser user id))
    (mem : .insertConn other ∈ s.pending) : other.id ≠ id := by
  intro same
  cases place with
  | task there =>
      obtain ⟨task, there, inside⟩ := there
      cases h.tasks task there _ inside
  | @session i reader rest found after =>
      have stage : Stage reader.client _ := (h.seat found).stage
      obtain ⟨_, rfl, authenticated, op, silent, rfl⟩ := stage.of_index
      obtain ⟨j, job, found', work, id⟩ := h.owned mem rfl
      have named := (h.seat found).named authenticated
      have place := h.distinct found' found (id.trans same) (by
        rw [id, same]
        exact named)
      subst place
      rw [found] at found'
      cases found'
      simp only [List.mem_cons, Op.access.injEq, reduceCtorEq, List.not_mem_nil, or_false,
        false_or] at work
      rw [← work] at silent
      cases silent

end Seated

/-- A session that starts its registration is unknown before. -/
theorem Registry.fresh {s : Server} (h : Registry s) {i : Nat} {reader : Reader}
    {readings : Readings} {cmd : Command} {creds : Session.Creds} {rest : List Op}
    (found : s.jobs[i]? = some ⟨reader, .register readings cmd creds :: rest⟩) :
    ¬ s.Known reader.client.id := by
  intro known
  obtain ⟨j, job, found', authenticated, same⟩ := known
  cases (h.seated.seat found).stage with
  | counting _ _ _ fresh named =>
      have place := h.seated.distinct found' found same (same ▸ named)
      subst place
      rw [found] at found'
      cases found'
      rw [fresh] at authenticated
      cases authenticated
  | settled settled => cases settled _ List.mem_cons_self

/-! ## One access -/

namespace Indexed

variable {node : Node} {s s' : Server} {turn : Turn} {a : Access} {others : List Access}

/-- What an access finds of its client, and what it leaves. -/
structure Done (node : Node) (s s' : Server) (a : Access) (others : List Access) : Prop where
  before : Registry s
  after : Registry s'
  here : s.pending.Perm (a :: others)
  place : s.Next node s' a
  shared : s'.shared = a.perform node s.shared
  there : s'.pending.Perm (a.more node s.shared ++ others)

namespace Done

variable (d : Done node s s' a others) {b : Access} {id : ClientId}

include d

theorem mem : a ∈ s.pending := d.here.mem_iff.mpr List.mem_cons_self

theorem hub : s'.shared.world.hub = a.hub s.shared.world.hub := by
  rw [d.shared, Access.perform_hub]

/-- What was pending and is not the access itself is still pending. -/
theorem remains (mem : b ∈ s.pending) : b = a ∨ b ∈ s'.pending := by
  obtain rfl | old := List.mem_cons.mp (d.here.mem_iff.mp mem)
  · exact .inl rfl
  · exact .inr (d.there.mem_iff.mpr (List.mem_append_right _ old))

theorem came (mem : b ∈ s'.pending) : b ∈ a.more node s.shared ∨ b ∈ s.pending := by
  obtain next | old := List.mem_append.mp (d.there.mem_iff.mp mem)
  · exact .inl next
  · exact .inr (d.here.mem_iff.mpr (List.mem_cons_of_mem _ old))

theorem came_owned (mem : b ∈ s'.pending) (own : b.owner = some id) : b ∈ s.pending := by
  refine (d.came mem).resolve_left fun next => ?_
  rw [Access.owner_more next] at own
  cases own

end Done

theorem unseen_access (h : Indexed s) (d : Done node s s' a others) {b : Access} {id : ClientId}
    (mem : b ∈ s'.pending) (registers : b.registers) (own : b.owner = some id) :
    s'.Unseen id := by
  have old := d.came_owned mem own
  obtain ⟨subs, pending⟩ := h.unseen old registers own
  -- the session of the client does nothing but register it
  have busy : a.owner = some id → a.registers := fun same =>
    d.before.seated.young old registers own d.mem same
  refine ⟨?_, ?_⟩
  · intro channel subscribed
    rw [d.hub] at subscribed
    cases a with
    | subscribe id' channel' =>
        obtain ⟨rfl, rfl⟩ | still := Hub.mem_subscribe.mp subscribed
        · cases busy rfl
        · exact subs channel still
    | unsubscribe id' channel' => exact subs channel (Hub.mem_unsubscribe.mp subscribed).2
    | sweep id' shard => exact subs channel (Hub.mem_sweep.mp subscribed).2
    | _ => exact subs channel subscribed
  · intro c mem'
    obtain next | old' := d.came mem'
    · have away := pending a d.mem
      cases Access.follows_of_mem next with
      | @unindex id' slow _ _ =>
          have apart : id' ≠ id := by
            rintro rfl
            cases slow with
            | none => cases busy rfl
            | some tx => simp [Access.haunts] at away
          simpa [Access.haunts] using apart
      | offer copied =>
          obtain ⟨id', subscribed, found⟩ := Hub.mem_subscribers.mp copied
          have same := (d.before.conns found).1
          simp only [Access.haunts, decide_eq_false_iff_not]
          rintro rfl
          exact subs _ (same ▸ subscribed)
      | drop _ => exact away
      | _ => rfl
    · exact pending c old'

theorem unborn_access (h : Indexed s) (d : Done node s s' a others) {handle : ClientHandle}
    (mem : .insertConn handle ∈ s'.pending) :
    s'.shared.world.hub.conns.lookup handle.id = none := by
  have free := h.unborn (d.came_owned mem rfl)
  rw [d.hub]
  cases a with
  | insertConn inserted =>
      have apart := (d.before.seated.after_insert d.after.seated d.place).2 handle mem
      rw [Access.hub, Hub.conns_insertConn, Map.lookup_insert_eq, if_neg apart, free]
  | removeConn removed slow =>
      rw [Access.hub, Hub.conns_removeConn, Map.lookup_erase_eq, free, ite_self]
  | _ => exact free

/-- A connection whose registration is under way is not removed. -/
theorem not_removed (h : Indexed s) (d : Done node s s' a others) {b : Access} {id : ClientId}
    {slow : Option QueueId} (mem : b ∈ s.pending) (registers : b.registers)
    (own : b.owner = some id) : a ≠ .removeConn id slow := by
  rintro rfl
  cases slow with
  | none => cases d.before.seated.young mem registers own d.mem rfl
  | some tx =>
      have away := (h.unseen mem registers own).pending _ d.mem
      simp [Access.haunts] at away

theorem half_access (h : Indexed s) (d : Done node s s' a others) {user : String}
    {id : ClientId} (mem : .indexUser user id ∈ s'.pending) :
    (∃ handle, s'.shared.world.hub.conns.lookup id = some handle ∧ handle.user = user) ∨
      ∃ handle, .insertConn handle ∈ s'.pending ∧ handle.id = id ∧ handle.user = user := by
  have old := d.came_owned mem rfl
  rw [d.hub]
  obtain ⟨handle, found, same⟩ | ⟨handle, inserting, id', same⟩ := h.half old
  · left
    refine ⟨handle, ?_, same⟩
    cases a with
    | insertConn inserted =>
        have free := h.unborn d.mem
        have apart : id ≠ inserted.id := by
          rintro rfl
          rw [found] at free
          cases free
        rw [Access.hub, Hub.conns_insertConn, Map.lookup_insert_eq, if_neg apart, found]
    | removeConn removed slow =>
        have apart : id ≠ removed := by
          rintro rfl
          exact h.not_removed d old rfl rfl rfl
        rw [Access.hub, Hub.conns_removeConn, Map.lookup_erase_eq, if_neg apart, found]
    | _ => exact found
  · obtain same' | still := d.remains inserting
    · subst same'
      left
      exact ⟨handle, by rw [Access.hub, Hub.conns_insertConn, id', AList.lookup_insert], same⟩
    · exact .inr ⟨handle, still, id', same⟩

theorem gone_access (h : Indexed s) (d : Done node s s' a others) {user : String}
    {id : ClientId} (mem : .unindexUser user id ∈ s'.pending) :
    s'.shared.world.hub.conns.lookup id = none := by
  rw [d.hub]
  obtain next | old := d.came mem
  · cases Access.follows_of_mem next with
    | unindex _ => rw [Access.hub, Hub.conns_removeConn, AList.lookup_erase]
  · have free := h.gone old
    cases a with
    | insertConn inserted =>
        have away := (h.unseen d.mem rfl rfl).pending _ old
        have apart : id ≠ inserted.id := by
          rintro rfl
          simp [Access.haunts] at away
        rw [Access.hub, Hub.conns_insertConn, Map.lookup_insert_eq, if_neg apart, free]
    | removeConn removed slow =>
        rw [Access.hub, Hub.conns_removeConn, Map.lookup_erase_eq, free, ite_self]
    | _ => exact free

theorem listed_access (h : Indexed s) (d : Done node s s' a others) {user : String}
    {id : ClientId} (mem : id ∈ s'.shared.world.hub.userIds user) :
    (∃ handle, s'.shared.world.hub.conns.lookup id = some handle ∧ handle.user = user) ∨
      .unindexUser user id ∈ s'.pending := by
  have leaving : .unindexUser user id ∈ s.pending → a = .unindexUser user id ∨
      .unindexUser user id ∈ s'.pending := fun mem => (d.remains mem).imp_left Eq.symm
  rw [d.hub] at mem ⊢
  cases a with
  | insertConn inserted =>
      obtain ⟨handle, found, same⟩ | unindexing := h.listed mem
      · have free := h.unborn d.mem
        have apart : id ≠ inserted.id := by
          rintro rfl
          rw [found] at free
          cases free
        left
        exact ⟨handle, by
          rw [Access.hub, Hub.conns_insertConn, Map.lookup_insert_eq, if_neg apart, found], same⟩
      · exact .inr ((leaving unindexing).resolve_left (by simp))
  | removeConn removed slow =>
      obtain ⟨handle, found, same⟩ | unindexing := h.listed mem
      · by_cases gone : id = removed
        · subst gone same
          right
          refine d.there.mem_iff.mpr (List.mem_append_left _ ?_)
          rw [Access.more, found]
          exact List.mem_cons_self
        · left
          exact ⟨handle, by
            rw [Access.hub, Hub.conns_removeConn, Map.lookup_erase_eq, if_neg gone, found], same⟩
      · exact .inr ((leaving unindexing).resolve_left (by simp))
  | indexUser user' id' =>
      obtain ⟨rfl, rfl⟩ | old := Hub.mem_indexUser.mp mem
      · obtain registered | ⟨handle, inserting, same, _⟩ := h.half d.mem
        · exact .inl registered
        · exact absurd same (d.before.seated.before_index d.place inserting)
      · exact (h.listed old).imp_right fun unindexing =>
          (leaving unindexing).resolve_left (by simp)
  | unindexUser user' id' =>
      obtain ⟨other, old⟩ := Hub.mem_unindexUser.mp mem
      refine (h.listed old).imp_right fun unindexing => (leaving unindexing).resolve_left ?_
      intro same
      cases same
      exact other ⟨rfl, rfl⟩
  | _ => exact (h.listed mem).imp_right fun unindexing =>
      (leaving unindexing).resolve_left (by simp)

theorem indexed_access (h : Indexed s) (d : Done node s s' a others) {id : ClientId}
    {handle : ClientHandle} (found : s'.shared.world.hub.conns.lookup id = some handle) :
    id ∈ s'.shared.world.hub.userIds handle.user ∨ .indexUser handle.user id ∈ s'.pending := by
  have coming : .indexUser handle.user id ∈ s.pending → a = .indexUser handle.user id ∨
      .indexUser handle.user id ∈ s'.pending := fun mem => (d.remains mem).imp_left Eq.symm
  rw [d.hub] at found ⊢
  cases a with
  | insertConn inserted =>
      rw [Access.hub, Hub.conns_insertConn, Map.lookup_insert_eq] at found
      split at found
      next same =>
        cases found
        exact .inr (same ▸ (d.before.seated.after_insert d.after.seated d.place).1)
      next => exact (h.indexed found).imp_right fun mem => (coming mem).resolve_left (by simp)
  | removeConn removed slow =>
      rw [Access.hub, Hub.conns_removeConn, Map.lookup_erase_eq] at found
      split at found
      next => cases found
      next => exact (h.indexed found).imp_right fun mem => (coming mem).resolve_left (by simp)
  | indexUser user' id' =>
      obtain listed | mem := h.indexed found
      · exact .inl (Hub.mem_indexUser.mpr (.inr listed))
      · obtain same | still := coming mem
        · cases same
          exact .inl (Hub.mem_indexUser.mpr (.inl ⟨rfl, rfl⟩))
        · exact .inr still
  | unindexUser user' id' =>
      have free := h.gone d.mem
      have apart : id ≠ id' := by
        rintro rfl
        rw [Access.hub, Hub.conns_unindexUser, free] at found
        cases found
      refine (h.indexed found).imp (fun listed => ?_) fun mem => (coming mem).resolve_left (by simp)
      exact Hub.mem_unindexUser.mpr ⟨fun same => apart same.1, listed⟩
  | _ => exact (h.indexed found).imp_right fun mem => (coming mem).resolve_left (by simp)

/-! ## A run -/

theorem known_of_haunts (registry : Registry s) {id : ClientId} (mem : a ∈ s.pending)
    (haunts : a.haunts id) : s.Known id := by
  have vouched := registry.pending a mem
  unfold Access.haunts at haunts
  split at haunts
  next => exact of_decide_eq_true haunts ▸ vouched.known
  next =>
    obtain ⟨handle, issued, same, _⟩ := vouched
    exact of_decide_eq_true haunts ▸ same ▸ issued.known
  next => exact of_decide_eq_true haunts ▸ vouched
  next => cases haunts

theorem haunts_of_starts {id : ClientId} (h : (∃ client, a.ofClient client) ∨ a.external) :
    a.haunts id = false := by
  unfold Access.haunts
  split <;> first | rfl | (obtain ⟨_, own⟩ | own := h <;> cases own)

theorem registers_of_starts (h : (∃ client, a.ofClient client) ∨ a.external) :
    a.registers = false := by
  obtain ⟨client, own⟩ | external := h
  · exact Access.registers_of_ofClient own
  · exact Access.registers_of_owner (Access.owner_of_external external)

theorem step (h : Indexed s) (registry : Registry s) (move : Server.Step node s turn s') :
    Indexed s' := by
  cases move.outline registry.seated with
  | access current here place able shared there =>
      have d : Done node s s' _ _ := ⟨registry, registry.step move, here, place, shared, there⟩
      exact ⟨h.unseen_access d, h.unborn_access d, h.half_access d, h.gone_access d,
        h.listed_access d, h.indexed_access d⟩
  | @registering i reader reader' readings cmd creds rest current found room client after shared
      pending =>
      have fresh : ¬ s.Known reader'.client.handle.id := by
        rw [client]
        exact registry.fresh found
      have kept : ∀ {b : Access}, b ∈ s.pending → b ∈ s'.pending := fun mem =>
        pending.mem_iff.mpr (List.mem_cons_of_mem _ (List.mem_cons_of_mem _ mem))
      have cases_of : ∀ {b : Access}, b ∈ s'.pending → b = .insertConn reader'.client.handle ∨
          b = .indexUser reader'.client.user reader'.client.id ∨ b ∈ s.pending := by
        intro b mem
        simpa only [List.mem_cons] using pending.mem_iff.mp mem
      refine ⟨?_, ?_, ?_, ?_, ?_, ?_⟩
      · intro b id mem registers own
        have quiet : (∀ channel, id ∉ s.shared.world.hub.subscriberIds channel) ∧
            ∀ c ∈ s.pending, c.haunts id = false := by
          obtain rfl | rfl | old := cases_of mem
          · cases own
            refine ⟨fun channel subscribed => fresh (registry.subs subscribed), fun c there => ?_⟩
            exact Bool.eq_false_iff.mpr fun haunts => fresh (known_of_haunts registry there haunts)
          · cases own
            refine ⟨fun channel subscribed => fresh (registry.subs subscribed), fun c there => ?_⟩
            exact Bool.eq_false_iff.mpr fun haunts => fresh (known_of_haunts registry there haunts)
          · exact ⟨(h.unseen old registers own).subs, (h.unseen old registers own).pending⟩
        refine ⟨by rw [shared]; exact quiet.1, ?_⟩
        intro c there
        obtain rfl | rfl | old := cases_of there
        · rfl
        · rfl
        · exact quiet.2 c old
      · intro handle mem
        rw [shared]
        obtain same | same | old := cases_of mem
        · cases same
          by_contra registered
          obtain ⟨other, found⟩ := Option.ne_none_iff_exists'.mp registered
          exact fresh ((registry.conns found).1 ▸ (registry.conns found).2.known)
        · cases same
        · exact h.unborn old
      · intro user id mem
        rw [shared]
        obtain same | same | old := cases_of mem
        · cases same
        · cases same
          exact .inr ⟨_, pending.mem_iff.mpr List.mem_cons_self, rfl, rfl⟩
        · exact (h.half old).imp_right fun ⟨handle, inserting, same⟩ =>
            ⟨handle, kept inserting, same⟩
      · intro user id mem
        rw [shared]
        obtain same | same | old := cases_of mem
        · cases same
        · cases same
        · exact h.gone old
      · intro user id listed
        rw [shared] at listed ⊢
        exact (h.listed listed).imp_right kept
      · intro id handle found
        rw [shared] at found ⊢
        exact (h.indexed found).imp_right kept
  | quiet pending starts quiet =>
      have kept : ∀ {b : Access}, b ∈ s.pending → b ∈ s'.pending := fun mem =>
        pending.mem_iff.mpr (List.mem_append_right _ mem)
      have old : ∀ {b : Access}, b ∈ s'.pending → b.registers → b ∈ s.pending := by
        intro b mem registers
        refine (List.mem_append.mp (pending.mem_iff.mp mem)).resolve_left fun new => ?_
        rw [registers_of_starts (starts b new)] at registers
        cases registers
      refine ⟨?_, ?_, ?_, ?_, ?_, ?_⟩
      · intro b id mem registers own
        have unseen := h.unseen (old mem registers) registers own
        refine ⟨by rw [quiet.hub]; exact unseen.subs, ?_⟩
        intro c there
        obtain new | before := List.mem_append.mp (pending.mem_iff.mp there)
        · exact haunts_of_starts (starts c new)
        · exact unseen.pending c before
      · intro handle mem
        rw [quiet.hub]
        exact h.unborn (old mem rfl)
      · intro user id mem
        rw [quiet.hub]
        exact (h.half (old mem rfl)).imp_right fun ⟨handle, inserting, same⟩ =>
          ⟨handle, kept inserting, same⟩
      · intro user id mem
        rw [quiet.hub]
        obtain new | before := List.mem_append.mp (pending.mem_iff.mp mem)
        · obtain ⟨client, own⟩ | external := starts _ new
          · cases own
          · cases external
        · exact h.gone before
      · intro user id listed
        rw [quiet.hub] at listed ⊢
        exact (h.listed listed).imp_right kept
      · intro id handle found
        rw [quiet.hub] at found ⊢
        exact (h.indexed found).imp_right kept

theorem initial (h : s.Initial) : Indexed s := by
  obtain ⟨hash, ttl, verifier, rfl⟩ := h
  refine ⟨?_, ?_, ?_, ?_, ?_, ?_⟩
  · intro a id mem
    cases mem
  · intro handle mem
    cases mem
  · intro user id mem
    cases mem
  · intro user id mem
    cases mem
  · intro user id listed
    cases listed
  · intro id handle found
    cases found

theorem of_reached (h : Server.Reached node s) : Indexed s := by
  have both : Registry s ∧ Indexed s :=
    h.invariant (fun s => Registry s ∧ Indexed s)
      (fun _ start => ⟨.initial start, initial start⟩)
      fun _ _ _ here move => ⟨here.1.step move, here.2.step here.1 move⟩
  exact both.2

/-- The program never removes a client whose registration is under way. -/
theorem not_overtaken (h : Server.Reached node s) {user other : String} {id : ClientId}
    (due : .indexUser user id ∈ s.pending) : .unindexUser other id ∉ s.pending := by
  intro mem
  have unseen := (of_reached h).unseen due rfl rfl
  have haunts := unseen.pending _ mem
  simp [Access.haunts] at haunts

end Indexed

end Centrifugo
