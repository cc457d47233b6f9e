import Centrifugo.Server.Ledger

/-!
# Entries and subscriptions

Between two commands, a session is in a presence map exactly when it holds the channel with
presence on. It is in a subscriber set only when it holds the channel, and missing there only
when its connection was dropped.
-/

namespace Centrifugo

open Server

/-! ## Whose entries there are -/

/-- Only a session enters itself, as part of a subscription. -/
theorem Slot.owner_of_written {slot : Slot} {hash : String → Fin 16} {a : Access}
    (written : slot.writes hash a = some true) :
    a.owner = some slot.id ∧ (Op.access a).joins = true := by
  obtain ⟨table, id, channel⟩ := slot
  cases table with
  | subscribers =>
      cases a with
      | subscribe other name =>
          obtain ⟨⟨rfl, _⟩, _⟩ := Option.ite_none_right_eq_some.mp written
          exact ⟨rfl, rfl⟩
      | unsubscribe other name =>
          obtain ⟨_, wrong⟩ := Option.ite_none_right_eq_some.mp written
          cases wrong
      | sweep other shard =>
          obtain ⟨_, wrong⟩ := Option.ite_none_right_eq_some.mp written
          cases wrong
      | _ => cases written
  | presence =>
      cases a with
      | addPresence name other info =>
          obtain ⟨⟨rfl, _⟩, _⟩ := Option.ite_none_right_eq_some.mp written
          exact ⟨rfl, rfl⟩
      | removePresence name other =>
          obtain ⟨_, wrong⟩ := Option.ite_none_right_eq_some.mp written
          cases wrong
      | _ => cases written

/-- Who takes an entry away is the session itself, or sweeps the client out of the hub. -/
theorem Slot.owner_of_erased {slot : Slot} {hash : String → Fin 16} {a : Access}
    (erased : slot.writes hash a = some false) : a.owner = some slot.id ∨
      a.sweeps? = some slot.id ∧ slot.table = .subscribers := by
  obtain ⟨table, id, channel⟩ := slot
  cases table with
  | subscribers =>
      cases a with
      | subscribe other name =>
          obtain ⟨_, wrong⟩ := Option.ite_none_right_eq_some.mp erased
          cases wrong
      | unsubscribe other name =>
          obtain ⟨⟨rfl, _⟩, _⟩ := Option.ite_none_right_eq_some.mp erased
          exact .inl rfl
      | sweep other shard =>
          obtain ⟨⟨rfl, _⟩, _⟩ := Option.ite_none_right_eq_some.mp erased
          exact .inr ⟨rfl, rfl⟩
      | _ => cases erased
  | presence =>
      cases a with
      | addPresence name other info =>
          obtain ⟨_, wrong⟩ := Option.ite_none_right_eq_some.mp erased
          cases wrong
      | removePresence name other =>
          obtain ⟨⟨rfl, _⟩, _⟩ := Option.ite_none_right_eq_some.mp erased
          exact .inl rfl
      | _ => cases erased

theorem Slot.writes_of_settles {slot : Slot} {hash : String → Fin 16} {a : Access}
    (settles : slot.settles hash a = some true) : slot.writes hash a = some true := by
  unfold Slot.settles at settles
  split at settles
  next =>
    obtain ⟨_, wrong⟩ := Option.ite_none_right_eq_some.mp settles
    cases wrong
  next => exact settles

/-- A session works in the name of its own client. -/
theorem Seated.id_of_owner {s : Server} (h : Seated s) {i : Nat} {job : Job} {a : Access}
    {id : ClientId} (found : s.jobs[i]? = some job) (work : .access a ∈ job.work)
    (own : a.owner = some id) : job.reader.client.id = id := by
  have stage := (h.seat found).stage
  generalize job.work = ops at work stage
  cases stage with
  | counting _ _ _ _ _ => simp at work
  | inserting _ _ _ _ _ _ _ =>
      simp only [List.mem_cons, Op.access.injEq, List.not_mem_nil, or_false] at work
      obtain rfl | rfl | other := work
      · exact Option.some.inj own
      · exact Option.some.inj own
      · cases other
  | indexing _ _ _ _ _ _ _ =>
      simp only [List.mem_cons, Op.access.injEq, List.not_mem_nil, or_false] at work
      obtain rfl | other := work
      · exact Option.some.inj own
      · cases other
  | settled settled =>
      obtain mine | nobody := settled _ work
      · exact (Access.owner_of_ofClient mine own).symm
      · rw [nobody] at own
        cases own

namespace Server

variable {node : Node} {s s' : Server} {turn : Turn} {slot : Slot} {i : Nat} {job : Job}

/-- Only authenticated sessions have entries. -/
theorem known_of_has (h : Reached node s) (has : slot.has s.shared.world) : s.Known slot.id := by
  have all : Reached node s ∧ ∀ slot : Slot, slot.has s.shared.world → s.Known slot.id := by
    refine h.invariant (fun s => Reached node s ∧
      ∀ slot : Slot, slot.has s.shared.world → s.Known slot.id) ?_ ?_
    · intro s start
      refine ⟨.start start, ?_⟩
      obtain ⟨hash, ttl, verifier, rfl⟩ := start
      rintro ⟨table, id, channel⟩ has
      cases table <;> simp [Slot.has, Hub.new, Hub.subscriberIds, MemoryEngine.new,
        MemoryEngine.presenceOf] at has
    · rintro s turn s' ⟨reached, known⟩ move
      refine ⟨reached.next move, fun slot has => ?_⟩
      have seated : Seated s := .of_reached reached
      have old : slot.has s.shared.world → s'.Known slot.id := fun has =>
        (known slot has).step move
      cases move.outline seated with
      | @access a others _ here _ _ shared _ =>
          rw [shared, Slot.has_perform] at has
          cases written : slot.writes s.shared.world.hub.hash a with
          | none =>
              rw [written] at has
              exact old has
          | some value =>
              rw [written] at has
              obtain rfl : value = true := has
              obtain ⟨own, joins⟩ := Slot.owner_of_written written
              have mem : a ∈ s.pending := here.mem_iff.mpr List.mem_cons_self
              obtain ⟨i, job, found, work, id⟩ := seated.owned mem own
              refine Known.step ⟨i, job, found, ?_, id⟩ move
              by_contra fresh
              have silent := (fresh_of_reached reached found).idle
                (Bool.eq_false_iff.mpr fresh) _ work
              rw [joins] at silent
              cases silent
      | registering _ _ _ _ _ shared _ => exact old (shared ▸ has)
      | quiet _ _ quiet => exact old (Slot.has_quiet quiet ▸ has)
  exact all.2 slot has

end Server

/-! ## Sessions that are not authenticated -/

/-- Without a subscription that begins, nothing is entered. -/
theorem Slot.settled_of_idle {slot : Slot} {node : Node} {hash : String → Fin 16}
    {ops : List Op} (idle : ∀ op ∈ ops, op.joins = false) :
    slot.settled node hash ⟨false, false⟩ ops = ⟨false, false⟩ := by
  induction ops with
  | nil => rfl
  | cons op ops ih =>
      have first := idle op List.mem_cons_self
      suffices op.settle slot node hash ⟨false, false⟩ = ⟨false, false⟩ by
        rw [settled_cons, this]
        exact ih fun next mem => idle next (List.mem_cons_of_mem _ mem)
      cases op with
      | access a =>
          have same : slot.settles hash a ≠ some true := by
            intro written
            have joins := (owner_of_written (writes_of_settles written)).2
            rw [joins] at first
            cases first
          simp only [Op.settle, Entry.write]
          cases written : slot.settles hash a with
          | none => rfl
          | some value =>
              cases value with
              | true => exact absurd written same
              | false => rfl
      | serverUnsubscribe channel => simp [Op.settle]
      | register _ _ _ => rfl
      | answer _ => rfl
      | _ => cases first

namespace Server

variable {node : Node} {s s' : Server} {turn : Turn} {slot : Slot} {i : Nat} {job : Job}

/-- What becomes of the entry of a session for a channel. -/
def due (s : Server) (node : Node) (job : Job) (slot : Slot) : Entry :=
  slot.settled node s.shared.world.hub.hash (slot.entry s.shared.world job.reader.client) job.work

/-- An entry in the hub is lost with its connection. -/
def Lost (s : Server) (slot : Slot) : Prop := slot.table = .subscribers ∧ s.Departed slot.id

/-- In the end, entry and subscription of the session agree. -/
def Balanced (s : Server) (node : Node) (job : Job) : Prop :=
  ∀ slot : Slot, slot.id = job.reader.client.id →
    (s.due node job slot).Fits (slot.keeps node) (s.Lost slot)

theorem Lost.step (h : s.Lost slot) (registry : Registry s) (move : Step node s turn s') :
    s'.Lost slot :=
  ⟨h.1, h.2.step registry move⟩

theorem balanced_of_fresh (h : Reached node s) (found : s.jobs[i]? = some job)
    (fresh : job.reader.client.authenticated = false) : s.Balanced node job := by
  intro slot same
  have idle := fresh_of_reached h found
  have absent : slot.has s.shared.world = false := by
    refine Bool.eq_false_iff.mpr fun has => ?_
    obtain ⟨j, other, there, authenticated, id⟩ := known_of_has h has
    have seated : Seated s := .of_reached h
    have place := seated.distinct there found (id.trans same)
      ((seated.seat there).named authenticated)
    subst place
    rw [found] at there
    cases there
    rw [fresh] at authenticated
    cases authenticated
  rw [due, Slot.entry, absent, idle.free fresh slot.channel,
    Slot.settled_of_idle (idle.idle fresh)]
  exact Entry.fits_free

/-! ## Turns -/

theorem hash_step (registry : Registry s) (move : Step node s turn s') :
    s'.shared.world.hub.hash = s.shared.world.hub.hash := by
  cases move.outline registry.seated with
  | @access a _ _ _ _ _ shared _ =>
      rw [shared, Access.perform_hub]
      cases a <;> rfl
  | registering _ _ _ _ _ shared _ => rw [shared]
  | quiet _ _ quiet => rw [quiet.hub]

/-- What another task does to the entry of an authenticated session. -/
theorem has_perform_other {a : Access} (swept : Swept s) (known : s.Known slot.id)
    (mem : a ∈ s.pending) (other : a.owner ≠ some slot.id) :
    slot.has (a.perform node s.shared).world = slot.has s.shared.world ∨
      slot.has (a.perform node s.shared).world = false ∧ s.Lost slot := by
  rw [Slot.has_perform]
  cases written : slot.writes s.shared.world.hub.hash a with
  | none => exact .inl rfl
  | some value =>
      cases value with
      | true => exact absurd (Slot.owner_of_written written).1 other
      | false =>
          obtain own | ⟨sweeps, table⟩ := Slot.owner_of_erased written
          · exact absurd own other
          · exact .inr ⟨rfl, table, swept.gone mem sweeps known⟩

/-- A turn that leaves the session alone. -/
theorem Balanced.stay (h : s.Balanced node job) (registry : Registry s)
    (move : Step node s turn s')
    (has : ∀ slot : Slot, slot.id = job.reader.client.id →
      slot.has s'.shared.world = slot.has s.shared.world ∨
        slot.has s'.shared.world = false ∧ s.Lost slot) : s'.Balanced node job := by
  intro slot same
  have fits := h slot same
  rw [due] at fits ⊢
  rw [hash_step registry move]
  obtain kept | ⟨absent, lost⟩ := has slot same
  · rw [Slot.entry, kept]
    exact fits.mono fun lost => lost.step registry move
  · refine fits.of_below (Slot.settled_mono ⟨rfl, ?_⟩) (lost.step registry move)
    intro entered
    rw [Slot.entry, absent] at entered
    cases entered

theorem Balanced.begin {event : Event} {reader reader' : Reader} {shared shared' : Shared}
    {ops : List Op} (h : s.Balanced node ⟨reader, []⟩) (registry : Registry s)
    (move : Step node s turn s') (there : s'.shared = shared')
    (prepared : reader.prepare s.shared event = some shared)
    (begun : reader.Begun node shared event reader' shared' ops)
    (authenticated : reader.client.authenticated)
    (configured : ∀ channel state, reader.client.subscriptions.lookup channel = some state →
      Configured node channel state) : s'.Balanced node ⟨reader', ops⟩ := by
  intro slot same
  have world := (Reader.prepare_quiet prepared).2
  have id : reader.client.id = slot.id := ((begun.client.1.id authenticated).symm.trans same.symm)
  have fits := h slot id.symm
  rw [due, Slot.settled_nil] at fits
  rw [due, hash_step registry move, there, ← world]
  refine (begun.fits authenticated id configured ?_ (world ▸ fits)).mono fun lost =>
    lost.step registry move
  rintro table ⟨subscribers, _⟩
  rw [table] at subscribers
  cases subscribers

/-- The registration finds no entry, and brings the subscriptions of the CONNECT. -/
theorem Balanced.register {reader reader' : Reader} {readings : Readings} {cmd : Command}
    {creds : Session.Creds} {rest more : List Op} {shared' : Shared}
    (h : s.Balanced node ⟨reader, .register readings cmd creds :: rest⟩) (reached : Reached node s)
    (move : Step node s turn s') (there : s'.shared = shared')
    (found : s.jobs[i]? = some ⟨reader, .register readings cmd creds :: rest⟩)
    (ran : Op.Ran node reader s.shared (.register readings cmd creds) reader' shared' more) :
    s'.Balanced node ⟨reader', more ++ rest⟩ := by
  have registry : Registry s := .of_reached reached
  obtain ⟨fresh, rfl⟩ := Stage.of_register (registry.seated.seat found).stage
  intro slot same
  have id : slot.id = reader.client.id := same.trans ran.client.1
  have fits := h slot id
  have held : reader.client.isSubscribed slot.channel = false :=
    (fresh_of_reached reached found).free fresh slot.channel
  have absent : slot.has s.shared.world = false := fits.free held
  rw [due, hash_step registry move, there, List.append_nil]
  cases ran with
  | overLimit _ _ _ _ =>
      show Entry.Fits _ _ ⟨slot.has s.shared.world, reader.client.isSubscribed slot.channel⟩
      rw [absent, held]
      exact Entry.fits_free
  | registering _ _ _ _ granted =>
      subst granted
      show Entry.Fits _ _ (slot.settled node s.shared.world.hub.hash
        ⟨slot.has s.shared.world, reader.client.isSubscribed slot.channel⟩ _)
      rw [absent, held]
      simp only [Slot.settled_cons, Slot.settled_nil, Op.settle]
      rw [Slot.settles_of_registers rfl, Slot.settles_of_registers rfl]
      split
      next => exact Entry.fits_free.take
      next => exact Entry.fits_free

theorem Balanced.exec {reader reader' : Reader} {op : Op} {rest more : List Op}
    {shared' : Shared} (h : s.Balanced node ⟨reader, op :: rest⟩) (reached : Reached node s)
    (move : Step node s turn s') (there : s'.shared = shared')
    (found : s.jobs[i]? = some ⟨reader, op :: rest⟩)
    (after : s'.jobs[i]? = some ⟨reader', more ++ rest⟩)
    (ran : op.Ran node reader s.shared reader' shared' more)
    (configured : ∀ channel state, reader.client.subscriptions.lookup channel = some state →
      Configured node channel state) : s'.Balanced node ⟨reader', more ++ rest⟩ := by
  by_cases registers : ∃ readings cmd creds, op = .register readings cmd creds
  · obtain ⟨readings, cmd, creds, rfl⟩ := registers
    exact h.register reached move there found ran
  · have registry : Registry s := .of_reached reached
    intro slot same
    have id : reader.client.id = slot.id := ran.client.1.symm.trans same.symm
    have fits := h slot id.symm
    rw [due, Slot.settled_cons] at fits
    rw [due, hash_step registry move, there, Slot.settled_append]
    obtain settled | ⟨below, table, tx, rfl⟩ := ran.settled id (registry.seated.seat found).stage
      configured fun readings cmd creds same => registers ⟨readings, cmd, creds, same⟩
    · rw [settled]
      exact fits.mono fun lost => lost.step registry move
    · refine fits.of_below (Slot.settled_mono below) ⟨table, ?_⟩
      -- the broadcast of the session goes on to sweep its own client
      have known : s.Known slot.id := by
        have mem : .removeConn slot.id (some tx) ∈ s.pending :=
          Seated.mem_pending.mpr (.inl ⟨i, _, found, List.mem_cons_self⟩)
        obtain ⟨handle, issued, same, _⟩ := registry.pending _ mem
        exact same ▸ issued.known
      have sweeping : .sweep slot.id 0 ∈ s'.pending := by
        cases ran with
        | accessed performed =>
            obtain ⟨_, rfl⟩ := Access.exec_eq performed
            refine Seated.mem_pending.mpr (.inl ⟨i, _, after, List.mem_append_left _ ?_⟩)
            exact List.mem_map.mpr ⟨_, Slot.sweep_mem_more slot.id (some tx) 0, rfl⟩
      exact (Swept.of_reached (reached.next move)).gone sweeping rfl (known.step move)

/-! ## Runs -/

theorem configured_of_reached (h : Reached node s) (found : s.jobs[i]? = some job) :
    job.Holds (Configured node) := by
  have all : ∀ {i : Nat} {job : Job}, s.jobs[i]? = some job → job.Holds (Configured node) := by
    refine h.invariant (fun s => ∀ {i : Nat} {job : Job}, s.jobs[i]? = some job →
      job.Holds (Configured node)) ?_ ?_
    · intro s start
      obtain ⟨hash, ttl, verifier, rfl⟩ := start
      intro i job found
      cases found
    · intro s turn s' holds move i job found
      cases move.became found with
      | accepted _ _ _ =>
          refine ⟨?_, ?_⟩
          · intro channel state held
            cases held
          · intro _ _ _ _ _ mem
            cases mem
      | began there _ begun =>
          exact (holds there).begin Configured.lasting (Reader.begin_begun begun)
            Configured.granted
      | worked there ran =>
          exact (holds there).exec Configured.lasting (Op.exec_ran ran) fun _ => rfl
      | stayed there => exact holds there
  exact all found

/-- Entries and subscriptions agree, up to the work under way. -/
theorem balanced_step (reached : Reached node s) (move : Step node s turn s')
    (balanced : ∀ {i : Nat} {job : Job}, s.jobs[i]? = some job → s.Balanced node job)
    (found : s'.jobs[i]? = some job) : s'.Balanced node job := by
  have registry : Registry s := .of_reached reached
  have swept : Swept s := .of_reached reached
  cases authenticated : job.reader.client.authenticated with
  | false => exact balanced_of_fresh (reached.next move) found authenticated
  | true =>
      have stay : s.jobs[i]? = some job →
          (∀ slot : Slot, slot.has s'.shared.world = slot.has s.shared.world) →
            s'.Balanced node job :=
        fun old same => (balanced old).stay registry move fun slot _ => .inl (same slot)
      -- an access of somebody else
      have other : ∀ {a : Access}, s.jobs[i]? = some job →
          s'.shared = a.perform node s.shared → a ∈ s.pending →
            a.owner ≠ some job.reader.client.id → s'.Balanced node job := by
        intro a old shared mem apart
        refine (balanced old).stay registry move fun slot same => ?_
        rw [shared]
        exact has_perform_other swept ⟨i, job, old, authenticated, same.symm⟩ mem (same ▸ apart)
      cases move.moved with
      | accepted proto transport =>
          obtain old | ⟨_, new⟩ := getElem?_append_singleton found
          · exact stay old fun _ => rfl
          · subst new
            cases authenticated
      | began there _ prepared begun =>
          have begins := Reader.begin_begun begun
          obtain ⟨rfl, rfl⟩ | ⟨_, old⟩ := getElem?_set_of_some found
          · exact (balanced there).begin registry move rfl prepared begins
              (begins.authenticated ▸ authenticated) (configured_of_reached reached there).held
          · refine stay old fun slot => ?_
            have world := (Reader.prepare_quiet prepared).2
            exact (Slot.has_quiet begins.quiet).trans (congrArg slot.has world)
      | @worked k reader reader' op rest more shared' there ran =>
          have runs := Op.exec_ran ran
          obtain ⟨rfl, rfl⟩ | ⟨apart, old⟩ := getElem?_set_of_some found
          · exact (balanced there).exec reached move rfl there found runs
              (configured_of_reached reached there).held
          · cases runs.kind (registry.seated.seat there).stage.first with
            | @access a _ performed _ =>
                obtain ⟨rfl, _⟩ := Access.exec_eq performed
                have mem : a ∈ s.pending :=
                  Seated.mem_pending.mpr (.inl ⟨k, _, there, List.mem_cons_self⟩)
                refine other old rfl mem fun own => ?_
                have id := registry.seated.id_of_owner there List.mem_cons_self own
                have named := (registry.seated.seat old).named authenticated
                exact apart (registry.seated.distinct there old id (id ▸ named)).symm
            | registering _ _ _ _ _ same => exact stay old fun slot => by rw [← same]
            | quiet _ quiet _ => exact stay old fun slot => Slot.has_quiet quiet
      | @advanced k a rest more shared' there ran =>
          obtain ⟨rfl, _⟩ := Access.exec_eq ran
          have running := List.mem_of_getElem? there
          have mem : a ∈ s.pending :=
            Seated.mem_pending.mpr (.inr ⟨_, running, List.mem_cons_self⟩)
          refine other found rfl mem ?_
          rw [registry.seated.tasks _ running _ List.mem_cons_self]
          intro wrong
          cases wrong
      | @slowClosed tx _ _ =>
          refine stay found fun slot => ?_
          obtain ⟨hub, engine⟩ := s.shared.world.send_hub tx (.close .slow)
          exact Slot.has_congr hub (congrArg MemoryEngine.presence engine)
      | _ => exact stay found fun _ => rfl

theorem balanced_of_reached (h : Reached node s) (found : s.jobs[i]? = some job) :
    s.Balanced node job := by
  have all : Reached node s ∧ ∀ {i : Nat} {job : Job}, s.jobs[i]? = some job →
      s.Balanced node job := by
    refine h.invariant (fun s => Reached node s ∧ ∀ {i : Nat} {job : Job},
      s.jobs[i]? = some job → s.Balanced node job) ?_ ?_
    · intro s start
      refine ⟨.start start, ?_⟩
      obtain ⟨hash, ttl, verifier, rfl⟩ := start
      intro i job found
      cases found
    · rintro s turn s' ⟨reached, balanced⟩ move
      exact ⟨reached.next move, balanced_step reached move balanced⟩
  exact all.2 found

end Server

end Centrifugo
