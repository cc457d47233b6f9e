import Centrifugo.Core.Memory
import Centrifugo.Data.Lapse
import Mathlib.Data.List.DropRight
import Mathlib.Logic.Function.Basic

/-!
# The history as a log that expires on time

A timeline says what the stream of a channel should be at every instant. Reads do not change it,
and nothing has to be evicted from it. The engine evicts when a channel is touched, and its reads
create streams; the answers are those of the timeline, up to the names of the epochs, unless the
sum for the deadline of a stream wraps.
-/

namespace Centrifugo

/-! ## Timelines -/

/-- A stream from one loss to the next. -/
structure Incarnation where
  number : Nat
  offset : Nat
  pubs : Lapsing Int (List Publication)

namespace Incarnation

/-- The empty stream in place of one that was lost. -/
def successor (stream : Incarnation) : Incarnation := ⟨stream.number + 1, 0, ⟨[], none⟩⟩

def pubsAt (stream : Incarnation) (now : UnixTime) : List Publication :=
  stream.pubs.valueAt (fun _ => []) now.seconds

/-- A publication takes the next offset, and only the newest ones are kept, for the lifetime
that it brings. -/
def push (stream : Incarnation) (clock : Clock) (data : Raw) (info : Option ClientInfo)
    (opts : PublishOptions) : Incarnation :=
  let publication : Publication := { data := some data, info := info, offset := stream.offset + 1 }
  { number := stream.number
    offset := stream.offset + 1
    pubs := {
      value := (stream.pubsAt (clock 1) ++ [publication]).rtake opts.historySize
      deadline := some ((clock 2).seconds + opts.historyLifetime) } }

end Incarnation

/-- The stream of a channel, and when it will be lost. -/
abbrev Timeline := Lapsing Int Incarnation

namespace Timeline

def start : Timeline := ⟨⟨0, 0, ⟨[], none⟩⟩, none⟩

/-- The stream at an instant. -/
def streamAt (line : Timeline) (now : UnixTime) : Incarnation :=
  line.valueAt Incarnation.successor now.seconds

def publish (line : Timeline) (metaTtl : Nat) (clock : Clock) (data : Raw)
    (info : Option ClientInfo) (opts : PublishOptions) : Timeline where
  value := (line.streamAt (clock 0)).push clock data info opts
  deadline := if 0 < metaTtl then some ((clock 3).seconds + metaTtl) else none

def remove (line : Timeline) (now : UnixTime) : Timeline := ⟨(line.streamAt now).successor, none⟩

end Timeline

namespace MemoryEngine

/-- A call with the readings of the clock while it runs, and the epoch for a new stream. -/
structure Call where
  op : Op
  clock : Clock
  fresh : String

/-- What a caller gets to see, with the identity of the stream. -/
inductive Observation (ι : Type)
  | published (publication : Publication)
  | read (channel : String) (pubs : List Publication) (offset : Nat) (identity : ι)
  | nothing

def Op.channel : Op → String
  | .publish channel _ _ _ => channel
  | .history channel => channel
  | .historySince channel _ _ => channel
  | .removeHistory channel => channel
  | .addPresence channel _ _ => channel
  | .removePresence channel _ => channel

/-- The reads of the history. -/
def Op.reads : Op → Bool
  | .history _ => true
  | .historySince _ _ _ => true
  | _ => false

def after (engine : MemoryEngine) (call : Call) : MemoryEngine :=
  engine.apply call.clock call.fresh call.op

def observe (engine : MemoryEngine) (call : Call) : Observation String :=
  match call.op with
  | .publish channel data info opts =>
      .published (engine.append call.clock call.fresh channel data info opts).2
  | .history channel =>
      let (_, pubs, top) := engine.readHistory call.clock call.fresh channel
      .read channel pubs top.offset top.epoch
  | .historySince channel offset epoch =>
      let (_, pubs, top) := engine.historySince call.clock call.fresh channel offset epoch
      .read channel pubs top.offset top.epoch
  | _ => .nothing

/-- What is seen of a run by those calls that are marked. -/
def observations : MemoryEngine → List (Call × Bool) → List (Observation String)
  | _, [] => []
  | engine, (call, marked) :: calls =>
      let rest := observations (engine.after call) calls
      if marked then engine.observe call :: rest else rest

end MemoryEngine

open MemoryEngine

/-- A timeline for each channel. -/
abbrev Timelines := String → Timeline

namespace Timelines

def after (metaTtl : Nat) (lines : Timelines) (call : Call) : Timelines :=
  match call.op with
  | .publish channel data info opts =>
      if opts.historyEnabled then
        Function.update lines channel ((lines channel).publish metaTtl call.clock data info opts)
      else lines
  | .removeHistory channel =>
      Function.update lines channel ((lines channel).remove (call.clock 0))
  | _ => lines

/-- The publications of a channel that a reader asks for. -/
def read (lines : Timelines) (clock : Clock) (channel : String) (wanted : Publication → Bool) :
    Observation Nat :=
  let stream := (lines channel).streamAt (clock 0)
  .read channel ((stream.pubsAt (clock 1)).filter wanted) stream.offset stream.number

def observe (lines : Timelines) (call : Call) : Observation Nat :=
  match call.op with
  | .publish channel data info opts =>
      let offset :=
        if opts.historyEnabled then ((lines channel).streamAt (call.clock 0)).offset + 1 else 0
      .published { data := some data, info := info, offset := offset }
  | .history channel => lines.read call.clock channel fun _ => true
  | .historySince channel offset _ =>
      lines.read call.clock channel fun publication => offset < publication.offset
  | _ => .nothing

def observations (metaTtl : Nat) : Timelines → List (Call × Bool) → List (Observation Nat)
  | _, [] => []
  | lines, (call, marked) :: calls =>
      let rest := observations metaTtl (lines.after metaTtl call) calls
      if marked then lines.observe call :: rest else rest

/-- A read leaves every timeline as it is. -/
theorem after_of_reads {metaTtl : Nat} {lines : Timelines} {call : Call}
    (reads : call.op.reads) : lines.after metaTtl call = lines := by
  obtain ⟨op, clock, fresh⟩ := call
  cases op with
  | history channel => rfl
  | historySince channel offset epoch => rfl
  | _ => cases reads

end Timelines

/-! ## Naming the incarnations -/

/-- The epochs of the incarnations that somebody has looked at. -/
abbrev Naming := String → Nat → Option String

namespace Naming

variable {name name' name'' : Naming} {channel fresh : String} {number : Nat}

def give (name : Naming) (channel : String) (number : Nat) (epoch : String) : Naming :=
  Function.update name channel (Function.update (name channel) number (some epoch))

/-- No two incarnations have one epoch. -/
def OneToOne (name : Naming) : Prop :=
  ∀ channel number channel' number' epoch, name channel number = some epoch →
    name channel' number' = some epoch → channel = channel' ∧ number = number'

/-- At most one incarnation gets a name. -/
def Grows (name : Naming) (fresh : String) (name' : Naming) : Prop :=
  name' = name ∨ ∃ channel number, name channel number = none ∧
    name' = name.give channel number fresh

/-- A naming that knows at least as much. -/
def Within (name name' : Naming) : Prop :=
  ∀ channel number epoch, name channel number = some epoch → name' channel number = some epoch

theorem Within.refl (name : Naming) : name.Within name := fun _ _ _ named => named

theorem Within.trans (one : name.Within name') (two : name'.Within name'') : name.Within name'' :=
  fun channel number epoch named => two channel number epoch (one channel number epoch named)

theorem give_eq (name : Naming) (channel other : String) (number n : Nat) (epoch : String) :
    name.give channel number epoch other n =
      if other = channel ∧ n = number then some epoch else name other n := by
  unfold give
  by_cases same : other = channel
  · subst same
    rw [Function.update_self]
    by_cases here : n = number
    · subst here
      simp
    · simp [here]
  · simp [same]

theorem Grows.within (grows : name.Grows fresh name') : name.Within name' := by
  obtain rfl | ⟨channel, number, unnamed, rfl⟩ := grows
  · exact .refl _
  · intro other n epoch named
    rw [give_eq, if_neg]
    · exact named
    · rintro ⟨rfl, rfl⟩
      rw [unnamed] at named
      cases named

/-- A name that was not in use before keeps the naming one to one. -/
theorem Grows.oneToOne (grows : name.Grows fresh name') (apart : name.OneToOne)
    (unused : ∀ channel number, name channel number ≠ some fresh) : name'.OneToOne := by
  obtain rfl | ⟨channel, number, unnamed, rfl⟩ := grows
  · exact apart
  · intro c n c' n' epoch named named'
    rw [give_eq] at named named'
    split at named
    next here =>
      cases named
      split at named'
      next here' => exact ⟨here.1.trans here'.1.symm, here.2.trans here'.2.symm⟩
      next => exact absurd named' (unused c' n')
    next =>
      split at named'
      next =>
        cases named'
        exact absurd named (unused c n)
      next => exact apart c n c' n' epoch named named'

end Naming

/-- The engine shows what the timelines show, with epochs for the incarnations. -/
inductive Agrees (name : Naming) : Observation String → Observation Nat → Prop
  | published (publication : Publication) :
      Agrees name (.published publication) (.published publication)
  | read {channel : String} {pubs : List Publication} {offset : Nat} {epoch : String}
      {number : Nat} : name channel number = some epoch →
      Agrees name (.read channel pubs offset epoch) (.read channel pubs offset number)
  | nothing : Agrees name .nothing .nothing

theorem Agrees.mono {name name' : Naming} (within : name.Within name') {o : Observation String}
    {o' : Observation Nat} (agrees : Agrees name o o') : Agrees name' o o' := by
  cases agrees with
  | published publication => exact .published publication
  | read named => exact .read (within _ _ _ named)
  | nothing => exact .nothing

/-! ## One channel -/

/-- The buffered publications at an instant. -/
def Stream.pubsAt (stream : Stream) (now : UnixTime) : List Publication :=
  if now.seconds > stream.expireAt then [] else stream.pubs

/-- A deadline as it is stored: none, or one that no clock reaches, is the last second. -/
def storedDeadline (deadline : Option Int) : Int := min (deadline.getD i64Max) i64Max

/-- What is stored of a channel, from some instant on, when its timeline has nothing overdue.
Nothing is stored of an incarnation that nobody has looked at. -/
def Stores (name : Nat → Option String) (line : Timeline) (now : Int) : Option Stream → Prop
  | none => line.deadline = none ∧ line.value.offset = 0 ∧ line.value.pubs = ⟨[], none⟩ ∧
      name line.value.number = none
  | some stream => name line.value.number = some stream.epoch ∧
      stream.offset = line.value.offset ∧ stream.metaExpireAt = storedDeadline line.deadline ∧
      ∀ later : UnixTime, now ≤ later.seconds → stream.pubsAt later = line.value.pubsAt later

/-- The store of a channel follows its timeline, of which some time before the present nothing
was overdue. -/
def Follows (name : Nat → Option String) (line : Timeline) (now : Int) (found : Option Stream) :
    Prop :=
  ∃ since ≤ now, Stores name (line.sweep Incarnation.successor since) now found ∧
    ∀ number > (line.sweep Incarnation.successor since).value.number, name number = none

theorem Follows.mono {name : Nat → Option String} {line : Timeline} {now later : Int}
    {found : Option Stream} (follows : Follows name line now found) (since : now ≤ later) :
    Follows name line later found := by
  obtain ⟨swept, before, stores, unnamed⟩ := follows
  refine ⟨swept, before.trans since, ?_, unnamed⟩
  cases found with
  | none => exact stores
  | some stream =>
      obtain ⟨named, offset, whole, pubs⟩ := stores
      exact ⟨named, offset, whole, fun t after => pubs t (since.trans after)⟩

theorem passed_storedDeadline {deadline : Option Int} {now : UnixTime} :
    now.seconds > storedDeadline deadline ↔ Passed deadline now.seconds := by
  have bounded := now.bounded
  cases deadline with
  | none => simpa [storedDeadline] using bounded
  | some d =>
      rw [passed_some, storedDeadline, Option.getD_some, gt_iff_lt, min_lt_iff]
      exact or_iff_left (not_lt.mpr bounded)

theorem Stream.pubsAt_clear (stream : Stream) (now : UnixTime) : stream.clear.pubsAt now = [] := by
  simp [pubsAt, clear]

theorem Stream.pubsAt_new (epoch : String) (now : UnixTime) :
    (Stream.new epoch).pubsAt now = [] := by
  simp [pubsAt, Stream.new]

theorem lookup_evict {clock : Clock} {hist : History} {channel : String} :
    (evictIfExpired clock hist channel).lookup channel =
      (hist.lookup channel).bind fun stream =>
        if (clock 0).seconds > stream.metaExpireAt then none
        else some (if (clock 1).seconds > stream.expireAt then stream.clear else stream) := by
  unfold evictIfExpired
  cases found : hist.lookup channel with
  | none => exact found
  | some stream =>
      simp only [Option.bind_some]
      split
      · exact AList.lookup_erase channel hist
      split
      · exact AList.lookup_insert hist
      · exact found

/-- A call finds the stream that the timeline has at its start, with the publications of its second
reading of the clock, under the epoch that the incarnation has or now gets. -/
structure Finds (name : Nat → Option String) (fresh : String) (line : Timeline) (clock : Clock)
    (stream : Stream) : Prop where
  named : name (line.streamAt (clock 0)).number = some stream.epoch ∨
    name (line.streamAt (clock 0)).number = none ∧ stream.epoch = fresh
  offset : stream.offset = (line.streamAt (clock 0)).offset
  pubs : stream.pubs = (line.streamAt (clock 0)).pubsAt (clock 1)
  whole : stream.metaExpireAt =
    storedDeadline (line.sweep Incarnation.successor (clock 0).seconds).deadline
  lasting : ∀ later : UnixTime, (clock 1).seconds ≤ later.seconds →
    stream.pubsAt later = (line.streamAt (clock 0)).pubsAt later
  unnamed : ∀ number > (line.streamAt (clock 0)).number, name number = none

theorem Follows.finds {name : Nat → Option String} {line : Timeline} {now : Int}
    {hist : History} {channel : String} {clock : Clock} (fresh : String)
    (follows : Follows name line now (hist.lookup channel)) (start : now ≤ (clock 0).seconds)
    (on : (clock 0).seconds ≤ (clock 1).seconds) :
    Finds name fresh line clock (streamAt clock fresh hist channel) := by
  obtain ⟨since, before, stores, unnamed⟩ := follows
  have same : line.sweep Incarnation.successor (clock 0).seconds =
      (line.sweep Incarnation.successor since).sweep Incarnation.successor (clock 0).seconds :=
    (Lapsing.sweep_sweep (before.trans start)).symm
  have here : line.streamAt (clock 0) =
      Timeline.streamAt (line.sweep Incarnation.successor since) (clock 0) :=
    (Lapsing.valueAt_sweep (before.trans start)).symm
  suffices Finds name fresh (line.sweep Incarnation.successor since) clock
      (streamAt clock fresh hist channel) by
    obtain ⟨named, offset, pubs, whole, lasting, unnamed⟩ := this
    rw [← here] at named offset pubs unnamed
    rw [← same] at whole
    exact ⟨named, offset, pubs, whole, fun later on => here ▸ lasting later on, unnamed⟩
  clear same here
  generalize line.sweep Incarnation.successor since = line at stores unnamed
  rw [MemoryEngine.streamAt, lookup_evict]
  cases found : hist.lookup channel with
  | none =>
      rw [found] at stores
      obtain ⟨deadline, offset, pubs, unseen⟩ := stores
      have lasts : ¬ Passed line.deadline (clock 0).seconds := by simp [deadline]
      have stands : Timeline.streamAt line (clock 0) = line.value := Lapsing.valueAt_of_not lasts
      have empty : ∀ later, line.value.pubsAt later = [] := by
        intro later
        rw [Incarnation.pubsAt, pubs, Lapsing.valueAt_none]
      constructor
      · exact .inr ⟨stands ▸ unseen, rfl⟩
      · rw [stands, offset]
        rfl
      · rw [stands, empty]
        rfl
      · rw [Lapsing.sweep_of_not lasts, deadline]
        rfl
      · intro later _
        rw [stands, empty]
        exact Stream.pubsAt_new fresh later
      · exact stands ▸ unnamed
  | some stream =>
      rw [found] at stores
      obtain ⟨named, offset, whole, pubs⟩ := stores
      rw [Option.bind_some, whole]
      by_cases lost : Passed line.deadline (clock 0).seconds
      · have stands : Timeline.streamAt line (clock 0) = line.value.successor :=
          Lapsing.valueAt_of_passed lost
        have empty : ∀ later, line.value.successor.pubsAt later = [] :=
          fun later => Lapsing.valueAt_none _
        rw [if_pos (passed_storedDeadline.mpr lost)]
        constructor
        · exact .inr ⟨stands ▸ unnamed _ (Nat.lt_succ_self _), rfl⟩
        · rw [stands]
          rfl
        · rw [stands, empty]
          rfl
        · rw [Lapsing.sweep_of_passed lost]
          rfl
        · intro later _
          rw [stands, empty]
          exact Stream.pubsAt_new fresh later
        · intro number above
          rw [stands] at above
          exact unnamed number (lt_trans (Nat.lt_succ_self _) above)
      · have stands : Timeline.streamAt line (clock 0) = line.value := Lapsing.valueAt_of_not lost
        rw [if_neg (mt passed_storedDeadline.mp lost), Option.getD_some]
        -- a buffer that is past its deadline stays empty
        have gone : (clock 1).seconds > stream.expireAt → ∀ later : UnixTime,
            (clock 1).seconds ≤ later.seconds → line.value.pubsAt later = [] := by
          intro old later after
          rw [← pubs later (start.trans (on.trans after))]
          exact if_pos (lt_of_lt_of_le old after)
        constructor
        · rw [stands, apply_ite Stream.epoch]
          exact .inl (named.trans (by simp [Stream.clear]))
        · rw [stands, apply_ite Stream.offset, ← offset]
          exact ite_self _
        · rw [stands, apply_ite Stream.pubs, ← pubs (clock 1) (start.trans on)]
          rfl
        · rw [Lapsing.sweep_of_not lost, apply_ite Stream.metaExpireAt, ← whole]
          exact ite_self _
        · intro later after
          rw [stands]
          split
          next old => rw [Stream.pubsAt_clear, gone old later after]
          next => exact pubs later (start.trans (on.trans after))
        · exact stands ▸ unnamed

section Call

variable {name : Nat → Option String} {line : Timeline} {now : Int} {clock : Clock} {fresh : String}
  {stream : Stream}

/-- A read leaves the store with what it found. -/
theorem Finds.read (finds : Finds name fresh line clock stream)
    (on : (clock 0).seconds ≤ (clock 1).seconds) :
    Follows (Function.update name (line.streamAt (clock 0)).number (some stream.epoch)) line
      (clock 1).seconds (some stream) := by
  have here : (line.sweep Incarnation.successor (clock 0).seconds).value =
      line.streamAt (clock 0) := Lapsing.sweep_value
  refine ⟨(clock 0).seconds, on, ⟨?_, ?_, finds.whole, ?_⟩, ?_⟩
  · rw [here, Function.update_self]
  · rw [here, finds.offset]
  · rw [here]
    exact finds.lasting
  · rw [here]
    intro number above
    rw [Function.update_of_ne (ne_of_gt above)]
    exact finds.unnamed number above

/-- The deadline of a whole stream is stored as the timeline has it. -/
theorem metaExpireAt_eq {metaTtl : Nat} {now : UnixTime} (unsigned : metaTtl < 2 ^ 64)
    (idle : metaTtl < 2 ^ 63 → now.seconds + metaTtl ≤ i64Max) :
    (if i64 metaTtl > 0 then i64 (now.seconds + i64 metaTtl) else i64Max) =
      storedDeadline (if 0 < metaTtl then some (now.seconds + metaTtl) else none) := by
  have start := now.nonneg
  rw [storedDeadline]
  simp only [i64Max] at idle ⊢
  by_cases signed : metaTtl < 2 ^ 63
  · have bound := idle signed
    have ttl : i64 metaTtl = metaTtl := by
      apply i64_eq <;> omega
    have sum : i64 (now.seconds + metaTtl) = now.seconds + metaTtl := by
      apply i64_eq <;> omega
    rw [ttl, sum]
    split <;> split <;> simp only [Option.getD_some, Option.getD_none] <;> omega
  · -- the cast makes the time negative, which is none
    have negative : i64 metaTtl = metaTtl - 2 ^ 64 := by
      rw [i64, Int.bmod_eq_iff (by decide)]
      omega
    have positive : 0 < metaTtl := by omega
    rw [negative, if_neg (by omega), if_pos positive, Option.getD_some]
    omega

/-- A publish leaves the store with the new deadlines. -/
theorem Finds.publish (finds : Finds name fresh line clock stream) {metaTtl : Nat} {data : Raw}
    {info : Option ClientInfo} {opts : PublishOptions} (unsigned : metaTtl < 2 ^ 64)
    (lifetime : (clock 2).seconds + opts.historyLifetime ≤ i64Max)
    (idle : metaTtl < 2 ^ 63 → (clock 3).seconds + metaTtl ≤ i64Max) :
    Follows (Function.update name (line.streamAt (clock 0)).number (some stream.epoch))
      (line.publish metaTtl clock data info opts) (clock 3).seconds
      (some { stream.push data info opts.historySize with
        expireAt := i64 ((clock 2).seconds + i64 opts.historyLifetime)
        metaExpireAt :=
          if i64 metaTtl > 0 then i64 ((clock 3).seconds + i64 metaTtl) else i64Max }) := by
  have start := (clock 2).nonneg
  simp only [i64Max] at lifetime
  have life : i64 opts.historyLifetime = opts.historyLifetime := by
    apply i64_eq <;> omega
  have sum : i64 ((clock 2).seconds + opts.historyLifetime) =
      (clock 2).seconds + opts.historyLifetime := by
    apply i64_eq <;> omega
  have lasts : ¬ Passed (line.publish metaTtl clock data info opts).deadline
      (clock 3).seconds := by
    simp only [Timeline.publish]
    split
    · rw [passed_some]
      omega
    · exact not_passed_none
  rw [life, sum, metaExpireAt_eq unsigned idle]
  refine ⟨(clock 3).seconds, le_rfl, ?_, ?_⟩ <;> rw [Lapsing.sweep_of_not lasts]
  · refine ⟨Function.update_self _ _ _, ?_, ?_, ?_⟩
    · change stream.offset + 1 = _
      rw [finds.offset]
      rfl
    · rfl
    · intro later after
      simp only [Stream.pubsAt, Stream.push, Incarnation.pubsAt, Timeline.publish,
        Incarnation.push, Lapsing.valueAt, passed_some, finds.pubs, finds.offset, gt_iff_lt]
      rfl
  · intro number above
    have differs : number ≠ (line.streamAt (clock 0)).number := ne_of_gt above
    rw [Function.update_of_ne differs]
    exact finds.unnamed number above

/-- A removal leaves nothing, and the next incarnation has not been looked at. -/
theorem Follows.remove {found : Option Stream} (follows : Follows name line now found)
    (start : now ≤ (clock 0).seconds) : Follows name (line.remove (clock 0)) now none := by
  obtain ⟨since, before, stores, unnamed⟩ := follows
  have here : line.streamAt (clock 0) =
      Timeline.streamAt (line.sweep Incarnation.successor since) (clock 0) :=
    (Lapsing.valueAt_sweep (before.trans start)).symm
  have above : (line.sweep Incarnation.successor since).value.number ≤
      (line.streamAt (clock 0)).number := by
    rw [here, Timeline.streamAt, Lapsing.valueAt]
    split
    · exact Nat.le_succ _
    · exact le_rfl
  refine ⟨now, le_rfl, ?_, ?_⟩ <;> simp only [Timeline.remove, Lapsing.sweep_none]
  · exact ⟨rfl, rfl, rfl, unnamed _ (Nat.lt_succ_of_le above)⟩
  · intro number beyond
    exact unnamed number (lt_of_le_of_lt above (lt_trans (Nat.lt_succ_self _) beyond))

end Call

/-! ## All channels -/

namespace MemoryEngine.Call

/-- The sum for the deadline of the publications fits in 64 bits. -/
def InRange (call : Call) : Prop :=
  match call.op with
  | .publish _ _ _ opts => opts.historyEnabled →
      (call.clock 2).seconds + opts.historyLifetime ≤ i64Max
  | _ => True

/-- The sum for the deadline of a stream fits in 64 bits, or there is none. From 2^63 on the time
to live is a negative number, and the stream stays. -/
def Unwrapped (metaTtl : Nat) (call : Call) : Prop :=
  match call.op with
  | .publish _ _ _ opts => opts.historyEnabled → metaTtl < 2 ^ 63 →
      (call.clock 3).seconds + metaTtl ≤ i64Max
  | _ => True

/-- The readings of a call, in order. -/
structure Ordered (call : Call) (now : Int) : Prop where
  start : now ≤ (call.clock 0).seconds
  first : (call.clock 0).seconds ≤ (call.clock 1).seconds
  second : (call.clock 1).seconds ≤ (call.clock 2).seconds
  third : (call.clock 2).seconds ≤ (call.clock 3).seconds

end MemoryEngine.Call

/-- The engine follows all timelines. -/
structure Tracks (metaTtl : Nat) (name : Naming) (lines : Timelines) (now : Int)
    (engine : MemoryEngine) : Prop where
  ttl : engine.metaTtl = i64 metaTtl
  unsigned : metaTtl < 2 ^ 64
  consistent : engine.history.Consistent
  follows : ∀ channel, Follows (name channel) (lines channel) now (engine.history.lookup channel)

section Tracks

variable {metaTtl : Nat} {name : Naming} {lines : Timelines} {now : Int} {engine : MemoryEngine}
  {call : Call}

theorem Naming.give_of_named {channel : String} {number : Nat} {epoch : String}
    (named : name channel number = some epoch) : name.give channel number epoch = name := by
  rw [Naming.give, ← named, Function.update_eq_self, Function.update_eq_self]

theorem Finds.grows {channel fresh : String} {line : Timeline} {clock : Clock} {stream : Stream}
    (finds : Finds (name channel) fresh line clock stream) :
    name.Grows fresh (name.give channel (line.streamAt (clock 0)).number stream.epoch) := by
  obtain named | ⟨unnamed, created⟩ := finds.named
  · exact .inl (Naming.give_of_named named)
  · exact .inr ⟨channel, _, unnamed, by rw [created]⟩

/-- A change of one channel leaves the others where they are. -/
theorem Tracks.give (tracks : Tracks metaTtl name lines now engine) {channel epoch : String}
    {number : Nat} {lines' : Timelines} {later : Int} {engine' : MemoryEngine}
    (on : now ≤ later) (ttl : engine'.metaTtl = engine.metaTtl)
    (consistent : engine'.history.Consistent)
    (others : ∀ other, other ≠ channel → lines' other = lines other ∧
      engine'.history.lookup other = engine.history.lookup other)
    (here : Follows (Function.update (name channel) number (some epoch)) (lines' channel) later
      (engine'.history.lookup channel)) :
    Tracks metaTtl (name.give channel number epoch) lines' later engine' := by
  refine ⟨ttl.trans tracks.ttl, tracks.unsigned, consistent, ?_⟩
  intro other
  by_cases same : other = channel
  · subst same
    rw [Naming.give, Function.update_self]
    exact here
  · obtain ⟨line, found⟩ := others other same
    rw [Naming.give, Function.update_of_ne same, line, found]
    exact (tracks.follows other).mono on

/-- What the calls that leave the history alone leave. -/
theorem Tracks.mono (tracks : Tracks metaTtl name lines now engine) {later : Int}
    {engine' : MemoryEngine} (on : now ≤ later) (ttl : engine'.metaTtl = engine.metaTtl)
    (history : engine'.history = engine.history) : Tracks metaTtl name lines later engine' :=
  ⟨ttl.trans tracks.ttl, tracks.unsigned, history ▸ tracks.consistent,
    fun channel => history ▸ (tracks.follows channel).mono on⟩

theorem MemoryEngine.Call.Ordered.on (ordered : call.Ordered now) :
    now ≤ (call.clock 3).seconds :=
  ordered.start.trans (ordered.first.trans (ordered.second.trans ordered.third))

theorem Tracks.finds (tracks : Tracks metaTtl name lines now engine) (ordered : call.Ordered now)
    (channel : String) : Finds (name channel) call.fresh (lines channel) call.clock
      (streamAt call.clock call.fresh engine.history channel) :=
  (tracks.follows channel).finds call.fresh ordered.start ordered.first

theorem Tracks.touch (tracks : Tracks metaTtl name lines now engine) (ordered : call.Ordered now)
    (channel : String) :
    Tracks metaTtl (name.give channel ((lines channel).streamAt (call.clock 0)).number
      (streamAt call.clock call.fresh engine.history channel).epoch) lines
      (call.clock 3).seconds (engine.touch call.clock call.fresh channel).1 := by
  refine tracks.give ordered.on rfl ?_ ?_ ?_
  · exact consistent_touch tracks.consistent call.clock call.fresh channel
  · intro other differs
    refine ⟨rfl, ?_⟩
    rw [MemoryEngine.touch, AList.lookup_insert_ne differs, lookup_evict_ne differs]
  · rw [MemoryEngine.touch, AList.lookup_insert]
    exact ((tracks.finds ordered channel).read ordered.first).mono
      (ordered.second.trans ordered.third)

/-- A read shows what the timeline has then. -/
theorem Tracks.agrees_read (tracks : Tracks metaTtl name lines now engine)
    (ordered : call.Ordered now) (channel : String) (wanted : Publication → Bool) :
    let stream := streamAt call.clock call.fresh engine.history channel
    Agrees (name.give channel ((lines channel).streamAt (call.clock 0)).number stream.epoch)
      (.read channel (stream.pubs.filter wanted) stream.offset stream.epoch)
      (lines.read call.clock channel wanted) := by
  intro stream
  have finds := tracks.finds ordered channel
  rw [Timelines.read, ← finds.pubs, ← finds.offset]
  apply Agrees.read
  rw [Naming.give_eq, if_pos ⟨rfl, rfl⟩]

/-- A caller at the top of a stream is told of nothing new, whatever epoch it names. -/
theorem historySince_pubs (consistent : engine.history.Consistent) {clock : Clock}
    {fresh channel epoch : String} {offset : Nat} :
    (engine.historySince clock fresh channel offset epoch).2 =
      ((streamAt clock fresh engine.history channel).pubs.filter
          fun publication => offset < publication.offset,
        (streamAt clock fresh engine.history channel).position) := by
  simp only [historySince, MemoryEngine.touch]
  by_cases top : (streamAt clock fresh engine.history channel).offset = offset ∧
      (streamAt clock fresh engine.history channel).epoch = epoch
  · have stored := consistent_streamAt consistent clock fresh channel
    have none : (streamAt clock fresh engine.history channel).pubs.filter
        (fun publication => decide (offset < publication.offset)) = [] := by
      rw [List.filter_eq_nil_iff]
      intro publication mem
      have below := (stored.numbered.bounds (stored.suffix.subset mem)).2
      rw [← stored.offset_eq] at below
      simp only [decide_eq_true_eq]
      omega
    rw [none]
    exact congrArg Prod.snd (if_pos top)
  · exact congrArg Prod.snd (if_neg top)

/-- A publish with a history enters the stream. -/
theorem Tracks.publish (tracks : Tracks metaTtl name lines now engine)
    (ordered : call.Ordered now) {channel : String} {data : Raw} {info : Option ClientInfo}
    {opts : PublishOptions} (enabled : opts.historyEnabled)
    (lifetime : (call.clock 2).seconds + opts.historyLifetime ≤ i64Max)
    (idle : metaTtl < 2 ^ 63 → (call.clock 3).seconds + metaTtl ≤ i64Max) :
    Tracks metaTtl (name.give channel ((lines channel).streamAt (call.clock 0)).number
      (streamAt call.clock call.fresh engine.history channel).epoch)
      (Function.update lines channel
        ((lines channel).publish metaTtl call.clock data info opts))
      (call.clock 3).seconds
      (engine.addToHistory call.clock call.fresh channel data info opts).1 := by
  refine tracks.give ordered.on rfl ?_ ?_ ?_
  · have kept := consistent_append tracks.consistent call.clock call.fresh channel data info opts
    simpa only [append, enabled, if_true] using kept
  · intro other differs
    refine ⟨Function.update_of_ne differs _ _, ?_⟩
    rw [addToHistory, AList.lookup_insert_ne differs, lookup_evict_ne differs]
  · rw [addToHistory, AList.lookup_insert, Function.update_self, tracks.ttl]
    exact (tracks.finds ordered channel).publish tracks.unsigned lifetime idle

theorem Tracks.remove (tracks : Tracks metaTtl name lines now engine)
    (ordered : call.Ordered now) (channel : String) :
    Tracks metaTtl name
      (Function.update lines channel ((lines channel).remove (call.clock 0)))
      (call.clock 3).seconds (engine.removeHistory channel) := by
  refine ⟨tracks.ttl, tracks.unsigned, tracks.consistent.erase channel, ?_⟩
  intro other
  by_cases same : other = channel
  · subst same
    rw [removeHistory, AList.lookup_erase, Function.update_self]
    exact ((tracks.follows other).remove ordered.start).mono ordered.on
  · rw [removeHistory, AList.lookup_erase_ne same, Function.update_of_ne same]
    exact (tracks.follows other).mono ordered.on

/-- Each call keeps the engine on the timelines, and shows what they show. -/
theorem Tracks.step (tracks : Tracks metaTtl name lines now engine) (ordered : call.Ordered now)
    (inRange : call.InRange) (unwrapped : call.Unwrapped metaTtl) :
    ∃ name' : Naming, name.Grows call.fresh name' ∧
      Tracks metaTtl name' (lines.after metaTtl call) (call.clock 3).seconds (engine.after call) ∧
      Agrees name' (engine.observe call) (lines.observe call) := by
  obtain ⟨op, clock, fresh⟩ := call
  cases op with
  | publish channel data info opts =>
      by_cases enabled : opts.historyEnabled
      · have finds := tracks.finds ordered channel
        refine ⟨_, finds.grows, ?_, ?_⟩
        · simp only [Timelines.after, MemoryEngine.after, MemoryEngine.apply, append, enabled,
            if_true]
          exact tracks.publish ordered enabled (inRange enabled) (unwrapped enabled)
        · have offset : ((lines channel).streamAt (clock 0)).offset + 1 =
              (streamAt clock fresh engine.history channel).offset + 1 := by rw [finds.offset]
          simp only [MemoryEngine.observe, Timelines.observe, append, enabled, if_true, offset]
          exact .published _
      · refine ⟨name, .inl rfl, ?_, ?_⟩
        · simp only [Timelines.after, MemoryEngine.after, MemoryEngine.apply, append, enabled]
          exact tracks.mono ordered.on rfl rfl
        · simp only [MemoryEngine.observe, Timelines.observe, append, enabled]
          exact .published _
  | history channel =>
      have agrees := tracks.agrees_read ordered channel fun _ => true
      simp only [List.filter_true] at agrees
      exact ⟨_, (tracks.finds ordered channel).grows, tracks.touch ordered channel, agrees⟩
  | historySince channel offset epoch =>
      have agrees := tracks.agrees_read ordered channel
        fun publication => offset < publication.offset
      refine ⟨_, (tracks.finds ordered channel).grows, ?_, ?_⟩
      · rw [MemoryEngine.after, MemoryEngine.apply, historySince_engine]
        exact tracks.touch ordered channel
      · simp only [MemoryEngine.observe, historySince_pubs tracks.consistent]
        exact agrees
  | removeHistory channel =>
      exact ⟨name, .inl rfl, tracks.remove ordered channel, .nothing⟩
  | addPresence channel client info =>
      exact ⟨name, .inl rfl, tracks.mono ordered.on rfl rfl, .nothing⟩
  | removePresence channel client =>
      exact ⟨name, .inl rfl, tracks.mono ordered.on rfl rfl, .nothing⟩

end Tracks

/-! ## Runs -/

/-- The clock does not go back, within the calls of a run and from one to the next. -/
def InOrder : Int → List Call → Prop
  | _, [] => True
  | now, call :: calls => call.Ordered now ∧ InOrder (call.clock 3).seconds calls

/-- A run in which all calls are marked. -/
def everyCall (calls : List Call) : List (Call × Bool) := calls.map fun call => (call, true)

theorem map_fst_everyCall (calls : List Call) : (everyCall calls).map Prod.fst = calls := by
  rw [everyCall, List.map_map]
  exact List.map_id calls

theorem forall_everyCall {condition : Call → Prop} {calls : List (Call × Bool)}
    (all : ∀ call ∈ calls, condition call.1) :
    ∀ call ∈ everyCall (calls.map Prod.fst), condition call.1 := by
  intro call mem
  have there := List.mem_map_of_mem (f := Prod.fst) mem
  rw [map_fst_everyCall] at there
  obtain ⟨entry, mem, same⟩ := List.mem_map.mp there
  exact same ▸ all entry mem

theorem Naming.Grows.known {name name' : Naming} {fresh : String} (grows : name.Grows fresh name')
    {channel epoch : String} {number : Nat} (named : name' channel number = some epoch) :
    name channel number = some epoch ∨ epoch = fresh := by
  obtain rfl | ⟨there, n, _, rfl⟩ := grows
  · exact .inl named
  · rw [Naming.give_eq] at named
    split at named
    · cases named
      exact .inr rfl
    · exact .inl named

/-- The engine shows what the timelines show, in every run. -/
theorem Tracks.run {metaTtl : Nat} {name : Naming} {lines : Timelines} {now : Int}
    {engine : MemoryEngine} {calls : List (Call × Bool)}
    (tracks : Tracks metaTtl name lines now engine) (inOrder : InOrder now (calls.map Prod.fst))
    (inRange : ∀ call ∈ calls, call.1.InRange)
    (unwrapped : ∀ call ∈ calls, call.1.Unwrapped metaTtl) :
    ∃ name' : Naming, name.Within name' ∧
      List.Forall₂ (Agrees name') (engine.observations calls) (lines.observations metaTtl calls) ∧
      (name.OneToOne → (calls.map (·.1.fresh)).Nodup →
        (∀ channel number, ∀ call ∈ calls, name channel number ≠ some call.1.fresh) →
        name'.OneToOne) := by
  induction calls generalizing name lines now engine with
  | nil => exact ⟨name, .refl name, .nil, fun apart _ _ => apart⟩
  | cons entry calls ih =>
      obtain ⟨call, marked⟩ := entry
      obtain ⟨ordered, inOrder⟩ := inOrder
      obtain ⟨here, later⟩ := List.forall_mem_cons.mp inRange
      obtain ⟨here', later'⟩ := List.forall_mem_cons.mp unwrapped
      obtain ⟨name₁, grows, tracks, agrees⟩ := tracks.step ordered here here'
      obtain ⟨name', within, follow, apart⟩ := ih tracks inOrder later later'
      refine ⟨name', grows.within.trans within, ?_, ?_⟩
      · rw [MemoryEngine.observations, Timelines.observations]
        split
        · exact .cons (agrees.mono within) follow
        · exact follow
      · intro before distinct unused
        rw [List.map_cons, List.nodup_cons] at distinct
        obtain ⟨new, distinct⟩ := distinct
        have unseen : ∀ channel number, name channel number ≠ some call.fresh :=
          fun channel number => unused channel number _ List.mem_cons_self
        refine apart (grows.oneToOne before unseen) distinct ?_
        intro channel number other mem named
        obtain known | same := grows.known named
        · exact unused channel number other (List.mem_cons_of_mem _ mem) known
        · exact new (same ▸ List.mem_map_of_mem mem)

theorem Tracks.start {metaTtl : Nat} (unsigned : metaTtl < 2 ^ 64) :
    Tracks metaTtl (fun _ _ => none) (fun _ => Timeline.start) 0 (new (i64 metaTtl)) := by
  refine ⟨by rw [new], unsigned, ?_, ?_⟩
  · intro channel stream found
    change (none : Option Stream) = some stream at found
    cases found
  · intro channel
    refine ⟨0, le_rfl, ?_, ?_⟩
    · exact ⟨rfl, rfl, rfl, rfl⟩
    · intro number _
      rfl

/-- Calls that are not marked, being reads, do not show in the timelines. -/
theorem Timelines.observations_filter {metaTtl : Nat} {lines : Timelines}
    {calls : List (Call × Bool)} (reads : ∀ call, (call, false) ∈ calls → call.op.reads) :
    lines.observations metaTtl (calls.filter Prod.snd) = lines.observations metaTtl calls := by
  induction calls generalizing lines with
  | nil => rfl
  | cons entry calls ih =>
      obtain ⟨call, marked⟩ := entry
      have later : ∀ call, (call, false) ∈ calls → call.op.reads :=
        fun call mem => reads call (List.mem_cons_of_mem _ mem)
      cases marked with
      | true =>
          rw [List.filter_cons_of_pos rfl, observations, observations, ih later]
      | false =>
          have pure : lines.after metaTtl call = lines :=
            after_of_reads (reads call List.mem_cons_self)
          rw [List.filter_cons_of_neg Bool.false_ne_true, ih later, observations, pure]
          rfl

/-- A part of a run is in order. -/
theorem InOrder.sublist {now : Int} {calls calls' : List Call} (part : calls'.Sublist calls)
    (inOrder : InOrder now calls) : InOrder now calls' := by
  induction part generalizing now with
  | slnil => trivial
  | @cons calls' calls call part ih =>
      obtain ⟨ordered, rest⟩ := inOrder
      have earlier := ih rest
      cases calls' with
      | nil => trivial
      | cons call' calls' =>
          obtain ⟨⟨start, first, second, third⟩, rest'⟩ := earlier
          exact ⟨⟨ordered.on.trans start, first, second, third⟩, rest'⟩
  | cons_cons call part ih => exact ⟨inOrder.1, ih inOrder.2⟩

/-! ## Channels apart -/

namespace MemoryEngine

variable {engine engine' : MemoryEngine} {call : Call} {channel : String}

/-- Two engines that hold the same of one channel. -/
structure SameAt (channel : String) (engine engine' : MemoryEngine) : Prop where
  stream : engine.history.lookup channel = engine'.history.lookup channel
  ttl : engine.metaTtl = engine'.metaTtl

theorem SameAt.streamAt (same : SameAt channel engine engine') (clock : Clock) (fresh : String) :
    streamAt clock fresh engine.history channel = streamAt clock fresh engine'.history channel := by
  rw [MemoryEngine.streamAt, MemoryEngine.streamAt, lookup_evict, lookup_evict, same.stream]

/-- A call for another channel changes nothing of a channel. -/
theorem SameAt.after_of_ne (same : SameAt channel engine engine')
    (elsewhere : call.op.channel ≠ channel) : SameAt channel (engine.after call) engine' := by
  obtain ⟨op, clock, fresh⟩ := call
  have differs : channel ≠ op.channel := elsewhere.symm
  have touched : ∀ stream, ((evictIfExpired clock engine.history op.channel).insert op.channel
      stream).lookup channel = engine'.history.lookup channel := by
    intro stream
    rw [AList.lookup_insert_ne differs, lookup_evict_ne differs, same.stream]
  cases op with
  | publish there data info opts =>
      rw [after, apply, append]
      split
      · exact ⟨touched _, same.ttl⟩
      · exact same
  | history there => exact ⟨touched _, same.ttl⟩
  | historySince there offset epoch =>
      rw [after, apply, historySince_engine]
      exact ⟨touched _, same.ttl⟩
  | removeHistory there =>
      exact ⟨(AList.lookup_erase_ne differs).trans same.stream, same.ttl⟩
  | addPresence there client info => exact ⟨same.stream, same.ttl⟩
  | removePresence there client => exact ⟨same.stream, same.ttl⟩

theorem SameAt.touch (same : SameAt channel engine engine') (clock : Clock) (fresh : String) :
    SameAt channel (engine.touch clock fresh channel).1 (engine'.touch clock fresh channel).1 ∧
      (engine.touch clock fresh channel).2 = (engine'.touch clock fresh channel).2 := by
  have stream := same.streamAt clock fresh
  refine ⟨⟨?_, same.ttl⟩, stream⟩
  rw [MemoryEngine.touch, MemoryEngine.touch, AList.lookup_insert, AList.lookup_insert, stream]

/-- What is missed depends on the stream that is found. -/
theorem historySince_of_touch {clock : Clock} {fresh : String} {offset : Nat} {epoch : String}
    (read : (engine.touch clock fresh channel).2 = (engine'.touch clock fresh channel).2) :
    (engine.historySince clock fresh channel offset epoch).2 =
      (engine'.historySince clock fresh channel offset epoch).2 := by
  simp only [historySince, apply_ite Prod.snd, read]

/-- A call for a channel depends on what is stored of that channel. -/
theorem SameAt.after (same : SameAt channel engine engine') (here : call.op.channel = channel) :
    SameAt channel (engine.after call) (engine'.after call) ∧
      engine.observe call = engine'.observe call := by
  obtain ⟨op, clock, fresh⟩ := call
  cases op with
  | publish there data info opts =>
      obtain rfl : there = channel := here
      have stream := same.streamAt clock fresh
      simp only [MemoryEngine.after, apply, observe, append, addToHistory]
      split
      · refine ⟨⟨?_, same.ttl⟩, ?_⟩
        · simp only [AList.lookup_insert, stream, same.ttl]
        · simp only [stream]
      · exact ⟨same, rfl⟩
  | history there =>
      obtain rfl : there = channel := here
      obtain ⟨next, read⟩ := same.touch clock fresh
      refine ⟨next, ?_⟩
      simp only [observe, readHistory, read]
  | historySince there offset epoch =>
      obtain rfl : there = channel := here
      obtain ⟨next, read⟩ := same.touch clock fresh
      refine ⟨?_, ?_⟩
      · simpa only [MemoryEngine.after, apply, historySince_engine] using next
      · simp only [observe, historySince_of_touch read]
  | removeHistory there =>
      obtain rfl : there = channel := here
      refine ⟨⟨?_, same.ttl⟩, rfl⟩
      simp only [MemoryEngine.after, apply, removeHistory, AList.lookup_erase]
  | addPresence there client info => exact ⟨⟨same.stream, same.ttl⟩, rfl⟩
  | removePresence there client => exact ⟨⟨same.stream, same.ttl⟩, rfl⟩

/-- What is seen of one channel in a run is what its own calls show without the others. -/
theorem observations_channel (same : SameAt channel engine engine') (calls : List Call) :
    engine.observations (calls.map fun call => (call, decide (call.op.channel = channel))) =
      engine'.observations (everyCall (calls.filter (·.op.channel = channel))) := by
  induction calls generalizing engine engine' with
  | nil => rfl
  | cons call calls ih =>
      by_cases here : call.op.channel = channel
      · obtain ⟨next, seen⟩ := same.after here
        have rest := ih next
        simp only [everyCall, List.map_cons, here, decide_true, List.filter_cons_of_pos,
          observations, if_true, seen] at rest ⊢
        rw [rest]
      · have rest := ih (same.after_of_ne here)
        simp only [List.map_cons, here, decide_false, observations, List.filter_cons_of_neg,
          Bool.false_eq_true, if_false, not_false_eq_true]
        exact rest

end MemoryEngine

/-! ## The engine as a log that expires on time -/

/-- One run of the engine and of the timelines, both from their start. -/
theorem observations_agree {metaTtl : Nat} {calls : List (Call × Bool)}
    (unsigned : metaTtl < 2 ^ 64) (inOrder : InOrder 0 (calls.map Prod.fst))
    (inRange : ∀ call ∈ calls, call.1.InRange)
    (unwrapped : ∀ call ∈ calls, call.1.Unwrapped metaTtl) :
    ∃ name : Naming, ((calls.map (·.1.fresh)).Nodup → name.OneToOne) ∧
      List.Forall₂ (Agrees name) ((new (i64 metaTtl)).observations calls)
        (Timelines.observations metaTtl (fun _ => Timeline.start) calls) := by
  obtain ⟨name, _, agrees, apart⟩ := (Tracks.start unsigned).run inOrder inRange unwrapped
  refine ⟨name, fun distinct => apart ?_ distinct ?_, agrees⟩
  · intro channel number channel' number' epoch named
    cases named
  · intro channel number call _ named
    cases named

/-- In every run in which no sum for the deadline of a stream wraps, the answers of the engine are
those of the timelines, with epochs for their incarnations; these are distinct if the epochs that
were drawn are. Without some of the reads the other calls show the same, up to the names of the
epochs, and a channel shows the same without the calls for other channels. -/
theorem history_timely {metaTtl : Nat} {calls : List (Call × Bool)} (unsigned : metaTtl < 2 ^ 64)
    (inOrder : InOrder 0 (calls.map Prod.fst)) (inRange : ∀ call ∈ calls, call.1.InRange)
    (unwrapped : ∀ call ∈ calls, call.1.Unwrapped metaTtl) :
    let engine := new (i64 metaTtl)
    let lines : Timelines := fun _ => Timeline.start
    let distinct := (calls.map (·.1.fresh)).Nodup
    (∃ name : Naming, (distinct → name.OneToOne) ∧
      List.Forall₂ (Agrees name) (engine.observations (everyCall (calls.map Prod.fst)))
        (lines.observations metaTtl (everyCall (calls.map Prod.fst)))) ∧
    ((∀ call, (call, false) ∈ calls → call.op.reads) →
      ∃ (seen : List (Observation Nat)) (name name' : Naming),
        (distinct → name.OneToOne ∧ name'.OneToOne) ∧
        List.Forall₂ (Agrees name) (engine.observations calls) seen ∧
        List.Forall₂ (Agrees name') (engine.observations (calls.filter Prod.snd)) seen) ∧
    ∀ channel, engine.observations
        (calls.map fun entry => (entry.1, decide (entry.1.op.channel = channel))) =
      engine.observations
        (everyCall ((calls.map Prod.fst).filter (·.op.channel = channel))) := by
  intro engine lines distinct
  refine ⟨?_, ?_, ?_⟩
  · have epochs : (everyCall (calls.map Prod.fst)).map (·.1.fresh) = calls.map (·.1.fresh) := by
      rw [everyCall, List.map_map, List.map_map]
      rfl
    have all := observations_agree unsigned ((map_fst_everyCall _).symm ▸ inOrder)
      (forall_everyCall inRange) (forall_everyCall unwrapped)
    rw [epochs] at all
    exact all
  · intro reads
    obtain ⟨name, apart, agrees⟩ := observations_agree unsigned inOrder inRange unwrapped
    have part : (calls.filter Prod.snd).Sublist calls := List.filter_sublist
    obtain ⟨name', apart', agrees'⟩ := observations_agree unsigned
      (inOrder.sublist (part.map Prod.fst)) (fun call mem => inRange call (part.subset mem))
      fun call mem => unwrapped call (part.subset mem)
    rw [Timelines.observations_filter reads] at agrees'
    refine ⟨_, name, name', fun distinct => ⟨apart distinct, apart' ?_⟩, agrees, agrees'⟩
    exact distinct.sublist (part.map _)
  · intro channel
    have apart := observations_channel (⟨rfl, rfl⟩ : SameAt channel engine engine)
      (calls.map Prod.fst)
    rw [List.map_map] at apart
    exact apart

namespace Timeline

/-- So many seconds after six. -/
def dawn (n : Fin 1000) : UnixTime :=
  ⟨21600 + n, by omega, by have := n.isLt; simp only [i64Max]; omega⟩

theorem ordered_still {call : Call} {t : UnixTime} (still : ∀ i, call.clock i = t) {now : Int}
    (before : now ≤ t.seconds) : call.Ordered now := by
  refine ⟨?_, ?_, ?_, ?_⟩ <;> simp only [still]
  · exact before
  all_goals exact le_rfl

def publishAt (n : Fin 1000) (fresh : String) : Call :=
  ⟨.publish "ch" (.ofText []) none ⟨2, 60⟩, fun _ => dawn n, fresh⟩

def historyAt (n : Fin 1000) (channel fresh : String) : Call :=
  ⟨.history channel, fun _ => dawn n, fresh⟩

/-- Two publishes, after which the publications and then the stream go, and reads of which two
are taken out. -/
def calls : List (Call × Bool) :=
  [(publishAt 0 "a", true), (historyAt 10 "ch" "b", false), (publishAt 20 "c", true),
    (⟨.historySince "ch" 1 "a", fun _ => dawn 30, "d"⟩, true),
    (historyAt 30 "other" "e", false), (historyAt 90 "ch" "f", true),
    (historyAt 200 "ch" "g", true)]

/-- A publish and a read in the same second. -/
def atOnce : List (Call × Bool) := [(publishAt 0 "a", true), (historyAt 0 "ch" "b", true)]

end Timeline

theorem history_timely_read : ∃ (seen : List (Observation Nat)) (name name' : Naming),
    name.OneToOne ∧ name'.OneToOne ∧
    List.Forall₂ (Agrees name) ((new 100).observations Timeline.calls) seen ∧
    List.Forall₂ (Agrees name')
      ((new 100).observations (Timeline.calls.filter Prod.snd)) seen := by
  have inOrder : InOrder 0 (Timeline.calls.map Prod.fst) := by
    refine ⟨?_, ?_, ?_, ?_, ?_, ?_, ?_, trivial⟩ <;>
      exact Timeline.ordered_still (fun _ => rfl) (by decide)
  have inRange : ∀ call ∈ Timeline.calls, call.1.InRange := by
    simp only [Timeline.calls, List.forall_mem_cons]
    exact ⟨fun _ => by decide, trivial, fun _ => by decide, trivial, trivial, trivial, trivial,
      by simp⟩
  have unwrapped : ∀ call ∈ Timeline.calls, call.1.Unwrapped 100 := by
    simp only [Timeline.calls, List.forall_mem_cons]
    exact ⟨fun _ _ => by decide, trivial, fun _ _ => by decide, trivial, trivial, trivial, trivial,
      by simp⟩
  have reads : ∀ call, (call, false) ∈ Timeline.calls → call.op.reads := by
    intro call mem
    simp only [Timeline.calls, List.mem_cons, Prod.mk.injEq, List.not_mem_nil, or_false, and_true,
      reduceCtorEq, and_false, false_or] at mem
    obtain rfl | rfl := mem <;> rfl
  obtain ⟨seen, name, name', apart, agrees, agrees'⟩ :=
    (history_timely (by decide) inOrder inRange unwrapped).2.1 reads
  obtain ⟨one, two⟩ := apart (by decide)
  exact ⟨seen, name, name', one, two, agrees, agrees'⟩

/-- With the longest time to live the deadline wraps, and the next call loses the stream. -/
theorem not_history_timely :
    ¬ ∀ (metaTtl : Nat) (calls : List (Call × Bool)), metaTtl < 2 ^ 64 →
      InOrder 0 (calls.map Prod.fst) → (∀ call ∈ calls, call.1.InRange) →
      ∃ name : Naming, List.Forall₂ (Agrees name)
        ((new (i64 metaTtl)).observations (everyCall (calls.map Prod.fst)))
        (Timelines.observations metaTtl (fun _ => Timeline.start)
          (everyCall (calls.map Prod.fst))) := by
  intro all
  have inOrder : InOrder 0 (Timeline.atOnce.map Prod.fst) :=
    ⟨Timeline.ordered_still (fun _ => rfl) (by decide),
      Timeline.ordered_still (fun _ => rfl) (by decide), trivial⟩
  have inRange : ∀ call ∈ Timeline.atOnce, call.1.InRange := by
    simp only [Timeline.atOnce, List.forall_mem_cons]
    exact ⟨fun _ => by decide, trivial, by simp⟩
  obtain ⟨name, agrees⟩ := all (2 ^ 63 - 1) Timeline.atOnce (by decide) inOrder inRange
  have lost : (new (i64 (2 ^ 63 - 1 : Nat))).observations
      (everyCall (Timeline.atOnce.map Prod.fst)) =
      [.published { data := some (.ofText []), offset := 1 }, .read "ch" [] 0 "b"] := by
    rfl
  have kept : Timelines.observations (2 ^ 63 - 1) (fun _ => Timeline.start)
      (everyCall (Timeline.atOnce.map Prod.fst)) =
      [.published { data := some (.ofText []), offset := 1 },
        .read "ch" [{ data := some (.ofText []), offset := 1 }] 1 0] := by
    rfl
  rw [lost, kept] at agrees
  cases agrees with
  | cons _ rest =>
      cases rest with
      | cons read _ => cases read

end Centrifugo
