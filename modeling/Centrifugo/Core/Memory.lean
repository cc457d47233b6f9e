import Centrifugo.Core.Time
import Centrifugo.Data.Log
import Centrifugo.Data.Run
import Centrifugo.Protocol.Messages

/-!
# The memory engine

Presence maps and history streams of one node. A stream counts its publications and
keeps the last ones of them; both the buffer and the whole stream expire lazily, at
the next access after their deadline.

The clock readings of an operation and the epoch for a stream that it creates are
inputs. `Stream.log` is a ghost field: no operation reads it, it only records every
publication of the stream for the theorems.
-/

namespace Centrifugo

structure PublishOptions where
  historySize : Nat := 0
  historyLifetime : Nat := 0
  deriving DecidableEq

def PublishOptions.historyEnabled (opts : PublishOptions) : Bool :=
  0 < opts.historySize && 0 < opts.historyLifetime

structure StreamPosition where
  offset : Nat
  epoch : String
  deriving DecidableEq

structure Stream where
  offset : Nat
  epoch : String
  pubs : List Publication
  /-- When the buffered publications expire. -/
  expireAt : Int
  /-- When the stream is dropped with its offset and epoch. -/
  metaExpireAt : Int
  log : List Publication
  deriving DecidableEq

namespace Stream

def new (epoch : String) : Stream where
  offset := 0
  epoch := epoch
  pubs := []
  expireAt := i64Max
  metaExpireAt := i64Max
  log := []

def position (stream : Stream) : StreamPosition := ⟨stream.offset, stream.epoch⟩

/-- Append a publication under the next offset and trim the buffer from the front. -/
def push (stream : Stream) (data : Raw) (info : Option ClientInfo) (size : Nat) : Stream :=
  let offset := stream.offset + 1
  let publication : Publication := { data := some data, info := info, offset := offset }
  let pubs := stream.pubs ++ [publication]
  { stream with
    offset := offset
    pubs := pubs.drop (pubs.length - size)
    log := stream.log ++ [publication] }

/-- Drop the buffered publications and keep the position. -/
def clear (stream : Stream) : Stream := { stream with pubs := [], expireAt := i64Max }

end Stream

abbrev History := Map String Stream
abbrev Presence := Map String (Map String ClientInfo)

structure MemoryEngine where
  presence : Presence
  history : History
  /-- Seconds after which an idle stream is dropped; zero keeps streams forever. -/
  metaTtl : Int
  deriving DecidableEq

namespace MemoryEngine

def new (metaTtl : Int) : MemoryEngine := ⟨∅, ∅, metaTtl⟩

/-! ## History -/

/-- Lazy expiry, on every access to a channel. -/
def evictIfExpired (clock : Clock) (hist : History) (channel : String) : History :=
  match hist.lookup channel with
  | none => hist
  | some stream =>
      if (clock 0).seconds > stream.metaExpireAt then hist.erase channel
      else if (clock 1).seconds > stream.expireAt then hist.insert channel stream.clear
      else hist

theorem lookup_evict_ne {clock : Clock} {hist : History} {channel other : String}
    (h : other ≠ channel) :
    (evictIfExpired clock hist channel).lookup other = hist.lookup other := by
  unfold evictIfExpired
  cases hist.lookup channel with
  | none => rfl
  | some stream =>
      simp only []
      split
      · exact AList.lookup_erase_ne h
      split
      · exact AList.lookup_insert_ne h
      · rfl

/-- The stream that an access finds, or creates under a fresh epoch. -/
def streamAt (clock : Clock) (epoch : String) (hist : History) (channel : String) : Stream :=
  ((evictIfExpired clock hist channel).lookup channel).getD (Stream.new epoch)

def addToHistory (engine : MemoryEngine) (clock : Clock) (epoch channel : String) (data : Raw)
    (info : Option ClientInfo) (opts : PublishOptions) : MemoryEngine × Nat :=
  let hist := evictIfExpired clock engine.history channel
  let stream := (streamAt clock epoch engine.history channel).push data info opts.historySize
  let stream := { stream with
    expireAt := i64 ((clock 2).seconds + i64 opts.historyLifetime)
    metaExpireAt :=
      if engine.metaTtl > 0 then i64 ((clock 3).seconds + engine.metaTtl) else i64Max }
  ({ engine with history := hist.insert channel stream }, stream.offset)

/-- The first half of a publish: the append. Its second half routes the publication
that this returns. -/
def append (engine : MemoryEngine) (clock : Clock) (epoch channel : String) (data : Raw)
    (info : Option ClientInfo) (opts : PublishOptions) : MemoryEngine × Publication :=
  if opts.historyEnabled then
    let (engine, offset) := engine.addToHistory clock epoch channel data info opts
    (engine, { data := some data, info := info, offset := offset })
  else (engine, { data := some data, info := info, offset := 0 })

/-- Access the stream of a channel for reading, which stores it when it is new. -/
def touch (engine : MemoryEngine) (clock : Clock) (epoch channel : String) :
    MemoryEngine × Stream :=
  let stream := streamAt clock epoch engine.history channel
  let hist := (evictIfExpired clock engine.history channel).insert channel stream
  ({ engine with history := hist }, stream)

def readHistory (engine : MemoryEngine) (clock : Clock) (epoch channel : String) :
    MemoryEngine × List Publication × StreamPosition :=
  let (engine, stream) := engine.touch clock epoch channel
  (engine, stream.pubs, stream.position)

def historySince (engine : MemoryEngine) (clock : Clock) (fresh channel : String)
    (offset : Nat) (epoch : String) : MemoryEngine × List Publication × StreamPosition :=
  let read := engine.touch clock fresh channel
  let top := read.2.position
  if top.offset = offset ∧ top.epoch = epoch then (read.1, [], top)
  else (read.1, read.2.pubs.filter fun publication => offset < publication.offset, top)

def removeHistory (engine : MemoryEngine) (channel : String) : MemoryEngine :=
  { engine with history := engine.history.erase channel }

/-! ## Presence -/

def addPresence (engine : MemoryEngine) (channel client : String) (info : ClientInfo) :
    MemoryEngine :=
  { engine with
    presence := engine.presence.alter channel fun clients =>
      some ((clients.getD ∅).insert client info) }

/-- The entries of a channel without one client, and nothing when it was the last. -/
def withoutClient (client : String) :
    Option (Map String ClientInfo) → Option (Map String ClientInfo)
  | none => none
  | some clients =>
      let clients := clients.erase client
      if clients.entries.isEmpty then none else some clients

def removePresence (engine : MemoryEngine) (channel client : String) : MemoryEngine :=
  { engine with presence := engine.presence.alter channel (withoutClient client) }

def presenceOf (engine : MemoryEngine) (channel : String) : Map String ClientInfo :=
  (engine.presence.lookup channel).getD ∅

/-- How many clients, and how many distinct users. -/
def presenceStats (engine : MemoryEngine) (channel : String) : UInt32 × UInt32 :=
  let clients := engine.presenceOf channel
  (UInt32.ofNat clients.entries.length,
    UInt32.ofNat (clients.entries.map fun entry => entry.2.user).dedup.length)

/-! ## Streams are logs of which a suffix is kept -/

end MemoryEngine

/-- The buffer is the end of the log of the stream, and the offset its length. -/
structure Stream.Consistent (stream : Stream) : Prop where
  numbered : Log.Numbered Publication.offset stream.log
  offset_eq : stream.offset = stream.log.length
  suffix : stream.pubs <:+ stream.log

namespace Stream

theorem consistent_new (epoch : String) : (Stream.new epoch).Consistent :=
  ⟨trivial, rfl, List.suffix_refl []⟩

theorem consistent_push {stream : Stream} (h : stream.Consistent) (data : Raw)
    (info : Option ClientInfo) (size : Nat) : (stream.push data info size).Consistent := by
  refine ⟨h.numbered.append ?_, ?_, ?_⟩
  · change stream.offset + 1 = 0 + stream.log.length + 1
    rw [h.offset_eq]
    omega
  · simp [push, h.offset_eq]
  · obtain ⟨front, eq⟩ := h.suffix
    have whole : stream.pubs ++ [⟨0, 0, "", some data, info, stream.offset + 1⟩] <:+
        stream.log ++ [⟨0, 0, "", some data, info, stream.offset + 1⟩] :=
      ⟨front, by rw [← List.append_assoc, eq]⟩
    exact (List.drop_suffix _ _).trans whole

theorem Consistent.clear {stream : Stream} (h : stream.Consistent) : stream.clear.Consistent :=
  ⟨h.numbered, h.offset_eq, List.nil_suffix⟩

end Stream

/-- Every stream of a history is consistent. -/
def History.Consistent (hist : History) : Prop :=
  ∀ channel stream, hist.lookup channel = some stream → stream.Consistent

namespace History

theorem Consistent.insert {hist : History} (h : Consistent hist) {channel : String}
    {stream : Stream} (hs : stream.Consistent) : Consistent (hist.insert channel stream) := by
  intro other found lookup
  by_cases same : other = channel
  · subst same
    rw [AList.lookup_insert] at lookup
    cases lookup
    exact hs
  · rw [AList.lookup_insert_ne same] at lookup
    exact h other found lookup

theorem Consistent.erase {hist : History} (h : Consistent hist) (channel : String) :
    Consistent (hist.erase channel) := by
  intro other found lookup
  by_cases same : other = channel
  · subst same
    rw [AList.lookup_erase] at lookup
    cases lookup
  · rw [AList.lookup_erase_ne same] at lookup
    exact h other found lookup

end History

namespace MemoryEngine

theorem consistent_evict {hist : History} (h : History.Consistent hist) (clock : Clock)
    (channel : String) : History.Consistent (evictIfExpired clock hist channel) := by
  unfold evictIfExpired
  cases found : hist.lookup channel with
  | none => exact h
  | some stream =>
      simp only
      split
      · exact h.erase channel
      split
      · exact h.insert (h channel stream found).clear
      · exact h

theorem consistent_streamAt {hist : History} (h : History.Consistent hist) (clock : Clock)
    (epoch channel : String) : (streamAt clock epoch hist channel).Consistent := by
  unfold streamAt
  cases found : (evictIfExpired clock hist channel).lookup channel with
  | none => exact Stream.consistent_new epoch
  | some stream => exact consistent_evict h clock channel channel stream found

/-- The operations of the engine. -/
inductive Op
  | publish (channel : String) (data : Raw) (info : Option ClientInfo) (opts : PublishOptions)
  | history (channel : String)
  | historySince (channel : String) (offset : Nat) (epoch : String)
  | removeHistory (channel : String)
  | addPresence (channel client : String) (info : ClientInfo)
  | removePresence (channel client : String)

/-- One operation, with its clock readings and the epoch for a new stream. -/
def apply (engine : MemoryEngine) (clock : Clock) (fresh : String) : Op → MemoryEngine
  | .publish channel data info opts => (engine.append clock fresh channel data info opts).1
  | .history channel => (engine.readHistory clock fresh channel).1
  | .historySince channel offset epoch =>
      (engine.historySince clock fresh channel offset epoch).1
  | .removeHistory channel => engine.removeHistory channel
  | .addPresence channel client info => engine.addPresence channel client info
  | .removePresence channel client => engine.removePresence channel client

theorem consistent_append {engine : MemoryEngine} (h : engine.history.Consistent)
    (clock : Clock) (fresh channel : String) (data : Raw) (info : Option ClientInfo)
    (opts : PublishOptions) :
    (engine.append clock fresh channel data info opts).1.history.Consistent := by
  unfold append
  split
  · apply (consistent_evict h clock channel).insert
    have pushed := Stream.consistent_push (consistent_streamAt h clock fresh channel) data info
      opts.historySize
    exact ⟨pushed.numbered, pushed.offset_eq, pushed.suffix⟩
  · exact h

theorem consistent_touch {engine : MemoryEngine} (h : engine.history.Consistent)
    (clock : Clock) (fresh channel : String) :
    (engine.touch clock fresh channel).1.history.Consistent :=
  (consistent_evict h clock channel).insert (consistent_streamAt h clock fresh channel)

@[simp] theorem historySince_engine (engine : MemoryEngine) (clock : Clock)
    (fresh channel : String) (offset : Nat) (epoch : String) :
    (engine.historySince clock fresh channel offset epoch).1 =
      (engine.touch clock fresh channel).1 := by
  simp only [historySince]
  split <;> rfl

theorem consistent_apply {engine : MemoryEngine} (h : engine.history.Consistent)
    (clock : Clock) (fresh : String) (op : Op) :
    (engine.apply clock fresh op).history.Consistent := by
  cases op with
  | publish channel data info opts => exact consistent_append h clock fresh channel data info opts
  | history channel => exact consistent_touch h clock fresh channel
  | historySince channel offset epoch =>
      rw [apply, historySince_engine]
      exact consistent_touch h clock fresh channel
  | removeHistory channel => exact h.erase channel
  | addPresence channel client info => exact h
  | removePresence channel client => exact h

/-- The steps of an engine, under any clock and with any fresh epochs. -/
def Step (engine : MemoryEngine) (op : Op) (engine' : MemoryEngine) : Prop :=
  ∃ clock fresh, engine' = engine.apply clock fresh op

/-- The states that an engine gets into from empty. -/
def Reached : MemoryEngine → Prop := Reachable (fun engine => ∃ ttl, engine = new ttl) Step

theorem Reached.consistent {engine : MemoryEngine} (h : Reached engine) :
    engine.history.Consistent := by
  have empty : ∀ engine, (∃ ttl, engine = new ttl) → engine.history.Consistent := by
    rintro _ ⟨ttl, rfl⟩ channel stream lookup
    cases lookup
  have keep : ∀ engine op engine', engine.history.Consistent → Step engine op engine' →
      engine'.history.Consistent := by
    rintro engine op _ here ⟨clock, fresh, rfl⟩
    exact consistent_apply here clock fresh op
  exact h.invariant (fun engine => engine.history.Consistent) empty keep

end MemoryEngine

end Centrifugo
