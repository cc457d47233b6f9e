import Centrifugo.Server.Sockjs

/-!
# The WebSocket writer

The writer of a connection takes what was queued for it. Behind a frame it takes up to three more
that are there, and writes them as one message. A close may be found first or behind frames; it
is written after them and ends the writer.
-/

namespace Centrifugo

open Json

/-! ## Text messages -/

/-- The bytes that may come second in a character of several bytes. -/
def secondBytes (lead : UInt8) : UInt8 × UInt8 :=
  if lead = 0xE0 then (0xA0, 0xBF)
  else if lead = 0xED then (0x80, 0x9F)
  else if lead = 0xF0 then (0x90, 0xBF)
  else if lead = 0xF4 then (0x80, 0x8F)
  else (0x80, 0xBF)

/-- How many bytes one replacement character stands for: a character that is cut short, as far as
it goes, or a single byte. -/
def invalidLength : Bytes → Nat
  | lead :: second :: rest =>
      let (low, high) := secondBytes lead
      if lead < 0xE0 || lead > 0xF4 || second < low || second > high then 1
      else
        match rest with
        | third :: _ => if lead ≥ 0xF0 && 0x80 ≤ third && third ≤ 0xBF then 3 else 2
        | [] => 2
  | _ => 1

/-- The first character, when the bytes begin with one. -/
def firstChar (bytes : Bytes) : Option (Char × Bytes) :=
  [1, 2, 3, 4].findSome? fun n =>
    match decodeUtf8 (bytes.take n) with
    | some [c] => some (c, bytes.drop n)
    | _ => none

/-- Characters with replacements for what is none. The first argument bounds their number. -/
def replaceInvalid : Nat → Bytes → Text
  | 0, _ | _, [] => []
  | n + 1, bytes =>
      match firstChar bytes with
      | some (c, rest) => c :: replaceInvalid n rest
      | none => Char.ofNat 0xFFFD :: replaceInvalid n (bytes.drop (invalidLength bytes))

def fromUtf8Lossy (bytes : Bytes) : Text :=
  (decodeUtf8 bytes).getD (replaceInvalid bytes.length bytes)

/-- A message of the socket. -/
inductive WsMessage
  | text (chars : Text)
  | binary (bytes : Bytes)
  | close (code : UInt16) (reason : Text)
  | ping
  deriving DecidableEq

namespace WsMessage

/-- The payload of a data message. -/
def payload? : WsMessage → Option Bytes
  | .text chars => some (encodeUtf8 chars)
  | .binary bytes => some bytes
  | .close _ _ | .ping => none

def isClose : WsMessage → Bool
  | .close _ _ => true
  | .text _ | .binary _ | .ping => false

/-- The message with a buffer of frames. -/
def ofBuffer (buf : Bytes) : ProtocolType → WsMessage
  | .json => .text (fromUtf8Lossy buf)
  | .protobuf => .binary buf

def ofClose (disconnect : Disconnect) : WsMessage :=
  .close disconnect.code.toUInt16 disconnect.closeText

end WsMessage

/-! ## The writer -/

/-- How far the writer is. -/
inductive Writer.Stage
  | waiting
  /-- Behind a first frame, with the frames taken so far and their number. -/
  | gathering (buf : Bytes) (n : Nat)
  | sending (buf : Bytes) (pendingClose : Option Disconnect)
  | closing (disconnect : Disconnect)
  | done

/-- The writer with its queue. `entered` is a ghost field with everything that was put in the
queue. -/
structure Writer where
  proto : ProtocolType
  queue : List (Out Bytes) := []
  senders : Bool := true
  stage : Writer.Stage := .waiting
  written : List WsMessage := []
  entered : List (Out Bytes) := []

namespace Writer

inductive Event
  | put (item : Out Bytes)
  /-- The last sender goes. -/
  | hangUp
  /-- The first item, or the end of the queue. -/
  | receive
  | tryReceive
  | send
  | pingTick
  /-- A message cannot be sent. -/
  | fail

def write (w : Writer) (msg : WsMessage) (stage : Stage) : Writer :=
  { w with written := w.written ++ [msg], stage := stage }

/-- A queue takes nothing when its receiver is gone. -/
def put (w : Writer) (item : Out Bytes) : Option Writer :=
  match w.stage with
  | .done => none
  | _ =>
      if w.senders && w.queue.length < writeQueue then
        some { w with queue := w.queue ++ [item], entered := w.entered ++ [item] }
      else none

def receive (w : Writer) : Option Writer :=
  match w.queue with
  | .frame bytes :: queue => some { w with queue := queue, stage := .gathering bytes 1 }
  | .close disconnect :: queue => some { w with queue := queue, stage := .closing disconnect }
  | [] => if w.senders then none else some { w with stage := .done }

/-- One turn of the loop that coalesces up to four frames. -/
def tryReceive (w : Writer) (buf : Bytes) (n : Nat) : Writer :=
  if n < 4 then
    match w.queue with
    | .frame more :: queue => { w with queue := queue, stage := .gathering (buf ++ more) (n + 1) }
    | .close disconnect :: queue =>
        { w with queue := queue, stage := .sending buf (some disconnect) }
    | [] => { w with stage := .sending buf none }
  else { w with stage := .sending buf none }

def step (w : Writer) : Event → Option Writer
  | .put item => w.put item
  | .hangUp => some { w with senders := false }
  | .receive =>
      match w.stage with
      | .waiting => w.receive
      | _ => none
  | .tryReceive =>
      match w.stage with
      | .gathering buf n => some (w.tryReceive buf n)
      | _ => none
  | .send =>
      match w.stage with
      | .sending buf none => some (w.write (.ofBuffer buf w.proto) .waiting)
      | .sending buf (some disconnect) =>
          some (w.write (.ofBuffer buf w.proto) (.closing disconnect))
      | .closing disconnect => some (w.write (.ofClose disconnect) .done)
      | _ => none
  | .pingTick =>
      match w.stage with
      | .waiting => some (w.write .ping .waiting)
      | _ => none
  | .fail =>
      match w.stage with
      | .waiting | .sending _ _ | .closing _ => some { w with stage := .done }
      | _ => none

/-- The steps without a failure to send. -/
def Step (w : Writer) (event : Event) (w' : Writer) : Prop :=
  event ≠ .fail ∧ w.step event = some w'

def Created (w : Writer) : Prop := ∃ proto, w = { proto := proto }

end Writer

/-! ## Valid texts -/

theorem fromUtf8Lossy_of_decode {bytes : Bytes} {text : Text}
    (valid : decodeUtf8 bytes = some text) : fromUtf8Lossy bytes = text := by
  rw [fromUtf8Lossy, valid, Option.getD_some]

/-- Frames that are texts make up a text. -/
theorem decodeUtf8_flatten {frames : List Bytes}
    (valid : ∀ frame ∈ frames, (decodeUtf8 frame).isSome) :
    (decodeUtf8 frames.flatten).isSome := by
  induction frames with
  | nil => exact congrArg Option.isSome (decodeUtf8_encodeUtf8 [])
  | cons frame frames ih =>
      obtain ⟨here, later⟩ := List.forall_mem_cons.mp valid
      obtain ⟨text, decoded⟩ := Option.isSome_iff_exists.mp here
      obtain ⟨rest, decodedRest⟩ := Option.isSome_iff_exists.mp (ih later)
      have whole : encodeUtf8 (text ++ rest) = (frame :: frames).flatten := by
        rw [encodeUtf8_append, encodeUtf8_of_decodeUtf8 decoded,
          encodeUtf8_of_decodeUtf8 decodedRest, List.flatten_cons]
      rw [← whole, decodeUtf8_encodeUtf8]
      rfl

theorem WsMessage.payload_ofBuffer {proto : ProtocolType} {frames : List Bytes}
    (valid : proto = .json → ∀ frame ∈ frames, (decodeUtf8 frame).isSome) :
    (WsMessage.ofBuffer frames.flatten proto).payload? = some frames.flatten := by
  cases proto with
  | protobuf => rfl
  | json =>
      obtain ⟨text, decoded⟩ := Option.isSome_iff_exists.mp (decodeUtf8_flatten (valid rfl))
      rw [ofBuffer, payload?, fromUtf8Lossy_of_decode decoded, encodeUtf8_of_decodeUtf8 decoded]

/-! ## What the writer has done -/

namespace Writer

/-- The data messages, in order. -/
def data (w : Writer) : List WsMessage := w.written.filter fun msg => msg.payload?.isSome

def closes (w : Writer) : List WsMessage := w.written.filter WsMessage.isClose

/-- The queue that stands for frames. -/
def frames (bytes : List Bytes) : List (Out Bytes) := bytes.map .frame

/-- What was put in the queue is what has been sent, what the writer holds, and what is still
queued; once the first close is taken, the queue does not matter. -/
def Accounts (sent : List Bytes) (w : Writer) : Prop :=
  match w.stage with
  | .waiting => w.closes = [] ∧ w.entered = frames sent ++ w.queue
  | .gathering buf n => w.closes = [] ∧ ∃ held : List Bytes, held.length = n ∧ n ≤ 4 ∧
      held.flatten = buf ∧ w.entered = frames (sent ++ held) ++ w.queue
  | .sending buf none => w.closes = [] ∧ ∃ held : List Bytes, held.length ≤ 4 ∧
      held.flatten = buf ∧ w.entered = frames (sent ++ held) ++ w.queue
  | .sending buf (some disconnect) => w.closes = [] ∧ ∃ (held : List Bytes) (rest : _),
      held.length ≤ 4 ∧ held.flatten = buf ∧
        w.entered = frames (sent ++ held) ++ .close disconnect :: rest
  | .closing disconnect => w.closes = [] ∧ ∃ rest,
      w.entered = frames sent ++ .close disconnect :: rest
  | .done => (∃ disconnect rest front, w.entered = frames sent ++ .close disconnect :: rest ∧
        w.written = front ++ [.ofClose disconnect] ∧ front.filter WsMessage.isClose = []) ∨
      w.senders = false ∧ w.closes = [] ∧ w.entered = frames sent

/-- The frames are sent in groups of at most four. -/
def Sound (w : Writer) : Prop :=
  ∃ groups : List (List Bytes), (∀ group ∈ groups, group.length ≤ 4) ∧
    w.data = groups.map (fun group => WsMessage.ofBuffer group.flatten w.proto) ∧
    w.Accounts groups.flatten

variable {w w' : Writer}

theorem frames_append (front back : List Bytes) :
    frames (front ++ back) = frames front ++ frames back :=
  List.map_append

theorem isSome_payload_ofBuffer (buf : Bytes) (proto : ProtocolType) :
    (WsMessage.ofBuffer buf proto).payload?.isSome := by
  cases proto <;> rfl

theorem isClose_ofBuffer (buf : Bytes) (proto : ProtocolType) :
    (WsMessage.ofBuffer buf proto).isClose = false := by
  cases proto <;> rfl

/-- A message without a payload. -/
theorem data_write {msg : WsMessage} (control : msg.payload? = none) (stage : Stage) :
    (w.write msg stage).data = w.data := by
  simp [data, write, List.filter_append, control]

/-- A message with a group of frames. -/
theorem data_write_ofBuffer (buf : Bytes) (stage : Stage) :
    (w.write (.ofBuffer buf w.proto) stage).data = w.data ++ [.ofBuffer buf w.proto] := by
  simp [data, write, List.filter_append, isSome_payload_ofBuffer]

theorem closes_write_ofBuffer (buf : Bytes) (stage : Stage) :
    (w.write (.ofBuffer buf w.proto) stage).closes = w.closes := by
  simp [closes, write, List.filter_append, isClose_ofBuffer]

/-- Nothing is written. -/
structure Kept (w w' : Writer) : Prop where
  written : w'.written = w.written
  proto : w'.proto = w.proto

theorem Kept.data_eq (kept : w.Kept w') {groups : List (List Bytes)}
    (data : w.data = groups.map fun group => WsMessage.ofBuffer group.flatten w.proto) :
    w'.data = groups.map fun group => WsMessage.ofBuffer group.flatten w'.proto := by
  rw [Writer.data, kept.written, kept.proto]
  exact data

theorem put_kept {item : Out Bytes} (put : w.put item = some w') : w.Kept w' := by
  unfold Writer.put at put
  split at put
  · cases put
  split at put
  · cases put
    exact ⟨rfl, rfl⟩
  · cases put

theorem receive_kept (receive : w.receive = some w') : w.Kept w' := by
  unfold Writer.receive at receive
  split at receive
  · cases receive
    exact ⟨rfl, rfl⟩
  · cases receive
    exact ⟨rfl, rfl⟩
  · split at receive
    · cases receive
    · cases receive
      exact ⟨rfl, rfl⟩

theorem tryReceive_kept (buf : Bytes) (n : Nat) : w.Kept (w.tryReceive buf n) := by
  unfold Writer.tryReceive
  split
  · split <;> exact ⟨rfl, rfl⟩
  · exact ⟨rfl, rfl⟩

/-- A put only makes the queue longer. -/
theorem Accounts.put {sent : List Bytes} {item : Out Bytes} (accounts : w.Accounts sent)
    (put : w.put item = some w') : w'.Accounts sent := by
  unfold Writer.put at put
  split at put
  · cases put
  next working =>
    split at put
    case isFalse => cases put
    case isTrue =>
      cases put
      unfold Accounts at accounts ⊢
      simp only [closes] at accounts ⊢
      split at accounts
      · exact ⟨accounts.1, by rw [accounts.2, List.append_assoc]⟩
      · obtain ⟨quiet, held, count, few, buf, entered⟩ := accounts
        exact ⟨quiet, held, count, few, buf, by rw [entered, List.append_assoc]⟩
      · obtain ⟨quiet, held, few, buf, entered⟩ := accounts
        exact ⟨quiet, held, few, buf, by rw [entered, List.append_assoc]⟩
      · obtain ⟨quiet, held, rest, few, buf, entered⟩ := accounts
        exact ⟨quiet, held, rest ++ [item], few, buf, by rw [entered, List.append_assoc]; rfl⟩
      · obtain ⟨quiet, rest, entered⟩ := accounts
        exact ⟨quiet, rest ++ [item], by rw [entered, List.append_assoc]; rfl⟩
      · exact absurd ‹_› working

/-- The first item, or the end of the queue. -/
theorem Accounts.receive {sent : List Bytes} (accounts : w.Accounts sent)
    (waiting : w.stage = .waiting) (receive : w.receive = some w') : w'.Accounts sent := by
  simp only [Accounts, waiting] at accounts
  obtain ⟨quiet, entered⟩ := accounts
  unfold Writer.receive at receive
  split at receive
  next bytes queue items =>
    cases receive
    refine ⟨quiet, [bytes], rfl, by decide, by simp, ?_⟩
    rw [entered, items, frames_append, List.append_assoc]
    rfl
  next disconnect queue items =>
    cases receive
    exact ⟨quiet, queue, by rw [entered, items]⟩
  next items =>
    split at receive
    next => cases receive
    next gone =>
      cases receive
      refine .inr ⟨by simpa using gone, quiet, ?_⟩
      rw [entered, items, List.append_nil]

theorem Accounts.tryReceive {sent : List Bytes} {buf : Bytes} {n : Nat}
    (accounts : w.Accounts sent) (gathering : w.stage = .gathering buf n) :
    (w.tryReceive buf n).Accounts sent := by
  simp only [Accounts, gathering] at accounts
  obtain ⟨quiet, held, count, few, rfl, entered⟩ := accounts
  unfold Writer.tryReceive
  split
  case isFalse => exact ⟨quiet, held, by omega, rfl, entered⟩
  case isTrue room =>
    split
    next more queue items =>
      refine ⟨quiet, held ++ [more], ?_, room, by simp, ?_⟩
      · rw [List.length_append, count]
        rfl
      · rw [entered, items, ← List.append_assoc, frames_append (sent ++ held), List.append_assoc]
        rfl
    next disconnect queue items =>
      exact ⟨quiet, held, queue, by omega, rfl, by rw [entered, items]⟩
    next items => exact ⟨quiet, held, by omega, rfl, entered⟩

/-- The held frames become a message. -/
theorem Sound.send_buffer {groups : List (List Bytes)} {held : List Bytes} {stage : Stage}
    (few : ∀ group ∈ groups, group.length ≤ 4) (room : held.length ≤ 4)
    (data : w.data = groups.map fun group => WsMessage.ofBuffer group.flatten w.proto)
    (accounts : (w.write (.ofBuffer held.flatten w.proto) stage).Accounts
      (groups.flatten ++ held)) :
    (w.write (.ofBuffer held.flatten w.proto) stage).Sound := by
  refine ⟨groups ++ [held], ?_, ?_, ?_⟩
  · intro group mem
    obtain mem | mem := List.mem_append.mp mem
    · exact few group mem
    · rw [List.mem_singleton.mp mem]
      exact room
  · rw [data_write_ofBuffer, data, List.map_append]
    rfl
  · rw [List.flatten_append, List.flatten_singleton]
    exact accounts

/-- Each step keeps the account of the frames. -/
theorem Sound.step {event : Event} (sound : w.Sound) (step : Step w event w') : w'.Sound := by
  obtain ⟨sent, step⟩ := step
  obtain ⟨groups, few, data, accounts⟩ := sound
  cases event with
  | fail => exact absurd rfl sent
  | put item =>
      exact ⟨groups, few, (put_kept step).data_eq data, accounts.put step⟩
  | hangUp =>
      cases step
      refine ⟨groups, few, data, ?_⟩
      unfold Accounts at accounts ⊢
      dsimp only
      split at accounts
      case h_6 =>
        obtain closed | ⟨_, quiet, entered⟩ := accounts
        · exact .inl closed
        · exact .inr ⟨rfl, quiet, entered⟩
      all_goals exact accounts
  | receive =>
      change (match w.stage with | .waiting => w.receive | _ => none) = some w' at step
      split at step
      next waiting =>
        exact ⟨groups, few, (receive_kept step).data_eq data, accounts.receive waiting step⟩
      next => cases step
  | tryReceive =>
      change (match w.stage with
        | .gathering buf n => some (w.tryReceive buf n) | _ => none) = some w' at step
      split at step
      next buf n gathering =>
        cases step
        exact ⟨groups, few, (tryReceive_kept buf n).data_eq data, accounts.tryReceive gathering⟩
      next => cases step
  | send =>
      simp only [Writer.step] at step
      split at step
      next buf sending =>
        cases step
        simp only [Accounts, sending] at accounts
        obtain ⟨quiet, held, room, rfl, entered⟩ := accounts
        apply Sound.send_buffer few room data
        exact ⟨(closes_write_ofBuffer _ _).trans quiet, entered⟩
      next buf disconnect sending =>
        cases step
        simp only [Accounts, sending] at accounts
        obtain ⟨quiet, held, rest, room, rfl, entered⟩ := accounts
        apply Sound.send_buffer few room data
        exact ⟨(closes_write_ofBuffer _ _).trans quiet, rest, entered⟩
      next disconnect closing =>
        cases step
        simp only [Accounts, closing] at accounts
        obtain ⟨quiet, rest, entered⟩ := accounts
        refine ⟨groups, few, ?_, .inl ⟨disconnect, rest, w.written, entered, rfl, quiet⟩⟩
        exact (data_write (by rfl) .done).trans data
      next => cases step
  | pingTick =>
      simp only [Writer.step] at step
      split at step
      next waiting =>
        cases step
        simp only [Accounts, waiting] at accounts
        refine ⟨groups, few, (data_write (by rfl) .waiting).trans data, ?_, accounts.2⟩
        rw [← accounts.1]
        simp [closes, write, List.filter_append, WsMessage.isClose]
      next => cases step

theorem Sound.of_created (created : w.Created) : w.Sound := by
  obtain ⟨proto, rfl⟩ := created
  exact ⟨[], by simp, rfl, rfl, rfl⟩

theorem Sound.of_reachable (reached : Reachable Created Step w) : w.Sound :=
  reached.invariant Sound (fun _ created => .of_created created)
    fun _ _ _ sound step => sound.step step

/-! ## Runs of the writer -/

/-- The writer has nothing left to write. -/
def Settled (w : Writer) : Prop := w.stage = .done ∨ w.stage = .waiting ∧ w.queue = []

/-- The socket got the frames in front of the first close, at most four in a message, and then
the code and the reason of that close, once and last. -/
structure Delivers (w : Writer) : Prop where
  data : ∃ groups : List (List Bytes), groups.flatten = framesBefore w.entered ∧
    (∀ group ∈ groups, group.length ≤ 4) ∧
    w.written.filterMap WsMessage.payload? = groups.map List.flatten
  close : ∀ disconnect, firstClose w.entered = some disconnect → ∃ front code,
    w.written = front ++ [.close code disconnect.closeText] ∧
      code.toNat = disconnect.code.toNat ∧ front.filter WsMessage.isClose = []
  unclosed : firstClose w.entered = none → w.closes = []

theorem framesBefore_frames (bytes : List Bytes) (items : List (Out Bytes)) :
    framesBefore (frames bytes ++ items) = bytes ++ framesBefore items := by
  induction bytes with
  | nil => rfl
  | cons frame bytes ih => exact congrArg (frame :: ·) ih

theorem firstClose_frames (bytes : List Bytes) (items : List (Out Bytes)) :
    firstClose (frames bytes ++ items) = firstClose items := by
  induction bytes with
  | nil => rfl
  | cons frame bytes ih => exact ih

/-- The data messages carry the frames of their groups. -/
theorem payloads_eq {groups : List (List Bytes)}
    (valid : w.proto = .json → ∀ frame ∈ groups.flatten, (decodeUtf8 frame).isSome)
    (data : w.data = groups.map fun group => WsMessage.ofBuffer group.flatten w.proto) :
    w.written.filterMap WsMessage.payload? = groups.map List.flatten := by
  have only : w.written.filterMap WsMessage.payload? = w.data.filterMap WsMessage.payload? := by
    rw [Writer.data, List.filterMap_filter]
    apply List.filterMap_congr
    intro msg _
    cases msg <;> rfl
  rw [only, data, List.filterMap_map, ← List.filterMap_eq_map]
  apply List.filterMap_congr
  intro group mem
  apply WsMessage.payload_ofBuffer
  intro json frame inside
  exact valid json frame (List.mem_flatten.mpr ⟨group, mem, inside⟩)

/-- Sent 16 bits wide, a code stays what it is when it fits. -/
theorem toNat_toUInt16_eq_iff (code : UInt32) :
    code.toUInt16.toNat = code.toNat ↔ code.toNat < 2 ^ 16 := by
  rw [UInt32.toNat_toUInt16]
  exact Nat.mod_eq_iff_lt (by decide)

/-- Once it has nothing left to write, the writer has delivered what was queued, if the code of
the close fits. -/
theorem Sound.delivered_iff (sound : w.Sound) (settled : w.Settled)
    (valid : w.proto = .json → ∀ frame ∈ framesBefore w.entered, (decodeUtf8 frame).isSome) :
    w.Delivers ↔
      ∀ disconnect, firstClose w.entered = some disconnect → disconnect.code.toNat < 2 ^ 16 := by
  obtain ⟨groups, few, data, accounts⟩ := sound
  have delivered : framesBefore w.entered = groups.flatten →
      ∃ groups : List (List Bytes), groups.flatten = framesBefore w.entered ∧
        (∀ group ∈ groups, group.length ≤ 4) ∧
        w.written.filterMap WsMessage.payload? = groups.map List.flatten :=
    fun before => ⟨groups, before.symm, few, payloads_eq (before ▸ valid) data⟩
  have unclosed : w.closes = [] → w.entered = frames groups.flatten → (w.Delivers ↔
      ∀ disconnect, firstClose w.entered = some disconnect → disconnect.code.toNat < 2 ^ 16) := by
    intro quiet entered
    have none : firstClose w.entered = none := by
      rw [entered, ← List.append_nil (frames _), firstClose_frames]
      rfl
    have before : framesBefore w.entered = groups.flatten := by
      rw [entered, ← List.append_nil (frames _), framesBefore_frames]
      exact List.append_nil _
    refine ⟨fun _ disconnect found => ?_, fun _ => ⟨delivered before, ?_, fun _ => quiet⟩⟩
    · rw [none] at found
      cases found
    · intro disconnect found
      rw [none] at found
      cases found
  obtain done | ⟨waiting, empty⟩ := settled
  · simp only [Accounts, done] at accounts
    obtain ⟨disconnect, rest, front, entered, written, quiet⟩ | ⟨_, quiet, entered⟩ := accounts
    · have first : firstClose w.entered = some disconnect := by
        rw [entered, firstClose_frames]
        rfl
      have before : framesBefore w.entered = groups.flatten := by
        rw [entered, framesBefore_frames]
        exact List.append_nil _
      constructor
      · intro delivers other found
        obtain ⟨front', code, written', same, _⟩ := delivers.close other found
        rw [written] at written'
        have last := (List.cons.inj (List.append_inj' written' rfl).2).1
        obtain ⟨narrow, _⟩ := WsMessage.close.inj last
        rw [first] at found
        cases found
        exact (toNat_toUInt16_eq_iff _).mp (narrow ▸ same)
      · intro fits
        refine ⟨delivered before, ?_, ?_⟩
        · intro other found
          have small := (toNat_toUInt16_eq_iff _).mpr (fits other found)
          rw [first] at found
          cases found
          exact ⟨front, _, written, small, quiet⟩
        · intro none
          rw [first] at none
          cases none
    · exact unclosed quiet entered
  · simp only [Accounts, waiting] at accounts
    obtain ⟨quiet, entered⟩ := accounts
    rw [empty, List.append_nil] at entered
    exact unclosed quiet entered

/-- The events of the writer itself, apart from its pings. -/
def Event.own : Event → Bool
  | .receive | .tryReceive | .send => true
  | .put _ | .hangUp | .pingTick | .fail => false

/-- A bound for what the writer can still do with its queue as it is. -/
def work (w : Writer) : Nat :=
  3 * w.queue.length + match w.stage with
    | .waiting => 1
    | .gathering _ _ => 3
    | .sending _ _ => 2
    | .closing _ => 1
    | .done => 0

theorem work_receive (waiting : w.stage = .waiting) (receive : w.receive = some w') :
    w'.work < w.work := by
  unfold Writer.receive at receive
  split at receive
  next items =>
    cases receive
    simp only [work, waiting, items, List.length_cons]
    omega
  next items =>
    cases receive
    simp only [work, waiting, items, List.length_cons]
    omega
  next items =>
    split at receive
    · cases receive
    · cases receive
      simp only [work, waiting, items, List.length_nil]
      omega

theorem work_tryReceive {buf : Bytes} {n : Nat} (gathering : w.stage = .gathering buf n) :
    (w.tryReceive buf n).work < w.work := by
  unfold Writer.tryReceive
  split
  · split
    next items =>
      simp only [work, gathering, items, List.length_cons]
      omega
    next items =>
      simp only [work, gathering, items, List.length_cons]
      omega
    next items =>
      simp only [work, gathering, items, List.length_nil]
      omega
  · simp only [work, gathering]
    omega

/-- The writer gets on with each step of its own. -/
theorem work_step {event : Event} (own : event.own) (step : w.step event = some w') :
    w'.work < w.work := by
  cases event with
  | receive =>
      simp only [Writer.step] at step
      split at step
      next waiting => exact work_receive waiting step
      next => cases step
  | tryReceive =>
      simp only [Writer.step] at step
      split at step
      next gathering =>
        cases step
        exact work_tryReceive gathering
      next => cases step
  | send =>
      simp only [Writer.step] at step
      split at step
      next stage =>
        cases step
        simp only [work, stage, write]
        omega
      next stage =>
        cases step
        simp only [work, stage, write]
        omega
      next stage =>
        cases step
        simp only [work, stage, write]
        omega
      next => cases step
  | put item => cases own
  | hangUp => cases own
  | pingTick => cases own
  | fail => cases own

/-- The writer only stops when it has nothing left to write. -/
theorem settled_of_stuck (stuck : ∀ event : Event, event.own → w.step event = none) :
    w.Settled := by
  have receive := stuck .receive rfl
  have tryReceive := stuck .tryReceive rfl
  have send := stuck .send rfl
  simp only [Writer.step] at receive tryReceive send
  cases stage : w.stage with
  | done => exact .inl stage
  | waiting =>
      rw [stage] at receive
      refine .inr ⟨stage, ?_⟩
      cases items : w.queue with
      | nil => rfl
      | cons item queue => cases item <;> simp [Writer.receive, items] at receive
  | gathering buf n =>
      rw [stage] at tryReceive
      cases tryReceive
  | sending buf pendingClose =>
      rw [stage] at send
      cases pendingClose <;> cases send
  | closing disconnect =>
      rw [stage] at send
      cases send

/-- In every run without a failure to send, the writer comes to an end with what was queued, and
then it has delivered it just if the code of the first close fits in 16 bits. -/
theorem delivers_iff (reached : Reachable Created Step w)
    (valid : w.proto = .json → ∀ frame ∈ framesBefore w.entered, (decodeUtf8 frame).isSome) :
    (w.Settled → (w.Delivers ↔ ∀ disconnect, firstClose w.entered = some disconnect →
      disconnect.code.toNat < 2 ^ 16)) ∧
    (∀ events w', Steps (fun w event w' => event.own ∧ w.step event = some w') w events w' →
      events.length ≤ w.work ∧
        ((∀ event : Event, event.own → w'.step event = none) → w'.Settled)) := by
  refine ⟨fun settled => (Sound.of_reachable reached).delivered_iff settled valid, ?_⟩
  intro events w' run
  refine ⟨?_, settled_of_stuck⟩
  clear reached valid
  induction run with
  | nil w => exact Nat.zero_le _
  | cons move _ ih =>
      have less := work_step move.1 move.2
      rw [List.length_cons]
      omega

end Writer

namespace Sample

/-- A writer that was given two frames and a close. -/
def writerEvents (code : UInt32) : List Writer.Event :=
  [.put (.frame [97]), .put (.frame [98]), .put (.close ⟨code, "bye", false⟩), .receive,
    .tryReceive, .tryReceive, .send, .send]

def writerOf (code : UInt32) : Writer :=
  ((writerEvents code).foldlM Writer.step { proto := .json }).getD { proto := .json }

theorem writerOf_reached (code : UInt32) :
    Reachable Writer.Created Writer.Step (writerOf code) := by
  have run : Steps Writer.Step { proto := .json } (writerEvents code) (writerOf code) := by
    refine .cons ⟨nofun, rfl⟩ (.cons ⟨nofun, rfl⟩ (.cons ⟨nofun, rfl⟩ (.cons ⟨nofun, rfl⟩
      (.cons ⟨nofun, rfl⟩ (.cons ⟨nofun, rfl⟩ (.cons ⟨nofun, rfl⟩ (.cons ⟨nofun, rfl⟩ ?_)))))))
    exact .nil _
  exact run.reachable (.start ⟨.json, rfl⟩)

end Sample

namespace Writer

/-- A close with a code of the protocol. -/
theorem delivers_iff_bye : (Sample.writerOf 3000).Delivers := by
  have valid : ∀ frame ∈ framesBefore (Sample.writerOf 3000).entered,
      (decodeUtf8 frame).isSome := by
    decide +kernel
  refine ((delivers_iff (Sample.writerOf_reached 3000) fun _ => valid).1 (.inl rfl)).mpr ?_
  intro disconnect found
  cases found
  decide

/-- A close with code 70000 is written with code 4464. -/
theorem not_delivers : ∃ w, Reachable Created Step w ∧ w.Settled ∧
    (∀ frame ∈ framesBefore w.entered, (decodeUtf8 frame).isSome) ∧ ¬ w.Delivers := by
  have valid : ∀ frame ∈ framesBefore (Sample.writerOf 70000).entered,
      (decodeUtf8 frame).isSome := by
    decide +kernel
  refine ⟨Sample.writerOf 70000, Sample.writerOf_reached 70000, .inl rfl, valid, ?_⟩
  intro delivers
  have sound : (Sample.writerOf 70000).Sound := .of_reachable (Sample.writerOf_reached 70000)
  have fits := (sound.delivered_iff (.inl rfl) fun _ => valid).mp delivers ⟨70000, "bye", false⟩ rfl
  exact absurd fits (by decide)

end Writer

end Centrifugo
