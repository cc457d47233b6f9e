import Centrifugo.Protocol.Commands
import Centrifugo.Protocol.Convert

/-!
# Protobuf frames

A protobuf frame is a sequence of messages, each behind its length. Commands and replies are
framed alike, so the facts about frames are about any messages and a function that reads one
of them. `protobuf_lossless` then speaks of the two.
-/

namespace Centrifugo

open Json Proto

namespace Codec

/-! ## Both formats -/

/-- The message at the front of some bytes. -/
def nextMessage {κ : Type} (take : Bytes → Option κ) (bytes : Bytes) : Front κ Bytes :=
  if bytes = [] then .done
  else
    match (decodeUvarint bytes).bind fun read => readExact read.1 read.2 with
    | none => .malformed
    | some (message, rest) =>
        match take message with
        | none => .malformed
        | some item => .item item rest

/-- The messages of a frame. -/
def messages {κ : Type} (take : Bytes → Option κ) : Source Bytes κ where
  next := nextMessage take
  size := List.length
  shrinks := by
    intro bytes rest item h
    unfold nextMessage at h
    split at h
    · cases h
    split at h
    · cases h
    next framed =>
      split at h
      · cases h
      · cases h
        exact length_framed_lt framed

def takeCommand (message : Bytes) : Option Command :=
  (decode message : Option Pb.Command).bind commandFromPb

def takeReply (message : Bytes) : Option (Reply Raw) :=
  (decode message : Option Pb.Reply).map Reply.ofPb

def decodeCommands : ProtocolType → Bytes → Option (List Command)
  | .json, frame => (decodeUtf8 frame).bind (whole (values decodeCommand))
  | .protobuf, frame => whole (messages takeCommand) frame

/-- Messages, each with its length in front. -/
def delimited (bodies : List Bytes) : Bytes :=
  bodies.flatMap fun body => varint body.length ++ body

def encodeCommands : ProtocolType → List Command → Option Bytes
  | .json, commands => (commands.mapM Command.toJson).map fun values =>
      values.flatMap fun value => encodeUtf8 value.text ++ [newlineByte]
  | .protobuf, commands => some (delimited (commands.map fun cmd => encode cmd.toPb))

def encodeRepliesIn : ProtocolType → List (Reply Raw) → Option Bytes
  | .json, replies => encodeReplies replies
  | .protobuf, replies => some (delimited (replies.map fun reply => encode reply.toPb))

theorem pbReplies_eq : pbReplies = messages takeReply := by
  have next : nextReply = nextMessage takeReply := by
    funext bytes
    simp only [nextReply, nextMessage, takeReply]
    split
    · rfl
    cases (decodeUvarint bytes).bind fun read => readExact read.1 read.2 with
    | none => rfl
    | some framed => cases decoded : (decode framed.1 : Option Pb.Reply) <;> simp [decoded]
  unfold pbReplies messages
  congr

/-! ## Reading a frame -/

section Whole

variable {α κ : Type} (source : Source α κ)

theorem whole_of_done {input : α} (front : source.next input = .done) :
    whole source input = some [] := by
  simp [whole, source.items_of_done front]

theorem whole_of_malformed {input : α} (front : source.next input = .malformed) :
    whole source input = none := by
  simp [whole, source.items_of_malformed front]

theorem whole_of_item {input rest : α} {item : κ} (front : source.next input = .item item rest) :
    whole source input = (whole source rest).map (item :: ·) := by
  simp only [whole, source.items_of_item front]
  split <;> rfl

/-- A source that reads the same items and takes each of them further. -/
theorem whole_mapM {κ' : Type} {source : Source α κ} {source' : Source α κ'} {f : κ → Option κ'}
    (done : ∀ input, source.next input = .done → source'.next input = .done)
    (further : ∀ input item rest, source.next input = .item item rest →
      source'.next input = match f item with
        | some item' => .item item' rest
        | none => .malformed)
    {input : α} {items : List κ} (read : whole source input = some items) :
    whole source' input = items.mapM f := by
  induction size : source.size input using Nat.strong_induction_on generalizing input items with
  | _ n ih =>
      cases front : source.next input with
      | done =>
          rw [whole_of_done _ front] at read
          cases read
          exact whole_of_done _ (done input front)
      | malformed =>
          rw [whole_of_malformed _ front] at read
          cases read
      | item item rest =>
          rw [whole_of_item _ front] at read
          obtain ⟨later, read', rfl⟩ := Option.map_eq_some_iff.mp read
          have shorter := source.shrinks front
          have inner := ih (source.size rest) (size ▸ shorter) read' rfl
          have front' := further input item rest front
          rw [List.mapM_cons]
          cases taken : f item with
          | none =>
              rw [taken] at front'
              exact whole_of_malformed _ front'
          | some item' =>
              rw [taken] at front'
              rw [whole_of_item _ front', inner]
              cases later.mapM f <;> rfl

end Whole

section Further

variable {κ κ' : Type} {f : κ → Option κ'} {items : List κ}

theorem whole_values_mapM {decode : RawValue → Option κ} {decode' : RawValue → Option κ'}
    (further : ∀ value item, decode value = some item → decode' value = f item) {text : Text}
    (read : whole (values decode) text = some items) :
    whole (values decode') text = items.mapM f := by
  refine whole_mapM ?_ ?_ read
  · intro input done
    change nextValue decode input = .done at done
    show nextValue decode' input = .done
    unfold nextValue at done ⊢
    split at done
    next blank => exact if_pos blank
    split at done
    · cases done
    · split at done <;> cases done
  · intro input item rest front
    change nextValue decode input = .item item rest at front
    show nextValue decode' input = _
    unfold nextValue at front ⊢
    split at front
    · cases front
    next full =>
      rw [if_neg full]
      split at front
      · cases front
      next value rest' found =>
        split at front
        · cases front
        next decoded =>
          cases front
          simp only [further value _ decoded]
          cases f item <;> rfl

theorem whole_messages_mapM {take : Bytes → Option κ} {take' : Bytes → Option κ'}
    (further : ∀ message item, take message = some item → take' message = f item)
    {frame : Bytes} (read : whole (messages take) frame = some items) :
    whole (messages take') frame = items.mapM f := by
  refine whole_mapM ?_ ?_ read
  · intro input done
    change nextMessage take input = .done at done
    show nextMessage take' input = .done
    unfold nextMessage at done ⊢
    split at done
    next empty => exact if_pos empty
    split at done
    · cases done
    · split at done <;> cases done
  · intro input item rest front
    change nextMessage take input = .item item rest at front
    show nextMessage take' input = _
    unfold nextMessage at front ⊢
    split at front
    · cases front
    next full =>
      rw [if_neg full]
      split at front
      · cases front
      next message rest' framed =>
        split at front
        · cases front
        next taken =>
          cases front
          simp only [further message _ taken]
          cases f item <;> rfl

end Further

/-- A length that is cut off is none. -/
theorem decodeUvarintIn_take {left left' n k : Nat} (cut : k < (varintIn left n).length) :
    decodeUvarintIn left' ((varintIn left n).take k) = none := by
  induction left generalizing left' n k with
  | zero => exact absurd cut (Nat.not_lt_zero _)
  | succ left ih =>
      cases k with
      | zero => cases left' <;> rfl
      | succ k =>
          unfold varintIn at cut ⊢
          split at cut
          · simp at cut
          next long =>
            have byte : (UInt8.ofNat (n % 128 + 128)).toNat = n % 128 + 128 := by
              rw [UInt8.toNat_ofNat']
              omega
            rw [if_neg long, List.take_succ_cons]
            cases left' with
            | zero => rfl
            | succ left' =>
                have inner := @ih left' (n / 128) k (by simpa using cut)
                rw [decodeUvarintIn, byte, if_neg (by omega), inner, Option.map_none]

section Messages

variable {κ : Type} {take : Bytes → Option κ} {body : Bytes}

/-- A message that is cut off is none, wherever the cut is. -/
theorem framed_take {k : Nat} (short : body.length < 2 ^ 64)
    (cut : k < (varint body.length ++ body).length) :
    ((decodeUvarint ((varint body.length ++ body).take k)).bind
      fun read => readExact read.1 read.2) = none := by
  rcases Nat.lt_or_ge k (varint body.length).length with early | late
  · have front : (varint body.length ++ body).take k = (varint body.length).take k := by
      apply List.take_append_of_le_length
      omega
    have length : decodeUvarintIn 10 ((varint body.length).take k) = none :=
      decodeUvarintIn_take early
    rw [front, decodeUvarint, length]
    rfl
  · obtain ⟨j, rfl⟩ := Nat.exists_eq_add_of_le late
    have missing : ¬ body.length ≤ (body.take j).length := by
      rw [List.length_append] at cut
      rw [List.length_take]
      omega
    rw [List.take_length_add_append, decodeUvarint_varint short, Option.bind_some, readExact,
      if_neg missing]

theorem next_of_taken {item : κ} (short : body.length < 2 ^ 64) (taken : take body = some item)
    (rest : Bytes) :
    (messages take).next (varint body.length ++ body ++ rest) = .item item rest := by
  show nextMessage take _ = _
  have nonempty : varint body.length ++ body ++ rest ≠ [] := by
    simp [varint_ne_nil]
  rw [nextMessage, if_neg nonempty, List.append_assoc, decodeUvarint_varint short,
    Option.bind_some, readExact_append]
  simp only [taken]

theorem next_of_refused (short : body.length < 2 ^ 64) (refused : take body = none)
    (rest : Bytes) :
    (messages take).next (varint body.length ++ body ++ rest) = .malformed := by
  show nextMessage take _ = _
  have nonempty : varint body.length ++ body ++ rest ≠ [] := by
    simp [varint_ne_nil]
  rw [nextMessage, if_neg nonempty, List.append_assoc, decodeUvarint_varint short,
    Option.bind_some, readExact_append]
  simp only [refused]

theorem delimited_cons (body : Bytes) (bodies : List Bytes) :
    delimited (body :: bodies) = varint body.length ++ body ++ delimited bodies :=
  List.flatMap_cons

theorem delimited_append (front back : List Bytes) :
    delimited (front ++ back) = delimited front ++ delimited back :=
  List.flatMap_append

/-- What was framed is read back. -/
theorem whole_delimited {items : List κ} {encode : κ → Bytes}
    (short : ∀ item ∈ items, (encode item).length < 2 ^ 64)
    (inverts : ∀ item ∈ items, take (encode item) = some item) :
    whole (messages take) (delimited (items.map encode)) = some items := by
  induction items with
  | nil => exact whole_of_done _ rfl
  | cons item items ih =>
      obtain ⟨fits, shorter⟩ := List.forall_mem_cons.mp short
      obtain ⟨taken, others⟩ := List.forall_mem_cons.mp inverts
      rw [List.map_cons, delimited_cons, whole_of_item _ (next_of_taken fits taken _),
        ih shorter others, Option.map_some]

/-- A frame is cut between two messages, or what is left of it is no frame. -/
theorem whole_cut {bodies : List Bytes} {front : Bytes}
    (short : ∀ body ∈ bodies, body.length < 2 ^ 64) (part : front <+: delimited bodies) :
    (∃ n, front = delimited (bodies.take n)) ∨ whole (messages take) front = none := by
  induction bodies generalizing front with
  | nil => exact .inl ⟨0, List.prefix_nil.mp part⟩
  | cons body bodies ih =>
      obtain ⟨fits, shorter⟩ := List.forall_mem_cons.mp short
      rw [delimited_cons] at part
      by_cases empty : front = []
      · exact .inl ⟨0, empty⟩
      rcases Nat.lt_or_ge front.length (varint body.length ++ body).length with inside | past
      · -- The cut is in the first message.
        have head : front <+: varint body.length ++ body :=
          List.prefix_of_prefix_length_le part (List.prefix_append _ _) (Nat.le_of_lt inside)
        have unfinished := framed_take fits inside
        rw [← List.prefix_iff_eq_take.mp head] at unfinished
        refine .inr (whole_of_malformed _ ?_)
        show nextMessage take front = _
        rw [nextMessage, if_neg empty, unfinished]
      · obtain ⟨rest, rfl⟩ := List.prefix_of_prefix_length_le (List.prefix_append _ _) part past
        have later := (List.prefix_append_right_inj _).mp part
        rcases ih shorter later with ⟨n, rfl⟩ | refused
        · exact .inl ⟨n + 1, by rw [List.take_succ_cons, delimited_cons]⟩
        · refine .inr ?_
          cases taken : take body with
          | none => exact whole_of_malformed _ (next_of_refused fits taken rest)
          | some item => rw [whole_of_item _ (next_of_taken fits taken rest), refused]; rfl

end Messages

/-! ## Nothing is lost -/

/-- A framing gives some messages back, also in front of others, and nothing for a frame that
is cut inside of a message. -/
def Lossless {κ : Type} (encode : List κ → Option Bytes) (decode : Bytes → Option (List κ))
    (items later : List κ) : Prop :=
  ∃ frame frame', encode items = some frame ∧ encode later = some frame' ∧
    decode frame = some items ∧ decode (frame ++ frame') = some (items ++ later) ∧
    ∀ front, front <+: frame → (∃ n, encode (items.take n) = some front) ∨ decode front = none

theorem lossless_delimited {κ : Type} {take : Bytes → Option κ} {encode : κ → Bytes}
    {items later : List κ} (short : ∀ item ∈ items ++ later, (encode item).length < 2 ^ 64)
    (inverts : ∀ item ∈ items ++ later, take (encode item) = some item) :
    Lossless (fun items => some (delimited (items.map encode))) (whole (messages take))
      items later := by
  obtain ⟨fits, -⟩ := List.forall_mem_append.mp short
  obtain ⟨taken, -⟩ := List.forall_mem_append.mp inverts
  refine ⟨_, _, rfl, rfl, whole_delimited fits taken, ?_, ?_⟩
  · rw [← delimited_append, ← List.map_append]
    exact whole_delimited short inverts
  · intro front part
    rcases whole_cut (by simpa using fits) part with ⟨n, rfl⟩ | refused
    · exact .inl ⟨n, congrArg (fun bodies => some (delimited bodies)) List.map_take⟩
    · exact .inr refused

end Codec

/-- The payload is absent or not empty, and its length fits the machine. A method that is not
known comes back as such. -/
structure Command.Normal (cmd : Command) : Prop where
  filled : Raw.Filled cmd.params
  short : (encode cmd.toPb).length < 2 ^ 64

/-- Whether there is an error, a result or both makes no difference. -/
structure Reply.Normal (reply : Reply Raw) : Prop where
  filled : Raw.Filled reply.result
  short : (encode reply.toPb).length < 2 ^ 64

namespace Codec

theorem takeCommand_encode {cmd : Command} (normal : cmd.Normal) :
    takeCommand (encode cmd.toPb) = some cmd := by
  rw [takeCommand, decode_encode normal.short, Option.bind_some, commandFromPb]
  simp only [Command.toPb, MethodType.fromI32_toI32, vecToRaw_of_filled normal.filled,
    Option.bind_eq_bind, Option.bind_some]

theorem takeReply_encode {reply : Reply Raw} (normal : reply.Normal) :
    takeReply (encode reply.toPb) = some reply := by
  obtain ⟨id, error, result⟩ := reply
  have inner : (error.map Error.toPb).map Error.ofPb = error := by
    cases error <;> rfl
  rw [takeReply, decode_encode normal.short, Option.map_some]
  simp only [Reply.ofPb, Reply.toPb, inner, vecToRaw_of_filled normal.filled]

/-- Protobuf framing gives commands and replies back as they were. -/
theorem protobuf_lossless {cs cs' : List Command} {rs rs' : List (Reply Raw)}
    (commands : ∀ cmd ∈ cs ++ cs', cmd.Normal) (replies : ∀ reply ∈ rs ++ rs', reply.Normal) :
    Lossless (encodeCommands .protobuf) (decodeCommands .protobuf) cs cs' ∧
      Lossless (encodeRepliesIn .protobuf) (decodeReplies .protobuf) rs rs' := by
  constructor
  · exact lossless_delimited (fun cmd mem => (commands cmd mem).short)
      fun cmd mem => takeCommand_encode (commands cmd mem)
  · have decoder : decodeReplies .protobuf = whole (messages takeReply) := by
      rw [← pbReplies_eq]
      rfl
    rw [decoder]
    exact lossless_delimited (fun reply mem => (replies reply mem).short)
      fun reply mem => takeReply_encode (replies reply mem)

theorem protobuf_lossless_pair :
    Lossless (encodeCommands .protobuf) (decodeCommands .protobuf)
        [⟨1, .connect, none⟩, ⟨2, .publish, some (.ofText "{}".toList)⟩] [⟨3, .ping, none⟩] ∧
      Lossless (encodeRepliesIn .protobuf) (decodeReplies .protobuf)
        [.ok 1 (.ofText "{}".toList), .err 2 .badRequest] [.bare 3] := by
  refine protobuf_lossless ?_ ?_
  · simp only [List.cons_append, List.nil_append, List.forall_mem_cons]
    exact ⟨⟨by decide, by decide⟩, ⟨by decide, by decide⟩, ⟨by decide, by decide⟩, nofun⟩
  · simp only [List.cons_append, List.nil_append, List.forall_mem_cons]
    exact ⟨⟨by decide, by decide⟩, ⟨by decide, by decide⟩, ⟨by decide, by decide⟩, nofun⟩

end Codec

end Centrifugo
