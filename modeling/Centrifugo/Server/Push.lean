import Centrifugo.Core.Node
import Centrifugo.Protocol.Decode
import Centrifugo.Server.Framing

/-!
# Push frames

A push is encoded once for each format. This module decodes both frames down to the inner
message. The protobuf frame gives the push that was sent, the JSON frame gives it with its
payloads as they were read back, so that the two agree on exact payloads.
-/

namespace Centrifugo

open Json Proto Codec

namespace Codec

/-- The reply that carries a push, in protobuf. -/
def encodePushFramePb (push : Push) : Bytes :=
  encodeDelimited (Reply.toPb ⟨0, none, some ⟨encode push.toPb⟩⟩)

/-- The push frame around an encoded inner message, in the format of a connection. -/
def makePushFrameIn (proto : ProtocolType) (channel : String) (type : PushType)
    (json : Option RawValue) (pb : Bytes) : Option Bytes :=
  match proto with
  | .json => makePushFrame channel type json
  | .protobuf => some (encodePushFramePb ⟨type, channel, some ⟨pb⟩⟩)

end Codec

namespace Sent

/-- The bytes of a push in a queue. -/
def pushFrame (proto : ProtocolType) : Sent → Option Bytes
  | .replies _ => none
  | .publication ch body => makePushFrameIn proto ch .publication body.toJson (encode body.toPb)
  | .join ch body => makePushFrameIn proto ch .join body.toJson (encode body.toPb)
  | .leave ch body => makePushFrameIn proto ch .leave body.toJson (encode body.toPb)
  | .unsub ch => makePushFrameIn proto ch .unsub (Result.toJson .unsubscribe) []

/-- The inner message of a push, by the type of the push. -/
def ofPush (proto : ProtocolType) (push : Push) : Option Sent :=
  match push.type with
  | .publication =>
      (decodeParams proto default decodePublication Publication.ofPb push.data).map
        (.publication push.channel)
  | .join =>
      (decodeParams proto ⟨default⟩ (fun json => (decodePresence json).map Join.mk)
        Join.ofPb push.data).map (.join push.channel)
  | .leave =>
      (decodeParams proto ⟨default⟩ (fun json => (decodePresence json).map Leave.mk)
        Leave.ofPb push.data).map (.leave push.channel)
  | .unsub => some (.unsub push.channel)
  | .message | .sub => none

/-- A frame that holds one reply, with id 0 and a push for its result. -/
def ofFrame (proto : ProtocolType) (frame : Bytes) : Option Sent := do
  match ← decodeReplies proto frame with
  | [reply] =>
      if reply.id = 0 ∧ reply.error = none then
        let push ← decodePushResult proto reply.result
        ofPush proto push
      else none
  | _ => none

/-- A push as it comes back over JSON. -/
def reread : Sent → Sent
  | .publication ch body => .publication ch body.reread
  | .join ch body => .join ch ⟨body.info.reread⟩
  | .leave ch body => .leave ch ⟨body.info.reread⟩
  | push => push

end Sent

namespace NodeMessage

def payloads : NodeMessage → List Raw
  | .publication _ body => body.payloads
  | .join _ info | .leave _ info => info.payloads

/-- The offset is one of 64 bits. -/
def Fits : NodeMessage → Prop
  | .publication _ body => body.offset < 2 ^ 64
  | .join _ _ | .leave _ _ => True

end NodeMessage

/-! ## Frames as they are decoded -/

namespace Codec

theorem rawToVec_present (bytes : Bytes) : rawToVec (Raw.present (some ⟨bytes⟩)) = bytes := by
  cases bytes <;> rfl

theorem object_ne_null (members : List (String × RawValue)) :
    RawValue.object members ≠ .null := by
  intro same
  cases congrArg RawValue.text same

theorem reread_ofText {value : RawValue} (notNull : value ≠ .null) :
    Raw.reread (some (.ofText value.text)) = some (.ofText value.text) := by
  simp [Raw.reread, notNull]

/-- A payload field is no longer than its message. -/
theorem length_lt_of_blob {fields : List Field} {tag : Nat} {bytes : Bytes}
    (part : ∀ {field}, field ∈ Field.blob tag bytes → field ∈ fields)
    (short : (write fields).length < 2 ^ 64) : bytes.length < 2 ^ 64 := by
  by_cases nothing : bytes = []
  · rw [nothing]
    decide
  · have field := @part ⟨tag, .bytes bytes⟩ (by simp [Field.blob, nothing])
    exact Nat.lt_of_le_of_lt (length_bytes_le field) short

variable {channel : String} {type : PushType} {json : Option RawValue} {pb : Bytes}

/-- A JSON frame leads to its inner message. -/
theorem ofFrame_json {value : RawValue} (written : json = some value) (notNull : value ≠ .null) :
    ∃ frame, makePushFrame channel type json = some frame ∧
      Sent.ofFrame .json frame = Sent.ofPush .json ⟨type, channel, some (.ofText value.text)⟩ := by
  subst written
  have inner : (Raw.ofText value.text).toJson = some value := Raw.toJson_ofText value
  have whole := reread_ofText notNull
  let push : Push := ⟨type, channel, some (.ofText value.text)⟩
  obtain ⟨pushed, encoded, object⟩ : ∃ pushed, push.toJson = some pushed ∧ pushed ≠ .null := by
    simp only [push, Push.toJson, nullableRaw, inner]
    exact ⟨_, rfl, object_ne_null _⟩
  have outer : (Raw.ofText pushed.text).toJson = some pushed := Raw.toJson_ofText pushed
  let reply : Reply Raw := ⟨0, none, some (.ofText pushed.text)⟩
  obtain ⟨line, replied⟩ : ∃ line, reply.toJson = some line := by
    simp only [reply, Reply.toJson, optionalRaw, outer]
    exact ⟨_, rfl⟩
  refine ⟨encodeUtf8 line.text ++ [newlineByte], ?_, ?_⟩
  · have sent : pushReply push = some reply := by simp [pushReply, encodeRaw, encoded, reply]
    have framed : makePush channel type (some value) = some push := by
      simp [makePush, encodeRaw, push]
    simp [makePushFrame, framed, encodePushFrame, sent, encodeReplies,
      encodeReply, replied]
  · have back : decodePushResult .json (Raw.reread reply.result) = some push := by
      have same : Raw.reread reply.result = some (.ofText pushed.text) := reread_ofText object
      rw [same, decodePushResult, Option.bind_some, outer, Option.bind_some,
        decodePush_toJson encoded, whole]
    simp only [Sent.ofFrame, decodeReplies_line replied, Option.bind_eq_bind, Option.bind_some,
      back]
    rfl

/-- So does a protobuf frame. An inner message without fields is absent. -/
theorem ofFrame_protobuf
    (short : (encodePushFramePb ⟨type, channel, some ⟨pb⟩⟩).length < 2 ^ 64) :
    pb.length < 2 ^ 64 ∧
      Sent.ofFrame .protobuf (encodePushFramePb ⟨type, channel, some ⟨pb⟩⟩) =
        Sent.ofPush .protobuf ⟨type, channel, Raw.present (some ⟨pb⟩)⟩ := by
  let push : Push := ⟨type, channel, some ⟨pb⟩⟩
  let reply : Reply Raw := ⟨0, none, some ⟨encode push.toPb⟩⟩
  have whole : (encode reply.toPb).length < 2 ^ 64 := by
    have parts : (encodeDelimited reply.toPb).length < 2 ^ 64 := short
    rw [encodeDelimited, List.length_append] at parts
    omega
  have inside : (encode push.toPb).length < 2 ^ 64 :=
    length_lt_of_blob (List.mem_append_right _) whole
  have innermost : pb.length < 2 ^ 64 := length_lt_of_blob (List.mem_append_right _) inside
  have back : decodePushResult .protobuf (Reply.ofPb reply.toPb).result =
      some ⟨type, channel, Raw.present (some ⟨pb⟩)⟩ := by
    have result : (Reply.ofPb reply.toPb).result =
        Raw.present (some ⟨encode push.toPb⟩) := vecToRaw_rawToVec (some ⟨encode push.toPb⟩)
    have kind : (UInt32.ofNat type.toNat).toNat = type.toNat := by cases type <;> rfl
    rw [result, decodePushResult, rawToVec_present, decode_encode inside, Option.bind_some]
    simp only [pushOfPb, Push.toPb, push, kind, pushTypeOf_toNat, vecToRaw_rawToVec,
      Option.map_some]
  refine ⟨innermost, ?_⟩
  show Sent.ofFrame .protobuf (encodeDelimited reply.toPb) = _
  simp only [Sent.ofFrame, decodeReplies_delimited whole, Option.bind_eq_bind, Option.bind_some,
    back]
  rfl

/-- A push frame holds one reply, without an id. -/
theorem decodeReplies_makePushFrameIn {proto : ProtocolType} {frame : Bytes}
    (framed : makePushFrameIn proto channel type json pb = some frame)
    (short : frame.length < 2 ^ 64) :
    ∃ result, decodeReplies proto frame = some [⟨0, none, result⟩] := by
  cases proto with
  | json =>
      obtain ⟨push, _, framed⟩ := Option.bind_eq_some_iff.mp framed
      obtain ⟨reply, replied, framed⟩ := Option.bind_eq_some_iff.mp framed
      obtain ⟨result, _, same⟩ := Option.bind_eq_some_iff.mp replied
      obtain rfl := Option.some.inj same
      obtain ⟨line, written, rfl⟩ : ∃ line, Reply.toJson ⟨0, none, some result⟩ = some line ∧
          encodeUtf8 line.text ++ [newlineByte] = frame := by
        simpa [encodeReplies, encodeReply, Option.bind_eq_some_iff] using framed
      rw [decodeReplies_line written]
      exact ⟨_, rfl⟩
  | protobuf =>
      obtain rfl := Option.some.inj framed
      have whole : (encode (Reply.toPb ⟨0, none, some ⟨encode
          (Push.toPb ⟨type, channel, some ⟨pb⟩⟩)⟩⟩)).length < 2 ^ 64 := by
        rw [encodePushFramePb, encodeDelimited, List.length_append] at short
        omega
      exact ⟨_, decodeReplies_delimited whole⟩

/-- A message without fields is the empty one. -/
theorem decodeParams_protobuf {α β : Type} [Message β] [Lawful β] {empty : α}
    {json : RawValue → Option α} {ofPb : β → α} {message : β}
    (default : ofPb Message.empty = empty) (short : (encode message).length < 2 ^ 64) :
    decodeParams .protobuf empty json ofPb (Raw.present (some ⟨encode message⟩)) =
      some (ofPb message) := by
  have decoded := decode_encode short
  by_cases nothing : encode message = []
  · rw [nothing] at decoded
    cases decoded
    rw [nothing, default]
    rfl
  · simp [decodeParams, Raw.present, Option.filter, nothing, decoded]

end Codec

/-! ## Pushes -/

theorem ClientInfo.present_of_valid {info : ClientInfo}
    (valid : ∀ raw ∈ info.payloads, raw.Valid) : info.present = info := by
  rw [present, Raw.present_of_valid fun raw mine => valid raw (by simp [payloads, mine]),
    Raw.present_of_valid fun raw mine => valid raw (by simp [payloads, mine])]

theorem Publication.ofPb_toPb {body : Publication} (valid : ∀ raw ∈ body.payloads, raw.Valid)
    (fits : body.offset < 2 ^ 64) : ofPb body.toPb = body := by
  have data : Raw.present body.data = body.data :=
    Raw.present_of_valid fun raw mine => valid raw (by simp [payloads, mine])
  have offset : (UInt64.ofNat body.offset).toNat = body.offset := by
    rw [UInt64.toNat_ofNat']
    omega
  have info : (body.info.map ClientInfo.toPb).map ClientInfo.ofPb = body.info := by
    cases found : body.info with
    | none => rfl
    | some info =>
        have same : info.present = info := ClientInfo.present_of_valid fun raw mem =>
          valid raw (by simp [payloads, found, mem])
        simp [same]
  simp only [ofPb, toPb, vecToRaw_rawToVec, data, offset, info]

/-! ## What clients of either format decode -/

namespace Sent

variable {ch : String} {body : Publication} {info : ClientInfo} {frame : Bytes}

theorem publication_json (valid : ∀ raw ∈ body.payloads, raw.Valid) (fits : body.offset < 2 ^ 64) :
    ∃ frame, (publication ch body).pushFrame .json = some frame ∧
      ofFrame .json frame = some (publication ch body.reread) := by
  obtain ⟨value, written, notNull, -⟩ := carries_publication body valid
  obtain ⟨frame, framed, decoded⟩ := ofFrame_json written notNull
  refine ⟨frame, framed, decoded.trans ?_⟩
  simp [ofPush, decodeParams, decodePublication_toJson fits written]

theorem publication_protobuf (valid : ∀ raw ∈ body.payloads, raw.Valid)
    (fits : body.offset < 2 ^ 64) (framed : (publication ch body).pushFrame .protobuf = some frame)
    (short : frame.length < 2 ^ 64) :
    ofFrame .protobuf frame = some (publication ch body) := by
  obtain rfl := Option.some.inj framed
  obtain ⟨inside, decoded⟩ := ofFrame_protobuf short
  have read := @decodeParams_protobuf _ _ _ _ default decodePublication Publication.ofPb _ rfl
    inside
  rw [decoded, ofPush, read, Publication.ofPb_toPb valid fits]
  rfl

/-- The JSON of a Join and of a Leave. -/
theorem presence_json (valid : ∀ raw ∈ info.payloads, raw.Valid) :
    ∃ value, (do some (.object [("info", ← info.toJson)])) = some value ∧ value ≠ .null ∧
      decodePresence value = some info.reread := by
  obtain ⟨json, written, -, -⟩ := carries_clientInfo info valid
  refine ⟨.object [("info", json)], by rw [written]; rfl, object_ne_null _, ?_⟩
  exact decodePresence_object written

theorem join_json (valid : ∀ raw ∈ info.payloads, raw.Valid) :
    ∃ frame, (join ch ⟨info⟩).pushFrame .json = some frame ∧
      ofFrame .json frame = some (join ch ⟨info.reread⟩) := by
  obtain ⟨value, written, notNull, read⟩ := presence_json valid
  obtain ⟨frame, framed, decoded⟩ := ofFrame_json written notNull
  refine ⟨frame, framed, decoded.trans ?_⟩
  simp [ofPush, decodeParams, read]

theorem leave_json (valid : ∀ raw ∈ info.payloads, raw.Valid) :
    ∃ frame, (leave ch ⟨info⟩).pushFrame .json = some frame ∧
      ofFrame .json frame = some (leave ch ⟨info.reread⟩) := by
  obtain ⟨value, written, notNull, read⟩ := presence_json valid
  obtain ⟨frame, framed, decoded⟩ := ofFrame_json written notNull
  refine ⟨frame, framed, decoded.trans ?_⟩
  simp [ofPush, decodeParams, read]

theorem join_protobuf (valid : ∀ raw ∈ info.payloads, raw.Valid)
    (framed : (join ch ⟨info⟩).pushFrame .protobuf = some frame)
    (short : frame.length < 2 ^ 64) : ofFrame .protobuf frame = some (join ch ⟨info⟩) := by
  obtain rfl := Option.some.inj framed
  obtain ⟨inside, decoded⟩ := ofFrame_protobuf short
  have read := @decodeParams_protobuf _ _ _ _ ⟨default⟩
    (fun json => (decodePresence json).map Join.mk) Join.ofPb _ rfl inside
  rw [decoded, ofPush, read]
  simp [Join.ofPb, Join.toPb, ClientInfo.present_of_valid valid]

theorem leave_protobuf (valid : ∀ raw ∈ info.payloads, raw.Valid)
    (framed : (leave ch ⟨info⟩).pushFrame .protobuf = some frame)
    (short : frame.length < 2 ^ 64) : ofFrame .protobuf frame = some (leave ch ⟨info⟩) := by
  obtain rfl := Option.some.inj framed
  obtain ⟨inside, decoded⟩ := ofFrame_protobuf short
  have read := @decodeParams_protobuf _ _ _ _ ⟨default⟩
    (fun json => (decodePresence json).map Leave.mk) Leave.ofPb _ rfl inside
  rw [decoded, ofPush, read]
  simp [Leave.ofPb, Leave.toPb, ClientInfo.present_of_valid valid]

end Sent

/-- Payloads that are exact come back as they were. -/
theorem ClientInfo.reread_of_exact {info : ClientInfo} (valid : ∀ raw ∈ info.payloads, raw.Valid)
    (exact : ∀ raw ∈ info.payloads, raw.Exact) : info.reread = info := by
  have conn : Raw.reread info.connInfo = info.connInfo := Raw.reread_of_exact fun raw mine =>
    ⟨valid raw (by simp [payloads, mine]), exact raw (by simp [payloads, mine])⟩
  have chan : Raw.reread info.chanInfo = info.chanInfo := Raw.reread_of_exact fun raw mine =>
    ⟨valid raw (by simp [payloads, mine]), exact raw (by simp [payloads, mine])⟩
  rw [reread, conn, chan]

theorem Publication.reread_of_exact {body : Publication}
    (valid : ∀ raw ∈ body.payloads, raw.Valid) (exact : ∀ raw ∈ body.payloads, raw.Exact) :
    body.reread = body := by
  have data : Raw.reread body.data = body.data := Raw.reread_of_exact fun raw mine =>
    ⟨valid raw (by simp [payloads, mine]), exact raw (by simp [payloads, mine])⟩
  have info : body.info.map ClientInfo.reread = body.info := by
    cases found : body.info with
    | none => rfl
    | some info =>
        have same : info.reread = info := ClientInfo.reread_of_exact
          (fun raw mem => valid raw (by simp [payloads, found, mem]))
          fun raw mem => exact raw (by simp [payloads, found, mem])
        simp [same]
  rw [reread, data, info]

namespace NodeMessage

variable {message : NodeMessage} {useSeqGen : Bool}

/-- A publication is sent as it is, or with its offset unpacked. -/
theorem toPush_publication (ch : String) (body : Publication) :
    ∃ sent : Publication, (publication ch body).toPush useSeqGen = .publication ch sent ∧
      sent.payloads = (publication ch body).payloads ∧
        (body.offset < 2 ^ 64 → sent.offset < 2 ^ 64) := by
  rw [toPush]
  split
  · exact ⟨body.toSeqGen, rfl, rfl, fun _ => Nat.two_pow_pos 64⟩
  · exact ⟨body, rfl, rfl, fun fits => fits⟩

theorem toPush_json (valid : ∀ raw ∈ message.payloads, raw.Valid) (fits : message.Fits) :
    ∃ frame, (message.toPush useSeqGen).pushFrame .json = some frame ∧
      Sent.ofFrame .json frame = some (message.toPush useSeqGen).reread := by
  cases message with
  | publication ch body =>
      obtain ⟨sent, same, payloads, bound⟩ := @toPush_publication useSeqGen ch body
      rw [same]
      exact Sent.publication_json (fun raw mem => valid raw (payloads ▸ mem)) (bound fits)
  | join ch info => exact Sent.join_json valid
  | leave ch info => exact Sent.leave_json valid

theorem toPush_protobuf (valid : ∀ raw ∈ message.payloads, raw.Valid) (fits : message.Fits)
    {frame : Bytes} (framed : (message.toPush useSeqGen).pushFrame .protobuf = some frame)
    (short : frame.length < 2 ^ 64) :
    Sent.ofFrame .protobuf frame = some (message.toPush useSeqGen) := by
  cases message with
  | publication ch body =>
      obtain ⟨sent, same, payloads, bound⟩ := @toPush_publication useSeqGen ch body
      rw [same] at framed ⊢
      exact Sent.publication_protobuf (fun raw mem => valid raw (payloads ▸ mem)) (bound fits)
        framed short
  | join ch info => exact Sent.join_protobuf valid framed short
  | leave ch info => exact Sent.leave_protobuf valid framed short

theorem reread_toPush (valid : ∀ raw ∈ message.payloads, raw.Valid)
    (exact : ∀ raw ∈ message.payloads, raw.Exact) :
    (message.toPush useSeqGen).reread = message.toPush useSeqGen := by
  cases message with
  | publication ch body =>
      obtain ⟨sent, same, payloads, -⟩ := @toPush_publication useSeqGen ch body
      rw [same, Sent.reread, Publication.reread_of_exact] <;>
        (intro raw mem; rw [payloads] at mem)
      · exact valid raw mem
      · exact exact raw mem
  | join ch info => simp [toPush, Sent.reread, ClientInfo.reread_of_exact valid exact]
  | leave ch info => simp [toPush, Sent.reread, ClientInfo.reread_of_exact valid exact]

end NodeMessage

end Centrifugo
