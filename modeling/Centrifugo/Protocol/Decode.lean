import Centrifugo.Json.Struct
import Centrifugo.Protocol.Framing
import Centrifugo.Protocol.Wire

/-!
# Decoding frames

A frame is decoded into its replies, the result of a reply into a push, and the data of a push
into the inner message, in either format. Over protobuf everything comes back as it was, but
for payloads that are empty. Over JSON a payload comes back without the whitespace around it,
and `null` as absent.
-/

namespace Centrifugo

open Json Proto

/-- A payload that is written as JSON and read back. -/
def Raw.reread (raw : Option Raw) : Option Raw :=
  (raw.bind Raw.toJson).bind fun json => if json = .null then none else some (.ofText json.text)

/-- A payload that is exact comes back as it was. -/
theorem Raw.reread_of_exact {raw : Option Raw}
    (valid : ∀ r, raw = some r → r.Valid ∧ r.Exact) : Raw.reread raw = raw := by
  cases raw with
  | none => rfl
  | some raw =>
      obtain ⟨written, exact⟩ := valid raw rfl
      obtain ⟨value, json⟩ := toJson_of_valid written
      obtain ⟨notNull, same⟩ := (exact_iff json).mp exact
      simp [Raw.reread, json, notNull, same]

theorem Raw.Valid.bytes_ne_nil {raw : Raw} (valid : raw.Valid) : raw.bytes.isEmpty = false := by
  obtain ⟨text, decoded, value⟩ := valid
  by_contra empty
  have nothing : raw.bytes = [] := by simpa using empty
  rw [Raw.text?, nothing] at decoded
  cases decoded
  cases value

theorem Raw.present_of_valid {raw : Option Raw} (valid : ∀ r, raw = some r → r.Valid) :
    Raw.present raw = raw := by
  cases raw with
  | none => rfl
  | some raw => simp [Raw.present, Option.filter, (valid raw rfl).bytes_ne_nil]

namespace Codec

/-! ## JSON -/

def decodeU64 (value : RawValue) : Option Nat := do
  let n ← value.toNat?
  if n < 2 ^ 64 then some n else none

def decodeText (value : RawValue) : Option String := value.toText?.map String.ofList

def pushTypeOf : Nat → Option PushType
  | 0 => some .publication
  | 1 => some .join
  | 2 => some .leave
  | 3 => some .unsub
  | 4 => some .message
  | 5 => some .sub
  | _ => none

/-- A payload in its own text. -/
def decodeRaw : Option RawValue → Option (Option Raw) :=
  decodeOption fun value => some (.ofText value.text)

def decodePush (value : RawValue) : Option Push := do
  match ← readStruct ["type", "channel", "data"] value.text with
  | [type, channel, data] =>
      some {
        type := ← decodeOr .publication (fun value => value.toNat?.bind pushTypeOf) type
        channel := ← decodeOr "" decodeText channel
        data := ← decodeRaw data }
  | _ => none

def decodeInfo (value : RawValue) : Option ClientInfo := do
  match ← readStruct ["user", "client", "conn_info", "chan_info"] value.text with
  | [user, client, connInfo, chanInfo] =>
      some {
        user := ← decodeOr "" decodeText user
        client := ← decodeOr "" decodeText client
        connInfo := ← decodeRaw connInfo
        chanInfo := ← decodeRaw chanInfo }
  | _ => none

def decodePublication (value : RawValue) : Option Publication := do
  match ← readStruct ["seq", "gen", "uid", "data", "info", "offset"] value.text with
  | [seq, gen, uid, data, info, offset] =>
      some {
        seq := ← decodeOr 0 decodeU32 seq
        gen := ← decodeOr 0 decodeU32 gen
        uid := ← decodeOr "" decodeText uid
        data := ← decodeRaw data
        info := ← decodeOption decodeInfo info
        offset := ← decodeOr 0 decodeU64 offset }
  | _ => none

/-- A Join or a Leave. -/
def decodePresence (value : RawValue) : Option ClientInfo := do
  match ← readStruct ["info"] value.text with
  | [info] => decodeOr default decodeInfo info
  | _ => none

/-! ## Protobuf -/

/-- Seven bits in each byte. What does not fit into 64 bits is lost. -/
def decodeUvarintIn : Nat → Bytes → Option (Nat × Bytes)
  | 0, _ | _, [] => none
  | left + 1, byte :: rest =>
      if byte.toNat < 128 then some (byte.toNat, rest)
      else (decodeUvarintIn left rest).map fun read =>
        (byte.toNat - 128 + 128 * read.1, read.2)

def decodeUvarint (bytes : Bytes) : Option (Nat × Bytes) :=
  (decodeUvarintIn 10 bytes).map fun read => (read.1 % 2 ^ 64, read.2)

/-- The message at the front of some bytes, behind its length. -/
def nextReply (bytes : Bytes) : Front (Reply Raw) Bytes :=
  if bytes = [] then .done
  else
    match (decodeUvarint bytes).bind fun read => readExact read.1 read.2 with
    | none => .malformed
    | some (message, rest) =>
        match (decode message : Option Pb.Reply) with
        | none => .malformed
        | some reply => .item (.ofPb reply) rest

theorem length_decodeUvarintIn_lt {left n : Nat} {bytes rest : Bytes}
    (h : decodeUvarintIn left bytes = some (n, rest)) : rest.length < bytes.length := by
  induction left generalizing n bytes with
  | zero => cases h
  | succ left ih =>
      cases bytes with
      | nil => cases h
      | cons byte bytes =>
          rw [decodeUvarintIn] at h
          split at h
          · cases h
            exact Nat.lt_succ_self _
          · obtain ⟨⟨m, rest'⟩, inner, read⟩ := Option.map_eq_some_iff.mp h
            cases read
            exact Nat.lt_succ_of_lt (ih inner)

theorem length_framed_lt {bytes message rest : Bytes}
    (h : ((decodeUvarint bytes).bind fun read => readExact read.1 read.2) = some (message, rest)) :
    rest.length < bytes.length := by
  obtain ⟨⟨length, body⟩, start, taken⟩ := Option.bind_eq_some_iff.mp h
  obtain ⟨⟨m, body'⟩, read, same⟩ := Option.map_eq_some_iff.mp start
  cases same
  have shorter := length_decodeUvarintIn_lt read
  simp only [readExact, Option.ite_none_right_eq_some, Option.some.injEq, Prod.mk.injEq] at taken
  obtain ⟨-, -, rfl⟩ := taken
  have dropped := @List.length_drop _ (m % 2 ^ 64) body'
  simp only at *
  omega

/-- The replies of a protobuf frame. -/
def pbReplies : Source Bytes (Reply Raw) where
  next := nextReply
  size := List.length
  shrinks := by
    intro bytes rest reply h
    unfold nextReply at h
    split at h
    · cases h
    split at h
    · cases h
    next framed =>
      split at h
      · cases h
      · cases h
        exact length_framed_lt framed

/-- All items of an input that is not malformed. -/
def whole {α κ : Type} (source : Source α κ) (input : α) : Option (List κ) :=
  if (source.items input).2 then some (source.items input).1 else none

def decodeReplies : ProtocolType → Bytes → Option (List (Reply Raw))
  | .json, frame => (decodeUtf8 frame).bind (whole (values fun value => decodeReply value.text))
  | .protobuf, frame => whole pbReplies frame

def pushOfPb (push : Pb.Push) : Option Push :=
  (pushTypeOf push.type.toNat).map fun type => ⟨type, push.channel, vecToRaw push.data⟩

/-- The push in the result of a reply. -/
def decodePushResult (proto : ProtocolType) (result : Option Raw) : Option Push :=
  match proto with
  | .json => (result.bind Raw.toJson).bind decodePush
  | .protobuf => (decode (rawToVec result) : Option Pb.Push).bind pushOfPb

/-- The message in a payload field. An absent one is the default. -/
def decodeParams {α β : Type} [Message β] (proto : ProtocolType) (empty : α)
    (json : RawValue → Option α) (ofPb : β → α) : Option Raw → Option α
  | none => some empty
  | some raw =>
      match proto with
      | .json => raw.toJson.bind json
      | .protobuf => (decode raw.bytes).map ofPb

/-! ## What is written is read back -/

theorem skipIf_eq (skip : Bool) (name : String) (value : RawValue) :
    skipIf skip name value =
      (if skip then none else some value : Option RawValue).toList.map fun v => (name, v) := by
  unfold skipIf
  split <;> rfl

theorem optionalRaw_eq {name : String} {raw : Option Raw} {members : List (String × RawValue)}
    (h : optionalRaw name raw = some members) :
    members = (raw.bind Raw.toJson).toList.map fun v => (name, v) := by
  cases raw with
  | none =>
      cases h
      rfl
  | some raw =>
      obtain ⟨value, json, rfl⟩ := Option.map_eq_some_iff.mp h
      simp [json]

theorem nullableRaw_eq {name : String} {raw : Option Raw} {members : List (String × RawValue)}
    (h : nullableRaw name raw = some members) :
    members = [(name, (raw.bind Raw.toJson).getD .null)] := by
  cases raw with
  | none =>
      cases h
      rfl
  | some raw =>
      obtain ⟨value, json, rfl⟩ := Option.map_eq_some_iff.mp h
      simp [json]

theorem decodeRaw_optional (raw : Option Raw) :
    decodeRaw (raw.bind Raw.toJson) = some (Raw.reread raw) := by
  rw [Raw.reread]
  cases raw.bind Raw.toJson with
  | none => rfl
  | some value => by_cases null : value = .null <;> simp [decodeRaw, decodeOption, null]

theorem decodeRaw_nullable (raw : Option Raw) :
    decodeRaw (some ((raw.bind Raw.toJson).getD .null)) = some (Raw.reread raw) := by
  rw [Raw.reread]
  cases raw.bind Raw.toJson with
  | none => rfl
  | some value => by_cases null : value = .null <;> simp [decodeRaw, decodeOption, null]

theorem decodeText_string (s : String) : decodeText (.string s) = some s := by
  simp [decodeText]

theorem decodeOr_text (s : String) :
    decodeOr "" decodeText (if s.isEmpty then none else some (.string s)) = some s := by
  by_cases empty : s = ""
  · simp [empty, decodeOr]
  · simp [decodeOr, decodeText_string, empty]

theorem decodeOr_u32 (n : UInt32) :
    decodeOr 0 decodeU32 (if n == 0 then none else some (u32 n)) = some n := by
  by_cases zero : n = 0 <;> simp [decodeOr, zero]

theorem decodeOr_u64 {n : Nat} (fits : n < 2 ^ 64) :
    decodeOr 0 decodeU64 (if n == 0 then none else some (.number n)) = some n := by
  by_cases zero : n = 0
  · simp [decodeOr, zero]
  · simp only [decodeOr, beq_iff_eq, zero, if_false, decodeU64, RawValue.toNat?_number,
      Option.bind_eq_bind, Option.bind_some, fits, if_true]

theorem pushTypeOf_toNat (type : PushType) : pushTypeOf type.toNat = some type := by
  cases type <;> rfl

theorem decodePush_toJson {push : Push} {value : RawValue} (h : push.toJson = some value) :
    decodePush value = some { push with data := Raw.reread push.data } := by
  obtain ⟨data, written', eq⟩ := Option.bind_eq_some_iff.mp h
  cases eq
  have same : skipIf (push.type == .publication) "type" (.number push.type.toNat) ++
      skipIf push.channel.isEmpty "channel" (.string push.channel) ++ data =
        written [("type", if push.type == .publication then none
            else some (.number push.type.toNat)),
          ("channel", if push.channel.isEmpty then none else some (.string push.channel)),
          ("data", some ((push.data.bind Raw.toJson).getD .null))] := by
    rw [nullableRaw_eq written', skipIf_eq, skipIf_eq]
    simp [written]
  have type : decodeOr .publication (fun value => value.toNat?.bind pushTypeOf)
      (if push.type == .publication then none else some (.number push.type.toNat)) =
        some push.type := by
    by_cases first : push.type = .publication <;>
      simp [first, decodeOr, pushTypeOf_toNat]
  have read := @readStruct_written [("type", if push.type == .publication then none
      else some (.number push.type.toNat)),
    ("channel", if push.channel.isEmpty then none else some (.string push.channel)),
    ("data", some ((push.data.bind Raw.toJson).getD .null))] (by simp)
  simp only [List.map_cons, List.map_nil] at read
  rw [same]
  simp only [decodePush, read, Option.bind_eq_bind, Option.bind_some, type, decodeOr_text,
    decodeRaw_nullable]

end Codec

/-- A client's info as it comes back over JSON. -/
def ClientInfo.reread (info : ClientInfo) : ClientInfo :=
  { info with connInfo := Raw.reread info.connInfo, chanInfo := Raw.reread info.chanInfo }

def Publication.reread (publication : Publication) : Publication :=
  { publication with
    data := Raw.reread publication.data
    info := publication.info.map ClientInfo.reread }

namespace Codec

theorem decodeInfo_toJson {info : ClientInfo} {value : RawValue} (h : info.toJson = some value) :
    decodeInfo value = some info.reread := by
  obtain ⟨connInfo, conn, h⟩ := Option.bind_eq_some_iff.mp h
  obtain ⟨chanInfo, chan, eq⟩ := Option.bind_eq_some_iff.mp h
  cases eq
  have same : [("user", RawValue.string info.user), ("client", .string info.client)] ++
      connInfo ++ chanInfo =
        written [("user", some (.string info.user)), ("client", some (.string info.client)),
          ("conn_info", info.connInfo.bind Raw.toJson),
          ("chan_info", info.chanInfo.bind Raw.toJson)] := by
    rw [optionalRaw_eq conn, optionalRaw_eq chan]
    simp [written]
  have read := @readStruct_written [("user", some (.string info.user)),
    ("client", some (.string info.client)), ("conn_info", info.connInfo.bind Raw.toJson),
    ("chan_info", info.chanInfo.bind Raw.toJson)] (by simp)
  simp only [List.map_cons, List.map_nil] at read
  rw [same]
  simp only [decodeInfo, read, Option.bind_eq_bind, Option.bind_some, decodeOr,
    decodeText_string, decodeRaw_optional]
  rfl

theorem decodePublication_toJson {publication : Publication} {value : RawValue}
    (fits : publication.offset < 2 ^ 64) (h : publication.toJson = some value) :
    decodePublication value = some publication.reread := by
  obtain ⟨data, payload, h⟩ := Option.bind_eq_some_iff.mp h
  obtain ⟨members, given, eq⟩ := Option.bind_eq_some_iff.mp h
  cases eq
  obtain ⟨info, infoMembers, infoRead⟩ : ∃ info : Option RawValue,
      members = info.toList.map (fun v => ("info", v)) ∧
        decodeOption decodeInfo info = some (publication.info.map ClientInfo.reread) := by
    cases found : publication.info with
    | none =>
        rw [found] at given
        cases given
        exact ⟨none, rfl, rfl⟩
    | some info =>
        rw [found] at given
        obtain ⟨json, inner, rfl⟩ := Option.map_eq_some_iff.mp given
        have notNull : json ≠ .null := by
          rintro rfl
          obtain ⟨_, -, rest⟩ := Option.bind_eq_some_iff.mp inner
          obtain ⟨_, -, object⟩ := Option.bind_eq_some_iff.mp rest
          cases congrArg RawValue.text (Option.some.inj object)
        exact ⟨some json, rfl, by simp [decodeOption, notNull, decodeInfo_toJson inner]⟩
  have same : skipIf (publication.seq == 0) "seq" (u32 publication.seq) ++
      skipIf (publication.gen == 0) "gen" (u32 publication.gen) ++
      skipIf publication.uid.isEmpty "uid" (.string publication.uid) ++ data ++ members ++
      skipIf (publication.offset == 0) "offset" (.number publication.offset) =
        written [("seq", if publication.seq == 0 then none else some (u32 publication.seq)),
          ("gen", if publication.gen == 0 then none else some (u32 publication.gen)),
          ("uid", if publication.uid.isEmpty then none else some (.string publication.uid)),
          ("data", some ((publication.data.bind Raw.toJson).getD .null)), ("info", info),
          ("offset", if publication.offset == 0 then none
            else some (.number publication.offset))] := by
    rw [nullableRaw_eq payload, infoMembers]
    simp [written, skipIf_eq]
  have read := @readStruct_written
    [("seq", if publication.seq == 0 then none else some (u32 publication.seq)),
      ("gen", if publication.gen == 0 then none else some (u32 publication.gen)),
      ("uid", if publication.uid.isEmpty then none else some (.string publication.uid)),
      ("data", some ((publication.data.bind Raw.toJson).getD .null)), ("info", info),
      ("offset", if publication.offset == 0 then none
        else some (.number publication.offset))] (by simp)
  simp only [List.map_cons, List.map_nil] at read
  rw [same]
  simp only [decodePublication, read, Option.bind_eq_bind, Option.bind_some, decodeOr_u32,
    decodeOr_text, decodeRaw_nullable, infoRead, decodeOr_u64 fits]
  rfl

theorem decodePresence_object {info : ClientInfo} {json : RawValue} (h : info.toJson = some json) :
    decodePresence (.object [("info", json)]) = some info.reread := by
  have read := @readStruct_written [("info", some json)] (by simp)
  have same : written [("info", some json)] = [("info", json)] := rfl
  rw [same] at read
  simp only [List.map_cons, List.map_nil] at read
  simp only [decodePresence, read, Option.bind_eq_bind, Option.bind_some, decodeOr,
    decodeInfo_toJson h]

/-! ## Frames of one reply -/

theorem decodeReplies_line {reply : Reply Raw} {value : RawValue}
    (h : reply.toJson = some value) :
    decodeReplies .json (encodeUtf8 value.text ++ [newlineByte]) =
      some [{ reply with result := Raw.reread reply.result }] := by
  have line : encodeUtf8 value.text ++ [newlineByte] = encodeUtf8 (value.text ++ ['\n']) := by
    have lineBreak : encodeUtf8 ['\n'] = [newlineByte] := by decide
    rw [encodeUtf8_append, lineBreak]
  have items := @items_values _ (fun value => decodeReply value.text) value _ '\n' []
    (decodeReply_toJson h) (by decide) (by rfl)
  rw [decodeReplies, line, decodeUtf8_encodeUtf8, Option.bind_some, whole, items]
  rfl

theorem decodeUvarintIn_of_readVarintIn {left n : Nat} {bytes rest : Bytes}
    (h : readVarintIn left bytes = some (n, rest)) :
    decodeUvarintIn left bytes = some (n, rest) := by
  induction left generalizing n bytes with
  | zero => cases h
  | succ left ih =>
      cases bytes with
      | nil => cases h
      | cons byte bytes =>
          rw [readVarintIn] at h
          rw [decodeUvarintIn]
          split at h
          next last =>
            rw [if_pos last]
            split at h
            · cases h
            · exact h
          next more =>
            rw [if_neg more]
            obtain ⟨⟨m, rest'⟩, inner, eq⟩ := Option.map_eq_some_iff.mp h
            cases eq
            rw [ih inner, Option.map_some]

theorem decodeUvarint_varint {n : Nat} (fits : n < 2 ^ 64) (rest : Bytes) :
    decodeUvarint (varint n ++ rest) = some (n, rest) := by
  have read := decodeUvarintIn_of_readVarintIn (readVarint_varint fits rest)
  rw [decodeUvarint, read, Option.map_some, Nat.mod_eq_of_lt fits]

theorem decodeReplies_delimited {reply : Reply Raw}
    (short : (encode reply.toPb).length < 2 ^ 64) :
    decodeReplies .protobuf (encodeDelimited reply.toPb) = some [.ofPb reply.toPb] := by
  have nonempty : encodeDelimited reply.toPb ≠ [] := by
    intro empty
    exact varint_ne_nil _ (List.append_eq_nil_iff.mp empty).1
  have framed : ((decodeUvarint (encodeDelimited reply.toPb)).bind
      fun read => readExact read.1 read.2) = some (encode reply.toPb, []) := by
    rw [encodeDelimited, decodeUvarint_varint short, Option.bind_some]
    simpa using readExact_append (encode reply.toPb) []
  have front : pbReplies.next (encodeDelimited reply.toPb) = .item (.ofPb reply.toPb) [] := by
    show nextReply (encodeDelimited reply.toPb) = _
    simp only [nextReply, nonempty, if_false, framed, decode_encode short]
  have after : pbReplies.next [] = .done := rfl
  simp [decodeReplies, whole, Source.items_of_item _ front, Source.items_of_done _ after]

end Codec

end Centrifugo
