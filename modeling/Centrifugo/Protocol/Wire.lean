import Centrifugo.Proto.Message
import Centrifugo.Protocol.Messages

/-!
# Protobuf encoding

The generated message types of the client protocol, as far as frames carry them, and their
conversions. An absent payload and an empty one are the same on the wire. An enumeration is
kept as the bits of its `i32`.
-/

namespace Centrifugo

open Json Proto

/-- The bytes of an optional payload. -/
def rawToVec (raw : Option Raw) : Bytes := (raw.map Raw.bytes).getD []

/-- An empty payload is no payload. -/
def vecToRaw (bytes : Bytes) : Option Raw := if bytes.isEmpty then none else some ⟨bytes⟩

/-- A payload as it comes out of a protobuf message. -/
def Raw.present (raw : Option Raw) : Option Raw := raw.filter fun raw => !raw.bytes.isEmpty

/-- Only an empty payload is lost on the way through a message. -/
@[simp] theorem vecToRaw_rawToVec (raw : Option Raw) :
    vecToRaw (rawToVec raw) = Raw.present raw := by
  cases raw with
  | none => rfl
  | some raw =>
      cases empty : raw.bytes.isEmpty <;>
        simp [vecToRaw, rawToVec, Raw.present, empty, Option.filter]

namespace Pb

structure Error where
  code : UInt32 := 0
  message : String := ""
  deriving DecidableEq

/-- A reply with its result, which is a message of its own, or with an error. -/
structure Reply where
  id : UInt32 := 0
  error : Option Error := none
  result : Bytes := []
  deriving DecidableEq

/-- A reply without an id has one of these as its result. `type` is the number of a kind of push. -/
structure Push where
  type : UInt32 := 0
  channel : String := ""
  data : Bytes := []
  deriving DecidableEq

structure ClientInfo where
  user : String := ""
  client : String := ""
  connInfo : Bytes := []
  chanInfo : Bytes := []
  deriving DecidableEq

/-- A publication has its position in `offset`, or cut in two in `seq` and `gen`. -/
structure Publication where
  seq : UInt32 := 0
  gen : UInt32 := 0
  uid : String := ""
  data : Bytes := []
  info : Option ClientInfo := none
  offset : UInt64 := 0
  deriving DecidableEq

/-- A Join or a Leave, which have one message type each and the same fields. -/
structure Presence where
  info : Option ClientInfo := none
  deriving DecidableEq

/-! ## Their fields -/

/-- Fields with the value that they have by default are not written. -/
instance : Message Error where
  empty := {}
  fields e := Field.uint 1 e.code.toNat ++ Field.text 2 e.message
  merge e field := match field.tag with
    | 1 => do
        let code ← field.value.toUInt32?
        some { e with code := code }
    | 2 => do
        let message ← field.value.toText?
        some { e with message := message }
    | _ => some e

/-- An error that comes in two pieces is put together. -/
instance : Message Reply where
  empty := {}
  fields r := Field.uint 1 r.id.toNat ++ Field.embedded 2 r.error ++ Field.blob 3 r.result
  merge r field := match field.tag with
    | 1 => do
        let id ← field.value.toUInt32?
        some { r with id := id }
    | 2 => do
        let error ← field.value.embed? r.error
        some { r with error := some error }
    | 3 => do
        let result ← field.value.toBlob?
        some { r with result := result }
    | _ => some r

instance : Message Push where
  empty := {}
  fields p := Field.uint 1 p.type.toNat ++ Field.text 2 p.channel ++ Field.blob 3 p.data
  merge p field := match field.tag with
    | 1 => do
        let type ← field.value.toUInt32?
        some { p with type := type }
    | 2 => do
        let channel ← field.value.toText?
        some { p with channel := channel }
    | 3 => do
        let data ← field.value.toBlob?
        some { p with data := data }
    | _ => some p

instance : Message ClientInfo where
  empty := {}
  fields c := Field.text 1 c.user ++ Field.text 2 c.client ++ Field.blob 3 c.connInfo ++
    Field.blob 4 c.chanInfo
  merge c field := match field.tag with
    | 1 => do
        let user ← field.value.toText?
        some { c with user := user }
    | 2 => do
        let client ← field.value.toText?
        some { c with client := client }
    | 3 => do
        let connInfo ← field.value.toBlob?
        some { c with connInfo := connInfo }
    | 4 => do
        let chanInfo ← field.value.toBlob?
        some { c with chanInfo := chanInfo }
    | _ => some c

instance : Message Publication where
  empty := {}
  fields p := Field.uint 1 p.seq.toNat ++ Field.uint 2 p.gen.toNat ++ Field.text 3 p.uid ++
    Field.blob 4 p.data ++ Field.embedded 5 p.info ++ Field.uint 6 p.offset.toNat
  merge p field := match field.tag with
    | 1 => do
        let seq ← field.value.toUInt32?
        some { p with seq := seq }
    | 2 => do
        let gen ← field.value.toUInt32?
        some { p with gen := gen }
    | 3 => do
        let uid ← field.value.toText?
        some { p with uid := uid }
    | 4 => do
        let data ← field.value.toBlob?
        some { p with data := data }
    | 5 => do
        let info ← field.value.embed? p.info
        some { p with info := some info }
    | 6 => do
        let offset ← field.value.toNat?
        some { p with offset := UInt64.ofNat offset }
    | _ => some p

instance : Message Presence where
  empty := {}
  fields p := Field.embedded 1 p.info
  merge p field := match field.tag with
    | 1 => do
        let info ← field.value.embed? p.info
        some { p with info := some info }
    | _ => some p

/-! ## They are lawful -/

theorem lt_of_u32 (n : UInt32) : n.toNat < 2 ^ 64 := by
  have := n.toNat_lt
  omega

/-- A number that is not written is read as the zero that it was. -/
theorem zero_of_u32 {n : UInt32} (h : n.toNat = 0) : n = 0 := UInt32.toNat_inj.mp h

theorem zero_of_u64 {n : UInt64} (h : n.toNat = 0) : n = 0 := UInt64.toNat_inj.mp h

/-- The fields come back one after the other, each into a message with those before it. -/
instance : Lawful Error where
  typed e := by
    simp only [Message.fields, List.mem_append, or_imp, forall_and]
    exact ⟨Field.typed_uint (by decide) (by decide) (lt_of_u32 _),
      Field.typed_text (by decide) (by decide)⟩
  merged e _ := by
    obtain ⟨code, message⟩ := e
    have code' : (Field.uint 1 code.toNat).foldlM Message.merge ({} : Error) = some { code } :=
      foldlM_optional (by intro zero; rw [zero_of_u32 zero]) (by simp [Message.merge])
    have message' : (Field.text 2 message).foldlM Message.merge ({ code } : Error) =
        some { code, message } :=
      foldlM_optional (by rintro rfl; rfl) (by simp [Message.merge])
    exact foldlM_append_of code' message'

/-- A message inside of another one is taken up as it was. -/
theorem foldlM_embedded {μ ν : Type} [Message ν] [Lawful ν] {merge : μ → Field → Option μ}
    {m m' : μ} {tag : Nat} {message : Option ν} {fields : List Field}
    (short : (write fields).length < 2 ^ 64)
    (part : ∀ field ∈ Field.embedded tag message, field ∈ fields) (left : message = none → m = m')
    (taken : ∀ inner bytes, message = some inner →
      (Value.bytes bytes).embed? none = some inner → merge m ⟨tag, .bytes bytes⟩ = some m') :
    (Field.embedded tag message).foldlM merge m = some m' := by
  cases message with
  | none => exact congrArg some (left rfl)
  | some inner =>
      have inside := part ⟨tag, .bytes (encode inner)⟩ (List.mem_singleton.mpr rfl)
      have fits := Nat.lt_of_le_of_lt (length_bytes_le inside) short
      simp [Field.embedded, taken inner _ rfl (Value.embed?_encode fits)]

instance : Lawful Reply where
  typed r := by
    simp only [Message.fields, List.mem_append, or_imp, forall_and]
    exact ⟨⟨Field.typed_uint (by decide) (by decide) (lt_of_u32 _),
      Field.typed_embedded (by decide) (by decide)⟩, Field.typed_blob (by decide) (by decide)⟩
  merged r short := by
    obtain ⟨id, error, result⟩ := r
    have id' : (Field.uint 1 id.toNat).foldlM Message.merge ({} : Reply) = some { id } :=
      foldlM_optional (by intro zero; rw [zero_of_u32 zero]) (by simp [Message.merge])
    have error' : (Field.embedded 2 error).foldlM Message.merge ({ id } : Reply) =
        some { id, error } := by
      refine foldlM_embedded short (by simp +contextual [Message.fields]) (by rintro rfl; rfl) ?_
      rintro inner bytes rfl embedded
      simp [Message.merge, embedded]
    have result' : (Field.blob 3 result).foldlM Message.merge ({ id, error } : Reply) =
        some { id, error, result } :=
      foldlM_optional (by rintro rfl; rfl) (by simp [Message.merge, Value.toBlob?])
    exact foldlM_append_of (foldlM_append_of id' error') result'

instance : Lawful Push where
  typed p := by
    simp only [Message.fields, List.mem_append, or_imp, forall_and]
    exact ⟨⟨Field.typed_uint (by decide) (by decide) (lt_of_u32 _),
      Field.typed_text (by decide) (by decide)⟩, Field.typed_blob (by decide) (by decide)⟩
  merged p _ := by
    obtain ⟨type, channel, data⟩ := p
    have type' : (Field.uint 1 type.toNat).foldlM Message.merge ({} : Push) = some { type } :=
      foldlM_optional (by intro zero; rw [zero_of_u32 zero]) (by simp [Message.merge])
    have channel' : (Field.text 2 channel).foldlM Message.merge ({ type } : Push) =
        some { type, channel } :=
      foldlM_optional (by rintro rfl; rfl) (by simp [Message.merge])
    have data' : (Field.blob 3 data).foldlM Message.merge ({ type, channel } : Push) =
        some { type, channel, data } :=
      foldlM_optional (by rintro rfl; rfl) (by simp [Message.merge, Value.toBlob?])
    exact foldlM_append_of (foldlM_append_of type' channel') data'

instance : Lawful ClientInfo where
  typed c := by
    simp only [Message.fields, List.mem_append, or_imp, forall_and]
    exact ⟨⟨⟨Field.typed_text (by decide) (by decide), Field.typed_text (by decide) (by decide)⟩,
      Field.typed_blob (by decide) (by decide)⟩, Field.typed_blob (by decide) (by decide)⟩
  merged c _ := by
    obtain ⟨user, client, connInfo, chanInfo⟩ := c
    have user' : (Field.text 1 user).foldlM Message.merge ({} : ClientInfo) = some { user } :=
      foldlM_optional (by rintro rfl; rfl) (by simp [Message.merge])
    have client' : (Field.text 2 client).foldlM Message.merge ({ user } : ClientInfo) =
        some { user, client } :=
      foldlM_optional (by rintro rfl; rfl) (by simp [Message.merge])
    have connInfo' : (Field.blob 3 connInfo).foldlM Message.merge
        ({ user, client } : ClientInfo) = some { user, client, connInfo } :=
      foldlM_optional (by rintro rfl; rfl) (by simp [Message.merge, Value.toBlob?])
    have chanInfo' : (Field.blob 4 chanInfo).foldlM Message.merge
        ({ user, client, connInfo } : ClientInfo) = some { user, client, connInfo, chanInfo } :=
      foldlM_optional (by rintro rfl; rfl) (by simp [Message.merge, Value.toBlob?])
    exact foldlM_append_of (foldlM_append_of (foldlM_append_of user' client') connInfo') chanInfo'

/-- A publication is the longest of them: six fields, one of them a message. -/
instance : Lawful Publication where
  typed p := by
    simp only [Message.fields, List.mem_append, or_imp, forall_and]
    exact ⟨⟨⟨⟨⟨Field.typed_uint (by decide) (by decide) (lt_of_u32 _),
      Field.typed_uint (by decide) (by decide) (lt_of_u32 _)⟩,
      Field.typed_text (by decide) (by decide)⟩, Field.typed_blob (by decide) (by decide)⟩,
      Field.typed_embedded (by decide) (by decide)⟩,
      Field.typed_uint (by decide) (by decide) p.offset.toNat_lt⟩
  merged p short := by
    obtain ⟨seq, gen, uid, data, info, offset⟩ := p
    have seq' : (Field.uint 1 seq.toNat).foldlM Message.merge ({} : Publication) =
        some { seq } :=
      foldlM_optional (by intro zero; rw [zero_of_u32 zero]) (by simp [Message.merge])
    have gen' : (Field.uint 2 gen.toNat).foldlM Message.merge ({ seq } : Publication) =
        some { seq, gen } :=
      foldlM_optional (by intro zero; rw [zero_of_u32 zero]) (by simp [Message.merge])
    have uid' : (Field.text 3 uid).foldlM Message.merge ({ seq, gen } : Publication) =
        some { seq, gen, uid } :=
      foldlM_optional (by rintro rfl; rfl) (by simp [Message.merge])
    have data' : (Field.blob 4 data).foldlM Message.merge ({ seq, gen, uid } : Publication) =
        some { seq, gen, uid, data } :=
      foldlM_optional (by rintro rfl; rfl) (by simp [Message.merge, Value.toBlob?])
    have info' : (Field.embedded 5 info).foldlM Message.merge
        ({ seq, gen, uid, data } : Publication) = some { seq, gen, uid, data, info } := by
      refine foldlM_embedded short (by simp +contextual [Message.fields]) (by rintro rfl; rfl) ?_
      rintro inner bytes rfl embedded
      simp [Message.merge, embedded]
    have offset' : (Field.uint 6 offset.toNat).foldlM Message.merge
        ({ seq, gen, uid, data, info } : Publication) =
          some { seq, gen, uid, data, info, offset } :=
      foldlM_optional (by intro zero; rw [zero_of_u64 zero])
        (by simp [Message.merge, Value.toNat?])
    exact foldlM_append_of (foldlM_append_of (foldlM_append_of (foldlM_append_of
      (foldlM_append_of seq' gen') uid') data') info') offset'

instance : Lawful Presence where
  typed p := Field.typed_embedded (by decide) (by decide)
  merged p short := by
    obtain ⟨info⟩ := p
    refine foldlM_embedded short (fun field mem => mem) (by rintro rfl; rfl) ?_
    rintro inner bytes rfl embedded
    simp [Message.merge, Message.empty, embedded]

end Pb

/-! ## Conversions -/

namespace ClientInfo

def toPb (info : ClientInfo) : Pb.ClientInfo where
  user := info.user
  client := info.client
  connInfo := rawToVec info.connInfo
  chanInfo := rawToVec info.chanInfo

def ofPb (info : Pb.ClientInfo) : ClientInfo where
  user := info.user
  client := info.client
  connInfo := vecToRaw info.connInfo
  chanInfo := vecToRaw info.chanInfo

/-- An empty info becomes an absent one. -/
def present (info : ClientInfo) : ClientInfo :=
  { info with
    connInfo := Raw.present info.connInfo
    chanInfo := Raw.present info.chanInfo }

/-- What a client info becomes on the way. -/
@[simp] theorem ofPb_toPb (info : ClientInfo) : ofPb info.toPb = info.present := by
  simp [ofPb, toPb, present]

end ClientInfo

namespace Publication

def toPb (publication : Publication) : Pb.Publication where
  seq := publication.seq
  gen := publication.gen
  uid := publication.uid
  data := rawToVec publication.data
  info := publication.info.map ClientInfo.toPb
  offset := UInt64.ofNat publication.offset

def ofPb (publication : Pb.Publication) : Publication where
  seq := publication.seq
  gen := publication.gen
  uid := publication.uid
  data := vecToRaw publication.data
  info := publication.info.map ClientInfo.ofPb
  offset := publication.offset.toNat

end Publication

def Join.toPb (join : Join) : Pb.Presence := ⟨some join.info.toPb⟩

/-- A join without an info is one of nobody. -/
def Join.ofPb (join : Pb.Presence) : Join := ⟨(join.info.map ClientInfo.ofPb).getD default⟩

def Leave.toPb (leave : Leave) : Pb.Presence := ⟨some leave.info.toPb⟩

def Leave.ofPb (leave : Pb.Presence) : Leave := ⟨(leave.info.map ClientInfo.ofPb).getD default⟩

def Error.toPb (error : Error) : Pb.Error := ⟨error.code, error.message⟩

def Error.ofPb (error : Pb.Error) : Error := ⟨error.code, error.message⟩

namespace Reply

def toPb (reply : Reply Raw) : Pb.Reply where
  id := reply.id
  error := reply.error.map Error.toPb
  result := rawToVec reply.result

def ofPb (reply : Pb.Reply) : Reply Raw where
  id := reply.id
  error := reply.error.map Error.ofPb
  result := vecToRaw reply.result

end Reply

/-- Pushes are only sent, and there is no way back. -/
def Push.toPb (push : Push) : Pb.Push where
  type := UInt32.ofNat push.type.toNat
  channel := push.channel
  data := rawToVec push.data

end Centrifugo
