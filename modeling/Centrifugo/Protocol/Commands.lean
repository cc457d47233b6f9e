import Centrifugo.Protocol.Decode

/-!
# Commands on the wire

A method is a number on the wire, over JSON also a name. What no build knows is `unknown`, so
that the command can be answered. A negative number is refused by both decoders.
-/

namespace Centrifugo

open Json Proto

namespace MethodType

/-- The number of a method, as the source casts it. -/
def toNat : MethodType → Nat
  | connect => 0
  | subscribe => 1
  | unsubscribe => 2
  | publish => 3
  | presence => 4
  | presenceStats => 5
  | history => 6
  | ping => 7
  | send => 8
  | rpc => 9
  | refresh => 10
  | subRefresh => 11
  | unknown => 12

def fromU64 : Nat → Option MethodType
  | 0 => some connect
  | 1 => some subscribe
  | 2 => some unsubscribe
  | 3 => some publish
  | 4 => some presence
  | 5 => some presenceStats
  | 6 => some history
  | 7 => some ping
  | 8 => some send
  | 9 => some rpc
  | 10 => some refresh
  | 11 => some subRefresh
  | _ => some unknown

def fromI32 (n : Int32) : Option MethodType :=
  if n < 0 then none else fromU64 n.toInt.toNat

/-- Upper and lower case are the same. -/
def fromName (name : String) : Option MethodType :=
  match name.toUpper with
  | "CONNECT" => some connect
  | "SUBSCRIBE" => some subscribe
  | "UNSUBSCRIBE" => some unsubscribe
  | "PUBLISH" => some publish
  | "PRESENCE" => some presence
  | "PRESENCE_STATS" => some presenceStats
  | "HISTORY" => some history
  | "PING" => some ping
  | "SEND" => some send
  | "RPC" => some rpc
  | "REFRESH" => some refresh
  | "SUB_REFRESH" => some subRefresh
  | _ => none

def toI32 (method : MethodType) : Int32 := Int32.ofNat method.toNat

@[simp] theorem fromI32_toI32 (method : MethodType) : fromI32 method.toI32 = some method := by
  cases method <;> decide

end MethodType

/-! ## Over JSON -/

/-- CONNECT is left out. -/
def Command.toJson (cmd : Command) : Option RawValue := do
  let params ← optionalRaw "params" cmd.params
  some (.object (skipIf (cmd.id == 0) "id" (u32 cmd.id) ++
    skipIf (cmd.method == .connect) "method" (.number cmd.method.toNat) ++ params))

namespace Codec

/-- A number of 64 bits or a name. -/
def decodeMethod (value : RawValue) : Option MethodType :=
  match decodeU64 value with
  | some n => MethodType.fromU64 n
  | none => (decodeText value).bind MethodType.fromName

def decodeCommand (value : RawValue) : Option Command := do
  match ← readStruct ["id", "method", "params"] value.text with
  | [id, method, params] =>
      some {
        id := ← decodeOr 0 decodeU32 id
        method := ← decodeOr .connect decodeMethod method
        params := ← decodeRaw params }
  | _ => none

end Codec

/-! ## Over protobuf -/

namespace Pb

/-- A number with a sign takes ten bytes when it is negative. -/
def int32 (tag : Nat) (n : Int32) : List Field :=
  if n = 0 then [] else [⟨tag, .varint n.toInt64.toUInt64.toNat⟩]

/-- Only the low 32 bits count. -/
def toInt32? : Value → Option Int32
  | .varint n => some (UInt32.ofNat n).toInt32
  | _ => none

@[simp] theorem toInt32?_varint (n : Int32) :
    toInt32? (.varint n.toInt64.toUInt64.toNat) = some n := by
  have low : n.toInt64.toBitVec.setWidth 32 = n.toBitVec := by
    rw [← BitVec.signExtend_eq_setWidth_of_le _ (by decide : 32 ≤ 64)]
    exact congrArg Int32.toBitVec (Int32.toInt32_toInt64 n)
  rw [toInt32?, UInt32.ofNat_uInt64ToNat]
  exact congrArg some (Int32.toBitVec_inj.mp low)

theorem typed_int32 {tag : Nat} {n : Int32} (positive : 0 < tag) (small : tag < 2 ^ 29) :
    ∀ field ∈ int32 tag n, field.Typed := by
  unfold int32
  split
  · simp
  · simpa [Field.Typed] using ⟨positive, small, UInt64.toNat_lt _⟩

structure Command where
  id : UInt32 := 0
  method : Int32 := 0
  params : Bytes := []
  deriving DecidableEq

instance : Message Command where
  empty := {}
  fields c := Field.uint 1 c.id.toNat ++ int32 2 c.method ++ Field.blob 3 c.params
  merge c field := match field.tag with
    | 1 => do
        let id ← field.value.toUInt32?
        some { c with id := id }
    | 2 => do
        let method ← toInt32? field.value
        some { c with method := method }
    | 3 => do
        let params ← field.value.toBlob?
        some { c with params := params }
    | _ => some c

instance : Lawful Command where
  typed c := by
    simp only [Message.fields, List.mem_append, or_imp, forall_and]
    exact ⟨⟨Field.typed_uint (by decide) (by decide) (lt_of_u32 _),
      typed_int32 (by decide) (by decide)⟩, Field.typed_blob (by decide) (by decide)⟩
  merged c _ := by
    obtain ⟨id, method, params⟩ := c
    have id' : (Field.uint 1 id.toNat).foldlM Message.merge ({} : Command) = some { id } :=
      foldlM_optional (by intro zero; rw [zero_of_u32 zero]) (by simp [Message.merge])
    have method' : (int32 2 method).foldlM Message.merge ({ id } : Command) =
        some { id, method } :=
      foldlM_optional (by rintro rfl; rfl) (by simp [Message.merge])
    have params' : (Field.blob 3 params).foldlM Message.merge ({ id, method } : Command) =
        some { id, method, params } :=
      foldlM_optional (by rintro rfl; rfl) (by simp [Message.merge, Value.toBlob?])
    exact foldlM_append_of (foldlM_append_of id' method') params'

end Pb

def Command.toPb (cmd : Command) : Pb.Command where
  id := cmd.id
  method := cmd.method.toI32
  params := rawToVec cmd.params

namespace Codec

def commandFromPb (cmd : Pb.Command) : Option Command := do
  let method ← MethodType.fromI32 cmd.method
  some ⟨cmd.id, method, vecToRaw cmd.params⟩

end Codec

end Centrifugo
