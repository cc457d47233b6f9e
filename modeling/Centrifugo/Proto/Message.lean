import Centrifugo.Proto.Wire

/-!
# Protobuf messages

What a message type has to say of itself: its empty message, the fields that it writes and how
it takes up a field. A `Lawful` message is what its own fields make of the empty one, which is
all that `decode_encode` needs. The writers leave out a field that has its default.
-/

namespace Proto

open Json (Bytes)

class Message (μ : Type) where
  empty : μ
  fields : μ → List Field
  /-- Take up a field. An unknown tag is skipped, a known one in a wrong type is refused. -/
  merge : μ → Field → Option μ

section Codec

variable {μ : Type} [Message μ]

def encode (message : μ) : Bytes := write (Message.fields message)

/-- Take up all fields of some bytes. -/
def mergeFrom (message : μ) (bytes : Bytes) : Option μ :=
  (read bytes).bind fun fields => fields.foldlM Message.merge message

def decode (bytes : Bytes) : Option μ := mergeFrom Message.empty bytes

/-- A message, with its length in front. -/
def encodeDelimited (message : μ) : Bytes :=
  varint (encode message).length ++ encode message

def decodeDelimited (bytes : Bytes) : Option (μ × Bytes) := do
  let (length, rest) ← readVarint bytes
  let (inner, rest) ← readExact length rest
  let message ← decode inner
  some (message, rest)

end Codec

theorem length_readVarintIn_lt {left n : Nat} {bytes rest : Bytes}
    (h : readVarintIn left bytes = some (n, rest)) : rest.length < bytes.length := by
  induction left generalizing n bytes with
  | zero => cases h
  | succ left ih =>
      cases bytes with
      | nil => cases h
      | cons byte bytes =>
          rw [readVarintIn] at h
          split at h
          · split at h
            · cases h
            · cases h
              exact Nat.lt_succ_self _
          · obtain ⟨⟨m, rest'⟩, inner, read⟩ := Option.map_eq_some_iff.mp h
            cases read
            exact Nat.lt_succ_of_lt (ih inner)

/-- A message with its length takes at least one byte. -/
theorem length_decodeDelimited_lt {μ : Type} [Message μ] {message : μ} {bytes rest : Bytes}
    (h : decodeDelimited bytes = some (message, rest)) : rest.length < bytes.length := by
  obtain ⟨⟨length, body⟩, start, h⟩ := Option.bind_eq_some_iff.mp h
  obtain ⟨⟨inner, rest'⟩, taken, h⟩ := Option.bind_eq_some_iff.mp h
  obtain ⟨message', decoded, h⟩ := Option.bind_eq_some_iff.mp h
  cases h
  have shorter := length_readVarintIn_lt start
  simp only [readExact, Option.ite_none_right_eq_some, Option.some.injEq, Prod.mk.injEq] at taken
  obtain ⟨-, -, rfl⟩ := taken
  have dropped := @List.length_drop _ length body
  omega

/-- Everything but the length of the bytes in a field. -/
def Field.Typed (field : Field) : Prop :=
  0 < field.tag ∧ field.tag < 2 ^ 29 ∧ match field.value with
    | .varint n => n < 2 ^ 64
    | .fixed64 bytes => bytes.length = 8
    | .fixed32 bytes => bytes.length = 4
    | .bytes _ | .group => True

class Lawful (μ : Type) [Message μ] : Prop where
  typed : ∀ (message : μ), ∀ field ∈ Message.fields message, field.Typed
  merged : ∀ message : μ, (encode message).length < 2 ^ 64 →
    (Message.fields message).foldlM Message.merge Message.empty = some message

theorem length_bytes_le {fields : List Field} {tag : Nat} {bytes : Bytes}
    (mem : ⟨tag, .bytes bytes⟩ ∈ fields) : bytes.length ≤ (write fields).length := by
  obtain ⟨front, back, rfl⟩ := List.append_of_mem mem
  simp only [write, Field.write, List.flatMap_append, List.flatMap_cons, List.length_append]
  omega

theorem fits_of_typed {fields : List Field} (typed : ∀ field ∈ fields, field.Typed)
    (short : (write fields).length < 2 ^ 64) : ∀ field ∈ fields, field.Fits := by
  intro field mem
  obtain ⟨positive, small, sized⟩ := typed field mem
  refine ⟨positive, small, ?_⟩
  obtain ⟨tag, value⟩ := field
  cases value with
  | bytes bytes => exact Nat.lt_of_le_of_lt (length_bytes_le mem) short
  | _ => exact sized

section Lawful

variable {μ : Type} [Message μ] [Lawful μ]

/-- Decoding inverts encoding. -/
theorem decode_encode {message : μ} (short : (encode message).length < 2 ^ 64) :
    decode (encode message) = some message := by
  have fits := fits_of_typed (Lawful.typed message) short
  rw [decode, mergeFrom, encode, read_write fits]
  exact Lawful.merged message short

end Lawful

/-! ## Fields of messages -/

namespace Field

def uint (tag n : Nat) : List Field := if n = 0 then [] else [⟨tag, .varint n⟩]

def flag (tag : Nat) (set : Bool) : List Field := if set = false then [] else [⟨tag, .varint 1⟩]

def blob (tag : Nat) (bytes : Bytes) : List Field :=
  if bytes = [] then [] else [⟨tag, .bytes bytes⟩]

def utf8 (s : String) : Bytes := Json.encodeUtf8 s.toList

def text (tag : Nat) (s : String) : List Field := if s = "" then [] else [⟨tag, .bytes (utf8 s)⟩]

/-- Each text of a repeated field is written, an empty one too. -/
def texts (tag : Nat) (items : List String) : List Field :=
  items.map fun s => ⟨tag, .bytes (utf8 s)⟩

variable {μ : Type} [Message μ]

def embedded (tag : Nat) : Option μ → List Field
  | none => []
  | some message => [⟨tag, .bytes (encode message)⟩]

theorem typed_uint {tag n : Nat} (positive : 0 < tag) (small : tag < 2 ^ 29) (fits : n < 2 ^ 64) :
    ∀ field ∈ uint tag n, field.Typed := by
  unfold uint
  split
  · simp
  · simpa [Typed] using ⟨positive, small, fits⟩

theorem typed_flag {tag : Nat} {set : Bool} (positive : 0 < tag) (small : tag < 2 ^ 29) :
    ∀ field ∈ flag tag set, field.Typed := by
  unfold flag
  split
  · simp
  · simpa [Typed] using ⟨positive, small⟩

theorem typed_blob {tag : Nat} {bytes : Bytes} (positive : 0 < tag) (small : tag < 2 ^ 29) :
    ∀ field ∈ blob tag bytes, field.Typed := by
  unfold blob
  split
  · simp
  · simpa [Typed] using ⟨positive, small⟩

theorem typed_text {tag : Nat} {s : String} (positive : 0 < tag) (small : tag < 2 ^ 29) :
    ∀ field ∈ text tag s, field.Typed := by
  unfold text
  split
  · simp
  · simpa [Typed] using ⟨positive, small⟩

theorem typed_texts {tag : Nat} {items : List String} (positive : 0 < tag)
    (small : tag < 2 ^ 29) : ∀ field ∈ texts tag items, field.Typed := by
  simpa [texts, Typed] using fun _ _ => ⟨positive, small⟩

theorem typed_embedded {tag : Nat} {message : Option μ} (positive : 0 < tag)
    (small : tag < 2 ^ 29) : ∀ field ∈ embedded tag message, field.Typed := by
  cases message with
  | none => simp [embedded]
  | some message => simpa [embedded, Typed] using ⟨positive, small⟩

end Field

namespace Value

def toUInt32? : Value → Option UInt32
  | varint n => some (UInt32.ofNat n)
  | _ => none

def toNat? : Value → Option Nat
  | varint n => some n
  | _ => none

def toBool? : Value → Option Bool
  | varint n => some (decide (n ≠ 0))
  | _ => none

def toBlob? : Value → Option Bytes
  | bytes blob => some blob
  | _ => none

/-- A text has to be UTF-8. -/
def toText? : Value → Option String
  | bytes blob => (Json.decodeUtf8 blob).map String.ofList
  | _ => none

/-- A message that comes again is merged into the one before. -/
def embed? {μ : Type} [Message μ] (before : Option μ) : Value → Option μ
  | bytes blob => mergeFrom (before.getD Message.empty) blob
  | _ => none

@[simp] theorem toUInt32?_varint (n : UInt32) : (varint n.toNat).toUInt32? = some n := by
  simp [toUInt32?]

@[simp] theorem toText?_utf8 (s : String) : (bytes (Field.utf8 s)).toText? = some s := by
  simp [toText?, Field.utf8]

theorem embed?_encode {μ : Type} [Message μ] [Lawful μ] {message : μ}
    (short : (encode message).length < 2 ^ 64) :
    embed? none (bytes (encode message)) = some message :=
  decode_encode short

end Value

/-! ## Taking up fields -/

section Take

variable {μ : Type} {merge : μ → Field → Option μ} {m m' m'' : μ}

/-- A field that is left out has its default in the message already. -/
theorem foldlM_optional {absent : Prop} [Decidable absent] {field : Field}
    (left : absent → m = m') (taken : ¬ absent → merge m field = some m') :
    (if absent then [] else [field]).foldlM merge m = some m' := by
  split
  next yes => exact congrArg some (left yes)
  next no => simp [taken no]

theorem foldlM_append_of {fields fields' : List Field} (first : fields.foldlM merge m = some m')
    (second : fields'.foldlM merge m' = some m'') :
    (fields ++ fields').foldlM merge m = some m'' := by
  rw [List.foldlM_append, first]
  exact second

end Take

end Proto
