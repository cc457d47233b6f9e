import Centrifugo.Json.Utf8
import Mathlib.Algebra.Group.Nat.Defs

/-!
# The protobuf wire format

A message is a sequence of fields, each a tag with a value in one of the wire types. The
reader takes any byte sequence apart into such fields or refuses it, and `read_write` says
that it inverts the writer on fields that fit.

A `Message` is a type with its fields and with a rule that takes up one more field. Unknown
tags are the message's own business, as is a field that comes twice.
-/

namespace Proto

open Json (Bytes)

/-! ## Varints -/

/-- Seven bits in each byte, the lowest first, at most so many bytes. -/
def varintIn : Nat → Nat → Bytes
  | 0, _ => []
  | left + 1, n =>
      if n < 128 then [UInt8.ofNat n]
      else UInt8.ofNat (n % 128 + 128) :: varintIn left (n / 128)

/-- Ten bytes hold every number of 64 bits. -/
def varint (n : Nat) : Bytes := varintIn 10 n

/-- The last possible byte has one bit left. -/
def readVarintIn : Nat → Bytes → Option (Nat × Bytes)
  | 0, _ | _, [] => none
  | left + 1, byte :: rest =>
      if byte.toNat < 128 then
        if left = 0 ∧ 2 ≤ byte.toNat then none else some (byte.toNat, rest)
      else (readVarintIn left rest).map fun read =>
        (byte.toNat - 128 + 128 * read.1, read.2)

def readVarint (bytes : Bytes) : Option (Nat × Bytes) := readVarintIn 10 bytes

theorem readVarintIn_varintIn {left n : Nat} (fits : n < 2 * 128 ^ left) (rest : Bytes) :
    readVarintIn (left + 1) (varintIn (left + 1) n ++ rest) = some (n, rest) := by
  induction left generalizing n with
  | zero =>
      have small : n < 2 := by simpa using fits
      have byte : (UInt8.ofNat n).toNat = n := by
        rw [UInt8.toNat_ofNat']
        omega
      have short : n < 128 := by omega
      simp [varintIn, readVarintIn, byte, short, small]
  | succ left ih =>
      unfold varintIn
      split
      next short =>
        have byte : (UInt8.ofNat n).toNat = n := by
          rw [UInt8.toNat_ofNat']
          omega
        simp [readVarintIn, byte, short]
      next long =>
        have byte : (UInt8.ofNat (n % 128 + 128)).toNat = n % 128 + 128 := by
          rw [UInt8.toNat_ofNat']
          omega
        have next : n / 128 < 2 * 128 ^ left := by
          rw [Nat.pow_succ] at fits
          omega
        have back : n % 128 + 128 * (n / 128) = n := Nat.mod_add_div n 128
        rw [List.cons_append, readVarintIn, byte, if_neg (by omega), ih next]
        simp [back]

theorem readVarint_varint {n : Nat} (fits : n < 2 ^ 64) (rest : Bytes) :
    readVarint (varint n ++ rest) = some (n, rest) :=
  readVarintIn_varintIn (by omega) rest

theorem varintIn_ne_nil (left n : Nat) : varintIn (left + 1) n ≠ [] := by
  unfold varintIn
  split <;> simp

theorem varint_ne_nil (n : Nat) : varint n ≠ [] := varintIn_ne_nil 9 n

/-- The lowest bits of a number are in its first byte. -/
theorem head_varint {n : Nat} {byte : UInt8} {rest : Bytes} (h : varint n = byte :: rest) :
    byte.toNat % 8 = n % 8 := by
  unfold varint varintIn at h
  split at h
  · obtain ⟨rfl, -⟩ := List.cons.inj h
    rw [UInt8.toNat_ofNat']
    omega
  · obtain ⟨rfl, -⟩ := List.cons.inj h
    rw [UInt8.toNat_ofNat']
    omega

/-! ## Fields -/

/-- A value in its wire type. What stands inside a group is skipped. -/
inductive Value
  | varint (n : Nat)
  | fixed64 (bytes : Bytes)
  | bytes (bytes : Bytes)
  | group
  | fixed32 (bytes : Bytes)
  deriving DecidableEq

namespace Value

def wireType : Value → Nat
  | varint _ => 0
  | fixed64 _ => 1
  | bytes _ => 2
  | group => 3
  | fixed32 _ => 5

theorem wireType_lt (value : Value) : value.wireType < 6 := by
  cases value <;> simp [wireType]

end Value

structure Field where
  tag : Nat
  value : Value
  deriving DecidableEq

namespace Field

def key (field : Field) : Nat := field.tag * 8 + field.value.wireType

def write (field : Field) : Bytes :=
  varint field.key ++ match field.value with
    | .varint n => varint n
    | .fixed64 bytes | .fixed32 bytes => bytes
    | .bytes bytes => varint bytes.length ++ bytes
    | .group => varint (field.tag * 8 + 4)

/-- A field that a writer can produce. -/
def Fits (field : Field) : Prop :=
  0 < field.tag ∧ field.tag < 2 ^ 29 ∧ match field.value with
    | .varint n => n < 2 ^ 64
    | .fixed64 bytes => bytes.length = 8
    | .fixed32 bytes => bytes.length = 4
    | .bytes bytes => bytes.length < 2 ^ 64
    | .group => True

theorem write_ne_nil (field : Field) : field.write ≠ [] := by
  unfold write
  exact List.append_ne_nil_of_left_ne_nil (varint_ne_nil _) _

end Field

/-- So many bytes and the rest. -/
def readExact (n : Nat) (bytes : Bytes) : Option (Bytes × Bytes) :=
  if n ≤ bytes.length then some (bytes.take n, bytes.drop n) else none

theorem readExact_append (bytes rest : Bytes) :
    readExact bytes.length (bytes ++ rest) = some (bytes, rest) := by
  simp [readExact]

/-- The tag and the wire type of a field. -/
def readKey (bytes : Bytes) : Option (Nat × Nat × Bytes) := do
  let (key, rest) ← readVarint bytes
  if key < 2 ^ 32 ∧ 0 < key / 8 then some (key / 8, key % 8, rest) else none

/-- Skip to the end of the innermost open group, and of the groups around it. Groups nest
up to a limit. -/
def skipGroups : Nat → List Nat → Bytes → Option Bytes
  | _, [], bytes => some bytes
  | 0, _, _ => none
  | fuel + 1, tag :: others, bytes => do
      let (inner, wireType, rest) ← readKey bytes
      if wireType = 4 then
        if inner = tag then skipGroups fuel others rest else none
      else if 100 ≤ (tag :: others).length then none
      else match wireType with
        | 0 => do
            let (_, rest) ← readVarint rest
            skipGroups fuel (tag :: others) rest
        | 1 => do
            let (_, rest) ← readExact 8 rest
            skipGroups fuel (tag :: others) rest
        | 2 => do
            let (length, rest) ← readVarint rest
            let (_, rest) ← readExact length rest
            skipGroups fuel (tag :: others) rest
        | 3 => skipGroups fuel (inner :: tag :: others) rest
        | 5 => do
            let (_, rest) ← readExact 4 rest
            skipGroups fuel (tag :: others) rest
        | _ => none

def readField (bytes : Bytes) : Option (Field × Bytes) := do
  let (tag, wireType, rest) ← readKey bytes
  match wireType with
  | 0 => do
      let (n, rest) ← readVarint rest
      some (⟨tag, .varint n⟩, rest)
  | 1 => do
      let (fixed, rest) ← readExact 8 rest
      some (⟨tag, .fixed64 fixed⟩, rest)
  | 2 => do
      let (length, rest) ← readVarint rest
      let (inner, rest) ← readExact length rest
      some (⟨tag, .bytes inner⟩, rest)
  | 3 => do
      let rest ← skipGroups rest.length [tag] rest
      some (⟨tag, .group⟩, rest)
  | 5 => do
      let (fixed, rest) ← readExact 4 rest
      some (⟨tag, .fixed32 fixed⟩, rest)
  | _ => none

theorem readKey_varint {tag wireType : Nat} (positive : 0 < tag) (small : tag < 2 ^ 29)
    (wire : wireType < 8) (rest : Bytes) :
    readKey (varint (tag * 8 + wireType) ++ rest) = some (tag, wireType, rest) := by
  have tagOf : (tag * 8 + wireType) / 8 = tag := by omega
  have wireOf : (tag * 8 + wireType) % 8 = wireType := by omega
  have key : tag * 8 + wireType < 2 ^ 32 := by omega
  rw [readKey, readVarint_varint (by omega)]
  simp only [Option.bind_eq_bind, Option.bind_some, tagOf, wireOf]
  exact if_pos ⟨key, positive⟩

theorem readField_write {field : Field} (fits : field.Fits) (rest : Bytes) :
    readField (field.write ++ rest) = some (field, rest) := by
  obtain ⟨tag, value⟩ := field
  obtain ⟨positive, small, sized⟩ := fits
  have key : ∀ {wireType}, wireType < 8 → ∀ rest,
      readKey (varint (tag * 8 + wireType) ++ rest) = some (tag, wireType, rest) :=
    readKey_varint positive small
  cases value with
  | varint n =>
      have start := @key 0 (by omega) (varint n ++ rest)
      simp only [readField, Field.write, Field.key, Value.wireType, List.append_assoc, start,
        Option.bind_eq_bind, Option.bind_some, readVarint_varint sized]
  | fixed64 bytes =>
      have exact := sized ▸ readExact_append bytes rest
      simp [readField, Field.write, Field.key, Value.wireType, key, exact]
  | bytes bytes =>
      simp [readField, Field.write, Field.key, Value.wireType, key, readVarint_varint sized,
        readExact_append]
  | group =>
      obtain ⟨first, others, ends⟩ := List.exists_cons_of_ne_nil (varint_ne_nil (tag * 8 + 4))
      have skipped : skipGroups (varint (tag * 8 + 4) ++ rest).length [tag]
          (varint (tag * 8 + 4) ++ rest) = some rest := by
        rw [ends, List.cons_append, List.length_cons, ← List.cons_append, ← ends, skipGroups,
          key (by omega)]
        simp [skipGroups]
      have start := @key 3 (by omega) (varint (tag * 8 + 4) ++ rest)
      simp only [readField, Field.write, Field.key, Value.wireType, List.append_assoc, start,
        Option.bind_eq_bind, Option.bind_some, skipped]
  | fixed32 bytes =>
      have exact := sized ▸ readExact_append bytes rest
      simp [readField, Field.write, Field.key, Value.wireType, key, exact]

/-! ## Messages as fields -/

def write (fields : List Field) : Bytes := fields.flatMap Field.write

/-- Every field takes at least one byte, so the length of the bytes is fuel enough. -/
def readIn : Nat → Bytes → Option (List Field)
  | _, [] => some []
  | 0, _ => none
  | fuel + 1, bytes => do
      let (field, rest) ← readField bytes
      let fields ← readIn fuel rest
      some (field :: fields)

def read (bytes : Bytes) : Option (List Field) := readIn bytes.length bytes

theorem readIn_write {fields : List Field} (fits : ∀ field ∈ fields, field.Fits) {fuel : Nat}
    (enough : fields.length ≤ fuel) : readIn fuel (write fields) = some fields := by
  induction fields generalizing fuel with
  | nil => cases fuel <;> rfl
  | cons field fields ih =>
      obtain ⟨fuel, rfl⟩ := Nat.exists_eq_add_of_lt enough
      have following : readIn (fields.length + fuel) (write fields) = some fields :=
        ih (fun f mem => fits f (List.mem_cons_of_mem _ mem)) (by omega)
      obtain ⟨byte, bytes, head⟩ := List.exists_cons_of_ne_nil field.write_ne_nil
      have start : write (field :: fields) = byte :: (bytes ++ write fields) := by
        rw [write, List.flatMap_cons, head]
        rfl
      have first : readField (byte :: (bytes ++ write fields)) = some (field, write fields) := by
        rw [← List.cons_append, ← head, readField_write (fits field List.mem_cons_self)]
      simp only [start, readIn, first, Option.bind_eq_bind, Option.bind_some, following]

theorem length_le_write (fields : List Field) : fields.length ≤ (write fields).length := by
  induction fields with
  | nil => exact Nat.le_refl 0
  | cons field fields ih =>
      have one := List.length_pos_iff.mpr field.write_ne_nil
      simp only [write, List.flatMap_cons, List.length_append, List.length_cons] at ih ⊢
      omega

/-- No message begins with a byte whose lowest bits are no wire type. -/
theorem head_write {fields : List Field} {byte : UInt8} {rest : Bytes}
    (h : write fields = byte :: rest) : byte.toNat % 8 < 6 := by
  cases fields with
  | nil => cases h
  | cons field fields =>
      obtain ⟨first, others, key⟩ := List.exists_cons_of_ne_nil (varint_ne_nil field.key)
      rw [write, List.flatMap_cons, Field.write, key] at h
      obtain ⟨rfl, -⟩ := List.cons.inj h
      have bits := head_varint key
      have wire := field.value.wireType_lt
      rw [Field.key] at bits
      omega

/-- What was written is read back. -/
theorem read_write {fields : List Field} (fits : ∀ field ∈ fields, field.Fits) :
    read (write fields) = some fields :=
  readIn_write fits (length_le_write fields)

end Proto
