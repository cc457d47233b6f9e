import Centrifugo.Data.Base128
import Centrifugo.Protocol.Decode

/-!
# Lengths of protobuf frames

A message in a protobuf frame stands behind its length, which is written in seven bits a byte. The
writer and the reader of the lengths work on words of 64 bits. The reader looks at ten bytes at
most and shifts the tenth by 63 bits, so all but one of that byte's bits are lost.
-/

namespace Centrifugo

open Json Base128

namespace Uvarint

/-! ## Words -/

theorem toNat_shiftRight_seven (v : UInt64) : (v >>> 7).toNat = v.toNat / 128 := by
  rw [UInt64.toNat_shiftRight]
  simp [Nat.shiftRight_eq_div_pow]

/-- The loop pushes low bytes as long as high ones remain. -/
def encodeUvarint (v : UInt64) (out : Bytes) : Bytes :=
  if 0x80 ≤ v then encodeUvarint (v >>> 7) (out ++ [v.toUInt8 ||| 0x80])
  else out ++ [v.toUInt8]
termination_by v.toNat
decreasing_by
  next large =>
    simp only [UInt64.le_iff_toNat_le, UInt64.reduceToNat] at large
    rw [toNat_shiftRight_seven]
    omega

/-- A shift to the left, which overflows when it is by the width of the word or more. -/
def shiftLeft (x : UInt64) (shift : UInt32) : Option UInt64 :=
  if shift.toNat < 64 then some (x <<< shift.toUInt64) else none

/-- The rest of the loop. The outer option is `none` when a shift overflows, the inner one when the
bytes are truncated or too many. -/
def decodeLoop : Nat → UInt64 → UInt32 → Bytes → Option (Option (UInt64 × Nat))
  | _, _, _, [] => some none
  | i, result, shift, b :: rest =>
      if 10 ≤ i then some none
      else do
        let part ← shiftLeft (b &&& 0x7f).toUInt64 shift
        let result := result ||| part
        if b &&& 0x80 = 0 then some (some (result, i + 1))
        else decodeLoop (i + 1) result (shift + 7) rest

/-- The number at the front of a buffer, and how many bytes it takes. -/
def decodeUvarint (buf : Bytes) : Option (Option (UInt64 × Nat)) := decodeLoop 0 0 0 buf

/-! ## Bytes of the writer -/

theorem toUInt8_toNat (v : UInt64) : v.toUInt8.toNat = v.toNat % 256 := UInt64.toNat_toUInt8 v

theorem or_high (b : UInt8) : (b ||| 0x80).toNat = b.toNat % 128 + 128 := by
  have all : ∀ n < 256, (UInt8.ofNat n ||| 0x80).toNat = n % 128 + 128 := by decide +kernel
  have here := all b.toNat b.toNat_lt
  rwa [UInt8.ofNat_toNat] at here

theorem and_low (b : UInt8) : (b &&& 0x7f).toNat = b.toNat % 128 := by
  have all : ∀ n < 256, (UInt8.ofNat n &&& 0x7f).toNat = n % 128 := by decide +kernel
  have here := all b.toNat b.toNat_lt
  rwa [UInt8.ofNat_toNat] at here

theorem and_high_eq_zero (b : UInt8) : b &&& 0x80 = 0 ↔ b.toNat < 128 := by
  have all : ∀ n < 256, UInt8.ofNat n &&& 0x80 = 0 ↔ n < 128 := by decide +kernel
  have here := all b.toNat b.toNat_lt
  rwa [UInt8.ofNat_toNat] at here

/-- The writer writes the shortest text. -/
theorem encodeUvarint_eq (v : UInt64) (out : Bytes) :
    encodeUvarint v out = out ++ Base128.encode v.toNat := by
  induction v, out using encodeUvarint.induct with
  | case1 v out large ih =>
      have le : 128 ≤ v.toNat := by simpa [UInt64.le_iff_toNat_le] using large
      have first : v.toUInt8 ||| 0x80 = UInt8.ofNat (v.toNat % 128 + 128) := by
        refine UInt8.toNat_inj.mp ?_
        rw [or_high, toUInt8_toNat, UInt8.toNat_ofNat']
        omega
      rw [encodeUvarint, if_pos large, ih, toNat_shiftRight_seven, encode_of_le le, first,
        List.append_assoc]
      rfl
  | case2 v out small =>
      have lt : v.toNat < 128 := by simpa [UInt64.le_iff_toNat_le] using small
      have last : v.toUInt8 = UInt8.ofNat v.toNat := by
        refine UInt8.toNat_inj.mp ?_
        rw [toUInt8_toNat, UInt8.toNat_ofNat']
      rw [encodeUvarint, if_neg small, encode_of_lt lt, last]

/-! ## Words of the reader -/

/-- Seven more bits above those that there are. -/
theorem toNat_or_shiftLeft {result : UInt64} {b : UInt8} {shift : UInt32} {i : Nat}
    (place : shift.toNat = 7 * i) (bound : i < 10) (small : result.toNat < 128 ^ i) :
    (result ||| (b &&& 0x7f).toUInt64 <<< shift.toUInt64).toNat =
      (result.toNat + 128 ^ i * (b.toNat % 128)) % 2 ^ 64 := by
  have base : 128 ^ i = 2 ^ (7 * i) := by rw [Nat.pow_mul]
  have width : 2 ^ 64 = 2 ^ (7 * i) * 2 ^ (64 - 7 * i) := by
    rw [← Nat.pow_add]
    congr 1
    omega
  have amount : shift.toUInt64.toNat % 64 = 7 * i := by
    rw [UInt32.toNat_toUInt64, place]
    omega
  rw [base] at small ⊢
  have part : ((b &&& 0x7f).toUInt64 <<< shift.toUInt64).toNat =
      2 ^ (7 * i) * (b.toNat % 128 % 2 ^ (64 - 7 * i)) := by
    rw [UInt64.toNat_shiftLeft, UInt8.toNat_toUInt64, and_low, amount, Nat.shiftLeft_eq,
      Nat.mul_comm, width, Nat.mul_mod_mul_left]
  have fits : result.toNat + 2 ^ (7 * i) * (b.toNat % 128 % 2 ^ (64 - 7 * i)) < 2 ^ 64 := by
    have digit := Nat.mod_lt (b.toNat % 128) (Nat.two_pow_pos (64 - 7 * i))
    have room := Nat.mul_le_mul_left (2 ^ (7 * i)) (Nat.succ_le_of_lt digit)
    rw [← width, Nat.mul_succ] at room
    omega
  calc (result ||| (b &&& 0x7f).toUInt64 <<< shift.toUInt64).toNat
      = result.toNat + 2 ^ (7 * i) * (b.toNat % 128 % 2 ^ (64 - 7 * i)) := by
        rw [UInt64.toNat_or, part, Nat.or_comm, ← Nat.two_pow_add_eq_or_of_lt small, Nat.add_comm]
    _ = (result.toNat + 2 ^ (7 * i) * (b.toNat % 128 % 2 ^ (64 - 7 * i))) % 2 ^ 64 :=
        (Nat.mod_eq_of_lt fits).symm
    _ = (result.toNat + 2 ^ (7 * i) * (b.toNat % 128)) % 2 ^ 64 := by
        rw [← Nat.mul_mod_mul_left, ← width, Nat.add_mod_mod]

/-- The loop reads as the reader of a frame does, and no shift overflows. -/
theorem decodeLoop_eq {i : Nat} {result : UInt64} {shift : UInt32} {buf : Bytes}
    (place : shift.toNat = 7 * i) (bound : i ≤ 10) (small : result.toNat < 128 ^ i) :
    decodeLoop i result shift buf = some ((Codec.decodeUvarintIn (10 - i) buf).map fun read =>
      (UInt64.ofNat (result.toNat + 128 ^ i * read.1), i + (buf.length - read.2.length))) := by
  induction buf generalizing i result shift with
  | nil => cases h : 10 - i <;> simp [decodeLoop, Codec.decodeUvarintIn]
  | cons b rest ih =>
      rw [decodeLoop]
      split
      next beyond =>
        obtain rfl : i = 10 := Nat.le_antisymm bound beyond
        rfl
      next inside =>
        have inside : i < 10 := Nat.lt_of_not_le inside
        have shifted : shiftLeft (b &&& 0x7f).toUInt64 shift =
            some ((b &&& 0x7f).toUInt64 <<< shift.toUInt64) := if_pos (by omega)
        have digit := Nat.mod_lt b.toNat (show 128 > 0 by decide)
        have next := @toNat_or_shiftLeft result b shift i place inside small
        obtain ⟨left, later⟩ : ∃ left, 10 - i = left + 1 := ⟨9 - i, by omega⟩
        rw [shifted, Option.bind_eq_bind, Option.bind_some, later, Codec.decodeUvarintIn]
        simp only [and_high_eq_zero]
        split
        next last =>
          simp only [Option.map_some, List.length_cons, Option.some.injEq, Prod.mk.injEq]
          constructor
          · refine UInt64.toNat_inj.mp ?_
            rw [next, UInt64.toNat_ofNat', Nat.mod_eq_of_lt last]
          · omega
        next more =>
          have place' : (shift + 7).toNat = 7 * (i + 1) := by
            rw [UInt32.toNat_add, place]
            simp only [UInt32.reduceToNat]
            omega
          have small' : (result ||| (b &&& 0x7f).toUInt64 <<< shift.toUInt64).toNat <
              128 ^ (i + 1) := by
            have room := Nat.mul_le_mul_left (128 ^ i) (Nat.succ_le_of_lt digit)
            rw [Nat.mul_succ] at room
            rw [next, Nat.pow_succ]
            exact (Nat.mod_le _ _).trans_lt (by omega)
          obtain rfl : left = 10 - (i + 1) := by omega
          rw [ih place' inside small', Option.map_map]
          cases read : Codec.decodeUvarintIn (10 - (i + 1)) rest with
          | none => rfl
          | some found =>
              obtain ⟨n, after⟩ := found
              have shorter := Codec.length_decodeUvarintIn_lt read
              have low : b.toNat - 128 = b.toNat % 128 := by
                have bound := b.toNat_lt
                omega
              simp only [Option.map_some, Function.comp_apply, List.length_cons, Option.some.injEq,
                Prod.mk.injEq]
              constructor
              · refine UInt64.toNat_inj.mp ?_
                rw [next, UInt64.toNat_ofNat', UInt64.toNat_ofNat', Nat.mod_add_mod, low,
                  Nat.pow_succ]
                exact congrArg (· % 2 ^ 64) (by ring)
              · omega

theorem decodeUvarint_eq (buf : Bytes) :
    decodeUvarint buf = some ((Codec.decodeUvarintIn 10 buf).map fun read =>
      (UInt64.ofNat read.1, buf.length - read.2.length)) := by
  have read := @decodeLoop_eq 0 0 0 buf rfl (Nat.zero_le 10) Nat.one_pos
  rw [decodeUvarint, read]
  simp

/-! ## What is read -/

theorem decodeUvarintIn_eq_some {left n : Nat} {buf rest : Bytes} :
    Codec.decodeUvarintIn left buf = some (n, rest) ↔ ∃ bytes, buf = bytes ++ rest ∧
      Terminated bytes ∧ bytes.length ≤ left ∧ value bytes = n := by
  induction left generalizing buf n with
  | zero =>
      refine iff_of_false (fun read => by cases read) ?_
      rintro ⟨bytes, -, terminated, short, -⟩
      exact terminated.ne_nil (List.length_eq_zero_iff.mp (Nat.le_zero.mp short))
  | succ left ih =>
      cases buf with
      | nil =>
          refine iff_of_false (fun read => by cases read) ?_
          rintro ⟨bytes, same, terminated, -⟩
          exact terminated.ne_nil (List.append_eq_nil_iff.mp same.symm).1
      | cons b buf =>
          rw [Codec.decodeUvarintIn]
          split
          next last =>
            constructor
            · intro read
              cases read
              exact ⟨[b], rfl, .last last, Nat.succ_le_succ (Nat.zero_le left), by
                rw [value_singleton, Nat.mod_eq_of_lt last]⟩
            · rintro ⟨bytes, same, terminated, -, rfl⟩
              have here : Terminated [b] := .last last
              obtain ⟨rfl, rfl⟩ := here.eq_of_append terminated (by simpa using same)
              rw [value_singleton, Nat.mod_eq_of_lt last]
          next more =>
            have large : 128 ≤ b.toNat := Nat.le_of_not_lt more
            have bound := b.toNat_lt
            rw [Option.map_eq_some_iff]
            constructor
            · rintro ⟨⟨m, rest'⟩, read, same⟩
              cases same
              obtain ⟨bytes, rfl, terminated, short, rfl⟩ := ih.mp read
              refine ⟨b :: bytes, rfl, .more large terminated, Nat.succ_le_succ short, ?_⟩
              rw [value_cons]
              omega
            · rintro ⟨bytes, same, terminated, short, rfl⟩
              cases terminated with
              | last small =>
                  obtain ⟨rfl, -⟩ := List.cons.inj same
                  exact absurd small more
              | @more _ bytes _ terminated =>
                  obtain ⟨rfl, rfl⟩ := List.cons.inj same
                  refine ⟨(value bytes, rest), ih.mpr ⟨bytes, rfl, terminated,
                    Nat.le_of_succ_le_succ short, rfl⟩, ?_⟩
                  rw [value_cons, Prod.mk.injEq]
                  exact ⟨by omega, rfl⟩

theorem decodeUvarint_eq_some {buf : Bytes} {v : UInt64} {n : Nat} :
    decodeUvarint buf = some (some (v, n)) ↔ ∃ bytes rest, buf = bytes ++ rest ∧
      Terminated bytes ∧ bytes.length ≤ 10 ∧ UInt64.ofNat (value bytes) = v ∧ bytes.length = n := by
  rw [decodeUvarint_eq, Option.some.injEq, Option.map_eq_some_iff]
  constructor
  · rintro ⟨⟨m, rest⟩, read, same⟩
    cases same
    obtain ⟨bytes, rfl, terminated, short, rfl⟩ := decodeUvarintIn_eq_some.mp read
    exact ⟨bytes, rest, rfl, terminated, short, rfl, by simp⟩
  · rintro ⟨bytes, rest, rfl, terminated, short, rfl, rfl⟩
    exact ⟨(value bytes, rest), decodeUvarintIn_eq_some.mpr ⟨bytes, rfl, terminated, short, rfl⟩,
      by simp⟩

/-- The lengths of frames are read by this reader. -/
theorem decodeUvarint_frame (buf : Bytes) :
    decodeUvarint buf = some ((Codec.decodeUvarint buf).map fun read =>
      (UInt64.ofNat read.1, buf.length - read.2.length)) := by
  have wrapped : ∀ n, UInt64.ofNat (n % 2 ^ 64) = UInt64.ofNat n := by
    intro n
    refine UInt64.toNat_inj.mp ?_
    rw [UInt64.toNat_ofNat', UInt64.toNat_ofNat', Nat.mod_mod]
  rw [decodeUvarint_eq, Codec.decodeUvarint, Option.map_map]
  simp only [Function.comp_def, wrapped]

/-- The lengths of frames are written by this writer. -/
theorem encodeUvarint_frame (v : UInt64) : encodeUvarint v [] = Proto.varint v.toNat := by
  have digits : ∀ {left n : Nat}, n < 128 ^ (left + 1) →
      Proto.varintIn (left + 1) n = Base128.encode n := by
    intro left
    induction left with
    | zero =>
        intro n fits
        have small : n < 128 := by simpa using fits
        rw [Proto.varintIn, if_pos small, encode_of_lt small]
    | succ left ih =>
        intro n fits
        rw [Proto.varintIn]
        split
        next small => rw [encode_of_lt small]
        next large =>
          rw [Nat.pow_succ] at fits
          rw [encode_of_le (by omega), ih (by omega)]
  have fits : v.toNat < 128 ^ 10 := v.toNat_lt.trans (by decide)
  rw [encodeUvarint_eq, Proto.varint, digits fits, List.nil_append]

/-! ## What should be read -/

/-- A text of a number of 64 bits, in ten bytes at most. -/
structure IsUvarint (v : Nat) (bytes : Bytes) : Prop where
  terminated : Terminated bytes
  short : bytes.length ≤ 10
  value : value bytes = v
  fits : v < 2 ^ 64

/-- The tenth byte is the last one and has more than the one bit that is left. -/
def TenthExceeds (buf : Bytes) : Prop :=
  (∀ b ∈ buf.take 9, 128 ≤ b.toNat) ∧ ∃ b, buf[9]? = some b ∧ 1 < b.toNat ∧ b.toNat < 128

/-- Ten bytes can hold more than 64 bits, and nine cannot. -/
theorem tenthExceeds_iff {buf : Bytes} : TenthExceeds buf ↔ ∃ bytes rest, buf = bytes ++ rest ∧
    Terminated bytes ∧ bytes.length ≤ 10 ∧ 2 ^ 64 ≤ value bytes := by
  constructor
  · rintro ⟨high, b, tenth, exceeds, last⟩
    obtain ⟨bound, rfl⟩ := List.getElem?_eq_some_iff.mp tenth
    have nine : (buf.take 9).length = 9 := by
      rw [List.length_take]
      omega
    have split : buf = (buf.take 9 ++ [buf[9]]) ++ buf.drop 10 := by
      rw [← List.take_succ_eq_append_getElem bound, List.take_append_drop]
    refine ⟨_, _, split, Terminated.iff_split.mpr ⟨_, _, rfl, high, last⟩, ?_, ?_⟩
    · rw [List.length_append, nine]
      exact Nat.le_refl 10
    · rw [value_append, nine, value_singleton]
      omega
  · rintro ⟨bytes, rest, rfl, terminated, short, beyond⟩
    obtain ⟨front, last, rfl, high, small⟩ := Terminated.iff_split.mp terminated
    rw [List.length_append, List.length_singleton] at short
    rw [value_append, value_singleton, Nat.mod_eq_of_lt small] at beyond
    have below := value_lt front
    have nine : front.length = 9 := by
      by_contra fewer
      have power : 128 ^ front.length ≤ 128 ^ 8 := Nat.pow_le_pow_right (by decide) (by omega)
      have scaled := Nat.mul_le_mul power (Nat.le_of_lt_succ small)
      omega
    rw [nine] at below beyond
    refine ⟨?_, last, ?_, by omega, small⟩
    · rw [List.append_assoc, List.take_left' nine]
      exact high
    · rw [List.append_assoc, List.getElem?_append_right (by omega), nine]
      rfl

/-- No shift overflows, the reader reads just the numbers of 64 bits, and the writer writes the
shortest text of each of them. -/
structure Conforms (buf : Bytes) : Prop where
  shifts : (decodeUvarint buf).isSome
  reads : ∀ v n, decodeUvarint buf = some (some (v, n)) ↔
    n ≤ buf.length ∧ IsUvarint v.toNat (buf.take n)
  writes : ∀ v out, ∃ bytes, encodeUvarint v out = out ++ bytes ∧ IsUvarint v.toNat bytes ∧
    ∀ other, IsUvarint v.toNat other → other = bytes ∨ bytes.length < other.length

theorem isUvarint_encode (v : UInt64) : IsUvarint v.toNat (Base128.encode v.toNat) where
  terminated := terminated_encode v.toNat
  short := length_encode_le (v.toNat_lt.trans (by decide))
  value := value_encode v.toNat
  fits := v.toNat_lt

/-- The functions conform on all buffers but those whose tenth byte is the last and exceeds 1. -/
theorem conforms_iff (buf : Bytes) : Conforms buf ↔ ¬ TenthExceeds buf := by
  rw [tenthExceeds_iff]
  constructor
  · rintro ⟨-, reads, -⟩ ⟨bytes, rest, rfl, terminated, short, beyond⟩
    have read := decodeUvarint_eq_some.mpr ⟨bytes, rest, rfl, terminated, short, rfl, rfl⟩
    obtain ⟨-, uvarint⟩ := (reads _ _).mp read
    have number := uvarint.value
    rw [List.take_left] at number
    exact absurd uvarint.fits (by omega)
  · intro within
    refine ⟨by rw [decodeUvarint_eq]; rfl, ?_, ?_⟩
    · intro v n
      rw [decodeUvarint_eq_some]
      constructor
      · rintro ⟨bytes, rest, rfl, terminated, short, rfl, rfl⟩
        have fits : value bytes < 2 ^ 64 := by
          by_contra beyond
          exact within ⟨bytes, rest, rfl, terminated, short, Nat.le_of_not_lt beyond⟩
        rw [UInt64.toNat_ofNat', Nat.mod_eq_of_lt fits, List.take_left, List.length_append]
        exact ⟨Nat.le_add_right _ _, terminated, short, rfl, fits⟩
      · rintro ⟨le, terminated, short, number, -⟩
        refine ⟨buf.take n, buf.drop n, (List.take_append_drop n buf).symm, terminated, short, ?_,
          List.length_take_of_le le⟩
        rw [number, UInt64.ofNat_toNat]
    · intro v out
      refine ⟨_, encodeUvarint_eq v out, isUvarint_encode v, ?_⟩
      intro other uvarint
      exact encode_shortest uvarint.terminated uvarint.value

/-- Ten bytes for the number of which only the bit 64 is set are read as zero. -/
theorem not_conforms :
    decodeUvarint [0x80, 0x80, 0x80, 0x80, 0x80, 0x80, 0x80, 0x80, 0x80, 2] =
        some (some (0, 10)) ∧
      ¬ Conforms [0x80, 0x80, 0x80, 0x80, 0x80, 0x80, 0x80, 0x80, 0x80, 2] := by
  have read : decodeUvarint [0x80, 0x80, 0x80, 0x80, 0x80, 0x80, 0x80, 0x80, 0x80, 2] =
      some (some (0, 10)) := by
    decide +kernel
  refine ⟨read, ?_⟩
  rintro ⟨-, reads, -⟩
  exact absurd ((reads 0 10).mp read).2.value (by decide)

end Uvarint

end Centrifugo
