import Centrifugo.Json.Scan

/-!
# Texts as bytes

The UTF-8 encoding of a text, the decoding of a byte sequence, and the one fact
about their bytes that line framing needs: the byte of a line break stands for a
line break and for nothing else.
-/

namespace Json

abbrev Bytes := List UInt8

def encodeUtf8 (text : Text) : Bytes := text.flatMap String.utf8EncodeChar

def decodeUtf8 (bytes : Bytes) : Option Text :=
  (ByteArray.mk bytes.toArray).utf8Decode?.map Array.toList

@[simp] theorem encodeUtf8_append (front back : Text) :
    encodeUtf8 (front ++ back) = encodeUtf8 front ++ encodeUtf8 back :=
  List.flatMap_append

theorem mk_encodeUtf8 (text : Text) :
    ByteArray.mk (encodeUtf8 text).toArray = text.utf8Encode := by
  apply ByteArray.ext
  simp [encodeUtf8, List.utf8Encode]

@[simp] theorem decodeUtf8_encodeUtf8 (text : Text) :
    decodeUtf8 (encodeUtf8 text) = some text := by
  simp [decodeUtf8, mk_encodeUtf8]

theorem encodeUtf8_of_decodeUtf8 {bytes : Bytes} {text : Text}
    (h : decodeUtf8 bytes = some text) : encodeUtf8 text = bytes := by
  obtain ⟨chars, decoded, rfl⟩ := Option.map_eq_some_iff.mp h
  have present : (ByteArray.mk bytes.toArray).utf8Decode?.isSome := by simp [decoded]
  have encoded := ByteArray.utf8Encode_get_utf8Decode? (h := present)
  simp only [decoded, Option.get_some] at encoded
  have same := (mk_encodeUtf8 chars.toList).trans encoded
  simpa using congrArg (fun array : ByteArray => array.data.toList) same

theorem encodeUtf8_injective {text other : Text} (h : encodeUtf8 text = encodeUtf8 other) :
    text = other := by
  have decoded := congrArg decodeUtf8 h
  simpa using decoded

/-- The byte of a line break. -/
def newlineByte : UInt8 := 10

/-- Every byte of a character beyond ASCII is at least 128. -/
theorem high_of_mem_encodeChar {c : Char} (beyond : 127 < c.toNat) {byte : UInt8}
    (h : byte ∈ String.utf8EncodeChar c) : 128 ≤ byte.toNat := by
  have bound : c.val.toNat < 0x110000 := by
    rcases c.valid with valid | valid <;> omega
  have large : ¬ c.val.toNat ≤ 127 := Nat.not_le.mpr beyond
  have byteOf : ∀ n, 128 ≤ n → n < 256 → byte = UInt8.ofNat n → 128 ≤ byte.toNat := by
    rintro n low high rfl
    rw [UInt8.toNat_ofNat']
    omega
  simp only [String.utf8EncodeChar, large, if_false] at h
  split at h
  · simp only [List.mem_cons, List.not_mem_nil, or_false] at h
    rcases h with h | h
    all_goals exact byteOf _ (by omega) (by omega) h
  split at h
  · simp only [List.mem_cons, List.not_mem_nil, or_false] at h
    rcases h with h | h | h
    all_goals exact byteOf _ (by omega) (by omega) h
  · simp only [List.mem_cons, List.not_mem_nil, or_false] at h
    rcases h with h | h | h | h
    all_goals exact byteOf _ (by omega) (by omega) h

theorem newline_mem_encodeChar (c : Char) :
    newlineByte ∈ String.utf8EncodeChar c ↔ c = '\n' := by
  constructor
  · intro h
    by_cases ascii : c.val.toNat ≤ 127
    · simp only [String.utf8EncodeChar, ascii, if_true, List.mem_singleton] at h
      have value := congrArg UInt8.toNat h
      simp only [newlineByte, UInt8.toNat_ofNat', UInt8.reduceToNat] at value
      have code : c.toNat = '\n'.toNat := by
        change c.val.toNat = 10
        omega
      exact Char.toNat_inj.mp code
    · have high := high_of_mem_encodeChar (Nat.not_le.mp ascii) h
      exact absurd high (by decide)
  · rintro rfl
    decide

@[simp] theorem newline_mem_encodeUtf8 (text : Text) :
    newlineByte ∈ encodeUtf8 text ↔ '\n' ∈ text := by
  simp [encodeUtf8, newline_mem_encodeChar]

end Json
