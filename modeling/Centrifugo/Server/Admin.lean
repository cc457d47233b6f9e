import Centrifugo.Server.Writer

/-!
# The admin login form

The password of a login comes from the form in the body, or else from the query. A form
is cut at `&` and at the first `=`, and names and values are decoded byte by byte. Behind
a percent sign the decoder slices the text two bytes further on, and a slice that does not
end between two characters is a panic.
-/

namespace Centrifugo

open Json

/-! ## Decoding -/

def plusByte : UInt8 := 43

def percentByte : UInt8 := 37

def spaceByte : UInt8 := 32

/-- The value of a hexadecimal digit. -/
def toDigit (b : UInt8) : Option UInt8 :=
  if 48 ≤ b ∧ b ≤ 57 then some (b - 48)
  else if 65 ≤ b ∧ b ≤ 70 then some (b - 55)
  else if 97 ≤ b ∧ b ≤ 102 then some (b - 87)
  else none

/-- One more hexadecimal digit of a byte, unless it overflows. -/
def pushDigit (value b : UInt8) : Option UInt8 :=
  match toDigit b with
  | some digit =>
      if value.toNat * 16 + digit.toNat < 256 then some (value * 16 + digit) else none
  | none => none

/-- A byte from its hexadecimal digits, which may have a plus sign in front. -/
def fromStrRadix16 (src : Bytes) : Option UInt8 :=
  match src with
  | [] => none
  | [b] => if b = plusByte then none else pushDigit 0 b
  | b :: digits =>
      if b = plusByte then digits.foldlM pushDigit 0 else (b :: digits).foldlM pushDigit 0

/-- A byte inside a character of several bytes. -/
def continuation (b : UInt8) : Bool := 128 ≤ b && b < 192

/-- A text may be cut in front of these bytes. -/
def boundary (rest : Bytes) : Bool :=
  match rest with
  | [] => true
  | b :: _ => !continuation b

/-- The decoder on the bytes of a text, `none` for a panic. -/
def urldecodeBytes : Bytes → Option Bytes
  | [] => some []
  | b :: rest =>
      if b = plusByte then (urldecodeBytes rest).map (spaceByte :: ·)
      else if b = percentByte then
        match rest with
        | x :: y :: after =>
            if boundary (x :: y :: after) && boundary after then
              match fromStrRadix16 [x, y] with
              | some value => (urldecodeBytes after).map (value :: ·)
              | none => (urldecodeBytes (x :: y :: after)).map (percentByte :: ·)
            else none
        | rest => (urldecodeBytes rest).map (percentByte :: ·)
      else (urldecodeBytes rest).map (b :: ·)

def urldecode (s : Text) : Option Text := (urldecodeBytes (encodeUtf8 s)).map fromUtf8Lossy

/-- The value of the first pair of that name, if there is one. -/
def findPair (key : Text) : List Text → Option (Option Text)
  | [] => some none
  | pair :: pairs =>
      match splitOnce ['='] pair with
      | some (k, v) => do
          if (← urldecode k) = key then return some (← urldecode v)
          findPair key pairs
      | none => findPair key pairs

def formValue (body key : Text) : Option (Option Text) := findPair key (body.splitOn '&')

def passwordKey : Text := "password".toList

/-- The password of a login: from the body first, then from the query. -/
def formPassword (body : Text) (query : Option Text) : Option Text := do
  match ← formValue body passwordKey with
  | some password => return password
  | none =>
      match query with
      | some q => return (← formValue q passwordKey).getD []
      | none => return []

/-! ## Texts that are cut -/

/-- Two bytes further on is inside a character. -/
def CutAfter : Text → Prop
  | [] => False
  | c :: rest => 3 ≤ c.utf8Size ∨ c.utf8Size = 1 ∧ ∃ d ∈ rest.head?, 2 ≤ d.utf8Size

/-- A percent sign has an ASCII character and a longer one behind it, or a character of at
least three bytes. -/
def Cut (s : Text) : Prop := ∃ back, ('%' :: back) <:+ s ∧ CutAfter back

theorem not_cut_nil : ¬ Cut [] := by
  rintro ⟨back, h, _⟩
  simp at h

theorem cut_cons {c : Char} {s : Text} : Cut (c :: s) ↔ c = '%' ∧ CutAfter s ∨ Cut s := by
  constructor
  · rintro ⟨back, h, after⟩
    rcases List.suffix_cons_iff.mp h with same | later
    · obtain ⟨rfl, rfl⟩ := List.cons.inj same
      exact .inl ⟨rfl, after⟩
    · exact .inr ⟨back, later, after⟩
  · rintro (⟨rfl, after⟩ | ⟨back, later, after⟩)
    · exact ⟨s, List.suffix_rfl, after⟩
    · exact ⟨back, later.trans (List.suffix_cons c s), after⟩

/-! ## The bytes of a character -/

theorem continuation_ofNat {n : Nat} (small : n < 256) :
    continuation (UInt8.ofNat n) = decide (128 ≤ n ∧ n < 192) := by
  have same : (UInt8.ofNat n).toNat = n := UInt8.toNat_ofNat_of_lt' small
  simp [continuation, UInt8.le_iff_toNat_le, UInt8.lt_iff_toNat_lt, same]

/-- A character is a byte that begins it and bytes that continue it. -/
theorem encodeChar_parts (c : Char) : ∃ lead tail, String.utf8EncodeChar c = lead :: tail ∧
    continuation lead = false ∧ ∀ b ∈ tail, continuation b = true := by
  have bound : c.val.toNat < 0x110000 := by
    rcases c.valid with valid | valid <;> omega
  have leads : ∀ n, n < 128 ∨ 192 ≤ n → n < 256 → continuation (UInt8.ofNat n) = false := by
    intro n outside small
    rw [continuation_ofNat small, decide_eq_false_iff_not]
    omega
  have continues : ∀ n, continuation (UInt8.ofNat (n % 64 + 128)) = true := by
    intro n
    rw [continuation_ofNat (by omega), decide_eq_true_iff]
    omega
  have one : ∀ n, ∀ b ∈ [UInt8.ofNat (n % 64 + 128)], continuation b = true := fun n =>
    List.forall_mem_singleton.mpr (continues n)
  rw [String.utf8EncodeChar]
  split
  · exact ⟨_, _, rfl, leads _ (by omega) (by omega), by simp⟩
  split
  · exact ⟨_, _, rfl, leads _ (by omega) (by omega), one _⟩
  split
  · exact ⟨_, _, rfl, leads _ (by omega) (by omega),
      List.forall_mem_cons.mpr ⟨continues _, one _⟩⟩
  · exact ⟨_, _, rfl, leads _ (by omega) (by omega),
      List.forall_mem_cons.mpr ⟨continues _, List.forall_mem_cons.mpr ⟨continues _, one _⟩⟩⟩

@[simp] theorem boundary_encodeUtf8 (s : Text) : boundary (encodeUtf8 s) = true := by
  cases s with
  | nil => rfl
  | cons c s =>
      obtain ⟨lead, tail, parts, begins, _⟩ := encodeChar_parts c
      simp [encodeUtf8, parts, boundary, begins]

theorem encodeUtf8_cons (c : Char) (s : Text) :
    encodeUtf8 (c :: s) = String.utf8EncodeChar c ++ encodeUtf8 s := rfl

/-- A byte of ASCII in front is the whole first character. -/
theorem ascii_in_front {s : Text} {x : UInt8} {bytes : Bytes} (h : encodeUtf8 s = x :: bytes)
    (ascii : x.toNat < 128) :
    ∃ c rest, s = c :: rest ∧ String.utf8EncodeChar c = [x] ∧ bytes = encodeUtf8 rest := by
  cases s with
  | nil => cases h
  | cons c rest =>
      rw [encodeUtf8_cons] at h
      have small : c.toNat ≤ 127 := by
        by_contra large
        obtain ⟨lead, tail, parts, _⟩ := encodeChar_parts c
        rw [parts, List.cons_append] at h
        obtain ⟨rfl, _⟩ := List.cons.inj h
        have high := high_of_mem_encodeChar (Nat.lt_of_not_le large)
          (parts ▸ List.mem_cons_self)
        omega
      have single : String.utf8EncodeChar c = [UInt8.ofNat c.toNat] := by
        rw [String.utf8EncodeChar]
        exact if_pos small
      rw [single, List.singleton_append] at h
      obtain ⟨rfl, rfl⟩ := List.cons.inj h
      exact ⟨c, rest, rfl, single, rfl⟩

/-- A text is cut exactly when its third byte continues a character. -/
theorem cutAfter_iff {s : Text} :
    CutAfter s ↔ ∃ x y after, encodeUtf8 s = x :: y :: after ∧ boundary after = false := by
  cases s with
  | nil =>
      constructor
      · intro h
        cases h
      · rintro ⟨_, _, _, h, _⟩
        cases h
  | cons c s =>
      obtain ⟨lead, tail, parts, _, continues⟩ := encodeChar_parts c
      have size : c.utf8Size = tail.length + 1 := by
        rw [← String.length_utf8EncodeChar, parts, List.length_cons]
      rw [CutAfter, size, encodeUtf8_cons, parts]
      obtain _ | ⟨k, _ | ⟨k', rest⟩⟩ := tail
      · cases s with
        | nil => simp [encodeUtf8]
        | cons d s =>
            obtain ⟨lead', tail', parts', _, continues'⟩ := encodeChar_parts d
            have size' : d.utf8Size = tail'.length + 1 := by
              rw [← String.length_utf8EncodeChar, parts', List.length_cons]
            cases tail' with
            | nil => simp [encodeUtf8_cons, parts', size']
            | cons k rest => simp [encodeUtf8_cons, parts', size', boundary, continues' k]
      · simp
      · simp [boundary, continues k']

/-! ## Decoding without a panic -/

theorem toDigit_lt {b digit : UInt8} (h : toDigit b = some digit) :
    b.toNat < 128 ∧ b ≠ percentByte ∧ b ≠ plusByte := by
  have all : ∀ n < 256, (toDigit (UInt8.ofNat n)).isSome →
      n < 128 ∧ UInt8.ofNat n ≠ percentByte ∧ UInt8.ofNat n ≠ plusByte := by decide +kernel
  have here := all b.toNat b.toNat_lt (by rw [UInt8.ofNat_toNat, h]; rfl)
  rwa [UInt8.ofNat_toNat] at here

theorem pushDigit_isDigit {value b value' : UInt8} (h : pushDigit value b = some value') :
    ∃ digit, toDigit b = some digit := by
  rw [pushDigit] at h
  split at h
  · exact ⟨_, ‹_›⟩
  · cases h

/-- What is read as a number is of ASCII and not a percent sign. -/
theorem ascii_of_fromStrRadix16 {x y value : UInt8} (h : fromStrRadix16 [x, y] = some value) :
    (x.toNat < 128 ∧ x ≠ percentByte) ∧ y.toNat < 128 ∧ y ≠ percentByte := by
  simp only [fromStrRadix16] at h
  split at h
  · rename_i plus
    subst plus
    refine ⟨by decide, ?_⟩
    simp only [List.foldlM_cons, List.foldlM_nil, bind_pure] at h
    obtain ⟨digit, isDigit⟩ := pushDigit_isDigit h
    exact (toDigit_lt isDigit).imp_right And.left
  · simp only [List.foldlM_cons, List.foldlM_nil, bind_pure] at h
    obtain ⟨first, pushed, next⟩ := Option.bind_eq_some_iff.mp h
    obtain ⟨_, isDigit⟩ := pushDigit_isDigit pushed
    obtain ⟨_, isDigit'⟩ := pushDigit_isDigit next
    exact ⟨(toDigit_lt isDigit).imp_right And.left, (toDigit_lt isDigit').imp_right And.left⟩

theorem urldecodeBytes_plus (rest : Bytes) :
    urldecodeBytes (plusByte :: rest) = (urldecodeBytes rest).map (spaceByte :: ·) := by
  rw [urldecodeBytes.eq_def]
  exact if_pos rfl

theorem urldecodeBytes_other {b : UInt8} (plus : b ≠ plusByte) (percent : b ≠ percentByte)
    (rest : Bytes) : urldecodeBytes (b :: rest) = (urldecodeBytes rest).map (b :: ·) := by
  rw [urldecodeBytes.eq_def]
  exact (if_neg plus).trans (if_neg percent)

theorem urldecodeBytes_escape {x y value : UInt8} {after : Bytes} (ends : boundary after = true)
    (number : fromStrRadix16 [x, y] = some value) :
    urldecodeBytes (percentByte :: x :: y :: after) =
      (urldecodeBytes after).map (value :: ·) := by
  have begins : boundary (x :: y :: after) = true := by
    have ascii := (ascii_of_fromStrRadix16 number).1.1
    have low : ¬ 128 ≤ x := fun high => by
      have value := UInt8.le_iff_toNat_le.mp high
      simp at value
      omega
    simp [boundary, continuation, low]
  rw [urldecodeBytes, if_neg (by decide), if_pos rfl]
  simp [begins, ends, number]

theorem isSome_urldecodeBytes_other {b : UInt8} (percent : b ≠ percentByte) (rest : Bytes) :
    (urldecodeBytes (b :: rest)).isSome = (urldecodeBytes rest).isSome := by
  by_cases plus : b = plusByte
  · subst plus
    rw [urldecodeBytes_plus, Option.isSome_map]
  · rw [urldecodeBytes_other plus percent, Option.isSome_map]

theorem isSome_urldecodeBytes_append {w rest : Bytes} (none : ∀ b ∈ w, b ≠ percentByte) :
    (urldecodeBytes (w ++ rest)).isSome = (urldecodeBytes rest).isSome := by
  induction w with
  | nil => rfl
  | cons b w ih =>
      obtain ⟨here, later⟩ := List.forall_mem_cons.mp none
      rw [List.cons_append, isSome_urldecodeBytes_other here, ih later]

theorem percent_mem_encodeChar {c : Char} (h : percentByte ∈ String.utf8EncodeChar c) :
    c = '%' := by
  by_cases ascii : c.toNat ≤ 127
  · have single : String.utf8EncodeChar c = [UInt8.ofNat c.toNat] := by
      rw [String.utf8EncodeChar]
      exact if_pos ascii
    rw [single, List.mem_singleton] at h
    have value := congrArg UInt8.toNat h
    rw [UInt8.toNat_ofNat_of_lt' (by change c.toNat < 256; omega)] at value
    exact Char.toNat_inj.mp value.symm
  · have high := high_of_mem_encodeChar (Nat.not_le.mp ascii) h
    exact absurd high (by decide)

/-- Behind a percent sign there may be two bytes that are a number, two bytes that are none,
or fewer; the slice of two bytes ends inside a character exactly when the text is cut. -/
theorem isSome_urldecodeBytes : (s : Text) →
    ((urldecodeBytes (encodeUtf8 s)).isSome = true ↔ ¬ Cut s)
  | [] => iff_of_true rfl not_cut_nil
  | c :: s => by
      rw [encodeUtf8_cons, cut_cons]
      by_cases percent : c = '%'
      · subst percent
        have first : String.utf8EncodeChar '%' = [percentByte] := by decide
        rw [first, List.singleton_append]
        have plain := isSome_urldecodeBytes s
        match bytes : encodeUtf8 s with
        | [] | [x] =>
            have whole : ¬ CutAfter s := by
              rw [cutAfter_iff, bytes]
              rintro ⟨_, _, _, h, _⟩
              cases h
            rw [bytes] at plain
            rw [urldecodeBytes.eq_def]
            simpa [percentByte, plusByte, whole] using plain
        | x :: y :: after =>
            have cutHere : CutAfter s ↔ boundary after = false := by
              rw [cutAfter_iff, bytes]
              constructor
              · rintro ⟨x', y', after', h, inside⟩
                cases h
                exact inside
              · intro inside
                exact ⟨x, y, after, rfl, inside⟩
            have begins : boundary (x :: y :: after) = true := bytes ▸ boundary_encodeUtf8 s
            match ends : boundary after with
            | false =>
                rw [urldecodeBytes.eq_def]
                simp [percentByte, plusByte, ends, cutHere]
            | true =>
                have whole : ¬ CutAfter s := by simp [cutHere, ends]
                match number : fromStrRadix16 [x, y] with
                | some value =>
                    rw [urldecodeBytes_escape ends number, Option.isSome_map]
                    obtain ⟨⟨xAscii, xPlain⟩, yAscii, yPlain⟩ := ascii_of_fromStrRadix16 number
                    obtain ⟨d, s', rfl, one, rest⟩ := ascii_in_front bytes xAscii
                    obtain ⟨d', s'', rfl, one', rest'⟩ := ascii_in_front rest.symm yAscii
                    have here : d ≠ '%' := by
                      rintro rfl
                      exact xPlain (List.singleton_injective (one.symm.trans first))
                    have here' : d' ≠ '%' := by
                      rintro rfl
                      exact yPlain (List.singleton_injective (one'.symm.trans first))
                    rw [rest', isSome_urldecodeBytes s'']
                    simp [whole, cut_cons, here, here']
                | none =>
                    rw [bytes] at plain
                    rw [urldecodeBytes.eq_def]
                    simpa [percentByte, plusByte, begins, ends, number, whole] using plain
      · have absent : ∀ b ∈ String.utf8EncodeChar c, b ≠ percentByte := by
          rintro b present rfl
          exact percent (percent_mem_encodeChar present)
        rw [isSome_urldecodeBytes_append absent, isSome_urldecodeBytes s]
        simp [percent]

theorem isSome_urldecode (s : Text) : (urldecode s).isSome = true ↔ ¬ Cut s := by
  rw [urldecode, Option.isSome_map]
  exact isSome_urldecodeBytes s

/-! ## The round trip -/

/-- The hexadecimal digit of a value below sixteen. -/
def upperHexDigit (n : Nat) : Char := if n < 10 then Char.ofNat (48 + n) else Char.ofNat (55 + n)

/-- The bytes that a form leaves as they are: letters, digits and `*`, `-`, `.`, `_`. -/
def unreserved (b : UInt8) : Bool :=
  (48 ≤ b && b ≤ 57) || (65 ≤ b && b ≤ 90) || (97 ≤ b && b ≤ 122) ||
    b = 42 || b = 45 || b = 46 || b = 95

def formEncodeByte (b : UInt8) : Text :=
  if unreserved b then [Char.ofNat b.toNat]
  else if b = spaceByte then ['+']
  else ['%', upperHexDigit (b.toNat / 16), upperHexDigit (b.toNat % 16)]

/-- The form encoding of a text, with a plus sign for a space and percent signs. -/
def formEncode (s : Text) : Text := (encodeUtf8 s).flatMap formEncodeByte

/-- How a byte is encoded: by itself, by a plus sign, or as a number. -/
theorem formEncodeByte_cases (b : UInt8) :
    (encodeUtf8 (formEncodeByte b) = [b] ∧ b ≠ plusByte ∧ b ≠ percentByte) ∨
      (encodeUtf8 (formEncodeByte b) = [plusByte] ∧ b = spaceByte) ∨
      ∃ x y, encodeUtf8 (formEncodeByte b) = [percentByte, x, y] ∧
        fromStrRadix16 [x, y] = some b := by
  let digit (n : Nat) : UInt8 := UInt8.ofNat (upperHexDigit n).toNat
  have all : ∀ n < 256,
      (encodeUtf8 (formEncodeByte (UInt8.ofNat n)) = [UInt8.ofNat n] ∧
          UInt8.ofNat n ≠ plusByte ∧ UInt8.ofNat n ≠ percentByte) ∨
        (encodeUtf8 (formEncodeByte (UInt8.ofNat n)) = [plusByte] ∧
          UInt8.ofNat n = spaceByte) ∨
        encodeUtf8 (formEncodeByte (UInt8.ofNat n)) =
            [percentByte, digit (n / 16), digit (n % 16)] ∧
          fromStrRadix16 [digit (n / 16), digit (n % 16)] = some (UInt8.ofNat n) := by
    decide +kernel
  have here := all b.toNat b.toNat_lt
  rw [UInt8.ofNat_toNat] at here
  exact here.imp_right (Or.imp_right fun escape => ⟨_, _, escape⟩)

theorem urldecodeBytes_formEncode (bytes : Bytes) :
    urldecodeBytes (encodeUtf8 (bytes.flatMap formEncodeByte)) = some bytes := by
  induction bytes with
  | nil => rfl
  | cons b bytes ih =>
      rw [List.flatMap_cons, encodeUtf8_append]
      rcases formEncodeByte_cases b with
        ⟨self, plus, percent⟩ | ⟨space, rfl⟩ | ⟨x, y, escape, number⟩
      · rw [self, List.singleton_append, urldecodeBytes_other plus percent, ih]
        rfl
      · rw [space, List.singleton_append, urldecodeBytes_plus, ih]
        rfl
      · rw [escape]
        simp only [List.cons_append, List.nil_append]
        rw [urldecodeBytes_escape (boundary_encodeUtf8 _) number, ih]
        rfl

theorem urldecode_formEncode (s : Text) : urldecode (formEncode s) = some s := by
  rw [urldecode, formEncode, urldecodeBytes_formEncode, Option.map_some,
    fromUtf8Lossy_of_decode (decodeUtf8_encodeUtf8 s)]

/-! ## Names -/

/-- The bytes spell a word, each byte of it written as it is or as a number. -/
inductive Spells : Bytes → Bytes → Prop
  | nil : Spells [] []
  | plain {b : UInt8} {k w : Bytes} :
      b ≠ plusByte → b ≠ percentByte → Spells k w → Spells (b :: k) (b :: w)
  | number {x y value : UInt8} {k w : Bytes} :
      fromStrRadix16 [x, y] = some value → Spells k w →
        Spells (percentByte :: x :: y :: k) (value :: w)

/-- A word without a space and a percent sign is decoded from what spells it. -/
theorem spells_of_urldecodeBytes {k w : Bytes} (h : urldecodeBytes k = some w)
    (space : spaceByte ∉ w) (percent : percentByte ∉ w) : Spells k w := by
  fun_induction urldecodeBytes k generalizing w with
  | case1 =>
      obtain rfl := Option.some.inj h
      exact .nil
  | case2 rest ih =>
      obtain ⟨_, _, rfl⟩ := Option.map_eq_some_iff.mp h
      exact absurd List.mem_cons_self space
  | case3 =>
      rename_i number _ ih
      obtain ⟨w', decoded, rfl⟩ := Option.map_eq_some_iff.mp h
      exact .number number (ih decoded (List.not_mem_of_not_mem_cons space)
        (List.not_mem_of_not_mem_cons percent))
  | case4 =>
      obtain ⟨_, _, rfl⟩ := Option.map_eq_some_iff.mp h
      exact absurd List.mem_cons_self percent
  | case5 => cases h
  | case6 =>
      obtain ⟨_, _, rfl⟩ := Option.map_eq_some_iff.mp h
      exact absurd List.mem_cons_self percent
  | case7 b rest plus other ih =>
      obtain ⟨w', decoded, rfl⟩ := Option.map_eq_some_iff.mp h
      exact .plain plus other (ih decoded (List.not_mem_of_not_mem_cons space)
        (List.not_mem_of_not_mem_cons percent))

theorem Spells.decoded_eq {k w w' : Bytes} (h : Spells k w)
    (decoded : urldecodeBytes k = some w') : w' = w := by
  induction h generalizing w' with
  | nil => exact (Option.some.inj decoded).symm
  | plain plus other _ ih =>
      rw [urldecodeBytes_other plus other] at decoded
      obtain ⟨w'', rest, rfl⟩ := Option.map_eq_some_iff.mp decoded
      rw [ih rest]
  | @number x y value k w number _ ih =>
      match ends : boundary k with
      | true =>
          rw [urldecodeBytes_escape ends number] at decoded
          obtain ⟨w'', rest, rfl⟩ := Option.map_eq_some_iff.mp decoded
          rw [ih rest]
      | false =>
          rw [urldecodeBytes.eq_def] at decoded
          simp [percentByte, plusByte, ends] at decoded

/-! ## Texts from bytes with replacements -/

theorem firstChar_eq_some {bytes rest : Bytes} {c : Char} (h : firstChar bytes = some (c, rest)) :
    bytes = String.utf8EncodeChar c ++ rest := by
  obtain ⟨n, _, found⟩ := List.exists_of_findSome?_eq_some h
  split at found
  · rename_i c' decoded
    obtain ⟨rfl, rfl⟩ := Prod.mk.inj (Option.some.inj found)
    have front : String.utf8EncodeChar c' = bytes.take n := by
      rw [← encodeUtf8_of_decodeUtf8 decoded, encodeUtf8_cons]
      exact (List.append_nil _).symm
    rw [front, List.take_append_drop]
  · cases found

/-- Without a replacement character the text is what the bytes encode. -/
theorem encodeUtf8_replaceInvalid {n : Nat} {bytes : Bytes} (enough : bytes.length ≤ n)
    (whole : Char.ofNat 0xFFFD ∉ replaceInvalid n bytes) :
    encodeUtf8 (replaceInvalid n bytes) = bytes := by
  induction n generalizing bytes with
  | zero =>
      obtain rfl := List.eq_nil_of_length_eq_zero (Nat.le_zero.mp enough)
      rfl
  | succ n ih =>
      cases bytes with
      | nil => rfl
      | cons b bytes =>
          simp only [replaceInvalid] at whole ⊢
          split at whole
          · rename_i c rest first
            have parts := firstChar_eq_some first
            have shorter : rest.length ≤ n := by
              have lengths := congrArg List.length parts
              have long := c.utf8Size_pos
              simp at lengths enough
              omega
            rw [encodeUtf8_cons, ih shorter (List.not_mem_of_not_mem_cons whole), parts]
          · exact absurd List.mem_cons_self whole

theorem encodeUtf8_fromUtf8Lossy {bytes : Bytes} (whole : Char.ofNat 0xFFFD ∉ fromUtf8Lossy bytes) :
    encodeUtf8 (fromUtf8Lossy bytes) = bytes := by
  match decoded : decodeUtf8 bytes with
  | some text =>
      rw [fromUtf8Lossy_of_decode decoded]
      exact encodeUtf8_of_decodeUtf8 decoded
  | none =>
      simp only [fromUtf8Lossy, decoded, Option.getD_none] at whole ⊢
      exact encodeUtf8_replaceInvalid (Nat.le_refl _) whole

/-! ## The form -/

/-- The name of a pair spells `password`. -/
def NamesPassword (name : Text) : Prop := Spells (encodeUtf8 name) (encodeUtf8 passwordKey)

theorem urldecode_eq_passwordKey {name decoded : Text} (h : urldecode name = some decoded) :
    decoded = passwordKey ↔ NamesPassword name := by
  obtain ⟨bytes, fromName, rfl⟩ := Option.map_eq_some_iff.mp h
  constructor
  · intro same
    have exact : encodeUtf8 passwordKey = bytes := by
      rw [← same]
      exact encodeUtf8_fromUtf8Lossy (same ▸ by decide)
    subst exact
    exact spells_of_urldecodeBytes fromName (by decide) (by decide)
  · intro spells
    rw [spells.decoded_eq fromName]
    exact fromUtf8Lossy_of_decode (decodeUtf8_encodeUtf8 _)

/-- No text that is decoded on the way to the password of a form is cut: no name up to the
first that spells `password`, and not the value of that one. -/
def Uncut : List Text → Prop
  | [] => True
  | pair :: pairs =>
      match splitOnce ['='] pair with
      | some (k, v) =>
          ¬ Cut k ∧ (NamesPassword k → ¬ Cut v) ∧ (¬ NamesPassword k → Uncut pairs)
      | none => Uncut pairs

/-- The form has a pair whose name spells `password`. -/
def HasPassword (pairs : List Text) : Prop :=
  ∃ pair ∈ pairs, ∃ k v, splitOnce ['='] pair = some (k, v) ∧ NamesPassword k

/-- No text of the body is cut, and none of the query where it is looked at. -/
def UncutForm (body : Text) (query : Option Text) : Prop :=
  Uncut (body.splitOn '&') ∧
    (¬ HasPassword (body.splitOn '&') → ∀ q ∈ query, Uncut (q.splitOn '&'))

theorem hasPassword_cons {pair : Text} {pairs : List Text} :
    HasPassword (pair :: pairs) ↔
      (∃ k v, splitOnce ['='] pair = some (k, v) ∧ NamesPassword k) ∨ HasPassword pairs := by
  simp [HasPassword]

theorem isSome_findPair (pairs : List Text) :
    (findPair passwordKey pairs).isSome = true ↔ Uncut pairs := by
  induction pairs with
  | nil => exact iff_of_true rfl trivial
  | cons pair pairs ih =>
      rw [findPair, Uncut]
      match splitOnce ['='] pair with
      | none => exact ih
      | some (k, v) =>
          simp only [← isSome_urldecode]
          match name : urldecode k with
          | none => simp
          | some decoded =>
              have spelled := urldecode_eq_passwordKey name
              by_cases same : decoded = passwordKey
              · have here : NamesPassword k := spelled.mp same
                match value : urldecode v with
                | none => simp [same, here]
                | some _ => simp [same, here]
              · have away : ¬ NamesPassword k := fun h => same (spelled.mpr h)
                simp [same, away, ih]

/-- What is found tells whether the form has a password. -/
theorem findPair_eq_none {pairs : List Text} {found : Option Text}
    (h : findPair passwordKey pairs = some found) : found = none ↔ ¬ HasPassword pairs := by
  induction pairs with
  | nil =>
      obtain rfl := Option.some.inj h
      simp [HasPassword]
  | cons pair pairs ih =>
      rw [findPair] at h
      rw [hasPassword_cons]
      match split : splitOnce ['='] pair with
      | none =>
          rw [split] at h
          simpa using ih h
      | some (k, v) =>
          rw [split] at h
          obtain ⟨decoded, name, rest⟩ := Option.bind_eq_some_iff.mp h
          have spelled := urldecode_eq_passwordKey name
          by_cases same : decoded = passwordKey
          · rw [if_pos same] at rest
            obtain ⟨value, _, done⟩ := Option.bind_eq_some_iff.mp rest
            obtain rfl := Option.some.inj done
            simp [spelled.mp same]
          · rw [if_neg same] at rest
            have away : ¬ NamesPassword k := fun h => same (spelled.mpr h)
            simpa [away] using ih rest

theorem isSome_formPassword (body : Text) (query : Option Text) :
    (formPassword body query).isSome = true ↔ UncutForm body query := by
  simp only [UncutForm, ← isSome_findPair, formPassword, formValue]
  match found : findPair passwordKey (body.splitOn '&') with
  | none => simp
  | some (some password) =>
      have named : HasPassword (body.splitOn '&') := by
        by_contra absent
        exact Option.some_ne_none _ ((findPair_eq_none found).mpr absent)
      simp [named]
  | some none =>
      have absent := (findPair_eq_none found).mp rfl
      cases query with
      | none => simp
      | some q =>
          simp only [absent, not_false_eq_true, Option.mem_some_iff, forall_eq', true_imp_iff]
          match findPair passwordKey (q.splitOn '&') with
          | none => simp
          | some _ => simp

theorem formEncode_plain {s : Text} {c : Char} (h : c ∈ formEncode s) : c ≠ '&' := by
  have all : ∀ n < 256, '&' ∉ formEncodeByte (UInt8.ofNat n) := by decide +kernel
  obtain ⟨b, _, present⟩ := List.mem_flatMap.mp h
  rintro rfl
  exact all b.toNat b.toNat_lt (by rwa [UInt8.ofNat_toNat])

/-- A body with the name and an encoded text gives that text. -/
theorem formPassword_encoded (password : Text) (query : Option Text) :
    formPassword (passwordKey ++ '=' :: formEncode password) query = some password := by
  have single : (passwordKey ++ '=' :: formEncode password).splitOn '&' =
      [passwordKey ++ '=' :: formEncode password] := by
    refine List.splitOnP_eq_singleton fun c present => ?_
    rw [beq_eq_false_iff_ne]
    rcases List.mem_append.mp present with name | value
    · rintro rfl
      exact absurd name (by decide)
    · rcases List.mem_cons.mp value with rfl | value
      · decide
      · exact formEncode_plain value
  have cut : splitOnce ['='] (passwordKey ++ '=' :: formEncode password) =
      some (passwordKey, formEncode password) := rfl
  have name : urldecode passwordKey = some passwordKey := by decide +kernel
  have found : formValue (passwordKey ++ '=' :: formEncode password) passwordKey =
      some (some password) := by
    simp [formValue, single, findPair, cut, name, urldecode_formEncode]
  simp [formPassword, found]

/-- A text is decoded exactly when it is not cut, the form of a login is parsed exactly when
no text that is decoded on the way is cut, and what is encoded is decoded again. -/
theorem urldecode_total_iff (s body password : Text) (query : Option Text) :
    ((urldecode s).isSome = true ↔ ¬ Cut s) ∧
      ((formPassword body query).isSome = true ↔ UncutForm body query) ∧
      urldecode (formEncode s) = some s ∧
      formPassword (passwordKey ++ '=' :: formEncode password) query = some password :=
  ⟨isSome_urldecode s, isSome_formPassword body query, urldecode_formEncode s,
    formPassword_encoded password query⟩

/-- An escape that is cut off next to a character of two bytes. -/
theorem not_urldecode_total :
    urldecode "%aé".toList = none ∧ formPassword "password=%aé".toList none = none := by
  decide +kernel

/-! ## The handler -/

structure AdminConfig where
  enabled : Bool
  insecure : Bool
  password : Text
  secret : Text

inductive AdminResponse
  | notFound
  | token (value : Text)
  | badRequest
  | internalServerError
  deriving DecidableEq

/-- The handler of a login, `none` for a panic. -/
def adminAuth (genAdminToken : Text → Option Text) (cfg : AdminConfig) (query : Option Text)
    (body : Text) : Option AdminResponse :=
  if !cfg.enabled then some .notFound
  else if cfg.insecure then some (.token "insecure".toList)
  else if cfg.password = [] || cfg.secret = [] then some .badRequest
  else
    match formPassword body query with
    | none => none
    | some password =>
        if password ≠ cfg.password then some .badRequest
        else
          match genAdminToken cfg.secret with
          | some token => some (.token token)
          | none => some .internalServerError

/-- The form is looked at. -/
def AdminConfig.Asks (cfg : AdminConfig) : Prop :=
  cfg.enabled = true ∧ cfg.insecure = false ∧ cfg.password ≠ [] ∧ cfg.secret ≠ []

variable {genAdminToken : Text → Option Text} {cfg : AdminConfig}

/-- A request cannot make the handler panic unless the form is looked at. -/
theorem isSome_adminAuth (query : Option Text) (body : Text) :
    (adminAuth genAdminToken cfg query body).isSome = true ↔
      (cfg.Asks → UncutForm body query) := by
  rw [← isSome_formPassword, adminAuth]
  split
  · rename_i disabled
    refine iff_of_true rfl fun asks => ?_
    simp [asks.1] at disabled
  split
  · rename_i insecure
    refine iff_of_true rfl fun asks => ?_
    simp [asks.2.1] at insecure
  split
  · rename_i missing
    refine iff_of_true rfl fun asks => ?_
    simp [asks.2.2.1, asks.2.2.2] at missing
  · rename_i enabled insecure present
    have asks : cfg.Asks := by
      simp only [Bool.not_eq_true', Bool.not_eq_false, Bool.not_eq_true, Bool.or_eq_true,
        decide_eq_true_eq, not_or] at enabled insecure present
      exact ⟨enabled, insecure, present⟩
    rw [forall_prop_of_true asks]
    match formPassword body query with
    | none => rfl
    | some password =>
        refine iff_of_true ?_ rfl
        dsimp only
        split
        · rfl
        · cases genAdminToken cfg.secret <;> rfl

/-- A password of any characters logs in. -/
theorem adminAuth_encoded {token : Text} (asks : cfg.Asks)
    (signed : genAdminToken cfg.secret = some token) (query : Option Text) :
    adminAuth genAdminToken cfg query (passwordKey ++ '=' :: formEncode cfg.password) =
      some (.token token) := by
  obtain ⟨enabled, insecure, password, secret⟩ := asks
  simp [adminAuth, enabled, insecure, password, secret, formPassword_encoded, signed]

end Centrifugo
