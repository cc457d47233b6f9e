import Centrifugo.Json.Write
import Mathlib.Algebra.Order.Field.Rat
import Mathlib.Data.List.TakeWhile

/-!
# What a number text stands for

A decimal number in its usual notation: a sign, digits around a point, and an exponent, all but
one digit of which may be missing. It stands for a rational. The numbers of JSON are among these
texts.
-/

namespace Json

/-- What the digits of a text stand for. -/
def digitsValue (digits : Text) : Nat := Nat.ofDigitChars 10 digits 0

/-- A sign, and the text behind it. -/
def takeSign : Text → Int × Text
  | '-' :: text => (-1, text)
  | '+' :: text => (1, text)
  | text => (1, text)

/-- The exponent that a text is. -/
def readExponent : Text → Option Int
  | [] => some 0
  | c :: text =>
      let (sign, digits) := takeSign text
      if (c = 'e' ∨ c = 'E') ∧ digits ≠ [] ∧ digits.all Char.isDigit then
        some (sign * digitsValue digits)
      else none

def takeDigits (text : Text) : Text × Text :=
  (text.takeWhile Char.isDigit, text.dropWhile Char.isDigit)

/-- The digits behind a point, and the text behind them. -/
def takeFraction : Text → Text × Text
  | '.' :: text => takeDigits text
  | text => ([], text)

def readDecimal (text : Text) : Option ℚ := do
  let (sign, text) := takeSign text
  let (whole, text) := takeDigits text
  let (fraction, text) := takeFraction text
  let exponent ← readExponent text
  if whole = [] ∧ fraction = [] then none
  else some (sign * digitsValue (whole ++ fraction) * 10 ^ (exponent - fraction.length))

theorem takeSign_of_digits {digits : Text} (digit : ∀ c ∈ digits, c.isDigit) :
    takeSign digits = (1, digits) := by
  unfold takeSign
  split
  · exact absurd (digit '-' List.mem_cons_self) (by decide)
  · exact absurd (digit '+' List.mem_cons_self) (by decide)
  · rfl

theorem takeDigits_of_digits {digits : Text} (digit : ∀ c ∈ digits, c.isDigit) :
    takeDigits digits = (digits, []) := by
  rw [takeDigits, List.takeWhile_eq_self_iff.mpr digit, List.dropWhile_eq_nil_iff.mpr digit]

/-- Digits alone stand for a natural number. -/
theorem readDecimal_digits {digits : Text} (digit : ∀ c ∈ digits, c.isDigit)
    (nonempty : digits ≠ []) : readDecimal digits = some (digitsValue digits : ℚ) := by
  simp [readDecimal, takeSign_of_digits digit, takeDigits_of_digits digit, takeFraction,
    readExponent, nonempty]

/-- A minus and digits stand for an integer that is not positive. -/
theorem readDecimal_minus {digits : Text} (digit : ∀ c ∈ digits, c.isDigit)
    (nonempty : digits ≠ []) : readDecimal ('-' :: digits) = some (-(digitsValue digits : ℚ)) := by
  simp [readDecimal, takeSign, takeDigits_of_digits digit, takeFraction, readExponent, nonempty]

/-! ## Integers that are written -/

theorem next_digit {c : Char} (digit : c.isDigit) (stack : Stack) :
    next (.number .minus) stack c = next .value stack c := by
  have all : ∀ n < 58, 48 ≤ n →
      next (.number .minus) stack (Char.ofNat n) = next .value stack (Char.ofNat n) := by
    intro n below above
    interval_cases n <;> rfl
  obtain ⟨low, high⟩ := Char.isDigit_iff_toNat.mp digit
  rw [← Char.ofNat_toNat c]
  exact all c.toNat (Nat.lt_succ_of_le high) low

/-- A minus and a natural number in decimal. -/
def RawValue.negative (n : Nat) : RawValue where
  text := '-' :: Nat.toDigits 10 n
  valid := by
    obtain ⟨phase, accepted, complete⟩ := (RawValue.number n).feed []
    obtain ⟨c, rest, head⟩ := List.exists_cons_of_ne_nil (Nat.toDigits_ne_nil (b := 10) (n := n))
    have digit : c.isDigit := RawValue.isDigit_of_mem_digits (head ▸ List.mem_cons_self)
    change Json.feed (.value, []) (Nat.toDigits 10 n) = some (phase, []) at accepted
    have signed : Json.feed (.number .minus, []) (Nat.toDigits 10 n) = some (phase, []) := by
      rw [head, feed_cons] at accepted ⊢
      rwa [next_digit digit]
    exact isValue_iff.mpr ⟨⟨'-', _, rfl, rfl⟩, phase, signed, complete⟩

theorem readDecimal_number (n : Nat) : readDecimal (RawValue.number n).text = some (n : ℚ) := by
  have digit : ∀ c ∈ Nat.toDigits 10 n, c.isDigit := fun c mem =>
    RawValue.isDigit_of_mem_digits mem
  change readDecimal (Nat.toDigits 10 n) = some (n : ℚ)
  rw [readDecimal_digits digit Nat.toDigits_ne_nil, digitsValue, Nat.ofDigitChars_ten_toDigits]

theorem readDecimal_negative (n : Nat) :
    readDecimal (RawValue.negative n).text = some (-(n : ℚ)) := by
  have digit : ∀ c ∈ Nat.toDigits 10 n, c.isDigit := fun c mem =>
    RawValue.isDigit_of_mem_digits mem
  change readDecimal ('-' :: Nat.toDigits 10 n) = some (-(n : ℚ))
  rw [readDecimal_minus digit Nat.toDigits_ne_nil, digitsValue, Nat.ofDigitChars_ten_toDigits]

example : readDecimal "-12.50e1".toList = some (-125) := by
  decide +kernel

end Json
