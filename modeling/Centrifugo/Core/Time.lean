import Mathlib.Data.Int.Init
import Mathlib.Tactic.Linarith

/-!
# Seconds and deadlines

Deadlines are signed 64-bit numbers of seconds, with zero for no deadline. Sums of
them wrap. The clock reads a second count that is not negative, and every reading of
it is a separate input of the model.
-/

namespace Centrifugo

/-- Two's complement arithmetic in 64 bits. -/
def i64 (n : Int) : Int := n.bmod (2 ^ 64)

def i64Max : Int := 2 ^ 63 - 1

theorem i64_eq {n : Int} (low : -2 ^ 63 ≤ n) (high : n < 2 ^ 63) : i64 n = n := by
  unfold i64
  refine Int.bmod_eq_of_le ?_ ?_ <;> omega

/-- A reading of the wall clock, in seconds. -/
structure UnixTime where
  seconds : Int
  nonneg : 0 ≤ seconds
  bounded : seconds ≤ i64Max

namespace UnixTime

instance : Coe UnixTime Int := ⟨seconds⟩

def ofNat (n : Nat) (h : (n : Int) ≤ i64Max) : UnixTime := ⟨n, Int.natCast_nonneg n, h⟩

end UnixTime

/-- The readings a sequential piece of code takes, one after the other. -/
abbrev Clock := Nat → UnixTime

/-- The remaining seconds up to a deadline, as far as 32 bits hold them. -/
def ttlUntil (deadline : Int) (now : UnixTime) : UInt32 :=
  UInt32.ofNat (max (i64 (deadline - now.seconds)) 0).toNat

end Centrifugo
