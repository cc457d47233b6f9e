import Mathlib.Tactic.Ring

/-!
# Numbers in seven bits a byte

Each byte but the last one has its high bit set, and the lower seven bits of the bytes are the
digits of the number, the lowest first. A number has many such texts, which end in more and more
zero digits, and one that is shorter than all others.
-/

namespace Base128

variable {bytes other front rest : List UInt8} {n : Nat}

/-- The last byte is the only one without its high bit. -/
inductive Terminated : List UInt8 → Prop
  | last {byte : UInt8} : byte.toNat < 128 → Terminated [byte]
  | more {byte : UInt8} {rest : List UInt8} :
      128 ≤ byte.toNat → Terminated rest → Terminated (byte :: rest)

/-- The number in the lower bits. -/
def value : List UInt8 → Nat
  | [] => 0
  | byte :: rest => byte.toNat % 128 + 128 * value rest

@[simp] theorem value_nil : value [] = 0 := rfl

@[simp] theorem value_cons (byte : UInt8) (rest : List UInt8) :
    value (byte :: rest) = byte.toNat % 128 + 128 * value rest := rfl

theorem value_singleton (byte : UInt8) : value [byte] = byte.toNat % 128 := rfl

theorem value_append (front rest : List UInt8) :
    value (front ++ rest) = value front + 128 ^ front.length * value rest := by
  induction front with
  | nil => simp
  | cons byte front ih =>
      rw [List.cons_append, value_cons, value_cons, ih, List.length_cons, Nat.pow_succ]
      ring

theorem value_lt (bytes : List UInt8) : value bytes < 128 ^ bytes.length := by
  induction bytes with
  | nil => exact Nat.one_pos
  | cons byte rest ih =>
      have digit := Nat.mod_lt byte.toNat (show 128 > 0 by decide)
      rw [value_cons, List.length_cons, Nat.pow_succ]
      omega

namespace Terminated

theorem ne_nil (h : Terminated bytes) : bytes ≠ [] := by
  cases h <;> exact List.cons_ne_nil _ _

/-- Bytes with their high bit, and one without it. -/
theorem iff_split : Terminated bytes ↔ ∃ front byte, bytes = front ++ [byte] ∧
    (∀ b ∈ front, 128 ≤ b.toNat) ∧ byte.toNat < 128 := by
  constructor
  · intro h
    induction h with
    | @last byte small => exact ⟨[], byte, rfl, by simp, small⟩
    | @more first rest large _ ih =>
        obtain ⟨front, byte, rfl, high, small⟩ := ih
        exact ⟨first :: front, byte, rfl, List.forall_mem_cons.mpr ⟨large, high⟩, small⟩
  · rintro ⟨front, byte, rfl, high, small⟩
    induction front with
    | nil => exact .last small
    | cons first front ih =>
        obtain ⟨large, high⟩ := List.forall_mem_cons.mp high
        exact .more large (ih high)

/-- A buffer has at most one text at its front. -/
theorem eq_of_append {rest' : List UInt8} (h : Terminated bytes) (h' : Terminated other)
    (same : bytes ++ rest = other ++ rest') : bytes = other ∧ rest = rest' := by
  induction h generalizing other with
  | last small =>
      cases h' with
      | last => simpa using same
      | more large =>
          obtain ⟨rfl, -⟩ := List.cons.inj same
          omega
  | more large _ ih =>
      cases h' with
      | last small =>
          obtain ⟨rfl, -⟩ := List.cons.inj same
          omega
      | more _ h' =>
          obtain ⟨rfl, tails⟩ := List.cons.inj same
          obtain ⟨rfl, rfl⟩ := ih h' tails
          exact ⟨rfl, rfl⟩

end Terminated

/-! ## The shortest text -/

/-- The digits of a number, without a zero at the end. -/
def encode (n : Nat) : List UInt8 :=
  if n < 128 then [UInt8.ofNat n] else UInt8.ofNat (n % 128 + 128) :: encode (n / 128)
termination_by n
decreasing_by omega

theorem encode_of_lt (small : n < 128) : encode n = [UInt8.ofNat n] := by
  rw [encode, if_pos small]

theorem encode_of_le (large : 128 ≤ n) :
    encode n = UInt8.ofNat (n % 128 + 128) :: encode (n / 128) := by
  rw [encode, if_neg (by omega)]

theorem terminated_encode (n : Nat) : Terminated (encode n) := by
  induction n using encode.induct with
  | case1 n small =>
      rw [encode_of_lt small]
      refine .last ?_
      rw [UInt8.toNat_ofNat']
      omega
  | case2 n large ih =>
      rw [encode_of_le (by omega)]
      refine .more ?_ ih
      rw [UInt8.toNat_ofNat']
      omega

@[simp] theorem value_encode (n : Nat) : value (encode n) = n := by
  induction n using encode.induct with
  | case1 n small =>
      rw [encode_of_lt small, value_singleton, UInt8.toNat_ofNat']
      omega
  | case2 n large ih =>
      rw [encode_of_le (by omega), value_cons, UInt8.toNat_ofNat', ih]
      omega

/-- Any other text of the number is longer. -/
theorem encode_shortest (h : Terminated bytes) (same : value bytes = n) :
    bytes = encode n ∨ (encode n).length < bytes.length := by
  induction h generalizing n with
  | @last byte small =>
      rw [value_singleton] at same
      have here : n = byte.toNat := by omega
      left
      rw [here, encode_of_lt small, UInt8.ofNat_toNat]
  | @more byte rest large terminated ih =>
      rw [value_cons] at same
      by_cases small : n < 128
      · right
        have nonempty := List.length_pos_iff.mpr terminated.ne_nil
        rw [encode_of_lt small, List.length_cons, List.length_cons, List.length_nil]
        omega
      · have digit : byte = UInt8.ofNat (n % 128 + 128) := by
          have bound := byte.toNat_lt
          refine UInt8.toNat_inj.mp ?_
          rw [UInt8.toNat_ofNat']
          omega
        rw [encode_of_le (by omega), ← digit]
        obtain shorter | longer := ih (show value rest = n / 128 by omega)
        · exact .inl (congrArg (byte :: ·) shorter)
        · exact .inr (Nat.succ_lt_succ longer)

theorem length_encode_le {k : Nat} (fits : n < 128 ^ (k + 1)) : (encode n).length ≤ k + 1 := by
  induction k generalizing n with
  | zero =>
      rw [encode_of_lt (by simpa using fits)]
      exact Nat.le_refl _
  | succ k ih =>
      by_cases small : n < 128
      · rw [encode_of_lt small]
        exact Nat.succ_le_succ (Nat.zero_le _)
      · rw [Nat.pow_succ] at fits
        rw [encode_of_le (by omega)]
        exact Nat.succ_le_succ (ih (by omega))

end Base128
