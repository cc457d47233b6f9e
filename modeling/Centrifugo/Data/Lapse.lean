import Mathlib.Order.Lattice

/-!
# Values that lapse

A value may have a deadline, and once that has passed another one stands in its place. Someone
who acts on the deadline when he comes by next cannot be told from someone who acts in time.
-/

/-- A deadline that is over. Without a deadline nothing passes. -/
def Passed {τ : Type*} [LT τ] (deadline : Option τ) (now : τ) : Prop := ∃ d ∈ deadline, d < now

section Passed

variable {τ : Type*} [LinearOrder τ] {deadline : Option τ} {now later : τ}

instance : Decidable (Passed deadline now) :=
  match deadline with
  | none => .isFalse (by rintro ⟨d, mem, _⟩; cases mem)
  | some d => decidable_of_iff (d < now) (by simp [Passed])

@[simp] theorem not_passed_none : ¬ Passed none now := by
  rintro ⟨d, mem, _⟩
  cases mem

@[simp] theorem passed_some {d : τ} : Passed (some d) now ↔ d < now := by
  simp [Passed]

theorem Passed.mono (passed : Passed deadline now) (since : now ≤ later) :
    Passed deadline later := by
  obtain ⟨d, mem, before⟩ := passed
  exact ⟨d, mem, lt_of_lt_of_le before since⟩

end Passed

/-- A value with the time up to which it lasts. -/
structure Lapsing (τ α : Type*) where
  value : α
  deadline : Option τ

namespace Lapsing

variable {τ α : Type*} [LinearOrder τ] {next : α → α} {cell : Lapsing τ α} {now later : τ}

/-- The value at a time: the one that comes next stands in for one that has lapsed. -/
def valueAt (cell : Lapsing τ α) (next : α → α) (now : τ) : α :=
  if Passed cell.deadline now then next cell.value else cell.value

/-- Act on a deadline that has passed. -/
def sweep (cell : Lapsing τ α) (next : α → α) (now : τ) : Lapsing τ α :=
  if Passed cell.deadline now then ⟨next cell.value, none⟩ else cell

@[simp] theorem valueAt_none (value : α) : (⟨value, none⟩ : Lapsing τ α).valueAt next now = value :=
  if_neg not_passed_none

@[simp] theorem sweep_none (value : α) :
    (⟨value, none⟩ : Lapsing τ α).sweep next now = ⟨value, none⟩ :=
  if_neg not_passed_none

theorem valueAt_of_passed (passed : Passed cell.deadline now) :
    cell.valueAt next now = next cell.value :=
  if_pos passed

theorem valueAt_of_not (lasts : ¬ Passed cell.deadline now) : cell.valueAt next now = cell.value :=
  if_neg lasts

theorem sweep_of_passed (passed : Passed cell.deadline now) :
    cell.sweep next now = ⟨next cell.value, none⟩ :=
  if_pos passed

theorem sweep_of_not (lasts : ¬ Passed cell.deadline now) : cell.sweep next now = cell :=
  if_neg lasts

theorem sweep_value : (cell.sweep next now).value = cell.valueAt next now := by
  by_cases passed : Passed cell.deadline now
  · rw [sweep_of_passed passed, valueAt_of_passed passed]
  · rw [sweep_of_not passed, valueAt_of_not passed]

/-- A sweep on the way does not show later. -/
theorem valueAt_sweep (since : now ≤ later) :
    (cell.sweep next now).valueAt next later = cell.valueAt next later := by
  by_cases passed : Passed cell.deadline now
  · rw [sweep_of_passed passed, valueAt_none, valueAt_of_passed (passed.mono since)]
  · rw [sweep_of_not passed]

theorem sweep_sweep (since : now ≤ later) :
    (cell.sweep next now).sweep next later = cell.sweep next later := by
  by_cases passed : Passed cell.deadline now
  · rw [sweep_of_passed passed, sweep_none, sweep_of_passed (passed.mono since)]
  · rw [sweep_of_not passed]

end Lapsing
