/-!
# Guarded computations

A computation in `Except` that first demands conditions and values and then goes on.
It succeeds exactly when everything that it demands is there.
-/

namespace Guard

variable {ε α β : Type}

theorem bind_eq_ok {m : Except ε α} {rest : α → Except ε β} {b : β} :
    (m >>= rest) = .ok b ↔ ∃ a, m = .ok a ∧ rest a = .ok b := by
  cases m with
  | error e =>
      constructor
      · intro h
        cases h
      · intro h
        obtain ⟨_, absent, _⟩ := h
        cases absent
  | ok a =>
      constructor
      · intro h
        exact ⟨a, rfl, h⟩
      · intro h
        obtain ⟨_, same, rest⟩ := h
        cases same
        exact rest

theorem bind_eq_error {m : Except ε α} {rest : α → Except ε β} {e : ε} :
    (m >>= rest) = .error e ↔ m = .error e ∨ ∃ a, m = .ok a ∧ rest a = .error e := by
  cases m with
  | error e' =>
      constructor
      · intro h
        cases h
        exact .inl rfl
      · rintro (h | ⟨_, absent, _⟩)
        · cases h
          rfl
        · cases absent
  | ok a =>
      constructor
      · intro h
        exact .inr ⟨a, rfl, h⟩
      · rintro (h | ⟨_, same, rest⟩)
        · cases h
        · cases same
          exact rest

/-- Go on when a condition holds, and end with an error otherwise. -/
def demand (condition : Bool) (error : ε) : Except ε Unit :=
  if condition then .ok () else .error error

@[simp] theorem demand_eq_ok {condition : Bool} {error : ε} {u : Unit} :
    demand condition error = .ok u ↔ condition = true := by
  cases condition with
  | true => exact ⟨fun _ => rfl, fun _ => rfl⟩
  | false =>
      constructor
      · intro h
        cases h
      · intro h
        cases h

theorem demand_bind {condition : Bool} {error : ε} {rest : Unit → Except ε α} {a : α} :
    (demand condition error >>= rest) = .ok a ↔ condition = true ∧ rest () = .ok a := by
  rw [bind_eq_ok]
  constructor
  · intro h
    obtain ⟨u, met, next⟩ := h
    exact ⟨demand_eq_ok.mp met, next⟩
  · intro h
    exact ⟨(), demand_eq_ok.mpr h.1, h.2⟩

/-- Go on with the value of an option, and end with an error when there is none. -/
def require (value : Option α) (error : ε) : Except ε α :=
  match value with
  | some a => .ok a
  | none => .error error

@[simp] theorem require_eq_ok {value : Option α} {error : ε} {a : α} :
    require value error = .ok a ↔ value = some a := by
  cases value <;> simp [require]

theorem require_some_bind (a : α) (error : ε) (rest : α → Except ε β) :
    (require (some a) error >>= rest) = rest a := rfl

theorem require_bind {value : Option α} {error : ε} {rest : α → Except ε β} {b : β} :
    (require value error >>= rest) = .ok b ↔ ∃ a, value = some a ∧ rest a = .ok b := by
  rw [bind_eq_ok]
  constructor
  · intro h
    obtain ⟨a, found, next⟩ := h
    exact ⟨a, require_eq_ok.mp found, next⟩
  · intro h
    obtain ⟨a, found, next⟩ := h
    exact ⟨a, require_eq_ok.mpr found, next⟩

end Guard
