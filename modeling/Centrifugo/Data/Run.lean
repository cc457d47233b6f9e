import Mathlib.Logic.Relation

/-!
# Runs of a transition system

A system is a relation between a state, an action and the next state. A property
that holds at the start and is kept by every step holds in every reachable state.
A run can be restricted to steps that meet a condition, which is again a system.
-/

variable {σ α : Type*}

/-- The states that a system can get into. -/
inductive Reachable (init : σ → Prop) (step : σ → α → σ → Prop) : σ → Prop
  | start {s : σ} : init s → Reachable init step s
  | next {s s' : σ} {a : α} : Reachable init step s → step s a s' → Reachable init step s'

/-- The steps that meet a condition on the state before them. -/
def guarded (step : σ → α → σ → Prop) (condition : σ → α → Prop) : σ → α → σ → Prop :=
  fun s a s' => condition s a ∧ step s a s'

namespace Reachable

variable {init : σ → Prop} {step step' : σ → α → σ → Prop} {s : σ}

theorem invariant (inv : σ → Prop) (base : ∀ s, init s → inv s)
    (keep : ∀ s a s', inv s → step s a s' → inv s') (h : Reachable init step s) : inv s := by
  induction h with
  | start begin => exact base _ begin
  | next _ move ih => exact keep _ _ _ ih move

theorem mono (weaker : ∀ s a s', step s a s' → step' s a s') (h : Reachable init step s) :
    Reachable init step' s := by
  induction h with
  | start begin => exact .start begin
  | next _ move ih => exact .next ih (weaker _ _ _ move)

/-- A guarded run is a run. -/
theorem of_guarded {condition : σ → α → Prop}
    (h : Reachable init (guarded step condition) s) : Reachable init step s :=
  h.mono fun _ _ _ move => move.2

end Reachable

/-- A finite sequence of steps. -/
inductive Steps (step : σ → α → σ → Prop) : σ → List α → σ → Prop
  | nil (s : σ) : Steps step s [] s
  | cons {s m s' : σ} {a : α} {actions : List α} :
      step s a m → Steps step m actions s' → Steps step s (a :: actions) s'

namespace Steps

variable {init : σ → Prop} {step : σ → α → σ → Prop} {s m s' : σ} {actions : List α}

theorem invariant (inv : σ → Prop) (keep : ∀ s a s', inv s → step s a s' → inv s')
    (h : Steps step s actions s') (begin : inv s) : inv s' := by
  induction h with
  | nil => exact begin
  | cons move _ ih => exact ih (keep _ _ _ begin move)

theorem eq_of_nil (h : Steps step s [] s') : s' = s := by
  cases h
  rfl

theorem append {more : List α} (h : Steps step s actions m) (h' : Steps step m more s') :
    Steps step s (actions ++ more) s' := by
  induction h with
  | nil => exact h'
  | cons move _ ih => exact .cons move (ih h')

/-- A run is one of another system when its steps are, as far as an invariant tells. -/
theorem mono {step' : σ → α → σ → Prop} (inv : σ → Prop)
    (keep : ∀ s a s', inv s → step s a s' → inv s')
    (weaker : ∀ s a s', inv s → step s a s' → step' s a s') (h : Steps step s actions s')
    (begin : inv s) : Steps step' s actions s' := by
  induction h with
  | nil s => exact .nil s
  | cons move _ ih => exact .cons (weaker _ _ _ begin move) (ih (keep _ _ _ begin move))

/-- A property either lasts through a run, or some step of the run may break it. -/
theorem kept_or_exists (p : σ → Prop) (breaks : σ → α → Prop)
    (keep : ∀ s a s', p s → step s a s' → p s' ∨ breaks s a)
    (h : Steps step s actions s') (begin : p s) :
    p s' ∨ ∃ front a rest m, actions = front ++ a :: rest ∧ Steps step s front m ∧ breaks m a := by
  induction h with
  | nil => exact .inl begin
  | cons move _ ih =>
      obtain kept | broken := keep _ _ _ begin move
      · obtain kept | ⟨front, a, rest, m, split, before, broken⟩ := ih kept
        · exact .inl kept
        · exact .inr ⟨_ :: front, a, rest, m, by rw [split]; rfl, .cons move before, broken⟩
      · exact .inr ⟨[], _, _, _, rfl, .nil _, broken⟩

/-- Where a property does not last, there is a step that broke it for the rest of the run. -/
theorem kept_or_lost (p : σ → Prop) (breaks : σ → α → Prop)
    (keep : ∀ s a s', p s → step s a s' → p s' ∨ breaks s a)
    (h : Steps step s actions s') (begin : p s) :
    p s' ∨ ∃ front a rest m m', actions = front ++ a :: rest ∧ Steps step s front m ∧
      breaks m a ∧ step m a m' ∧ Steps (guarded step fun k _ => ¬ p k) m' rest s' := by
  -- a run that starts without the property may never get it
  suffices p s' ∨ (¬ p s ∧ Steps (guarded step fun k _ => ¬ p k) s actions s') ∨
      ∃ front a rest m m', actions = front ++ a :: rest ∧ Steps step s front m ∧
        breaks m a ∧ step m a m' ∧ Steps (guarded step fun k _ => ¬ p k) m' rest s' by
    obtain kept | ⟨never, _⟩ | lost := this
    · exact .inl kept
    · exact absurd begin never
    · exact .inr lost
  clear begin
  induction h with
  | nil s =>
      by_cases here : p s
      · exact .inl here
      · exact .inr (.inl ⟨here, .nil s⟩)
  | @cons s m s' a actions move _ ih =>
      obtain kept | ⟨never, run⟩ | ⟨front, b, rest, k, k', split, before, lost⟩ := ih
      · exact .inl kept
      · right
        by_cases here : p s
        · have broken := (keep s a m here move).resolve_left never
          exact .inr ⟨[], a, actions, s, m, rfl, .nil s, broken, move, run⟩
        · exact .inl ⟨here, .cons ⟨here, move⟩ run⟩
      · exact .inr (.inr ⟨a :: front, b, rest, k, k', by rw [split]; rfl, .cons move before, lost⟩)

/-- The run of a step function that computes its next state. -/
theorem of_foldlM {next : σ → α → Option σ} (moves : ∀ s a s', next s a = some s' → step s a s')
    (h : actions.foldlM next s = some s') : Steps step s actions s' := by
  induction actions generalizing s with
  | nil =>
      cases h
      exact .nil _
  | cons a actions ih =>
      obtain ⟨m, move, rest⟩ := Option.bind_eq_some_iff.mp h
      exact .cons (moves s a m move) (ih rest)

/-- The same with a condition that is checked on the way. -/
theorem guarded_of_foldlM {next : σ → α → Option σ} {condition : σ → α → Prop}
    [∀ s a, Decidable (condition s a)]
    (h : actions.foldlM (fun s a => if condition s a then next s a else none) s = some s') :
    Steps (guarded (fun s a s' => next s a = some s') condition) s actions s' := by
  apply of_foldlM _ h
  intro s a s' move
  split at move
  next holds => exact ⟨holds, move⟩
  next => cases move

theorem reachable (h : Steps step s actions s') (begin : Reachable init step s) :
    Reachable init step s' :=
  h.invariant (Reachable init step) (fun _ _ _ here move => .next here move) begin

end Steps
