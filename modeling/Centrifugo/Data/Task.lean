import Mathlib.Data.List.Basic
import Mathlib.Data.List.Perm.Basic

/-!
# Tasks that share a state

A task is a list of operations. An operation is one critical section: it takes the shared
state to its next value and gives the operations that the task has to do before it goes
on. It has to wait when it gives nothing.

`Finishes` runs a task to its end with nobody in between. `pull_out` and the lemmas after
it are for a pool of tasks, where the operations of all tasks are seen as one collection.
-/

/-- What an operation does. -/
abbrev Exec (σ ο : Type*) := ο → σ → Option (σ × List ο)

section Finishes

variable {σ ο : Type*} {exec : Exec σ ο} {ops ops' : List ο} {s m s' : σ}

/-- The operations run to their end with nobody in between. -/
inductive Finishes (exec : Exec σ ο) : List ο → σ → σ → Prop
  | nil (s : σ) : Finishes exec [] s s
  | cons {op : ο} {more rest : List ο} {s m s' : σ} :
      exec op s = some (m, more) → Finishes exec (more ++ rest) m s' →
        Finishes exec (op :: rest) s s'

namespace Finishes

theorem append (h : Finishes exec ops s m) (h' : Finishes exec ops' m s') :
    Finishes exec (ops ++ ops') s s' := by
  induction h with
  | nil => exact h'
  | cons move _ ih =>
      refine .cons move ?_
      have rest := ih h'
      rwa [List.append_assoc] at rest

theorem single {op : ο} {more : List ο} (move : exec op s = some (m, more))
    (h : Finishes exec more m s') : Finishes exec [op] s s' :=
  .cons move (by rwa [List.append_nil])

/-- An operation that leaves nothing to do. -/
theorem step {op : ο} (move : exec op s = some (m, [])) (h : Finishes exec ops m s') :
    Finishes exec (op :: ops) s s' :=
  .cons move h

/-- What every operation keeps, a run keeps. -/
theorem invariant (inv : σ → Prop)
    (keep : ∀ op s m more, inv s → exec op s = some (m, more) → inv m)
    (h : Finishes exec ops s s') (begin : inv s) : inv s' := by
  induction h with
  | nil => exact begin
  | cons move _ ih => exact ih (keep _ _ _ _ begin move)

end Finishes

end Finishes

/-! ## Pools of tasks -/

section Pool

variable {α β : Type*} {items : List α} {i : Nat} {a : α}

/-- What one task contributes to a pool can be exchanged without touching the rest. -/
theorem pull_out (f : α → List β) (found : items[i]? = some a) :
    ∃ others, (items.flatMap f).Perm (f a ++ others) ∧
      ∀ b, ((items.set i b).flatMap f).Perm (f b ++ others) := by
  induction items generalizing i with
  | nil => simp at found
  | cons first rest ih =>
      cases i with
      | zero =>
          cases found
          exact ⟨rest.flatMap f, .refl _, fun b => .refl _⟩
      | succ i =>
          obtain ⟨others, before, after⟩ := ih (by simpa using found)
          refine ⟨f first ++ others, ?_, ?_⟩
          · rw [List.flatMap_cons]
            exact (before.append_left _).trans (List.perm_append_comm_assoc _ _ _)
          · intro b
            rw [List.set_cons_succ, List.flatMap_cons]
            exact ((after b).append_left _).trans (List.perm_append_comm_assoc _ _ _)

theorem mem_of_set {b x : α} (h : x ∈ items.set i b) : x = b ∨ x ∈ items := by
  obtain member | same := List.mem_or_eq_of_mem_set h
  · exact .inr member
  · exact .inl same

theorem getElem?_set_of_some {j : Nat} {b x : α} (h : (items.set i b)[j]? = some x) :
    (j = i ∧ x = b) ∨ (j ≠ i ∧ items[j]? = some x) := by
  rw [List.getElem?_set] at h
  split at h
  next same =>
    left
    split at h
    next => exact ⟨same.symm, (Option.some.inj h).symm⟩
    next => cases h
  next other => exact .inr ⟨fun same => other same.symm, h⟩

theorem getElem?_append_singleton {j : Nat} {b x : α} (h : (items ++ [b])[j]? = some x) :
    items[j]? = some x ∨ (items.length = j ∧ b = x) := by
  rw [List.getElem?_append] at h
  split at h
  next => exact .inl h
  next beyond =>
    rw [List.getElem?_singleton] at h
    split at h
    next zero => exact .inr ⟨by omega, Option.some.inj h⟩
    next => cases h

end Pool
