import Mathlib.Data.List.Basic
import Mathlib.Data.List.Infix
import Mathlib.Data.List.Pairwise

/-!
# Numbered logs

The entries of a log carry their own positions, counted from one. A reader that
keeps only the end of the log can still answer which entries follow a position,
and whether it kept all of them: the first one that it has tells.
-/

namespace Log

variable {α : Type*} {position : α → Nat}

/-- The entries of `log` carry the positions after `start`, in order. -/
def NumberedFrom (position : α → Nat) : Nat → List α → Prop
  | _, [] => True
  | start, a :: log => position a = start + 1 ∧ NumberedFrom position (start + 1) log

namespace NumberedFrom

theorem append {start : Nat} {log : List α} (h : NumberedFrom position start log) {a : α}
    (ha : position a = start + log.length + 1) : NumberedFrom position start (log ++ [a]) := by
  induction log generalizing start with
  | nil => exact ⟨by simpa using ha, trivial⟩
  | cons b log ih =>
      refine ⟨h.1, ih h.2 ?_⟩
      rw [ha, List.length_cons]
      omega

theorem drop {start : Nat} {log : List α} (h : NumberedFrom position start log) (k : Nat)
    (bound : k ≤ log.length) : NumberedFrom position (start + k) (log.drop k) := by
  induction log generalizing start k with
  | nil => simp [NumberedFrom]
  | cons b log ih =>
      cases k with
      | zero => exact h
      | succ k =>
          have rest := ih h.2 k (by simpa using bound)
          rw [List.drop_succ_cons]
          have shift : start + (k + 1) = start + 1 + k := by omega
          rw [shift]
          exact rest

theorem bounds {start : Nat} {log : List α} (h : NumberedFrom position start log) {a : α}
    (mem : a ∈ log) : start < position a ∧ position a ≤ start + log.length := by
  induction log generalizing start with
  | nil => cases mem
  | cons b log ih =>
      obtain ⟨first, rest⟩ := h
      rw [List.length_cons]
      rcases List.mem_cons.mp mem with rfl | mem
      · omega
      · have := ih rest mem
        omega

/-- Positions increase along the log. -/
theorem increasing {start : Nat} {log : List α} (h : NumberedFrom position start log) :
    log.Pairwise fun a b => position a < position b := by
  induction log generalizing start with
  | nil => exact .nil
  | cons b log ih =>
      refine List.pairwise_cons.mpr ⟨?_, ih h.2⟩
      intro a mem
      have := (h.2.bounds mem).1
      have := h.1
      omega

/-- What follows a position is the rest of the log from there. -/
theorem filter_gt {start : Nat} {log : List α} (h : NumberedFrom position start log) (p : Nat) :
    log.filter (fun a => p < position a) = log.drop (p - start) := by
  induction log generalizing start with
  | nil => simp
  | cons b log ih =>
      obtain ⟨first, rest⟩ := h
      by_cases before : p ≤ start
      · have kept : p < position b := by omega
        have none : p - start = 0 := by omega
        have all := ih rest
        have none' : p - (start + 1) = 0 := by omega
        rw [none', List.drop_zero] at all
        rw [List.filter_cons_of_pos (by simpa using kept), all, none, List.drop_zero]
      · have dropped : ¬ p < position b := by omega
        have shift : p - start = p - (start + 1) + 1 := by omega
        rw [List.filter_cons_of_neg (by simpa using dropped), ih rest, shift,
          List.drop_succ_cons]

theorem head_drop {start : Nat} {log : List α} (h : NumberedFrom position start log) {k : Nat}
    {a : α} (head : (log.drop k).head? = some a) : position a = start + k + 1 := by
  induction log generalizing start k with
  | nil => simp at head
  | cons b log ih =>
      cases k with
      | zero =>
          cases head
          exact h.1
      | succ k =>
          have rest := ih h.2 (k := k) (by simpa using head)
          omega

/-- Every position that the log reaches is that of an entry. -/
theorem exists_mem {start n : Nat} {log : List α} (h : NumberedFrom position start log)
    (after : start < n) (upTo : n ≤ start + log.length) : ∃ a ∈ log, position a = n := by
  induction log generalizing start with
  | nil =>
      rw [List.length_nil] at upTo
      omega
  | cons b log ih =>
      obtain ⟨first, rest⟩ := h
      rw [List.length_cons] at upTo
      by_cases here : n = start + 1
      · exact ⟨b, List.mem_cons_self, first.trans here.symm⟩
      · obtain ⟨a, mem, place⟩ := ih rest (by omega) (by omega)
        exact ⟨a, List.mem_cons_of_mem b mem, place⟩

end NumberedFrom

/-- A whole log: positions count from one. -/
abbrev Numbered (position : α → Nat) (log : List α) : Prop := NumberedFrom position 0 log

/-- The test by the first entry that follows a position: it is the next one, or there
is none and the position is the end of the log. -/
def caughtUp (position : α → Nat) (following : List α) (p top : Nat) : Bool :=
  match following.head? with
  | some first => position first = p + 1
  | none => top = p

variable {log kept : List α}

theorem kept_eq_drop (suffix : kept <:+ log) : kept = log.drop (log.length - kept.length) :=
  List.suffix_iff_eq_drop.mp suffix

/-- What a reader finds after a position is what follows it in the whole log, from
where the reader's part begins. -/
theorem following_eq (numbered : Numbered position log) (suffix : kept <:+ log) (p : Nat) :
    kept.filter (fun a => p < position a) = log.drop (max p (log.length - kept.length)) := by
  have part := kept_eq_drop suffix
  have short := suffix.length_le
  have numberedPart := numbered.drop (log.length - kept.length) (by omega)
  rw [← part, Nat.zero_add] at numberedPart
  have place : log.length - kept.length + (p - (log.length - kept.length)) =
      max p (log.length - kept.length) := by omega
  rw [numberedPart.filter_gt p, ← place, ← List.drop_drop, ← part]

/-- Nothing after `p` is missing exactly when the reader's part begins at `p` or
before. -/
theorem all_kept_iff (numbered : Numbered position log) (suffix : kept <:+ log) {p : Nat}
    (inside : p ≤ log.length) :
    (∀ a ∈ log, p < position a → a ∈ kept) ↔ log.length - kept.length ≤ p := by
  have part := kept_eq_drop suffix
  have short := suffix.length_le
  have numberedPart := numbered.drop (log.length - kept.length) (by omega)
  rw [← part] at numberedPart
  constructor
  · intro all
    by_contra missing
    have next : p < log.length := by omega
    have split : log = log.take p ++ log.drop p := (List.take_append_drop p log).symm
    obtain ⟨a, rest, head⟩ := List.exists_cons_of_length_pos
      (show 0 < (log.drop p).length by rw [List.length_drop]; omega)
    have place : position a = 0 + p + 1 := numbered.head_drop (k := p) (by rw [head]; rfl)
    have mem : a ∈ log := List.mem_of_mem_drop (head ▸ List.mem_cons_self)
    have := (numberedPart.bounds (all a mem (by omega))).1
    omega
  · intro early a mem after
    have following := following_eq numbered suffix p
    rw [Nat.max_eq_left early] at following
    have found : a ∈ kept.filter (fun a => p < position a) := by
      have whole : a ∈ log.filter (fun a => p < position a) := by simp [mem, after]
      rw [numbered.filter_gt p, Nat.sub_zero] at whole
      rw [following]
      exact whole
    exact (List.mem_filter.mp found).1

/-- The test by the first entry is right: it succeeds exactly when the position is
inside the log and nothing that follows it was dropped. -/
theorem caughtUp_iff (numbered : Numbered position log) (suffix : kept <:+ log) (p : Nat) :
    caughtUp position (kept.filter fun a => p < position a) p log.length ↔
      p ≤ log.length ∧ ∀ a ∈ log, p < position a → a ∈ kept := by
  have short := suffix.length_le
  rw [following_eq numbered suffix p, caughtUp]
  cases head : (log.drop (max p (log.length - kept.length))).head? with
  | none =>
      have empty := List.head?_eq_none_iff.mp head
      have beyond : log.length ≤ max p (log.length - kept.length) := List.drop_eq_nil_iff.mp empty
      simp only [decide_eq_true_iff]
      constructor
      · rintro rfl
        refine ⟨le_refl _, ?_⟩
        intro a mem after
        have := (numbered.bounds mem).2
        omega
      · rintro ⟨inside, all⟩
        have early := (all_kept_iff numbered suffix inside).mp all
        omega
  | some first =>
      have place : position first = 0 + max p (log.length - kept.length) + 1 :=
        numbered.head_drop head
      have nonempty : max p (log.length - kept.length) < log.length := by
        by_contra beyond
        rw [List.drop_eq_nil_of_le (by omega)] at head
        cases head
      simp only [decide_eq_true_iff]
      constructor
      · intro next
        have inside : p ≤ log.length := by omega
        exact ⟨inside, (all_kept_iff numbered suffix inside).mpr (by omega)⟩
      · rintro ⟨inside, all⟩
        have early := (all_kept_iff numbered suffix inside).mp all
        omega

/-- When nothing is missing, the reader finds exactly the rest of the log. -/
theorem following_of_caughtUp (numbered : Numbered position log) (suffix : kept <:+ log)
    {p : Nat} (inside : p ≤ log.length) (all : ∀ a ∈ log, p < position a → a ∈ kept) :
    kept.filter (fun a => p < position a) = log.drop p := by
  rw [following_eq numbered suffix p,
    Nat.max_eq_left ((all_kept_iff numbered suffix inside).mp all)]

end Log
