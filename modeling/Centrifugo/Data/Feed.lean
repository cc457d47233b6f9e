import Mathlib.Data.List.Chain
import Mathlib.Data.Multiset.UnionInter

/-!
# Feeds of numbered messages

A source numbers its messages one after the other, and each message travels to a reader
on its own. A feed is what there is for one reader: the last number of the source, the
numbers on their way, and the numbers that arrived, in the order of their arrival. A
reader can also get numbers in one piece, from the memory of the source.

Arrivals are consecutive as long as the oldest message on its way arrives first. Nothing
comes twice as long as the memory is read before the same messages travel.
-/

structure Feed where
  top : Nat
  due : Multiset Nat
  placed : List Nat
  returned : List Nat

namespace Feed

/-- The source gives a new message its number. -/
def issue (f : Feed) : Feed := { f with top := f.top + 1, due := (f.top + 1) ::ₘ f.due }

/-- The reader begins anew, with what is on its way. -/
def begin (f : Feed) : Feed := { f with placed := [], returned := [] }

def arrive (f : Feed) (n : Nat) (due : Multiset Nat) : Feed :=
  { f with due := due, placed := f.placed ++ [n] }

def catchUp (f : Feed) (numbers : List Nat) : Feed := { f with returned := numbers }

variable {f : Feed} {n : Nat} {due : Multiset Nat}

/-! ## Arrivals without a gap -/

/-- The arrivals and then the numbers on their way count up to the last number. -/
def InStep (f : Feed) : Prop :=
  ∃ start ahead, f.placed = List.range' start f.placed.length ∧
    f.due = ↑(List.range' (start + f.placed.length) ahead) ∧
    start + f.placed.length + ahead = f.top + 1

theorem InStep.issue (h : f.InStep) : f.issue.InStep := by
  obtain ⟨start, ahead, placed, due, count⟩ := h
  refine ⟨start, ahead + 1, placed, ?_, ?_⟩
  · show (f.top + 1) ::ₘ f.due = ↑(List.range' (start + f.placed.length) (ahead + 1))
    rw [List.range'_1_concat, count, due]
    exact Multiset.coe_eq_coe.mpr (List.perm_append_singleton _ _).symm
  · show start + f.placed.length + (ahead + 1) = f.top + 1 + 1
    omega

/-- The oldest number on its way is the one after the last arrival. -/
theorem InStep.oldest (h : f.InStep) (split : f.due = n ::ₘ due)
    (oldest : ∀ m ∈ due, n ≤ m) :
    ∃ start ahead, f.placed = List.range' start f.placed.length ∧
      n = start + f.placed.length ∧ due = ↑(List.range' (n + 1) ahead) ∧
        n + 1 + ahead = f.top + 1 := by
  obtain ⟨start, ahead, placed, due_eq, count⟩ := h
  have mem : n ∈ List.range' (start + f.placed.length) ahead := by
    rw [← Multiset.mem_coe, ← due_eq, split]
    exact Multiset.mem_cons_self n due
  rw [List.mem_range'_1] at mem
  obtain _ | ahead := ahead
  · omega
  rw [List.range'_succ, ← Multiset.cons_coe, split] at due_eq
  have first : n = start + f.placed.length := by
    have self : start + f.placed.length ∈ n ::ₘ due := by
      rw [due_eq]
      exact Multiset.mem_cons_self _ _
    obtain same | later := Multiset.mem_cons.mp self
    · exact same.symm
    · have := oldest _ later
      omega
  rw [← first, Multiset.cons_inj_right] at due_eq
  exact ⟨start, ahead, placed, first, due_eq, by omega⟩

theorem InStep.arrive (h : f.InStep) (split : f.due = n ::ₘ due)
    (oldest : ∀ m ∈ due, n ≤ m) : (f.arrive n due).InStep := by
  obtain ⟨start, ahead, placed, next, rest, count⟩ := h.oldest split oldest
  have length : (f.arrive n due).placed.length = f.placed.length + 1 := by
    simp [Feed.arrive]
  refine ⟨start, ahead, ?_, ?_, ?_⟩
  · rw [length, List.range'_1_concat, ← placed, ← next]
    rfl
  · rw [length, ← Nat.add_assoc, ← next]
    exact rest
  · rw [length, ← Nat.add_assoc, ← next]
    exact count

/-- The numbers do not depend on what was given in one piece. -/
theorem InStep.of_eq {g : Feed} (h : f.InStep) (top : g.top = f.top) (due : g.due = f.due)
    (placed : g.placed = f.placed) : g.InStep := by
  unfold InStep
  rw [top, due, placed]
  exact h

/-- Numbers that each are one more than the one before. -/
def Consecutive (numbers : List Nat) : Prop := numbers.IsChain fun m n => n = m + 1

theorem consecutive_range' (start length : Nat) : Consecutive (List.range' start length) := by
  induction length generalizing start with
  | zero => exact .nil
  | succ length ih =>
      rw [List.range'_succ]
      refine List.isChain_cons.mpr ⟨?_, ih (start + 1)⟩
      intro next head
      cases length with
      | zero => cases head
      | succ length =>
          rw [List.range'_succ] at head
          cases head
          rfl

theorem InStep.consecutive (h : f.InStep) : Consecutive f.placed := by
  obtain ⟨start, _, placed, _, _⟩ := h
  rw [placed]
  exact consecutive_range' start _

/-! ## Nothing twice -/

/-- The numbers that the reader has got or will get. -/
def all (f : Feed) : Multiset Nat := (↑f.returned + ↑f.placed) + f.due

/-- No number comes twice, and none is larger than the last one. -/
structure Distinct (f : Feed) : Prop where
  nodup : f.all.Nodup
  bounded : ∀ m ∈ f.all, m ≤ f.top

theorem Distinct.issue (h : f.Distinct) : f.issue.Distinct := by
  have all : f.issue.all = (f.top + 1) ::ₘ f.all := Multiset.add_cons _ _ _
  refine ⟨?_, ?_⟩
  · rw [all, Multiset.nodup_cons]
    refine ⟨?_, h.nodup⟩
    intro mem
    have := h.bounded _ mem
    omega
  · intro m mem
    rw [all, Multiset.mem_cons] at mem
    show m ≤ f.top + 1
    obtain rfl | mem := mem
    · exact le_refl _
    · exact (h.bounded m mem).trans (Nat.le_succ _)

theorem Distinct.arrive (h : f.Distinct) (split : f.due = n ::ₘ due) :
    (f.arrive n due).Distinct := by
  have all : (f.arrive n due).all = f.all := by
    show ↑f.returned + ↑(f.placed ++ [n]) + due = ↑f.returned + ↑f.placed + f.due
    rw [split, ← Multiset.coe_add, Multiset.coe_singleton, ← Multiset.singleton_add,
      ← Multiset.add_assoc, ← Multiset.add_assoc]
  refine ⟨?_, ?_⟩
  · rw [all]
    exact h.nodup
  · intro m mem
    rw [all] at mem
    exact h.bounded m mem

theorem Distinct.lose (h : f.Distinct) (split : f.due = n ::ₘ due) :
    Distinct { f with due := due } := by
  have less : all { f with due := due } ≤ f.all := by
    show ↑f.returned + ↑f.placed + due ≤ ↑f.returned + ↑f.placed + f.due
    rw [split]
    exact Multiset.add_le_add_left (Multiset.le_cons_self due n)
  exact ⟨Multiset.nodup_of_le less h.nodup, fun m mem => h.bounded m (Multiset.mem_of_le less mem)⟩

theorem Distinct.begin (nodup : f.due.Nodup) (bounded : ∀ m ∈ f.due, m ≤ f.top) :
    f.begin.Distinct := by
  have all : f.begin.all = f.due := Multiset.zero_add _
  refine ⟨?_, ?_⟩
  · rw [all]
    exact nodup
  · rw [all]
    exact bounded

/-- The memory gives numbers that neither came nor are on their way. -/
theorem Distinct.catchUp (h : f.Distinct) {numbers : List Nat} (nodup : numbers.Nodup)
    (bounded : ∀ m ∈ numbers, m ≤ f.top) (apart : ∀ m ∈ numbers, m ∉ f.placed ∧ m ∉ f.due) :
    (f.catchUp numbers).Distinct := by
  have less : ↑f.placed + f.due ≤ f.all := by
    show ↑f.placed + f.due ≤ ↑f.returned + ↑f.placed + f.due
    rw [Multiset.add_assoc]
    exact Multiset.le_add_left _ _
  have all : (f.catchUp numbers).all = ↑numbers + (↑f.placed + f.due) := Multiset.add_assoc _ _ _
  refine ⟨?_, ?_⟩
  · rw [all, Multiset.nodup_add]
    refine ⟨nodup, Multiset.nodup_of_le less h.nodup, ?_⟩
    rw [Multiset.disjoint_left]
    intro m mem later
    obtain ⟨unplaced, undue⟩ := apart m mem
    obtain placed | due := Multiset.mem_add.mp later
    · exact unplaced placed
    · exact undue due
  · intro m mem
    rw [all, Multiset.mem_add] at mem
    obtain mem | mem := mem
    · exact bounded m mem
    · exact h.bounded m (Multiset.mem_of_le less mem)

theorem Distinct.answers (h : f.Distinct) : (f.returned ++ f.placed).Nodup := by
  have less : (↑(f.returned ++ f.placed) : Multiset Nat) ≤ f.all := Multiset.le_add_right _ _
  exact Multiset.coe_nodup.mp (Multiset.nodup_of_le less h.nodup)

end Feed
