import Mathlib.Data.List.Forall2

/-!
# Wildcard patterns

A pattern is a sequence of symbols: one that stands for any run of characters, one that
stands for any single character, and the characters that stand for themselves. Which
runs the first of them may stand for, and before which rest of the text, is a parameter.
With every run admitted this is the language of the pattern. A matcher that compares a
pattern and a text character by character before it looks at the wildcards reads a star
that faces a star of the text as that one character, and so admits fewer runs.
-/

namespace Glob

variable {α : Type}

inductive Symbol (α : Type) where
  | run
  | one
  | lit (c : α)
deriving DecidableEq, Repr

/-- The texts of a pattern whose runs are admitted by `may`, which is given the run and
the text after it. -/
inductive Matches (may : List α → List α → Prop) : List (Symbol α) → List α → Prop
  | nil : Matches may [] []
  | run {q : List (Symbol α)} {r t : List α} :
      may r t → Matches may q t → Matches may (.run :: q) (r ++ t)
  | one {q : List (Symbol α)} {c : α} {t : List α} :
      Matches may q t → Matches may (.one :: q) (c :: t)
  | lit {q : List (Symbol α)} {c : α} {t : List α} :
      Matches may q t → Matches may (.lit c :: q) (c :: t)

/-- The language of a pattern: a run is any sequence of characters. -/
def InLanguage : List (Symbol α) → List α → Prop := Matches fun _ _ => True

/-- A run that begins at a star of the text is just that star. -/
def Faced (star : α) : List (Symbol α) → List α → Prop :=
  Matches fun r t => (r ++ t).head? = some star → r = [star]

section Matches

variable {may may' : List α → List α → Prop} {q : List (Symbol α)} {t : List α}

theorem Matches.mono (wider : ∀ r t, may r t → may' r t) (h : Matches may q t) :
    Matches may' q t := by
  induction h with
  | nil => exact .nil
  | run admitted _ ih => exact .run (wider _ _ admitted) ih
  | one _ ih => exact .one ih
  | lit _ ih => exact .lit ih

@[simp] theorem matches_nil : Matches may [] t ↔ t = [] := by
  constructor
  · intro h
    cases h
    rfl
  · rintro rfl
    exact .nil

theorem matches_run : Matches may (.run :: q) t ↔
    ∃ k, may (t.take k) (t.drop k) ∧ Matches may q (t.drop k) := by
  constructor
  · intro h
    cases h with
    | @run _ r rest admitted after =>
        exact ⟨r.length, by simpa using admitted, by simpa using after⟩
  · rintro ⟨k, admitted, after⟩
    rw [← List.take_append_drop k t]
    exact .run admitted after

@[simp] theorem matches_one_cons {c : α} :
    Matches may (.one :: q) (c :: t) ↔ Matches may q t := by
  constructor
  · intro h
    cases h with
    | one after => exact after
  · exact .one

@[simp] theorem matches_lit_cons {c d : α} :
    Matches may (.lit c :: q) (d :: t) ↔ c = d ∧ Matches may q t := by
  constructor
  · intro h
    cases h with
    | lit after => exact ⟨rfl, after⟩
  · rintro ⟨rfl, after⟩
    exact .lit after

@[simp] theorem not_matches_one_nil : ¬ Matches may (.one :: q) [] := by
  intro h
  cases h

@[simp] theorem not_matches_lit_nil {c : α} : ¬ Matches may (.lit c :: q) [] := by
  intro h
  cases h

theorem matches_literals_append (w : List α) :
    Matches may (w.map .lit ++ q) (w ++ t) ↔ Matches may q t := by
  induction w with
  | nil => rfl
  | cons c w ih =>
      rw [List.map_cons, List.cons_append, List.cons_append, matches_lit_cons, ih]
      exact and_iff_right rfl

theorem matches_literals (w : List α) : Matches may (w.map .lit) w := by
  induction w with
  | nil => exact .nil
  | cons c w ih => exact .lit ih

end Matches

section Faced

variable {star : α} {q : List (Symbol α)} {t : List α}

theorem Faced.inLanguage (h : Faced star q t) : InLanguage q t :=
  Matches.mono (fun _ _ _ => trivial) h

/-- A text without stars has nothing for a star of the pattern to face. -/
theorem InLanguage.faced (h : InLanguage q t) (plain : star ∉ t) : Faced star q t := by
  induction h with
  | nil => exact .nil
  | @run q r t _ _ ih =>
      refine .run ?_ (ih fun present => plain (List.mem_append_right r present))
      intro faces
      exact absurd (List.mem_of_mem_head? faces) plain
  | one _ ih => exact .one (ih fun present => plain (List.mem_cons_of_mem _ present))
  | lit _ ih => exact .lit (ih fun present => plain (List.mem_cons_of_mem _ present))

/-- A star that faces a star of the text is read like any other character. -/
theorem faced_run_star : Faced star (.run :: q) (star :: t) ↔ Faced star q t := by
  rw [Faced, matches_run]
  constructor
  · rintro ⟨k, only, after⟩
    have single := only (by simp)
    match k with
    | 0 => simp at single
    | k + 1 =>
        have short : t.take k = [] := by simpa using single
        rcases List.take_eq_nil_iff.mp short with rfl | rfl
        · exact after
        · simpa using after
  · intro after
    exact ⟨1, by simp, after⟩

theorem Faced.after_run (h : Faced star (.run :: q) t) : ∃ k, Faced star q (t.drop k) := by
  obtain ⟨k, _, after⟩ := matches_run.mp h
  exact ⟨k, after⟩

/-- A star that faces no star of the text stands for any run. -/
theorem faced_run_iff (away : t.head? ≠ some star) :
    Faced star (.run :: q) t ↔ ∃ k, Faced star q (t.drop k) := by
  constructor
  · exact Faced.after_run
  · rintro ⟨k, after⟩
    refine matches_run.mpr ⟨k, ?_, after⟩
    rw [List.take_append_drop]
    intro faces
    exact absurd faces away

/-- A symbol reads a character directly: it stands for any, or the two are the same. -/
def Reads (star : α) : Symbol α → α → Prop
  | .run, c => c = star
  | .one, _ => True
  | .lit d, c => d = c

theorem faced_cons_of_reads {s : Symbol α} {c : α} (reads : Reads star s c) :
    Faced star (s :: q) (c :: t) ↔ Faced star q t := by
  match s with
  | .run =>
      obtain rfl : c = star := reads
      exact faced_run_star
  | .one => exact matches_one_cons
  | .lit d =>
      have same : d = c := reads
      rw [Faced, matches_lit_cons]
      exact and_iff_right same

/-- A text is not matched when its first character is not read and no star can take it. -/
theorem not_faced_cons {s : Symbol α} {c : α} (away : ¬ Reads star s c) (fixed : s ≠ .run) :
    ¬ Faced star (s :: q) (c :: t) := by
  match s with
  | .run => exact absurd rfl fixed
  | .one => exact absurd trivial away
  | .lit d =>
      intro h
      exact away (matches_lit_cons.mp h).1

/-- At the end of the text only stars are left. -/
theorem faced_nil_iff : Faced star q [] ↔ ∀ s ∈ q, s = .run := by
  induction q with
  | nil => simp [Faced]
  | cons s q ih =>
      match s with
      | .run =>
          rw [faced_run_iff (by simp)]
          simp [ih]
      | .one => simp [Faced]
      | .lit c => simp [Faced]

/-- Giving up an earlier star loses nothing. When the symbols `u` have read the text from
some place on, a match of `u ++ q` that begins later in the text is a match of `q` that
begins where `u` ended, or later. The induction is on the symbols read; a star among them
that faces no star in the later reading takes a run, which only moves it on. -/
theorem Faced.exchange {u : List (Symbol α)} {w T : List α} (read : List.Forall₂ (Reads star) u w)
    {d : Nat} (h : Faced star (u ++ q) ((w ++ T).drop d)) :
    ∃ k, Faced star q (T.drop k) := by
  induction read generalizing d with
  | nil => exact ⟨d, h⟩
  | @cons s c u w reads _ ih =>
      match d with
      | 0 => exact ih (d := 0) ((faced_cons_of_reads reads).mp h)
      | d + 1 =>
          have later : Faced star (s :: (u ++ q)) ((w ++ T).drop d) := h
          match rest : (w ++ T).drop d with
          | [] =>
              rw [rest] at later
              refine ih (d := d) ?_
              rw [rest, faced_nil_iff]
              intro s' present
              exact faced_nil_iff.mp later s' (List.mem_cons_of_mem s present)
          | c' :: T' =>
              have after : (w ++ T).drop (d + 1) = T' := by
                rw [← List.tail_drop, rest]
                rfl
              rw [rest] at later
              by_cases next : Reads star s c'
              · refine ih (d := d + 1) ?_
                rw [after]
                exact (faced_cons_of_reads next).mp later
              · by_cases fixed : s = .run
                · subst fixed
                  have off : (c' :: T').head? ≠ some star :=
                    fun faces => next (Option.some.inj faces)
                  obtain ⟨k, moved⟩ := (faced_run_iff off).mp later
                  refine ih (d := d + k) ?_
                  rw [← List.drop_drop, rest]
                  exact moved
                · exact absurd later (not_faced_cons next fixed)

end Faced

end Glob
