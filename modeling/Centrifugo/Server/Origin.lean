import Centrifugo.Data.Glob
import Centrifugo.Json.Utf8

/-!
# Allowed origins

A request with an origin is let in when one of the configured patterns matches it. The
matcher keeps an index into the pattern and one into the text, and of the stars that it
has passed it remembers the last. It compares the two bytes before it looks for a star,
so a star that faces a star of the text is read as that byte and is not remembered.
-/

namespace Centrifugo

open Json Glob

def asBytes (s : String) : Bytes := encodeUtf8 s.toList

/-- The byte of `*`. -/
def starByte : UInt8 := 42

/-- The byte of `?`. -/
def anyByte : UInt8 := 63

/-! ## The matcher -/

/-- Where the matcher is in the pattern and in the text, and the last star with the place
in the text from which its run was last taken to end. -/
structure Cursor (pat text : Bytes) where
  p : Nat
  t : Nat
  star : Option Nat
  mark : Nat
  p_le : p ≤ pat.length
  t_le : t ≤ text.length
  star_lt : ∀ sp ∈ star, sp < p
  mark_le : mark ≤ t

namespace Cursor

variable {pat text : Bytes}

def start (pat text : Bytes) : Cursor pat text where
  p := 0
  t := 0
  star := none
  mark := 0
  p_le := Nat.zero_le _
  t_le := Nat.zero_le _
  star_lt _ h := by cases h
  mark_le := Nat.le_refl _

/-- The byte of the pattern reads the byte of the text. -/
def Reading (c : Cursor pat text) (more : c.t < text.length) : Prop :=
  ∃ _ : c.p < pat.length, pat[c.p] = anyByte ∨ pat[c.p] = text[c.t]

def AtStar (c : Cursor pat text) : Prop := ∃ _ : c.p < pat.length, pat[c.p] = starByte

instance (c : Cursor pat text) (more : c.t < text.length) : Decidable (c.Reading more) :=
  inferInstanceAs (Decidable (∃ _ : c.p < pat.length, _))

instance (c : Cursor pat text) : Decidable c.AtStar :=
  inferInstanceAs (Decidable (∃ _ : c.p < pat.length, _))

def advance (c : Cursor pat text) (more : c.t < text.length) (inside : c.p < pat.length) :
    Cursor pat text :=
  { c with
    p := c.p + 1
    t := c.t + 1
    p_le := inside
    t_le := more
    star_lt := fun sp h => Nat.lt_succ_of_lt (c.star_lt sp h)
    mark_le := Nat.le_succ_of_le c.mark_le }

def branch (c : Cursor pat text) (inside : c.p < pat.length) : Cursor pat text :=
  { c with
    p := c.p + 1
    star := some c.p
    mark := c.t
    p_le := inside
    star_lt := fun sp h => by
      obtain rfl : c.p = sp := by simpa using h
      exact Nat.lt_succ_self _
    mark_le := Nat.le_refl _ }

/-- Let the last star take one more byte of the text. -/
def backtrack (c : Cursor pat text) (more : c.t < text.length) (sp : Nat)
    (last : c.star = some sp) : Cursor pat text :=
  { c with
    p := sp + 1
    mark := c.mark + 1
    t := c.mark + 1
    p_le := Nat.le_trans (c.star_lt sp last) c.p_le
    t_le := Nat.lt_of_le_of_lt c.mark_le more
    star_lt := fun sp' h => by
      obtain rfl : sp = sp' := by simpa [last] using h
      exact Nat.lt_succ_self _
    mark_le := Nat.le_refl _ }

/-- How much of the pattern is behind the last star. -/
def ahead (c : Cursor pat text) : Nat :=
  match c.star with
  | none => pat.length + 1
  | some sp => pat.length - sp

theorem ahead_branch (c : Cursor pat text) (inside : c.p < pat.length) :
    (c.branch inside).ahead < c.ahead := by
  simp only [ahead, branch]
  split
  · omega
  · rename_i sp last
    have before := c.star_lt sp last
    omega

end Cursor

/-- Skip the stars that match the empty remainder. -/
def skipStars (pat : Bytes) (p : Nat) : Nat :=
  if _ : p < pat.length then
    if pat[p] = starByte then skipStars pat (p + 1) else p
  else p

/-- The loop of the matcher. It ends because a star is only left for a later one, and a
run only grows. -/
def globLoop (pat text : Bytes) (c : Cursor pat text) : Bool :=
  if more : c.t < text.length then
    if here : c.Reading more then
      globLoop pat text (c.advance more here.1)
    else if wild : c.AtStar then
      globLoop pat text (c.branch wild.1)
    else
      match last : c.star with
      | some sp => globLoop pat text (c.backtrack more sp last)
      | none => false
  else skipStars pat c.p = pat.length
termination_by (c.ahead, text.length - c.mark, text.length - c.t)
decreasing_by
  · refine Prod.Lex.right _ (Prod.Lex.right _ ?_)
    simp only [Cursor.advance]
    omega
  · exact Prod.Lex.left _ _ (c.ahead_branch wild.1)
  · have same : (c.backtrack more sp last).ahead = c.ahead := by
      simp only [Cursor.ahead, Cursor.backtrack, last]
    rw [same]
    refine Prod.Lex.right _ (Prod.Lex.left _ _ ?_)
    have behind := c.mark_le
    simp only [Cursor.backtrack]
    omega

def globMatch (pat text : Bytes) : Bool := globLoop pat text (.start pat text)

/-! ## The meaning of a pattern -/

def symbol (b : UInt8) : Symbol UInt8 :=
  if b = anyByte then .one else if b = starByte then .run else .lit b

theorem reads_symbol {b c : UInt8} : Reads starByte (symbol b) c ↔ b = anyByte ∨ b = c := by
  unfold symbol
  split
  · simp [Reads, *]
  · split
    · rename_i ordinary isStar
      subst isStar
      simp [Reads, ordinary, eq_comm]
    · simp [Reads, *]

theorem symbol_eq_run {b : UInt8} : symbol b = .run ↔ b = starByte := by
  unfold symbol
  split
  · rename_i any
    subst any
    decide
  · split <;> simp [*]

/-- The texts that the matcher finds: a star that faces a star of the text is that star. -/
abbrev Found (pat text : Bytes) : Prop := Faced starByte (pat.map symbol) text

/-! ## What the loop keeps -/

/-- The part of a list between two places. -/
def between {α : Type} (l : List α) (i j : Nat) : List α := (l.take j).drop i

section Between

variable {α : Type} {l : List α} {i j : Nat}

theorem between_append_drop (h : i ≤ j) : between l i j ++ l.drop j = l.drop i := by
  conv_rhs => rw [← List.take_append_drop j l]
  by_cases long : j ≤ l.length
  · rw [List.drop_append_of_le_length (by simp; omega)]
    rfl
  · have all : l.drop j = [] := List.drop_eq_nil_of_le (by omega)
    simp [between, all]

@[simp] theorem between_self : between l i i = [] := by
  simp [between]

theorem between_succ (h : i ≤ j) (inside : j < l.length) :
    between l i (j + 1) = between l i j ++ [l[j]] := by
  rw [between, List.take_succ_eq_append_getElem inside,
    List.drop_append_of_le_length (by simp; omega)]
  rfl

end Between

namespace Cursor

variable {pat text : Bytes} (c : Cursor pat text)

/-- What is left of the pattern has a match in what is left of the text, or the last star
can take more. -/
def Matching : Prop :=
  Found (pat.drop c.p) (text.drop c.t) ∨
    ∃ sp ∈ c.star, ∃ m, c.mark < m ∧ Found (pat.drop (sp + 1)) (text.drop m)

/-- The pattern after the last star has read the text from its mark on. -/
def Aligned : Prop :=
  ∀ sp ∈ c.star, List.Forall₂ (fun b => Reads starByte (symbol b))
    (between pat (sp + 1) c.p) (between text c.mark c.t)

theorem aligned_start : (start pat text).Aligned := by
  intro sp h
  cases h

variable {c}

theorem Aligned.advance (h : c.Aligned) {more : c.t < text.length} (here : c.Reading more) :
    (c.advance more here.1).Aligned := by
  intro sp last
  obtain ⟨inside, reads⟩ := here
  have before := c.star_lt sp last
  simp only [Cursor.advance]
  rw [between_succ before inside, between_succ c.mark_le more]
  exact List.rel_append (h sp last) (.cons (reads_symbol.mpr reads) .nil)

theorem aligned_branch (inside : c.p < pat.length) : (c.branch inside).Aligned := by
  intro sp last
  obtain rfl : c.p = sp := by simpa [branch] using last
  simp [branch]

theorem aligned_backtrack {more : c.t < text.length} {sp : Nat} (last : c.star = some sp) :
    (c.backtrack more sp last).Aligned := by
  intro sp' last'
  obtain rfl : sp = sp' := by simpa [backtrack, last] using last'
  simp [backtrack]

/-- A match with a longer run of the last star is a match from here on. -/
theorem Aligned.exchange (h : c.Aligned) {sp m : Nat} (last : sp ∈ c.star) (later : c.mark < m)
    (found : Found (pat.drop (sp + 1)) (text.drop m)) :
    ∃ k, Found (pat.drop c.p) (text.drop (c.t + k)) := by
  have read : List.Forall₂ (Reads starByte) ((between pat (sp + 1) c.p).map symbol)
      (between text c.mark c.t) := by
    rw [List.forall₂_map_left_iff]
    exact h sp last
  have whole : Faced starByte
      ((between pat (sp + 1) c.p).map symbol ++ (pat.drop c.p).map symbol)
      ((between text c.mark c.t ++ text.drop c.t).drop (m - c.mark)) := by
    rw [← List.map_append, between_append_drop (c.star_lt sp last),
      between_append_drop c.mark_le, List.drop_drop, Nat.add_sub_of_le (Nat.le_of_lt later)]
    exact found
  obtain ⟨k, moved⟩ := Faced.exchange read whole
  exact ⟨k, by rwa [List.drop_drop] at moved⟩

theorem matching_advance {more : c.t < text.length} (here : c.Reading more) :
    (c.advance more here.1).Matching ↔ c.Matching := by
  obtain ⟨inside, reads⟩ := here
  have step : Found (pat.drop c.p) (text.drop c.t) ↔
      Found (pat.drop (c.p + 1)) (text.drop (c.t + 1)) := by
    rw [List.drop_eq_getElem_cons inside, List.drop_eq_getElem_cons more]
    exact faced_cons_of_reads (reads_symbol.mpr reads)
  exact or_congr_left step.symm

/-- A star takes any run here, and what an earlier star could do, it can do as well. -/
theorem matching_branch (h : c.Aligned) {more : c.t < text.length} (away : ¬ c.Reading more)
    (wild : c.AtStar) : (c.branch wild.1).Matching ↔ c.Matching := by
  obtain ⟨inside, isStar⟩ := wild
  have off : (text.drop c.t).head? ≠ some starByte := by
    rw [List.drop_eq_getElem_cons more]
    intro faces
    exact away ⟨inside, .inr (isStar.trans (Option.some.inj faces).symm)⟩
  have here : Found (pat.drop c.p) (text.drop c.t) ↔
      ∃ k, Found (pat.drop (c.p + 1)) (text.drop (c.t + k)) := by
    rw [Found, List.drop_eq_getElem_cons inside, List.map_cons, symbol_eq_run.mpr isStar,
      faced_run_iff off]
    simp only [List.drop_drop]
  have ahead : (c.branch inside).Matching ↔ Found (pat.drop c.p) (text.drop c.t) := by
    rw [here]
    constructor
    · rintro (now | ⟨sp, last, m, later, found⟩)
      · exact ⟨0, now⟩
      · obtain rfl : c.p = sp := by simpa [branch] using last
        have beyond : c.t < m := later
        exact ⟨m - c.t, by rwa [Nat.add_sub_of_le (Nat.le_of_lt beyond)]⟩
    · rintro ⟨k, found⟩
      match k with
      | 0 => exact .inl found
      | k + 1 => exact .inr ⟨c.p, rfl, c.t + (k + 1), Nat.lt_add_of_pos_right k.succ_pos, found⟩
  rw [ahead]
  constructor
  · exact .inl
  · rintro (now | ⟨sp, last, m, later, found⟩)
    · exact now
    · obtain ⟨k, moved⟩ := h.exchange last later found
      rw [Found, List.drop_eq_getElem_cons inside, List.map_cons, symbol_eq_run.mpr isStar]
        at moved
      obtain ⟨k', free⟩ := Faced.after_run moved
      rw [List.drop_drop] at free
      exact here.mpr ⟨k + k', by rwa [← Nat.add_assoc]⟩

theorem stuck_of_not_reading {more : c.t < text.length} (away : ¬ c.Reading more)
    (ordinary : ¬ c.AtStar) : ¬ Found (pat.drop c.p) (text.drop c.t) := by
  rw [List.drop_eq_getElem_cons more]
  by_cases inside : c.p < pat.length
  · rw [Found, List.drop_eq_getElem_cons inside]
    refine not_faced_cons ?_ ?_
    · intro reads
      exact away ⟨inside, reads_symbol.mp reads⟩
    · intro isRun
      exact ordinary ⟨inside, symbol_eq_run.mp isRun⟩
  · have none : pat.drop c.p = [] := List.drop_eq_nil_of_le (Nat.le_of_not_lt inside)
    simp [Found, Faced, none, more]

theorem matching_backtrack {more : c.t < text.length} (away : ¬ c.Reading more)
    (ordinary : ¬ c.AtStar) {sp : Nat} (last : c.star = some sp) :
    (c.backtrack more sp last).Matching ↔ c.Matching := by
  have stuck : ¬ Found (pat.drop c.p) (text.drop c.t) := stuck_of_not_reading away ordinary
  constructor
  · rintro (now | ⟨sp', last', m, later, found⟩)
    · exact .inr ⟨sp, last, c.mark + 1, Nat.lt_succ_self _, now⟩
    · exact .inr ⟨sp', last', m, Nat.lt_of_succ_lt later, found⟩
  · rintro (now | ⟨sp', last', m, later, found⟩)
    · exact absurd now stuck
    · obtain rfl : sp = sp' := by simpa [last] using last'
      rcases Nat.eq_or_lt_of_le (Nat.succ_le_of_lt later) with rfl | further
      · exact .inl found
      · exact .inr ⟨sp, last, m, further, found⟩

end Cursor

theorem skipStars_eq_length {pat : Bytes} {p : Nat} (inside : p ≤ pat.length) :
    skipStars pat p = pat.length ↔ ∀ b ∈ pat.drop p, b = starByte := by
  fun_induction skipStars pat p with
  | case1 p more isStar ih =>
      rw [ih more, List.drop_eq_getElem_cons more, List.forall_mem_cons]
      exact (and_iff_right isStar).symm
  | case2 p more ordinary =>
      rw [List.drop_eq_getElem_cons more, List.forall_mem_cons]
      constructor
      · intro h
        omega
      · intro h
        exact absurd h.1 ordinary
  | case3 p ended =>
      have all : p = pat.length := by omega
      subst all
      simp

/-- From every place the loop finds out whether what is left can be matched. -/
theorem globLoop_iff {pat text : Bytes} {c : Cursor pat text} (h : c.Aligned) :
    globLoop pat text c = true ↔ c.Matching := by
  fun_induction globLoop pat text c with
  | case1 c more here ih => rw [ih (h.advance here), Cursor.matching_advance here]
  | case2 c more away wild ih =>
      rw [ih (Cursor.aligned_branch wild.1), Cursor.matching_branch h away wild]
  | case3 c more away ordinary sp last ih =>
      rw [ih (Cursor.aligned_backtrack last), Cursor.matching_backtrack away ordinary last]
  | case4 c more away ordinary last =>
      constructor
      · intro h
        cases h
      · rintro (now | ⟨sp, isLast, _⟩)
        · exact absurd now (Cursor.stuck_of_not_reading away ordinary)
        · rw [last] at isLast
          cases isLast
  | case5 c ended =>
      have atEnd : text.drop c.t = [] := List.drop_eq_nil_of_le (Nat.le_of_not_lt ended)
      have now : skipStars pat c.p = pat.length ↔ Found (pat.drop c.p) (text.drop c.t) := by
        rw [skipStars_eq_length c.p_le, atEnd, Found, faced_nil_iff, List.forall_mem_map]
        simp only [symbol_eq_run]
      rw [decide_eq_true_iff, now]
      constructor
      · exact .inl
      · rintro (found | ⟨sp, last, m, later, found⟩)
        · exact found
        · obtain ⟨k, moved⟩ := h.exchange last later found
          rwa [← List.drop_drop, atEnd, List.drop_nil, ← atEnd] at moved

theorem globMatch_iff {pat text : Bytes} : globMatch pat text = true ↔ Found pat text := by
  rw [globMatch, globLoop_iff (Cursor.aligned_start)]
  constructor
  · rintro (now | ⟨sp, last, _⟩)
    · exact now
    · cases last
  · exact .inl

/-! ## The checker -/

structure OriginChecker where
  allowAll : Bool
  patterns : List String

namespace OriginChecker

def new (allowed : Option (List String)) : OriginChecker :=
  match allowed with
  | none => { allowAll := true, patterns := [] }
  | some list => { allowAll := false, patterns := list }

def check (checker : OriginChecker) (origin : Option String) : Bool :=
  if checker.allowAll then true
  else
    match origin with
    | some o =>
        if o.isEmpty then true
        else
          let lower := o.toLower
          checker.patterns.any fun p => globMatch (asBytes p) (asBytes lower)
    | none => true

end OriginChecker

/-- The text is in the language of the pattern. -/
abbrev Meant (pat text : Bytes) : Prop := InLanguage (pat.map symbol) text

theorem globMatch_of_plain {pat text : Bytes} (plain : starByte ∉ text) :
    globMatch pat text = true ↔ Meant pat text := by
  rw [globMatch_iff]
  exact ⟨Faced.inLanguage, fun h => h.faced plain⟩

theorem OriginChecker.check_iff {list : List String} {origin : String} (named : origin ≠ "") :
    (OriginChecker.new (some list)).check (some origin) = true ↔
      ∃ p ∈ list, Found (asBytes p) (asBytes origin.toLower) := by
  simp [new, check, named, globMatch_iff]

/-- The matcher and the checker find exactly the texts of the language that are still in it
when a star that faces a star of the text stands for that star only. -/
theorem globMatch_meant_iff (pat text : Bytes) (list : List String) {origin : String}
    (named : origin ≠ "") :
    ((globMatch pat text = true ↔ Meant pat text) ↔ (Meant pat text → Found pat text)) ∧
      (((OriginChecker.new (some list)).check (some origin) = true ↔
          ∃ p ∈ list, Meant (asBytes p) (asBytes origin.toLower)) ↔
        ((∃ p ∈ list, Meant (asBytes p) (asBytes origin.toLower)) →
          ∃ p ∈ list, Found (asBytes p) (asBytes origin.toLower))) := by
  constructor
  · rw [globMatch_iff]
    exact ⟨fun same => same.mpr, fun enough => ⟨Faced.inLanguage, enough⟩⟩
  · rw [OriginChecker.check_iff named]
    constructor
    · intro same
      exact same.mpr
    · intro enough
      refine ⟨?_, enough⟩
      rintro ⟨p, listed, found⟩
      exact ⟨p, listed, found.inLanguage⟩

theorem globMatch_meant_iff_star :
    ((OriginChecker.new (some ["*a"])).check (some "*BA") = true ↔
        ∃ p ∈ ["*a"], Meant (asBytes p) (asBytes "*BA".toLower)) ↔
      ((∃ p ∈ ["*a"], Meant (asBytes p) (asBytes "*BA".toLower)) →
        ∃ p ∈ ["*a"], Found (asBytes p) (asBytes "*BA".toLower)) :=
  (@globMatch_meant_iff (asBytes "*a") (asBytes "*ba") ["*a"] "*BA" (by decide)).2

/-- An origin with a star at the place of the wildcard is turned away. -/
theorem not_globMatch_meant :
    Meant (asBytes "https://*.example.com") (asBytes "https://*x.example.com".toLower) ∧
      globMatch (asBytes "https://*.example.com") (asBytes "https://*x.example.com".toLower)
        = false ∧
      (OriginChecker.new (some ["https://*.example.com"])).check (some "https://*x.example.com")
        = false := by
  have symbols : (asBytes "https://*.example.com").map symbol =
      (asBytes "https://").map .lit ++ .run :: (asBytes ".example.com").map .lit := by
    decide +kernel
  have text : asBytes "https://*x.example.com".toLower =
      asBytes "https://" ++ ([starByte, 120] ++ asBytes ".example.com") := by decide +kernel
  have missed : ¬ Found (asBytes "https://*.example.com")
      (asBytes "https://*x.example.com".toLower) := by
    rw [Found, symbols, text, Faced, matches_literals_append]
    intro found
    have next := faced_run_star.mp found
    exact absurd (matches_lit_cons.mp next).1 (by decide)
  refine ⟨?_, ?_, ?_⟩
  · rw [Meant, symbols, text, InLanguage, matches_literals_append]
    exact .run trivial (matches_literals _)
  · rw [← Bool.not_eq_true, globMatch_iff]
    exact missed
  · rw [← Bool.not_eq_true, OriginChecker.check_iff (by decide)]
    rintro ⟨p, listed, found⟩
    obtain rfl := List.mem_singleton.mp listed
    exact missed found

end Centrifugo
