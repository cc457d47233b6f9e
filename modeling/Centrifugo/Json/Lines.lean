import Centrifugo.Json.Utf8
import Mathlib.Algebra.GroupWithZero.Nat
import Mathlib.Data.List.Basic
import Mathlib.Data.List.Forall2

/-!
# Newline-delimited texts

A stream of terminated lines is cut at its terminators again, provided that no
line contains one. `lines` is the text-level iterator, which also drops a carriage
return before a line break.
-/

namespace Json

variable {α : Type*}

/-- Every line followed by the terminator. -/
def terminate (terminator : α) (lines : List (List α)) : List α :=
  lines.flatMap fun line => line ++ [terminator]

@[simp] theorem terminate_nil (terminator : α) : terminate terminator [] = [] := rfl

@[simp] theorem terminate_cons (terminator : α) (line : List α) (lines : List (List α)) :
    terminate terminator (line :: lines) = line ++ terminator :: terminate terminator lines := by
  simp [terminate]

theorem terminate_append (terminator : α) (front back : List (List α)) :
    terminate terminator (front ++ back) =
      terminate terminator front ++ terminate terminator back :=
  List.flatMap_append

theorem terminate_eq_intercalate (terminator : α) (lines : List (List α)) :
    terminate terminator lines = [terminator].intercalate (lines ++ [[]]) := by
  induction lines with
  | nil => rfl
  | cons line lines ih =>
      rw [terminate_cons, ih]
      cases lines <;> simp [List.intercalate]

variable [DecidableEq α]

/-- Cutting at the terminators leaves the lines and an empty remainder. -/
theorem splitOn_terminate {terminator : α} {lines : List (List α)}
    (clean : ∀ line ∈ lines, terminator ∉ line) :
    (terminate terminator lines).splitOn terminator = lines ++ [[]] := by
  rw [terminate_eq_intercalate]
  refine List.splitOn_intercalate terminator ?_ (by simp)
  intro line mem
  rcases List.mem_append.mp mem with mem | mem
  · exact clean line mem
  · cases List.mem_singleton.mp mem
    simp

/-- The non-empty pieces between terminators. -/
def records (terminator : α) (stream : List α) : List (List α) :=
  (stream.splitOn terminator).filter fun piece => !piece.isEmpty

theorem records_terminate {terminator : α} {lines : List (List α)}
    (clean : ∀ line ∈ lines, terminator ∉ line) (nonempty : ∀ line ∈ lines, line ≠ []) :
    records terminator (terminate terminator lines) = lines := by
  rw [records, splitOn_terminate clean, List.filter_append]
  simpa using nonempty

/-- Decoding every line succeeds exactly when it succeeds line by line. -/
theorem mapM_eq_some {α β : Type*} {f : α → Option β} {l : List α} {l' : List β} :
    l.mapM f = some l' ↔ List.Forall₂ (fun a b => f a = some b) l l' := by
  induction l generalizing l' with
  | nil =>
      rw [List.mapM_nil, List.forall₂_nil_left_iff]
      constructor
      · rintro ⟨⟩
        rfl
      · rintro rfl
        rfl
  | cons a l ih =>
      rw [List.mapM_cons, List.forall₂_cons_left_iff]
      simp only [Option.bind_eq_bind, Option.bind_eq_some_iff, ih]
      constructor
      · rintro ⟨b, head, rest, tail, ⟨⟩⟩
        exact ⟨b, rest, head, tail, rfl⟩
      · rintro ⟨b, rest, head, tail, rfl⟩
        exact ⟨b, head, rest, tail, rfl⟩

theorem mapM_congr {α β : Type} {f g : α → Option β} {l : List α} (same : ∀ a ∈ l, f a = g a) :
    l.mapM f = l.mapM g := by
  induction l with
  | nil => rfl
  | cons a l ih =>
      obtain ⟨here, later⟩ := List.forall_mem_cons.mp same
      rw [List.mapM_cons, List.mapM_cons, here, ih later]

/-! ## The line iterator -/

def stripCarriageReturn (line : Text) : Text :=
  if line.getLast? = some '\r' then line.dropLast else line

/-- The lines of a text. The last one need not be terminated. -/
def lines (text : Text) : List Text :=
  let pieces := text.splitOn '\n'
  pieces.dropLast.map stripCarriageReturn ++
    (pieces.getLast?.toList.filter fun piece => !piece.isEmpty)

theorem lines_terminate {texts : List Text} (clean : ∀ line ∈ texts, '\n' ∉ line) :
    lines (terminate '\n' texts) = texts.map stripCarriageReturn := by
  simp [lines, splitOn_terminate clean]

theorem stripCarriageReturn_of_last {front : Text} {c : Char} (h : c ≠ '\r') :
    stripCarriageReturn (front ++ [c]) = front ++ [c] := by
  simp [stripCarriageReturn, h]

/-- The bytes of terminated lines are the terminated bytes of the lines. -/
theorem encodeUtf8_terminate (texts : List Text) :
    encodeUtf8 (terminate '\n' texts) = terminate newlineByte (texts.map encodeUtf8) := by
  induction texts with
  | nil => rfl
  | cons text texts ih =>
      have lineBreak : encodeUtf8 ['\n'] = [newlineByte] := by decide
      rw [terminate_cons, List.map_cons, terminate_cons, ← ih, encodeUtf8_append,
        ← List.singleton_append, encodeUtf8_append, lineBreak, List.singleton_append]

end Json
