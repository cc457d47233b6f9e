import Centrifugo.Json.Scan
import Mathlib.Tactic.IntervalCases

/-!
# Writing JSON texts

`RawValue` is a value text without surrounding whitespace. It carries the proof
that the automaton accepts it, so whatever is assembled from raw values with the
constructors below is a value text again and needs no second check.

Strings are escaped the way a compact writer does it: the two mandatory escapes,
the five short ones, and `\u00XX` for the remaining control characters.
-/

namespace Json

/-- A JSON value in its own text, as it stands between two tokens. -/
structure RawValue where
  text : Text
  valid : isValue text

namespace RawValue

@[ext] theorem ext {v w : RawValue} (h : v.text = w.text) : v = w := by
  cases v
  cases w
  cases h
  rfl

instance : DecidableEq RawValue := fun v w =>
  decidable_of_iff (v.text = w.text) ⟨ext, congrArg text⟩

theorem feed (v : RawValue) (stack : Stack) :
    ∃ phase, Json.feed (.value, stack) v.text = some (phase, stack) ∧ phase.complete :=
  feed_value v.valid stack

theorem head (v : RawValue) : ∃ c rest, v.text = c :: rest ∧ isSpace c = false :=
  (isValue_iff.mp v.valid).1

theorem text_ne_nil (v : RawValue) : v.text ≠ [] := by
  obtain ⟨c, rest, h, -⟩ := v.head
  simp [h]

end RawValue

/-! ## Strings -/

def hexDigit (n : Nat) : Char := Nat.digitChar (n % 16)

/-- One character between the quotes of a string. -/
def escapeChar (c : Char) : Text :=
  if c = '"' then ['\\', '"']
  else if c = '\\' then ['\\', '\\']
  else if c.toNat = 8 then ['\\', 'b']
  else if c.toNat = 12 then ['\\', 'f']
  else if c = '\n' then ['\\', 'n']
  else if c = '\r' then ['\\', 'r']
  else if c = '\t' then ['\\', 't']
  else if isControl c then
    ['\\', 'u', '0', '0', hexDigit (c.toNat / 16), hexDigit c.toNat]
  else [c]

def escape (text : Text) : Text := text.flatMap escapeChar

@[simp] theorem escape_nil : escape [] = [] := rfl

@[simp] theorem escape_cons (c : Char) (text : Text) :
    escape (c :: text) = escapeChar c ++ escape text := rfl

def quote (text : Text) : Text := '"' :: (escape text ++ ['"'])

theorem isHex_hexDigit (n : Nat) : isHex (hexDigit n) := by
  have all : ∀ d < 16, isHex (Nat.digitChar d) := by decide
  exact all (n % 16) (Nat.mod_lt n (by decide))

theorem feed_escapeChar (isKey : Bool) (stack : Stack) (c : Char) :
    feed (.string isKey, stack) (escapeChar c) = some (.string isKey, stack) := by
  unfold escapeChar
  split
  · rfl
  split
  · rfl
  split
  · rfl
  split
  · rfl
  split
  · rfl
  split
  · rfl
  split
  · rfl
  split
  · have high := isHex_hexDigit (c.toNat / 16)
    have low := isHex_hexDigit c.toNat
    have zero : isHex '0' := rfl
    simp [next, high, low, zero]
  · simp_all [next]

theorem feed_escape (isKey : Bool) (stack : Stack) (text : Text) :
    feed (.string isKey, stack) (escape text) = some (.string isKey, stack) := by
  induction text with
  | nil => rfl
  | cons c text ih =>
      rw [escape_cons]
      exact feed_append_of (feed_escapeChar isKey stack c) ih

/-- After its opening quote, a written string is read up to its closing quote. -/
theorem feed_escape_quote (isKey : Bool) (stack : Stack) (text : Text) :
    feed (.string isKey, stack) (escape text ++ ['"']) = some (stringEnd isKey, stack) :=
  feed_append_of (feed_escape isKey stack text) rfl

/-- Escaping leaves no raw line break in a string. -/
theorem newline_notMem_escapeChar (c : Char) : '\n' ∉ escapeChar c := by
  have digit : ∀ n, hexDigit n ≠ '\n' := by
    have all : ∀ d < 16, Nat.digitChar d ≠ '\n' := by decide
    exact fun n => all (n % 16) (Nat.mod_lt n (by decide))
  unfold escapeChar
  grind

theorem newline_notMem_quote (text : Text) : '\n' ∉ quote text := by
  simp [quote, escape, newline_notMem_escapeChar]

namespace RawValue

def string (s : String) : RawValue where
  text := quote s.toList
  valid := isValue_iff.mpr ⟨⟨'"', _, rfl, rfl⟩, .after,
    feed_escape_quote false [] s.toList, rfl⟩

/-! ## Numbers -/

theorem feed_digits {n : Nat} (h : 0 < n) (stack : Stack) :
    Json.feed (.value, stack) (Nat.toDigits 10 n) = some (.number .int, stack) := by
  have leading : ∀ d < 10, 0 < d →
      Json.feed (.value, stack) [Nat.digitChar d] = some (.number .int, stack) := by
    intro d hd pos
    interval_cases d <;> rfl
  have following : ∀ d < 10,
      Json.feed (.number .int, stack) [Nat.digitChar d] = some (.number .int, stack) := by
    intro d hd
    interval_cases d <;> rfl
  induction n using Nat.strongRecOn with
  | ind n ih =>
      by_cases small : n < 10
      · rw [Nat.toDigits_of_lt_base small]
        exact leading n small h
      · rw [Nat.toDigits_of_base_le (by decide) (by omega)]
        exact feed_append_of (ih (n / 10) (by omega) (by omega))
          (following (n % 10) (Nat.mod_lt n (by decide)))

theorem isDigit_of_mem_digits {n : Nat} {c : Char} (h : c ∈ Nat.toDigits 10 n) : c.isDigit :=
  Nat.isDigit_of_mem_toDigits (by decide) (by decide) h

/-- Unsigned integers, in decimal. -/
def number (n : Nat) : RawValue where
  text := Nat.toDigits 10 n
  valid := by
    refine isValue_iff.mpr ⟨?_, ?_⟩
    · obtain ⟨c, rest, h⟩ := List.exists_cons_of_ne_nil (Nat.toDigits_ne_nil (b := 10) (n := n))
      have digit : c.isDigit := isDigit_of_mem_digits (n := n) (h ▸ List.mem_cons_self)
      refine ⟨c, rest, h, ?_⟩
      by_contra space
      simp only [isSpace, Bool.not_eq_false, Bool.or_eq_true, decide_eq_true_eq] at space
      rcases space with ((rfl | rfl) | rfl) | rfl <;> cases digit
    · rcases Nat.eq_zero_or_pos n with rfl | pos
      · exact ⟨.number .zero, rfl, rfl⟩
      · exact ⟨.number .int, feed_digits pos [], rfl⟩

def bool : Bool → RawValue
  | true => ⟨['t', 'r', 'u', 'e'], rfl⟩
  | false => ⟨['f', 'a', 'l', 's', 'e'], rfl⟩

def null : RawValue := ⟨['n', 'u', 'l', 'l'], rfl⟩

end RawValue

/-! ## Arrays and objects -/

def separate : List Text → Text
  | [] => []
  | [piece] => piece
  | piece :: rest => piece ++ ',' :: separate rest

@[simp] theorem separate_nil : separate [] = [] := rfl

@[simp] theorem separate_singleton (piece : Text) : separate [piece] = piece := rfl

@[simp] theorem separate_cons (piece next : Text) (rest : List Text) :
    separate (piece :: next :: rest) = piece ++ ',' :: separate (next :: rest) := rfl

/-- Pieces that are read alike from both entry phases of a container are read one
after the other: the first entry phase opens the container, the second one follows
a comma. -/
theorem feed_separate (entry : Phase) {top : Container} {again : Phase} {stack : Stack}
    (comma : afterValue (top :: stack) ',' = some (again, top :: stack))
    (piece : Text) (pieces : List Text)
    (reads : ∀ p ∈ piece :: pieces, ∀ start, start = entry ∨ start = again →
      ∃ phase, feed (start, top :: stack) p = some (phase, top :: stack) ∧ phase.complete) :
    ∃ phase, feed (entry, top :: stack) (separate (piece :: pieces)) =
      some (phase, top :: stack) ∧ phase.complete := by
  induction pieces generalizing piece entry with
  | nil => exact reads piece List.mem_cons_self entry (.inl rfl)
  | cons second pieces ih =>
      obtain ⟨middle, first, complete⟩ := reads piece List.mem_cons_self entry (.inl rfl)
      obtain ⟨finish, rest, done⟩ := ih again second (by
        intro p hp start hs
        exact reads p (List.mem_cons_of_mem _ hp) start (.inr (hs.elim id id)))
      refine ⟨finish, ?_, done⟩
      rw [separate_cons]
      refine feed_append_of first ?_
      rw [feed_cons, next_of_complete complete (by decide), comma]
      exact rest

def member (entry : String × RawValue) : Text :=
  quote entry.1.toList ++ ':' :: entry.2.text

theorem feed_member (entry : String × RawValue) (stack : Stack) (start : Phase)
    (h : start = .objectStart ∨ start = .key) :
    ∃ phase, feed (start, .object :: stack) (member entry) = some (phase, .object :: stack) ∧
      phase.complete := by
  obtain ⟨phase, value, complete⟩ := entry.2.feed (.object :: stack)
  have key : feed (start, .object :: stack) (quote entry.1.toList) =
      some (.colon, .object :: stack) := by
    rcases h with rfl | rfl <;> exact feed_escape_quote true (.object :: stack) entry.1.toList
  have colon : feed (.colon, .object :: stack) (':' :: entry.2.text) =
      some (phase, .object :: stack) := value
  exact ⟨phase, feed_append_of key colon, complete⟩

namespace RawValue

/-- The first element of an array stands where a closing bracket could. -/
theorem feed_arrayStart (v : RawValue) {stack : Stack} {finish : Phase × Stack}
    (h : Json.feed (.value, .array :: stack) v.text = some finish) :
    Json.feed (.arrayStart, .array :: stack) v.text = some finish := by
  obtain ⟨c, rest, text, space⟩ := v.head
  rw [text, feed_cons] at h ⊢
  have start : next .value (.array :: stack) c = valueStart (.array :: stack) c := by
    simp [next, space]
  have notClose : c ≠ ']' := by
    rintro rfl
    rw [start] at h
    cases h
  rw [start] at h
  simpa [next, space, notClose] using h

def array (elements : List RawValue) : RawValue where
  text := '[' :: (separate (elements.map text) ++ [']'])
  valid := by
    refine isValue_iff.mpr ⟨⟨'[', _, rfl, rfl⟩, .after, ?_, rfl⟩
    change Json.feed (.arrayStart, [.array]) _ = _
    cases elements with
    | nil => rfl
    | cons first rest =>
        obtain ⟨phase, inner, complete⟩ :=
          feed_separate .arrayStart
            (show afterValue [.array] ',' = some (.value, [.array]) from rfl)
            first.text (rest.map text) (by
              intro p hp start hs
              obtain ⟨v, -, rfl⟩ := List.mem_map.mp (List.map_cons ▸ hp)
              obtain ⟨phase, value, complete⟩ := v.feed [.array]
              refine ⟨phase, ?_, complete⟩
              rcases hs with rfl | rfl
              · exact feed_arrayStart v value
              · exact value)
        refine feed_append_of inner ?_
        rw [feed_cons, next_of_complete complete (by decide)]
        rfl

def object (members : List (String × RawValue)) : RawValue where
  text := '{' :: (separate (members.map member) ++ ['}'])
  valid := by
    refine isValue_iff.mpr ⟨⟨'{', _, rfl, rfl⟩, .after, ?_, rfl⟩
    change Json.feed (.objectStart, [.object]) _ = _
    cases members with
    | nil => rfl
    | cons first rest =>
        obtain ⟨phase, inner, complete⟩ :=
          feed_separate .objectStart
            (show afterValue [.object] ',' = some (.key, [.object]) from rfl)
            (member first) (rest.map member) (by
              intro p hp start hs
              obtain ⟨entry, -, rfl⟩ := List.mem_map.mp (List.map_cons ▸ hp)
              exact feed_member entry [] start hs)
        refine feed_append_of inner ?_
        rw [feed_cons, next_of_complete complete (by decide)]
        rfl

end RawValue

/-! ## Line breaks -/

theorem newline_mem_separate {pieces : List Text} :
    '\n' ∈ separate pieces ↔ ∃ p ∈ pieces, '\n' ∈ p := by
  induction pieces with
  | nil => simp
  | cons piece rest ih =>
      cases rest with
      | nil => simp
      | cons second rest =>
          rw [separate_cons, List.mem_append, List.mem_cons, ih]
          simp

theorem newline_mem_member {entry : String × RawValue} :
    '\n' ∈ member entry ↔ '\n' ∈ entry.2.text := by
  simp [member, newline_notMem_quote]

namespace RawValue

/-- The writers insert no line break of their own: an object text contains one
exactly when the text of some member does. -/
theorem newline_mem_object {members : List (String × RawValue)} :
    '\n' ∈ (object members).text ↔ ∃ entry ∈ members, '\n' ∈ entry.2.text := by
  simp [object, newline_mem_separate, newline_mem_member]

@[simp] theorem newline_notMem_string (s : String) : '\n' ∉ (string s).text :=
  newline_notMem_quote s.toList

@[simp] theorem newline_notMem_number (n : Nat) : '\n' ∉ (number n).text := by
  intro h
  cases isDigit_of_mem_digits h

end RawValue

end Json
