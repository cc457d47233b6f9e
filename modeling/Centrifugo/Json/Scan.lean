import Mathlib.Data.List.Basic

/-!
# The lexical automaton of JSON texts

A JSON value is recognized one character at a time by a pushdown automaton: a
`Phase` says what the current character may be, and a stack of containers
records the arrays and objects that are still open. The automaton never builds a
value, so it describes readers that skip a value and keep its text.

`feed` composes over concatenation and `next_append` lets an inner value be read
below any stack, so texts that contain other texts are recognized piece by piece.
No length bound or recursion limit is involved.
-/

namespace Json

/-- The characters of a JSON text. -/
abbrev Text := List Char

/-- The four whitespace characters of the JSON grammar. -/
def isSpace (c : Char) : Bool := c = ' ' || c = '\n' || c = '\r' || c = '\t'

def isHex (c : Char) : Bool :=
  c.isDigit || ('a' ≤ c && c ≤ 'f') || ('A' ≤ c && c ≤ 'F')

/-- A control character may not stand unescaped inside a string. -/
def isControl (c : Char) : Bool := c.toNat < 32

inductive Container
  | array
  | object
  deriving DecidableEq, Repr

/-- How much of a number has been read. -/
inductive NumberPart
  | minus
  | zero
  | int
  | dot
  | frac
  | exp
  | expSign
  | expInt
  deriving DecidableEq, Repr

namespace NumberPart

/-- The parts after which a number may end. -/
def complete : NumberPart → Bool
  | zero | int | frac | expInt => true
  | minus | dot | exp | expSign => false

def isExp (c : Char) : Bool := c = 'e' || c = 'E'

def next : NumberPart → Char → Option NumberPart
  | minus, c => if c = '0' then some zero else if c.isDigit then some int else none
  | zero, c => if c = '.' then some dot else if isExp c then some exp else none
  | int, c =>
      if c.isDigit then some int else if c = '.' then some dot
      else if isExp c then some exp else none
  | dot, c => if c.isDigit then some frac else none
  | frac, c => if c.isDigit then some frac else if isExp c then some exp else none
  | exp, c =>
      if c.isDigit then some expInt else if c = '+' || c = '-' then some expSign else none
  | expSign, c => if c.isDigit then some expInt else none
  | expInt, c => if c.isDigit then some expInt else none

end NumberPart

/-- What the automaton expects next. The flag of the string phases says whether
the string is the key of an object member. -/
inductive Phase
  | value
  | arrayStart
  | objectStart
  | key
  | colon
  | after
  | string (isKey : Bool)
  | escape (isKey : Bool)
  | unicode (isKey : Bool) (left : Nat)
  | literal (rest : Text)
  | number (part : NumberPart)
  deriving DecidableEq, Repr

abbrev Stack := List Container

/-- A phase in which a whole value has been read, if nothing is open around it. -/
def Phase.complete : Phase → Bool
  | after => true
  | number part => part.complete
  | _ => false

/-- The first character of a value. -/
def valueStart (stack : Stack) (c : Char) : Option (Phase × Stack) :=
  if c = '"' then some (.string false, stack)
  else if c = '[' then some (.arrayStart, .array :: stack)
  else if c = '{' then some (.objectStart, .object :: stack)
  else if c = 't' then some (.literal ['r', 'u', 'e'], stack)
  else if c = 'f' then some (.literal ['a', 'l', 's', 'e'], stack)
  else if c = 'n' then some (.literal ['u', 'l', 'l'], stack)
  else if c = '-' then some (.number .minus, stack)
  else if c = '0' then some (.number .zero, stack)
  else if c.isDigit then some (.number .int, stack)
  else none

/-- The character after a complete value: it separates or closes the innermost
container. At top level nothing more belongs to the value. -/
def afterValue : Stack → Char → Option (Phase × Stack)
  | [], _ => none
  | .array :: stack, c =>
      if isSpace c then some (.after, .array :: stack)
      else if c = ',' then some (.value, .array :: stack)
      else if c = ']' then some (.after, stack)
      else none
  | .object :: stack, c =>
      if isSpace c then some (.after, .object :: stack)
      else if c = ',' then some (.key, .object :: stack)
      else if c = '}' then some (.after, stack)
      else none

/-- Where a string returns to when its closing quote is read. -/
def stringEnd (isKey : Bool) : Phase := if isKey then .colon else .after

/-- One transition. `none` means that the character does not continue the text. -/
def next : Phase → Stack → Char → Option (Phase × Stack)
  | .value, stack, c => if isSpace c then some (.value, stack) else valueStart stack c
  | .arrayStart, .array :: stack, c =>
      if isSpace c then some (.arrayStart, .array :: stack)
      else if c = ']' then some (.after, stack)
      else valueStart (.array :: stack) c
  | .objectStart, .object :: stack, c =>
      if isSpace c then some (.objectStart, .object :: stack)
      else if c = '"' then some (.string true, .object :: stack)
      else if c = '}' then some (.after, stack)
      else none
  | .key, stack, c =>
      if isSpace c then some (.key, stack)
      else if c = '"' then some (.string true, stack)
      else none
  | .colon, stack, c =>
      if isSpace c then some (.colon, stack)
      else if c = ':' then some (.value, stack)
      else none
  | .after, stack, c => afterValue stack c
  | .string isKey, stack, c =>
      if c = '"' then some (stringEnd isKey, stack)
      else if c = '\\' then some (.escape isKey, stack)
      else if isControl c then none
      else some (.string isKey, stack)
  | .escape isKey, stack, c =>
      if c = 'u' then some (.unicode isKey 3, stack)
      else if c ∈ ['"', '\\', '/', 'b', 'f', 'n', 'r', 't'] then some (.string isKey, stack)
      else none
  | .unicode isKey left, stack, c =>
      if isHex c then
        match left with
        | 0 => some (.string isKey, stack)
        | left + 1 => some (.unicode isKey left, stack)
      else none
  | .literal (x :: xs), stack, c =>
      if c = x then
        match xs with
        | [] => some (.after, stack)
        | y :: ys => some (.literal (y :: ys), stack)
      else none
  | .number part, stack, c =>
      match part.next c with
      | some part => some (.number part, stack)
      | none => if part.complete then afterValue stack c else none
  | _, _, _ => none

/-- Read a whole text. -/
def feed : Phase × Stack → Text → Option (Phase × Stack)
  | state, [] => some state
  | state, c :: text => (next state.1 state.2 c).bind (feed · text)

@[simp] theorem feed_nil (state : Phase × Stack) : feed state [] = some state := rfl

@[simp] theorem feed_cons (state : Phase × Stack) (c : Char) (text : Text) :
    feed state (c :: text) = (next state.1 state.2 c).bind (feed · text) := rfl

theorem feed_append (state : Phase × Stack) (front back : Text) :
    feed state (front ++ back) = (feed state front).bind (feed · back) := by
  induction front generalizing state with
  | nil => rfl
  | cons c front ih =>
      simp only [List.cons_append, feed_cons]
      cases next state.1 state.2 c with
      | none => rfl
      | some middle => exact ih middle

/-- The value recognized between two states, one piece after the other. -/
theorem feed_append_of {state middle finish : Phase × Stack} {front back : Text}
    (first : feed state front = some middle) (second : feed middle back = some finish) :
    feed state (front ++ back) = some finish := by
  rw [feed_append, first]
  exact second

theorem valueStart_append {stack : Stack} {c : Char} {phase : Phase} {stack' : Stack}
    (h : valueStart stack c = some (phase, stack')) (below : Stack) :
    valueStart (stack ++ below) c = some (phase, stack' ++ below) := by
  unfold valueStart at h ⊢
  grind

theorem afterValue_append {stack : Stack} {c : Char} {phase : Phase} {stack' : Stack}
    (h : afterValue stack c = some (phase, stack')) (below : Stack) :
    afterValue (stack ++ below) c = some (phase, stack' ++ below) := by
  unfold afterValue at h
  cases stack with
  | nil => cases h
  | cons top stack =>
      cases top <;> simp only [List.cons_append, afterValue] <;> grind

/-- A transition only looks at the innermost container, so it can be taken below
any further stack. -/
theorem next_append {phase : Phase} {stack : Stack} {c : Char} {phase' : Phase}
    {stack' : Stack} (h : next phase stack c = some (phase', stack')) (below : Stack) :
    next phase (stack ++ below) c = some (phase', stack' ++ below) := by
  cases phase with
  | value =>
      simp only [next] at h ⊢
      split at h
      · rw [if_pos ‹_›]
        cases h
        rfl
      · rw [if_neg ‹_›]
        exact valueStart_append h below
  | after => exact afterValue_append h below
  | number part =>
      simp only [next] at h ⊢
      cases hp : part.next c with
      | some part' =>
          simp only [hp] at h ⊢
          cases h
          rfl
      | none =>
          simp only [hp] at h ⊢
          split at h
          · rw [if_pos ‹_›]
            exact afterValue_append h below
          · cases h
  | arrayStart =>
      rcases stack with _ | ⟨_ | _, stack⟩ <;> try cases h
      simp only [next, List.cons_append] at h ⊢
      split at h
      · rw [if_pos ‹_›]
        cases h
        rfl
      · rw [if_neg ‹_›]
        split at h
        · rw [if_pos ‹_›]
          cases h
          rfl
        · rw [if_neg ‹_›]
          exact valueStart_append h below
  | objectStart => rcases stack with _ | ⟨_ | _, stack⟩ <;> simp only [next] at h <;> grind [next]
  | literal rest => rcases rest with _ | ⟨x, _ | ⟨y, ys⟩⟩ <;> simp only [next] at h ⊢ <;> grind
  | unicode isKey left => cases left <;> simp only [next] at h ⊢ <;> grind
  | _ => simp only [next] at h ⊢; grind

theorem feed_stack {phase : Phase} {stack : Stack} {text : Text} {phase' : Phase}
    {stack' : Stack} (h : feed (phase, stack) text = some (phase', stack')) (below : Stack) :
    feed (phase, stack ++ below) text = some (phase', stack' ++ below) := by
  induction text generalizing phase stack with
  | nil => cases h; rfl
  | cons c text ih =>
      obtain ⟨⟨middle, inner⟩, first, rest⟩ := Option.bind_eq_some_iff.mp h
      rw [feed_cons, next_append first below]
      exact ih rest

/-- What may follow a value: whitespace, a separator or a closing bracket. -/
def delimiters : Text := [' ', '\n', '\r', '\t', ',', ']', '}']

theorem mem_delimiters_of_isSpace {c : Char} (space : isSpace c) : c ∈ delimiters := by
  have blank : c = ' ' ∨ c = '\n' ∨ c = '\r' ∨ c = '\t' := by
    simpa [isSpace, or_assoc] using space
  rcases blank with rfl | rfl | rfl | rfl <;> decide

/-- A number ends at a delimiter. -/
theorem NumberPart.next_delimiter (part : NumberPart) {c : Char} (stop : c ∈ delimiters) :
    part.next c = none := by
  simp only [delimiters, List.mem_cons, List.not_mem_nil, or_false] at stop
  rcases stop with rfl | rfl | rfl | rfl | rfl | rfl | rfl <;> cases part <;> rfl

/-- A complete value inside an open container is followed by what may stand after
a value there, also when the value is a number, which ends only at that character. -/
theorem next_of_complete {phase : Phase} (h : phase.complete) {stack : Stack} {c : Char}
    (stop : c ∈ delimiters) : next phase stack c = afterValue stack c := by
  cases phase with
  | after => rfl
  | number part =>
      simp only [next, part.next_delimiter stop]
      exact if_pos h
  | _ => cases h

/-- A whole value text without surrounding whitespace. -/
def isValue (text : Text) : Bool :=
  match text with
  | [] => false
  | c :: _ =>
      !isSpace c &&
        match feed (.value, []) text with
        | some (phase, stack) => phase.complete && stack.isEmpty
        | none => false

theorem isValue_iff {text : Text} :
    isValue text ↔ (∃ c rest, text = c :: rest ∧ isSpace c = false) ∧
      ∃ phase, feed (.value, []) text = some (phase, []) ∧ phase.complete := by
  cases text with
  | nil => simp [isValue]
  | cons c rest =>
      simp only [isValue, Bool.and_eq_true, Bool.not_eq_true']
      constructor
      · rintro ⟨space, h⟩
        refine ⟨⟨c, rest, rfl, space⟩, ?_⟩
        cases hf : feed (.value, []) (c :: rest) with
        | none => simp [hf] at h
        | some state =>
            obtain ⟨phase, stack⟩ := state
            simp only [hf, Bool.and_eq_true, List.isEmpty_iff] at h
            obtain ⟨complete, rfl⟩ := h
            exact ⟨phase, rfl, complete⟩
      · rintro ⟨⟨c', rest', heq, space⟩, phase, hf, complete⟩
        cases heq
        simp [space, hf, complete]

/-- A value text is read inside any open containers. -/
theorem feed_value {text : Text} (h : isValue text) (stack : Stack) :
    ∃ phase, feed (.value, stack) text = some (phase, stack) ∧ phase.complete := by
  obtain ⟨-, phase, hf, complete⟩ := isValue_iff.mp h
  exact ⟨phase, by simpa using feed_stack hf stack, complete⟩

end Json
