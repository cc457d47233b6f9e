import Centrifugo.Json.Write
import Mathlib.Data.List.DropRight

/-!
# Reading JSON texts

The reader is shallow: it takes an object apart into the keys and the raw texts of
its members, and leaves every value to whoever knows its type. A value ends where
the automaton cannot go on, which for a number is the character after it.

Each reader comes with the theorem that it inverts the writer, over any text that
follows.
-/

namespace Json

/-- Drop the whitespace around a text. -/
def trim (text : Text) : Text := (text.dropWhile isSpace).rdropWhile isSpace

/-! ## Values -/

/-- Take the longest continuation of a value that the automaton accepts. -/
def scan : Phase → Stack → Text → Option (Text × Text)
  | phase, stack, [] => if phase.complete && stack.isEmpty then some ([], []) else none
  | phase, stack, c :: text =>
      match next phase stack c with
      | some (phase', stack') =>
          (scan phase' stack' text).map fun (value, rest) => (c :: value, rest)
      | none => if phase.complete && stack.isEmpty then some ([], c :: text) else none

theorem scan_of_feed {phase : Phase} {stack : Stack} {value : Text} {last : Phase}
    (h : feed (phase, stack) value = some (last, [])) (complete : last.complete)
    {c : Char} (stop : c ∈ delimiters) (rest : Text) :
    scan phase stack (value ++ c :: rest) = some (value, c :: rest) := by
  induction value generalizing phase stack with
  | nil =>
      cases h
      have ended : next last [] c = none := next_of_complete complete stop
      simp [scan, ended, complete]
  | cons d value ih =>
      obtain ⟨⟨middle, inner⟩, first, following⟩ := Option.bind_eq_some_iff.mp h
      simp [scan, first, ih following]

/-- No whitespace is expected inside a literal. -/
def Phase.literalOk : Phase → Bool
  | literal rest => rest.all fun c => !isSpace c
  | _ => true

theorem literalOk_valueStart {stack stack' : Stack} {c : Char} {phase : Phase}
    (h : valueStart stack c = some (phase, stack')) : phase.literalOk := by
  unfold valueStart at h
  repeat' split at h
  all_goals cases h
  all_goals rfl

theorem literalOk_afterValue {stack stack' : Stack} {c : Char} {phase : Phase}
    (h : afterValue stack c = some (phase, stack')) : phase.literalOk := by
  unfold afterValue at h
  repeat' split at h
  all_goals cases h
  all_goals rfl

theorem literalOk_stringEnd (isKey : Bool) : (stringEnd isKey).literalOk := by
  cases isKey <;> rfl

theorem literalOk_next {phase phase' : Phase} {stack stack' : Stack} {c : Char}
    (ok : phase.literalOk) (h : next phase stack c = some (phase', stack')) :
    phase'.literalOk := by
  unfold next at h
  repeat' split at h
  all_goals first
    | exact literalOk_valueStart h
    | exact literalOk_afterValue h
    | cases h
  all_goals first
    | rfl
    | exact literalOk_stringEnd _
    | exact ok
    | simp_all [Phase.literalOk]

theorem literalOk_feed {state : Phase × Stack} {text : Text} {phase : Phase} {stack : Stack}
    (ok : state.1.literalOk) (h : feed state text = some (phase, stack)) : phase.literalOk := by
  induction text generalizing state with
  | nil =>
      cases h
      exact ok
  | cons c text ih =>
      obtain ⟨middle, first, rest⟩ := Option.bind_eq_some_iff.mp h
      exact ih (literalOk_next ok first) rest

theorem afterValue_space {stack : Stack} {c : Char} (space : isSpace c) {phase : Phase} :
    afterValue stack c ≠ some (phase, []) := by
  cases stack with
  | nil => simp [afterValue]
  | cons top stack => cases top <;> simp [afterValue, space]

/-- Whitespace never completes a value: it separates, or stands inside a string. -/
theorem next_space {phase phase' : Phase} {stack : Stack} {c : Char} (space : isSpace c)
    (ok : phase.literalOk) (h : next phase stack c = some (phase', [])) :
    phase'.complete = false := by
  have stop := mem_delimiters_of_isSpace space
  cases phase with
  | value =>
      simp only [next, space, if_true] at h
      cases h
      rfl
  | arrayStart => rcases stack with _ | ⟨_ | _, stack⟩ <;> simp [next, space] at h
  | objectStart => rcases stack with _ | ⟨_ | _, stack⟩ <;> simp [next, space] at h
  | key =>
      simp only [next, space, if_true] at h
      cases h
      rfl
  | colon =>
      simp only [next, space, if_true] at h
      cases h
      rfl
  | after => exact (afterValue_space space h).elim
  | string isKey =>
      have notQuote : c ≠ '"' := by
        rintro rfl
        cases space
      simp only [next, notQuote, if_false] at h
      repeat' split at h
      all_goals cases h
      all_goals rfl
  | escape isKey =>
      simp only [next] at h
      repeat' split at h
      all_goals cases h
      all_goals rfl
  | unicode isKey left =>
      simp only [next] at h
      repeat' split at h
      all_goals cases h
      all_goals rfl
  | literal rest =>
      cases rest with
      | nil => cases h
      | cons x xs =>
          have letter : isSpace x = false := by
            simpa using List.all_eq_true.mp ok x List.mem_cons_self
          have differs : c ≠ x := by
            rintro rfl
            simp [space] at letter
          simp [next, differs] at h
  | number part =>
      simp only [next, part.next_delimiter stop] at h
      split at h
      · exact (afterValue_space space h).elim
      · cases h

theorem isValue_last {text : Text} (h : isValue text) :
    ∃ front c, text = front ++ [c] ∧ isSpace c = false := by
  obtain ⟨⟨first, rest, eq, -⟩, phase, accepted, complete⟩ := isValue_iff.mp h
  have nonempty : text ≠ [] := by simp [eq]
  refine ⟨text.dropLast, text.getLast nonempty, (List.dropLast_append_getLast nonempty).symm, ?_⟩
  by_contra space
  rw [← List.dropLast_append_getLast nonempty, feed_append] at accepted
  obtain ⟨⟨middle, stack⟩, front, last⟩ := Option.bind_eq_some_iff.mp accepted
  have ok : middle.literalOk := literalOk_feed rfl front
  simp only [feed_cons, feed_nil] at last
  have step : next middle stack (text.getLast nonempty) = some (phase, []) := by simpa using last
  rw [next_space (by simpa using space) ok step] at complete
  cases complete

/-- Nothing is trimmed from a value. -/
theorem trim_of_isValue {text : Text} (h : isValue text) : trim text = text := by
  obtain ⟨⟨c, rest, head, space⟩, -⟩ := isValue_iff.mp h
  obtain ⟨front, last, tail, blank⟩ := isValue_last h
  have start : text.dropWhile isSpace = text := by
    rw [head]
    exact List.dropWhile_cons_of_neg (by simp [space])
  unfold trim
  rw [start, tail]
  exact List.rdropWhile_concat_neg isSpace front last (by simp [blank])

namespace RawValue

/-- A text as a value: surrounding whitespace is dropped, everything else is kept. -/
def fromString (text : Text) : Option RawValue :=
  if h : isValue (trim text) then some ⟨trim text, h⟩ else none

theorem fromString_eq_some {text : Text} {v : RawValue} :
    fromString text = some v ↔ v.text = trim text := by
  unfold fromString
  constructor
  · intro h
    split at h
    · cases h
      rfl
    · cases h
  · intro h
    have valid : isValue (trim text) := h ▸ v.valid
    rw [dif_pos valid]
    exact congrArg some (ext h.symm)

@[simp] theorem fromString_text (v : RawValue) : fromString v.text = some v :=
  fromString_eq_some.mpr (trim_of_isValue v.valid).symm

end RawValue

/-! ## Strings -/

def hexValue (c : Char) : Nat :=
  if c.isDigit then c.toNat - 48
  else if 'a' ≤ c && c ≤ 'f' then c.toNat - 87
  else c.toNat - 55

/-- The code unit of four hexadecimal digits. -/
def codeUnit (a b c d : Char) : Option Nat :=
  if isHex a && isHex b && isHex c && isHex d then
    some (((hexValue a * 16 + hexValue b) * 16 + hexValue c) * 16 + hexValue d)
  else none

def isHighSurrogate (n : Nat) : Bool := 0xD800 ≤ n && n ≤ 0xDBFF

def isLowSurrogate (n : Nat) : Bool := 0xDC00 ≤ n && n ≤ 0xDFFF

/-- The characters that stand for themselves or for a control character after a
backslash. -/
def shortEscape (c : Char) : Option Char :=
  if c = '"' || c = '\\' || c = '/' then some c
  else if c = 'b' then some (Char.ofNat 8)
  else if c = 'f' then some (Char.ofNat 12)
  else if c = 'n' then some '\n'
  else if c = 'r' then some '\r'
  else if c = 't' then some '\t'
  else none

/-- Read a string up to its closing quote. A surrogate is accepted only as the
first or second half of a pair. -/
def readString : Text → Option (Text × Text)
  | [] => none
  | '"' :: rest => some ([], rest)
  | '\\' :: 'u' :: a :: b :: c :: d :: rest =>
      match codeUnit a b c d with
      | none => none
      | some high =>
          if isLowSurrogate high then none
          else if isHighSurrogate high then
            match rest with
            | '\\' :: 'u' :: e :: f :: g :: h :: rest =>
                match codeUnit e f g h with
                | none => none
                | some low =>
                    if isLowSurrogate low then
                      (readString rest).map fun (text, rest) =>
                        (Char.ofNat ((high - 0xD800) * 1024 + (low - 0xDC00) + 0x10000) :: text,
                          rest)
                    else none
            | _ => none
          else (readString rest).map fun (text, rest) => (Char.ofNat high :: text, rest)
  | '\\' :: c :: rest =>
      match shortEscape c with
      | none => none
      | some c => (readString rest).map fun (text, rest) => (c :: text, rest)
  | c :: rest =>
      if isControl c || c = '\\' then none
      else (readString rest).map fun (text, rest) => (c :: text, rest)

private theorem codeUnit_control {n : Nat} (h : n < 32) :
    codeUnit '0' '0' (hexDigit (n / 16)) (hexDigit n) = some n := by
  have all : ∀ m < 32, codeUnit '0' '0' (hexDigit (m / 16)) (hexDigit m) = some m := by decide
  exact all n h

theorem readString_escapeChar (c : Char) (text : Text) :
    readString (escapeChar c ++ text) =
      (readString text).map fun (s, rest) => (c :: s, rest) := by
  have named : ∀ n, c.toNat = n → Char.ofNat n = c := by
    intro n h
    rw [← h, Char.ofNat_toNat]
  unfold escapeChar
  split
  next h => rw [h]; rfl
  split
  next h => rw [h]; rfl
  split
  next h => rw [← named 8 h]; rfl
  split
  next h => rw [← named 12 h]; rfl
  split
  next h => rw [h]; rfl
  split
  next h => rw [h]; rfl
  split
  next h => rw [h]; rfl
  split
  next h =>
    -- The remaining control characters are written as one code unit below any surrogate.
    have small : c.toNat < 32 := by simpa [isControl] using h
    have low : isLowSurrogate c.toNat = false := by
      simp only [isLowSurrogate, Bool.and_eq_false_iff, decide_eq_false_iff_not]
      omega
    have high : isHighSurrogate c.toNat = false := by
      simp only [isHighSurrogate, Bool.and_eq_false_iff, decide_eq_false_iff_not]
      omega
    change readString ('\\' :: 'u' :: '0' :: '0' :: hexDigit (c.toNat / 16) ::
      hexDigit c.toNat :: text) = _
    simp only [readString, codeUnit_control small, low, high, named c.toNat rfl,
      Bool.false_eq_true, if_false]
  next quoteless backslashless _ _ _ _ _ printable =>
    change readString (c :: text) = _
    rw [readString.eq_5]
    · simp [printable, backslashless]
    · exact quoteless
    · intros; simp_all
    · intros; simp_all

/-- A written string is read back, whatever follows its closing quote. -/
theorem readString_quote (s rest : Text) :
    readString (escape s ++ '"' :: rest) = some (s, rest) := by
  induction s with
  | nil => rfl
  | cons c s ih =>
      rw [escape_cons, List.append_assoc, readString_escapeChar, ih]
      rfl

/-! ## Objects -/

def skipSpace (text : Text) : Text := text.dropWhile isSpace

@[simp] theorem skipSpace_cons {c : Char} (h : isSpace c = false) (text : Text) :
    skipSpace (c :: text) = c :: text :=
  List.dropWhile_cons_of_neg (by simp [h])

/-- The value at the front of a text, as raw text. -/
def readValue (text : Text) : Option (RawValue × Text) := do
  let (value, rest) ← scan .value [] (skipSpace text)
  let value ← RawValue.fromString value
  some (value, rest)

def readMember (text : Text) : Option ((Text × RawValue) × Text) :=
  match skipSpace text with
  | '"' :: text => do
      let (key, text) ← readString text
      match skipSpace text with
      | ':' :: text => do
          let (value, rest) ← readValue text
          some ((key, value), rest)
      | _ => none
  | _ => none

/-- The members of an object after its opening brace. Every member takes at least
one character, so the length of the text is fuel enough. -/
def readMembers : Nat → Text → Option (List (Text × RawValue) × Text)
  | 0, _ => none
  | fuel + 1, text => do
      let (first, text) ← readMember text
      match skipSpace text with
      | ',' :: text => do
          let (others, rest) ← readMembers fuel text
          some (first :: others, rest)
      | '}' :: rest => some ([first], rest)
      | _ => none

/-- A text that is one object, with whitespace around it. -/
def readObject (text : Text) : Option (List (Text × RawValue)) :=
  match skipSpace text with
  | '{' :: text =>
      match skipSpace text with
      | '}' :: rest => if skipSpace rest = [] then some [] else none
      | _ => do
          let (members, rest) ← readMembers text.length text
          if skipSpace rest = [] then some members else none
  | _ => none

theorem readValue_text (v : RawValue) {c : Char} (stop : c ∈ delimiters) (rest : Text) :
    readValue (v.text ++ c :: rest) = some (v, c :: rest) := by
  obtain ⟨first, others, head, space⟩ := v.head
  obtain ⟨phase, accepted, complete⟩ := v.feed []
  have start : skipSpace (v.text ++ c :: rest) = v.text ++ c :: rest := by
    rw [head]
    exact skipSpace_cons space _
  simp [readValue, start, scan_of_feed accepted complete stop rest]

theorem readMember_member (entry : String × RawValue) {c : Char} (stop : c ∈ delimiters)
    (rest : Text) :
    readMember (member entry ++ c :: rest) = some ((entry.1.toList, entry.2), c :: rest) := by
  obtain ⟨key, value⟩ := entry
  have text : member (key, value) ++ c :: rest =
      '"' :: (escape key.toList ++ '"' :: ':' :: (value.text ++ c :: rest)) := by
    simp [member, quote]
  have opening : isSpace '"' = false := rfl
  have colon : isSpace ':' = false := rfl
  simp only [readMember, text, skipSpace_cons opening, readString_quote, Option.bind_eq_bind,
    Option.bind_some, skipSpace_cons colon, readValue_text value stop]

theorem readMembers_separate (first : String × RawValue) (others : List (String × RawValue))
    {fuel : Nat} (enough : others.length < fuel) (rest : Text) :
    readMembers fuel (separate ((first :: others).map member) ++ '}' :: rest) =
      some ((first :: others).map fun entry => (entry.1.toList, entry.2), rest) := by
  induction others generalizing first fuel with
  | nil =>
      obtain ⟨fuel, rfl⟩ := Nat.exists_eq_add_of_lt enough
      have closing : '}' ∈ delimiters := by decide
      have brace : isSpace '}' = false := rfl
      simp [readMembers, readMember_member first closing, skipSpace_cons brace]
  | cons second others ih =>
      cases fuel with
      | zero => cases enough
      | succ fuel =>
          have comma : ',' ∈ delimiters := by decide
          have separator : isSpace ',' = false := rfl
          have left : others.length < fuel := by simpa using enough
          have following := ih second left
          simp only [List.map_cons] at following ⊢
          simp only [separate_cons, List.append_assoc, List.cons_append, readMembers,
            readMember_member first comma, Option.bind_eq_bind, Option.bind_some,
            skipSpace_cons separator, following]

theorem length_le_separate (entries : List (String × RawValue)) :
    entries.length ≤ (separate (entries.map member)).length := by
  induction entries with
  | nil => exact Nat.zero_le _
  | cons first others ih =>
      cases others with
      | nil => simp [member, quote]
      | cons second others =>
          simp only [List.map_cons, separate_cons, List.length_append, List.length_cons] at ih ⊢
          omega

/-- The members of a written object are read back in their order. -/
theorem readObject_object (entries : List (String × RawValue)) :
    readObject (RawValue.object entries).text =
      some (entries.map fun entry => (entry.1.toList, entry.2)) := by
  cases entries with
  | nil => rfl
  | cons first others =>
      have enough : others.length <
          (separate ((first :: others).map member) ++ ['}']).length := by
        have := length_le_separate (first :: others)
        simp only [List.length_append, List.length_cons] at this ⊢
        omega
      have inner := readMembers_separate first others enough []
      obtain ⟨body, opening⟩ : ∃ body,
          separate ((first :: others).map member) ++ ['}'] = '"' :: body := by
        cases others with
        | nil => exact ⟨_, rfl⟩
        | cons second others => exact ⟨_, rfl⟩
      have quoteMark : isSpace '"' = false := rfl
      have brace : isSpace '{' = false := rfl
      change readObject ('{' :: (separate ((first :: others).map member) ++ ['}'])) = _
      rw [opening] at inner ⊢
      simp only [readObject, skipSpace_cons brace, skipSpace_cons quoteMark, inner,
        Option.bind_eq_bind, Option.bind_some]
      rfl

/-- The member with a given key: absent, present once, or an error when it is
repeated. -/
def field (name : String) (members : List (Text × RawValue)) : Option (Option RawValue) :=
  match members.filter fun entry => entry.1 = name.toList with
  | [] => some none
  | [entry] => some (some entry.2)
  | _ => none

/-- Looking a key up among written members. -/
theorem field_written (name : String) (entries : List (String × RawValue)) :
    field name (entries.map fun entry => (entry.1.toList, entry.2)) =
      match entries.filter fun entry => entry.1 = name with
      | [] => some none
      | [entry] => some (some entry.2)
      | _ => none := by
  have keys : (fun entry : Text × RawValue => decide (entry.1 = name.toList)) ∘
      (fun entry : String × RawValue => (entry.1.toList, entry.2)) =
        fun entry => decide (entry.1 = name) := by
    funext entry
    simp [String.toList_inj]
  rw [field, List.filter_map, keys]
  cases entries.filter fun entry => entry.1 = name with
  | nil => rfl
  | cons first rest => cases rest <;> rfl

/-! ## Scalars -/

namespace RawValue

def toText? (v : RawValue) : Option Text :=
  match v.text with
  | '"' :: text =>
      match readString text with
      | some (s, []) => some s
      | _ => none
  | _ => none

@[simp] theorem toText?_string (s : String) : (string s).toText? = some s.toList := by
  have read : readString (escape s.toList ++ ['"']) = some (s.toList, []) :=
    readString_quote s.toList []
  simp [toText?, string, quote, read]

/-- An unsigned integer. A sign, a fraction or an exponent is refused. -/
def toNat? (v : RawValue) : Option Nat :=
  if v.text.all Char.isDigit then some (Nat.ofDigitChars 10 v.text 0) else none

@[simp] theorem toNat?_number (n : Nat) : (number n).toNat? = some n := by
  have digits : (number n).text.all Char.isDigit := by
    rw [List.all_eq_true]
    intro c hc
    exact isDigit_of_mem_digits hc
  rw [toNat?, if_pos digits]
  exact congrArg some Nat.ofDigitChars_ten_toDigits

def toBool? (v : RawValue) : Option Bool :=
  if v = .bool true then some true
  else if v = .bool false then some false
  else none

@[simp] theorem toBool?_bool (b : Bool) : (bool b).toBool? = some b := by
  cases b <;> rfl

end RawValue

end Json
