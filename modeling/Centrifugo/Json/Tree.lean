import Centrifugo.Json.Lines
import Centrifugo.Json.Number
import Centrifugo.Json.Struct

/-!
# Values read to the bottom

A tree is a JSON value in all its parts, over whatever its numbers are: texts where a value is
read, numbers of some kind where a program holds it. Reading is bounded in depth.
-/

namespace Json

/-- A value, over what its numbers are. -/
inductive Tree (ν : Type)
  | null
  | bool (b : Bool)
  | number (n : ν)
  | string (text : Text)
  | array (elements : List (Tree ν))
  | object (members : List (Text × Tree ν))

namespace Tree

variable {ν μ ρ : Type}

@[elab_as_elim]
theorem induct {motive : Tree ν → Prop} (null : motive .null) (bool : ∀ b, motive (.bool b))
    (number : ∀ n, motive (.number n)) (string : ∀ text, motive (.string text))
    (array : ∀ elements, (∀ t ∈ elements, motive t) → motive (.array elements))
    (object : ∀ members, (∀ m ∈ members, motive m.2) → motive (.object members)) (t : Tree ν) :
    motive t := by
  refine @Tree.rec ν motive (fun elements => ∀ t ∈ elements, motive t)
    (fun members => ∀ m ∈ members, motive m.2) (fun m => motive m.2) null bool number string
    array object ?_ ?_ ?_ ?_ ?_ t
  · intro t mem
    cases mem
  · intro first rest here later
    exact List.forall_mem_cons.mpr ⟨here, later⟩
  · intro m mem
    cases mem
  · intro first rest here later
    exact List.forall_mem_cons.mpr ⟨here, later⟩
  · intro name t here
    exact here

/-! ## Folding -/

/-- What is made of each kind of node. -/
structure Fold (ν ρ : Type) where
  null : ρ
  bool : Bool → ρ
  number : ν → ρ
  string : Text → ρ
  array : List ρ → ρ
  object : List (Text × ρ) → ρ

mutual

def fold (f : Fold ν ρ) : Tree ν → ρ
  | .null => f.null
  | .bool b => f.bool b
  | .number n => f.number n
  | .string text => f.string text
  | .array elements => f.array (foldElements f elements)
  | .object members => f.object (foldMembers f members)

def foldElements (f : Fold ν ρ) : List (Tree ν) → List ρ
  | [] => []
  | t :: rest => fold f t :: foldElements f rest

def foldMembers (f : Fold ν ρ) : List (Text × Tree ν) → List (Text × ρ)
  | [] => []
  | (name, t) :: rest => (name, fold f t) :: foldMembers f rest

end

variable (f : Fold ν ρ)

@[simp] theorem fold_null : fold f .null = f.null := rfl

@[simp] theorem fold_bool (b : Bool) : fold f (.bool b) = f.bool b := rfl

@[simp] theorem fold_number (n : ν) : fold f (.number n) = f.number n := rfl

@[simp] theorem fold_string (text : Text) : fold f (.string text) = f.string text := rfl

@[simp] theorem fold_array (elements : List (Tree ν)) :
    fold f (.array elements) = f.array (elements.map (fold f)) := by
  have each : foldElements f elements = elements.map (fold f) := by
    induction elements with
    | nil => rfl
    | cons t rest ih => exact congrArg (fold f t :: ·) ih
  exact congrArg f.array each

@[simp] theorem fold_object (members : List (Text × Tree ν)) :
    fold f (.object members) = f.object (members.map fun m => (m.1, fold f m.2)) := by
  have each : foldMembers f members = members.map fun m => (m.1, fold f m.2) := by
    induction members with
    | nil => rfl
    | cons m rest ih => exact congrArg ((m.1, fold f m.2) :: ·) ih
  exact congrArg f.object each

/-- Another kind of numbers. -/
def map (g : ν → μ) : Tree ν → Tree μ :=
  fold ⟨.null, .bool, fun n => .number (g n), .string, .array, .object⟩

/-- The text of a value. -/
def print (number : ν → RawValue) : Tree ν → RawValue :=
  fold ⟨.null, .bool, number, fun text => .string (.ofList text), .array,
    fun members => .object (members.map fun m => (.ofList m.1, m.2))⟩

/-! ## Reading -/

def readScalar (value : RawValue) : Option (Tree Text) :=
  if value = .null then some .null
  else
    match value.toBool? with
    | some b => some (.bool b)
    | none =>
        match value.toText? with
        | some text => some (.string text)
        | none => if (readDecimal value.text).isSome then some (.number value.text) else none

/-- The first argument bounds how deep containers may stand in each other. -/
def read : Nat → RawValue → Option (Tree Text)
  | 0, value => readScalar value
  | depth + 1, value =>
      match readObject value.text with
      | some members =>
          (members.mapM fun m => (read depth m.2).map fun t => (m.1, t)).map .object
      | none =>
          match readArray value.text with
          | some elements => (elements.mapM (read depth)).map .array
          | none => readScalar value

end Tree

theorem readDecimal_eq_none {c : Char} {text : Text} (away : c ∉ ['-', '+', '.', 'e', 'E'])
    (digit : c.isDigit = false) : readDecimal (c :: text) = none := by
  simp only [List.mem_cons, List.not_mem_nil, or_false, not_or] at away
  obtain ⟨minus, plus, point, small, large⟩ := away
  have sign : takeSign (c :: text) = (1, c :: text) := by
    unfold takeSign
    split
    next same => exact absurd (List.cons.inj same).1 minus
    next same => exact absurd (List.cons.inj same).1 plus
    next => rfl
  have fraction : takeFraction (c :: text) = ([], c :: text) := by
    unfold takeFraction
    split
    next same => exact absurd (List.cons.inj same).1 point
    next => rfl
  simp [readDecimal, sign, takeDigits, digit, fraction, readExponent, small, large]

theorem readElements_separate (first : RawValue) (others : List RawValue) {fuel : Nat}
    (enough : others.length < fuel) (rest : Text) :
    readElements fuel (separate ((first :: others).map RawValue.text) ++ ']' :: rest) =
      some (first :: others, rest) := by
  induction others generalizing first fuel with
  | nil =>
      obtain ⟨fuel, rfl⟩ := Nat.exists_eq_add_of_lt enough
      have closing : ']' ∈ delimiters := by decide
      have bracket : isSpace ']' = false := rfl
      simp [readElements, readValue_text first closing, skipSpace_cons bracket]
  | cons second others ih =>
      cases fuel with
      | zero => cases enough
      | succ fuel =>
          have comma : ',' ∈ delimiters := by decide
          have separator : isSpace ',' = false := rfl
          have left : others.length < fuel := by simpa using enough
          have following := ih second left
          simp only [List.map_cons] at following ⊢
          simp only [separate_cons, List.append_assoc, List.cons_append, readElements,
            readValue_text first comma, Option.bind_eq_bind, Option.bind_some,
            skipSpace_cons separator, following]

theorem length_le_separate_texts (elements : List RawValue) :
    elements.length ≤ (separate (elements.map RawValue.text)).length := by
  induction elements with
  | nil => exact Nat.zero_le _
  | cons first others ih =>
      have nonempty := List.length_pos_iff.mpr first.text_ne_nil
      cases others with
      | nil => simpa [Nat.one_le_iff_ne_zero, Nat.pos_iff_ne_zero] using nonempty
      | cons second others =>
          simp only [List.map_cons, separate_cons, List.length_append, List.length_cons] at ih ⊢
          omega

/-- The elements of a written array are read back in their order. -/
theorem readArray_array (elements : List RawValue) :
    readArray (RawValue.array elements).text = some elements := by
  cases elements with
  | nil => rfl
  | cons first others =>
      have enough : others.length <
          (separate ((first :: others).map RawValue.text) ++ [']']).length := by
        have := length_le_separate_texts (first :: others)
        simp only [List.length_append, List.length_cons] at this ⊢
        omega
      have inner := readElements_separate first others enough []
      obtain ⟨c, body, head, space⟩ := first.head
      obtain ⟨tail, opening⟩ : ∃ tail,
          separate ((first :: others).map RawValue.text) ++ [']'] = c :: tail := by
        cases others with
        | nil => exact ⟨_, by rw [List.map_cons, List.map_nil, separate_singleton, head]; rfl⟩
        | cons second others =>
            exact ⟨_, by rw [List.map_cons, List.map_cons, separate_cons, head]; rfl⟩
      have bracket : isSpace '[' = false := rfl
      have more : c ≠ ']' := by
        rintro rfl
        obtain ⟨phase, accepted, -⟩ := first.feed []
        rw [head, feed_cons] at accepted
        cases accepted
      change readArray ('[' :: (separate ((first :: others).map RawValue.text) ++ [']'])) = _
      rw [opening] at inner ⊢
      simp only [readArray, skipSpace_cons bracket, skipSpace_cons space]
      split
      next same => exact absurd (List.cons.inj same).1 more
      next =>
        rw [inner]
        rfl

namespace Tree

/-! ### Scalars -/

theorem readScalar_number {value : RawValue} (decimal : (readDecimal value.text).isSome) :
    readScalar value = some (.number value.text) := by
  have notText : value.toText? = none := by
    unfold RawValue.toText?
    split
    next rest text =>
      rw [text, readDecimal_eq_none (by decide) (by decide)] at decimal
      cases decimal
    next => rfl
  have notNull : value ≠ .null := by
    rintro rfl
    exact absurd decimal (by decide)
  have notBool : value.toBool? = none := by
    have differs : ∀ b, value ≠ .bool b := by
      rintro b rfl
      cases b <;> exact absurd decimal (by decide)
    rw [RawValue.toBool?, if_neg (differs true), if_neg (differs false)]
  simp only [readScalar, notNull, if_false, notBool, notText, decimal, if_true]

theorem readScalar_string (text : Text) :
    readScalar (.string (.ofList text)) = some (.string text) := by
  have notNull : RawValue.string (.ofList text) ≠ .null := by
    intro same
    cases congrArg RawValue.text same
  have notBool : (RawValue.string (.ofList text)).toBool? = none := by
    have differs : ∀ b, RawValue.string (.ofList text) ≠ .bool b := by
      intro b same
      cases b <;> cases congrArg RawValue.text same
    rw [RawValue.toBool?, if_neg (differs true), if_neg (differs false)]
  simp [readScalar, notNull, notBool]

theorem readScalar_eq_none {value : RawValue} {c : Char} {rest : Text}
    (head : value.text = c :: rest) (container : c = '{' ∨ c = '[') : readScalar value = none := by
  have differs : ∀ other : RawValue, other.text.head? ≠ some c → value ≠ other := by
    rintro other away rfl
    exact away (by rw [head, List.head?_cons])
  have notNull : value ≠ .null := differs _ (by obtain rfl | rfl := container <;> decide)
  have notBool : value.toBool? = none := by
    rw [RawValue.toBool?, if_neg (differs _ (by obtain rfl | rfl := container <;> decide)),
      if_neg (differs _ (by obtain rfl | rfl := container <;> decide))]
  have notText : value.toText? = none := by
    obtain rfl | rfl := container <;> simp [RawValue.toText?, head]
  have notNumber : readDecimal value.text = none := by
    rw [head]
    obtain rfl | rfl := container <;> exact readDecimal_eq_none (by decide) (by decide)
  simp [readScalar, notNull, notBool, notText, notNumber]

theorem readObject_head {value : RawValue} {members : List (Text × RawValue)}
    (read : readObject value.text = some members) : ∃ rest, value.text = '{' :: rest := by
  obtain ⟨c, rest, head, space⟩ := value.head
  rw [head, readObject, skipSpace_cons space] at read
  split at read
  next same =>
    cases same
    exact ⟨_, head⟩
  next => cases read

theorem readArray_head {value : RawValue} {elements : List RawValue}
    (read : readArray value.text = some elements) : ∃ rest, value.text = '[' :: rest := by
  obtain ⟨c, rest, head, space⟩ := value.head
  rw [head, readArray, skipSpace_cons space] at read
  split at read
  next same =>
    cases same
    exact ⟨_, head⟩
  next => cases read

/-- A scalar is read at any depth. -/
theorem read_of_readScalar {value : RawValue} {t : Tree Text}
    (scalar : readScalar value = some t) (depth : Nat) : read depth value = some t := by
  cases depth with
  | zero => exact scalar
  | succ depth =>
      rw [read]
      split
      next members object =>
        obtain ⟨rest, head⟩ := readObject_head object
        cases (readScalar_eq_none head (.inl rfl)).symm.trans scalar
      next =>
        split
        next elements array =>
          obtain ⟨rest, head⟩ := readArray_head array
          cases (readScalar_eq_none head (.inr rfl)).symm.trans scalar
        next => exact scalar

theorem read_array {depth : Nat} {elements : List RawValue} :
    read (depth + 1) (.array elements) = (elements.mapM (read depth)).map .array := by
  have noObject : readObject (RawValue.array elements).text = none := by
    rw [Option.eq_none_iff_forall_ne_some]
    intro members object
    obtain ⟨rest, head⟩ := readObject_head object
    cases head
  rw [read, noObject, readArray_array]

theorem read_object {depth : Nat} {members : List (String × RawValue)} :
    read (depth + 1) (.object members) = ((members.mapM fun m =>
      (read depth m.2).map fun t => (m.1.toList, t)).map .object) := by
  rw [read, readObject_object]
  exact congrArg (Option.map Tree.object) List.mapM_map

/-- More depth reads the same. -/
theorem read_mono {depth more : Nat} {value : RawValue} {t : Tree Text}
    (taken : read depth value = some t) (le : depth ≤ more) : read more value = some t := by
  induction depth generalizing more value t with
  | zero => exact read_of_readScalar taken more
  | succ depth ih =>
      obtain ⟨more, rfl⟩ : ∃ n, more = n + 1 := ⟨more - 1, by omega⟩
      have le := Nat.le_of_succ_le_succ le
      rw [read] at taken ⊢
      split at taken
      next members object =>
        obtain ⟨all, each, rfl⟩ := Option.map_eq_some_iff.mp taken
        rw [mapM_eq_some] at each
        refine Option.map_eq_some_iff.mpr ⟨all, mapM_eq_some.mpr (each.imp ?_), rfl⟩
        intro m t' read
        obtain ⟨inner, here, rfl⟩ := Option.map_eq_some_iff.mp read
        exact Option.map_eq_some_iff.mpr ⟨inner, ih here le, rfl⟩
      next noObject =>
        split at taken
        next elements array =>
          obtain ⟨all, each, rfl⟩ := Option.map_eq_some_iff.mp taken
          rw [mapM_eq_some] at each
          refine Option.map_eq_some_iff.mpr ⟨all, mapM_eq_some.mpr (each.imp ?_), rfl⟩
          intro element t' read
          exact ih read le
        next noArray => exact taken

/-- A value has one reading. -/
theorem read_unique {depth other : Nat} {value : RawValue} {t u : Tree Text}
    (this : read depth value = some t) (that : read other value = some u) : t = u := by
  have this := read_mono this (Nat.le_max_left depth other)
  have that := read_mono that (Nat.le_max_right depth other)
  exact Option.some.inj (this.symm.trans that)

/-! ### Printing -/

@[simp] theorem print_array (number : ν → RawValue) (elements : List (Tree ν)) :
    print number (.array elements) = .array (elements.map (print number)) := by
  rw [print, fold_array]

@[simp] theorem print_object (number : ν → RawValue) (members : List (Text × Tree ν)) :
    print number (.object members) =
      .object (members.map fun m => (String.ofList m.1, print number m.2)) := by
  rw [print, fold_object]
  exact congrArg RawValue.object List.map_map

@[simp] theorem map_array (g : ν → μ) (elements : List (Tree ν)) :
    map g (.array elements) = .array (elements.map (map g)) := by
  rw [map, fold_array]

@[simp] theorem map_object (g : ν → μ) (members : List (Text × Tree ν)) :
    map g (.object members) = .object (members.map fun m => (m.1, map g m.2)) := by
  rw [map, fold_object]

/-- What is read at some depth each is read at one depth. -/
theorem exists_depth {α : Type} {l : List α} {value : α → RawValue} {tree : α → Tree Text}
    (each : ∀ a ∈ l, ∃ depth, read depth (value a) = some (tree a)) :
    ∃ depth, ∀ a ∈ l, read depth (value a) = some (tree a) := by
  induction l with
  | nil => exact ⟨0, fun a mem => by cases mem⟩
  | cons a l ih =>
      obtain ⟨⟨here, taken⟩, others⟩ := List.forall_mem_cons.mp each
      obtain ⟨later, all⟩ := ih others
      refine ⟨max here later, List.forall_mem_cons.mpr ⟨?_, ?_⟩⟩
      · exact read_mono taken (Nat.le_max_left here later)
      · intro b mem
        exact read_mono (all b mem) (Nat.le_max_right here later)

/-- What a program prints is read again. -/
theorem read_print {number : ν → RawValue} (decimal : ∀ n, (readDecimal (number n).text).isSome)
    (v : Tree ν) :
    ∃ depth, read depth (v.print number) = some (v.map fun n => (number n).text) := by
  induction v using induct with
  | null => exact ⟨0, rfl⟩
  | bool b => exact ⟨0, by cases b <;> rfl⟩
  | number n => exact ⟨0, readScalar_number (decimal n)⟩
  | string text => exact ⟨0, readScalar_string text⟩
  | array elements ih =>
      obtain ⟨depth, each⟩ := exists_depth ih
      refine ⟨depth + 1, ?_⟩
      rw [print_array, read_array, map_array, List.mapM_map]
      refine Option.map_eq_some_iff.mpr ⟨_, mapM_eq_some.mpr ?_, rfl⟩
      rw [List.forall₂_map_right_iff, List.forall₂_same]
      exact each
  | object members ih =>
      obtain ⟨depth, each⟩ := exists_depth ih
      refine ⟨depth + 1, ?_⟩
      rw [print_object, read_object, map_object, List.mapM_map]
      refine Option.map_eq_some_iff.mpr ⟨_, mapM_eq_some.mpr ?_, rfl⟩
      rw [List.forall₂_map_right_iff, List.forall₂_same]
      intro m mem
      simp only [Function.comp_apply, each m mem, Option.map_some, String.toList_ofList]

/-! ### Texts inside -/

/-- Every string of a value, names apart. -/
def Strings (p : Text → Prop) : Tree ν → Prop :=
  fold ⟨True, fun _ => True, fun _ => True, p, fun all => ∀ e ∈ all, e, fun all => ∀ e ∈ all, e.2⟩

variable {p q : Text → Prop}

theorem strings_array {elements : List (Tree ν)} :
    Strings p (.array elements) ↔ ∀ t ∈ elements, Strings p t := by
  rw [Strings, fold_array]
  exact List.forall_mem_map

theorem strings_object {members : List (Text × Tree ν)} :
    Strings p (.object members) ↔ ∀ m ∈ members, Strings p m.2 := by
  rw [Strings, fold_object]
  exact List.forall_mem_map

theorem Strings.mono {t : Tree ν} (here : t.Strings p) (imp : ∀ text, p text → q text) :
    t.Strings q := by
  induction t using induct with
  | null => trivial
  | bool b => trivial
  | number n => trivial
  | string text => exact imp text here
  | array elements ih =>
      rw [strings_array] at here ⊢
      exact fun t mem => ih t mem (here t mem)
  | object members ih =>
      rw [strings_object] at here ⊢
      exact fun m mem => ih m mem (here m mem)

end Tree

theorem length_readString {text string rest : Text}
    (read : readString text = some (string, rest)) : string.length + rest.length < text.length := by
  have later : ∀ {c : Char} {string rest inner text : Text} {read : Option (Text × Text)},
      read.map (fun taken => (c :: taken.1, taken.2)) = some (string, rest) →
      (∀ {string rest : Text}, read = some (string, rest) →
        string.length + rest.length < inner.length) →
      inner.length < text.length → string.length + rest.length < text.length := by
    intro c string rest inner text read taken ih shorter
    obtain ⟨⟨string, rest⟩, found, same⟩ := Option.map_eq_some_iff.mp taken
    cases same
    have inside := ih found
    simp only [List.length_cons]
    omega
  fun_induction readString text generalizing string rest with
  | case2 rest =>
      cases read
      simp
  | case6 => next ih => exact later read ih (by simp only [List.length_cons]; omega)
  | case9 => next ih => exact later read ih (by simp only [List.length_cons]; omega)
  | case11 => next ih => exact later read ih (by simp only [List.length_cons]; omega)
  | case13 => next ih => exact later read ih (by simp only [List.length_cons]; omega)
  | _ => cases read

theorem length_toText? {value : RawValue} {text : Text} (read : value.toText? = some text) :
    text.length < value.text.length := by
  unfold RawValue.toText? at read
  split at read
  next rest whole =>
    split at read
    next inner taken =>
      cases read
      have shorter := length_readString taken
      rw [whole, List.length_cons]
      exact Nat.lt_succ_of_lt shorter
    next => cases read
  next => cases read

theorem length_trim_le (text : Text) : (trim text).length ≤ text.length :=
  ((List.rdropWhile_prefix _ _).length_le).trans (List.length_dropWhile_le _ _)

/-- What is read of a text is shorter than the text. -/
theorem length_readValue {text rest : Text} {value : RawValue}
    (read : readValue text = some (value, rest)) :
    value.text.length + rest.length ≤ text.length := by
  obtain ⟨⟨scanned, rest'⟩, found, read⟩ := Option.bind_eq_some_iff.mp read
  obtain ⟨value', made, read⟩ := Option.bind_eq_some_iff.mp read
  cases read
  have whole := congrArg List.length (scan_append found)
  have skipped := length_skipSpace_le text
  have trimmed := length_trim_le scanned
  rw [← RawValue.fromString_eq_some.mp made] at trimmed
  rw [List.length_append] at whole
  omega

theorem length_readMember {text rest : Text} {m : Text × RawValue}
    (read : readMember text = some (m, rest)) : m.2.text.length + rest.length ≤ text.length := by
  have skipped := length_skipSpace_le text
  unfold readMember at read
  split at read
  next after opening =>
    obtain ⟨⟨key, inner⟩, name, read⟩ := Option.bind_eq_some_iff.mp read
    dsimp only at read
    have first := length_readString name
    have skipped' := length_skipSpace_le inner
    split at read
    next after' colon =>
      obtain ⟨⟨value, rest⟩, found, read⟩ := Option.bind_eq_some_iff.mp read
      cases read
      have second := length_readValue found
      rw [opening, List.length_cons] at skipped
      rw [colon, List.length_cons] at skipped'
      dsimp only at *
      omega
    next => cases read
  next => cases read

theorem length_readMembers {fuel : Nat} {text rest : Text} {members : List (Text × RawValue)}
    (read : readMembers fuel text = some (members, rest)) :
    ∀ m ∈ members, m.2.text.length ≤ text.length := by
  induction fuel generalizing text members with
  | zero => cases read
  | succ fuel ih =>
      obtain ⟨⟨first, after⟩, found, read⟩ := Option.bind_eq_some_iff.mp read
      have here := length_readMember found
      have skipped := length_skipSpace_le after
      dsimp only at read
      split at read
      next inner comma =>
        obtain ⟨⟨others, rest⟩, later, read⟩ := Option.bind_eq_some_iff.mp read
        cases read
        rw [comma, List.length_cons] at skipped
        refine List.forall_mem_cons.mpr ⟨by omega, ?_⟩
        intro m mem
        have := ih later m mem
        omega
      next =>
        cases read
        rw [List.forall_mem_singleton]
        omega
      next => cases read

theorem length_readElements {fuel : Nat} {text rest : Text} {elements : List RawValue}
    (read : readElements fuel text = some (elements, rest)) :
    ∀ e ∈ elements, e.text.length ≤ text.length := by
  induction fuel generalizing text elements with
  | zero => cases read
  | succ fuel ih =>
      obtain ⟨⟨first, after⟩, found, read⟩ := Option.bind_eq_some_iff.mp read
      have here := length_readValue found
      have skipped := length_skipSpace_le after
      dsimp only at read
      split at read
      next inner comma =>
        obtain ⟨⟨others, rest⟩, later, read⟩ := Option.bind_eq_some_iff.mp read
        cases read
        rw [comma, List.length_cons] at skipped
        refine List.forall_mem_cons.mpr ⟨by omega, ?_⟩
        intro e mem
        have := ih later e mem
        omega
      next =>
        cases read
        rw [List.forall_mem_singleton]
        omega
      next => cases read

theorem length_readObject {text : Text} {members : List (Text × RawValue)}
    (read : readObject text = some members) : ∀ m ∈ members, m.2.text.length ≤ text.length := by
  have skipped := length_skipSpace_le text
  unfold readObject at read
  split at read
  next inner opening =>
    rw [opening, List.length_cons] at skipped
    split at read
    next =>
      split at read
      · cases read
        intro m mem
        cases mem
      · cases read
    next =>
      obtain ⟨⟨members, rest⟩, found, read⟩ := Option.bind_eq_some_iff.mp read
      dsimp only at read
      split at read
      · cases read
        intro m mem
        have := length_readMembers found m mem
        omega
      · cases read
  next => cases read

theorem length_readArray {text : Text} {elements : List RawValue}
    (read : readArray text = some elements) : ∀ e ∈ elements, e.text.length ≤ text.length := by
  have skipped := length_skipSpace_le text
  unfold readArray at read
  split at read
  next inner opening =>
    rw [opening, List.length_cons] at skipped
    split at read
    next =>
      split at read
      · cases read
        intro e mem
        cases mem
      · cases read
    next =>
      obtain ⟨⟨elements, rest⟩, found, read⟩ := Option.bind_eq_some_iff.mp read
      dsimp only at read
      split at read
      · cases read
        intro e mem
        have := length_readElements found e mem
        omega
      · cases read
  next => cases read

theorem exists_of_forall₂ {α β : Type} {R : α → β → Prop} {l : List α} {l' : List β}
    (related : List.Forall₂ R l l') {b : β} (mem : b ∈ l') : ∃ a ∈ l, R a b := by
  induction related with
  | nil => cases mem
  | cons here _ ih =>
      obtain rfl | mem := List.mem_cons.mp mem
      · exact ⟨_, List.mem_cons_self, here⟩
      · obtain ⟨a, inside, there⟩ := ih mem
        exact ⟨a, List.mem_cons_of_mem _ inside, there⟩

namespace Tree

/-- The strings of a value are shorter than its text. -/
theorem strings_read {depth : Nat} {value : RawValue} {t : Tree Text}
    (taken : read depth value = some t) :
    t.Strings fun text => text.length < value.text.length := by
  have scalar : ∀ {value : RawValue} {t : Tree Text}, readScalar value = some t →
      t.Strings fun text => text.length < value.text.length := by
    intro value t taken
    unfold readScalar at taken
    split at taken
    · cases taken
      trivial
    split at taken
    · cases taken
      trivial
    split at taken
    next string =>
      cases taken
      exact length_toText? string
    split at taken
    · cases taken
      trivial
    · cases taken
  induction depth generalizing value t with
  | zero => exact scalar taken
  | succ depth ih =>
      rw [read] at taken
      split at taken
      next members object =>
        obtain ⟨all, each, rfl⟩ := Option.map_eq_some_iff.mp taken
        rw [mapM_eq_some] at each
        rw [strings_object]
        intro entry mem
        obtain ⟨m, inside, here⟩ := exists_of_forall₂ each mem
        obtain ⟨t, found, rfl⟩ := Option.map_eq_some_iff.mp here
        exact (ih found).mono fun text shorter =>
          shorter.trans_le (length_readObject object m inside)
      next =>
        split at taken
        next elements array =>
          obtain ⟨all, each, rfl⟩ := Option.map_eq_some_iff.mp taken
          rw [mapM_eq_some] at each
          rw [strings_array]
          intro t mem
          obtain ⟨element, inside, found⟩ := exists_of_forall₂ each mem
          exact (ih found).mono fun text shorter =>
            shorter.trans_le (length_readArray array element inside)
        next => exact scalar taken

end Tree

end Json
