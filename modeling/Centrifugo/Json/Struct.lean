import Centrifugo.Data.Batch
import Centrifugo.Json.Read

/-!
# Reading structs

A struct is read from an object by the names of its fields, or from an array by their
positions. Unknown members of an object are ignored, and an array may be shorter than the
struct but not longer. A text can hold many values one after another, with or without
whitespace between them.
-/

namespace Json

/-- The elements of an array after its opening bracket, as `readMembers` reads an object. -/
def readElements : Nat → Text → Option (List RawValue × Text)
  | 0, _ => none
  | fuel + 1, text => do
      let (first, text) ← readValue text
      match skipSpace text with
      | ',' :: text => do
          let (others, rest) ← readElements fuel text
          some (first :: others, rest)
      | ']' :: rest => some ([first], rest)
      | _ => none

/-- A text that is one array, with whitespace around it. -/
def readArray (text : Text) : Option (List RawValue) :=
  match skipSpace text with
  | '[' :: text =>
      match skipSpace text with
      | ']' :: rest => if skipSpace rest = [] then some [] else none
      | _ => do
          let (elements, rest) ← readElements text.length text
          if skipSpace rest = [] then some elements else none
  | _ => none

/-- The fields with the given names, in that order. -/
def readStruct (names : List String) (text : Text) : Option (List (Option RawValue)) :=
  match readObject text with
  | some members => names.mapM fun name => field name members
  | none => do
      let elements ← readArray text
      if elements.length ≤ names.length then
        some (elements.map some ++ List.replicate (names.length - elements.length) none)
      else none

/-! ## Values one after another -/

theorem scan_append {phase : Phase} {stack : Stack} {text value rest : Text}
    (h : scan phase stack text = some (value, rest)) : value ++ rest = text := by
  induction text generalizing phase stack value with
  | nil =>
      simp only [scan, Option.ite_none_right_eq_some, Option.some.injEq, Prod.mk.injEq] at h
      obtain ⟨-, rfl, rfl⟩ := h
      rfl
  | cons c text ih =>
      rw [scan] at h
      split at h
      · obtain ⟨⟨value', rest'⟩, inner, split⟩ := Option.map_eq_some_iff.mp h
        cases split
        rw [List.cons_append, ih inner]
      · simp only [Option.ite_none_right_eq_some, Option.some.injEq, Prod.mk.injEq] at h
        obtain ⟨-, rfl, rfl⟩ := h
        rfl

theorem length_skipSpace_le (text : Text) : (skipSpace text).length ≤ text.length :=
  List.length_dropWhile_le _ _

/-- A value takes at least one character. -/
theorem length_readValue_lt {text rest : Text} {value : RawValue}
    (h : readValue text = some (value, rest)) : rest.length < text.length := by
  obtain ⟨⟨scanned, rest'⟩, found, h⟩ := Option.bind_eq_some_iff.mp h
  obtain ⟨value', read, h⟩ := Option.bind_eq_some_iff.mp h
  cases h
  have whole := congrArg List.length (scan_append found)
  have nonempty : 0 < scanned.length := by
    rw [List.length_pos_iff]
    rintro rfl
    exact value.text_ne_nil (RawValue.fromString_eq_some.mp read)
  have skipped := length_skipSpace_le text
  rw [List.length_append] at whole
  omega

variable {κ : Type}

/-- The value at the front of a text. -/
def nextValue (decode : RawValue → Option κ) (text : Text) : Front κ Text :=
  if skipSpace text = [] then .done
  else
    match readValue text with
    | none => .malformed
    | some (value, rest) =>
        match decode value with
        | none => .malformed
        | some item => .item item rest

/-- The values of a text. -/
def values (decode : RawValue → Option κ) : Source Text κ where
  next := nextValue decode
  size := List.length
  shrinks := by
    intro text rest item h
    unfold nextValue at h
    split at h
    · cases h
    split at h
    · cases h
    next found =>
      split at h
      · cases h
      · cases h
        exact length_readValue_lt found

/-- A value, and nothing but whitespace after it. -/
theorem items_values {decode : RawValue → Option κ} {value : RawValue} {item : κ} {c : Char}
    {rest : Text} (decoded : decode value = some item) (space : isSpace c)
    (blank : skipSpace rest = []) :
    (values decode).items (value.text ++ c :: rest) = ([item], true) := by
  have read := readValue_text value (mem_delimiters_of_isSpace space) rest
  obtain ⟨first, others, head, start⟩ := value.head
  have nonempty : skipSpace (value.text ++ c :: rest) ≠ [] := by
    rw [head, List.cons_append, skipSpace_cons start]
    exact List.cons_ne_nil _ _
  have front : nextValue decode (value.text ++ c :: rest) = .item item (c :: rest) := by
    simp only [nextValue, nonempty, if_false, read, decoded]
  have after : nextValue decode (c :: rest) = .done := by
    refine if_pos ?_
    rwa [skipSpace, List.dropWhile_cons_of_pos space]
  rw [Source.items_of_item _ front, Source.items_of_done _ after]

/-! ## Structs that are written -/

/-- The members of a struct whose absent fields are left out. -/
def written (fields : List (String × Option RawValue)) : List (String × RawValue) :=
  fields.flatMap fun field => field.2.toList.map fun value => (field.1, value)

theorem filter_written {fields : List (String × Option RawValue)}
    (distinct : (fields.map Prod.fst).Nodup) {name : String} {value : Option RawValue}
    (mem : (name, value) ∈ fields) :
    (written fields).filter (fun entry => entry.1 = name) =
      value.toList.map fun v => (name, v) := by
  have others : ∀ rest : List (String × Option RawValue), name ∉ rest.map Prod.fst →
      (written rest).filter (fun entry => entry.1 = name) = [] := by
    intro rest absent
    refine List.filter_eq_nil_iff.mpr ?_
    intro entry inside
    obtain ⟨field, there, part⟩ := List.mem_flatMap.mp inside
    obtain ⟨v, -, rfl⟩ := List.mem_map.mp part
    simp only [decide_eq_true_eq]
    rintro rfl
    exact absent (List.mem_map_of_mem there)
  induction fields with
  | nil => cases mem
  | cons field fields ih =>
      obtain ⟨fresh, distinct'⟩ := List.nodup_cons.mp distinct
      rw [written, List.flatMap_cons, List.filter_append]
      obtain rfl | later := List.mem_cons.mp mem
      · have here := others fields fresh
        rw [written] at here
        rw [here, List.append_nil, List.filter_eq_self]
        intro entry inside
        obtain ⟨v, -, rfl⟩ := List.mem_map.mp inside
        simp
      · have differs : field.1 ≠ name := by
          intro same
          exact fresh (same ▸ List.mem_map_of_mem later)
        have first : (field.2.toList.map fun v => (field.1, v)).filter
            (fun entry => entry.1 = name) = [] := by
          refine List.filter_eq_nil_iff.mpr ?_
          intro entry inside
          obtain ⟨v, -, rfl⟩ := List.mem_map.mp inside
          simpa using differs
        rw [first, List.nil_append]
        exact ih distinct' later

/-- A written struct is read back field by field. -/
theorem readStruct_written {fields : List (String × Option RawValue)}
    (distinct : (fields.map Prod.fst).Nodup) :
    readStruct (fields.map Prod.fst) (RawValue.object (written fields)).text =
      some (fields.map Prod.snd) := by
  have each : ∀ f ∈ fields, field f.1
      ((written fields).map fun entry => (entry.1.toList, entry.2)) = some f.2 := by
    intro f mem
    rw [field_written, filter_written distinct mem]
    cases f.2 <;> rfl
  rw [readStruct, readObject_object]
  generalize (written fields).map (fun entry => (entry.1.toList, entry.2)) = members at each
  clear distinct
  induction fields with
  | nil => rfl
  | cons f fields ih =>
      obtain ⟨first, others⟩ := List.forall_mem_cons.mp each
      simp only [List.map_cons, List.mapM_cons, first, Option.bind_eq_bind,
        Option.bind_some] at ih ⊢
      rw [ih others]
      rfl

end Json
