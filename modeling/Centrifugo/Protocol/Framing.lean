import Centrifugo.Protocol.Encode

/-!
# Line framing of replies

A JSON connection receives its replies and pushes as newline-delimited texts, on a
WebSocket in the frames as they are and over SockJS as the elements of an array.
This module decodes a line and proves what the two sides agree on: exactly which
payloads survive the framing.

Nothing in the encoders escapes or removes a line break inside a payload, so the
agreement is conditional. The condition is stated on the payloads alone.
-/

namespace Centrifugo

open Json

namespace Raw

/-- The bytes are one JSON value, possibly with whitespace around it. -/
def Valid (raw : Raw) : Prop := ∃ text, raw.text? = some text ∧ isValue (trim text)

/-- A line break stands between two tokens of the value. -/
def Multiline (raw : Raw) : Prop := ∃ text, raw.text? = some text ∧ '\n' ∈ trim text

/-- A value other than `null`, with no whitespace around it. -/
def Exact (raw : Raw) : Prop :=
  ∃ text, raw.text? = some text ∧ trim text = text ∧ text ≠ RawValue.null.text

theorem toJson_eq_some {raw : Raw} {value : RawValue} :
    raw.toJson = some value ↔ ∃ text, raw.text? = some text ∧ value.text = trim text := by
  simp [toJson, Option.bind_eq_some_iff, RawValue.fromString_eq_some]

theorem toJson_of_valid {raw : Raw} (h : raw.Valid) : ∃ value, raw.toJson = some value := by
  obtain ⟨text, decoded, valid⟩ := h
  exact ⟨⟨trim text, valid⟩, toJson_eq_some.mpr ⟨text, decoded, rfl⟩⟩

@[simp] theorem toJson_ofText (value : RawValue) : (ofText value.text).toJson = some value :=
  toJson_eq_some.mpr ⟨value.text, text?_ofText _, (trim_of_isValue value.valid).symm⟩

theorem newline_mem_toJson {raw : Raw} {value : RawValue} (h : raw.toJson = some value) :
    '\n' ∈ value.text ↔ raw.Multiline := by
  obtain ⟨text, decoded, eq⟩ := toJson_eq_some.mp h
  rw [eq]
  constructor
  · intro mem
    exact ⟨text, decoded, mem⟩
  · rintro ⟨text', decoded', mem⟩
    cases decoded.symm.trans decoded'
    exact mem

/-- What is written for a payload is the payload, exactly when nothing is trimmed. -/
theorem exact_iff {raw : Raw} {value : RawValue} (h : raw.toJson = some value) :
    raw.Exact ↔ value ≠ .null ∧ ofText value.text = raw := by
  obtain ⟨text, decoded, eq⟩ := toJson_eq_some.mp h
  constructor
  · rintro ⟨text', decoded', trimmed, notNull⟩
    cases decoded.symm.trans decoded'
    rw [eq, trimmed]
    refine ⟨?_, ofText_of_text? decoded⟩
    rintro rfl
    exact notNull (trimmed.symm.trans eq.symm)
  · rintro ⟨notNull, same⟩
    have whole : text = value.text := by
      have decodedValue : raw.text? = some value.text := same ▸ text?_ofText value.text
      exact Option.some.inj (decoded.symm.trans decodedValue)
    refine ⟨text, decoded, by rw [← eq, whole], ?_⟩
    intro null
    exact notNull (RawValue.ext (whole.symm.trans null))

end Raw

/-! ## Decoding a line -/

namespace Codec

def decodeU32 (value : RawValue) : Option UInt32 := do
  let n ← value.toNat?
  if n < 2 ^ 32 then some (UInt32.ofNat n) else none

/-- Both fields of an error are required. -/
def decodeError (value : RawValue) : Option Error := do
  let members ← readObject value.text
  let code ← (← field "code" members)
  let message ← (← field "message" members)
  some ⟨← decodeU32 code, String.ofList (← message.toText?)⟩

/-- A field with a default for when it is absent. -/
def decodeOr {α : Type} (default : α) (decode : RawValue → Option α) : Option RawValue → Option α
  | none => some default
  | some value => decode value

/-- A field that may be absent or `null`. -/
def decodeOption {α : Type} (decode : RawValue → Option α) : Option RawValue → Option (Option α)
  | none => some none
  | some value => if value = .null then some none else (decode value).map some

/-- One text as a reply. Fields may come in any order, unknown ones are ignored. -/
def decodeReply (text : Text) : Option (Reply Raw) := do
  let members ← readObject text
  let id ← decodeOr 0 decodeU32 (← field "id" members)
  let error ← decodeOption decodeError (← field "error" members)
  let result ← decodeOption (fun value => some (.ofText value.text)) (← field "result" members)
  some ⟨id, error, result⟩

/-- One line of the byte stream as a reply. -/
def decodeLine (line : Bytes) : Option (Reply Raw) := (decodeUtf8 line).bind decodeReply

@[simp] theorem decodeU32_u32 (n : UInt32) : decodeU32 (u32 n) = some n := by
  have bound : n.toNat < 4294967296 := n.toNat_lt
  simp [decodeU32, u32, bound]

@[simp] theorem decodeError_toJson (error : Error) : decodeError error.toJson = some error := by
  simp [decodeError, Error.toJson, readObject_object, field_written, -List.map_cons]

theorem toJson_ne_null (error : Error) : error.toJson ≠ .null := by
  intro h
  cases congrArg RawValue.text h

private theorem filter_key {key : String} {entries : List (String × RawValue)}
    (keyed : ∀ entry ∈ entries, entry.1 = key) (name : String) :
    (entries.filter fun entry => entry.1 = name) = if key = name then entries else [] := by
  split
  next same =>
    refine List.filter_eq_self.mpr ?_
    intro entry mem
    simpa [same] using keyed entry mem
  next differs =>
    refine List.filter_eq_nil_iff.mpr ?_
    intro entry mem
    simpa [keyed entry mem] using differs

/-- The members of a written reply, by key. -/
private theorem reply_fields (id : UInt32) (error : Option Error) (result : Option RawValue) :
    let members := (skipIf (id == 0) "id" (u32 id) ++
      (error.toList.map fun error => ("error", error.toJson)) ++
      (result.toList.map fun value => ("result", value))).map
        fun entry : String × RawValue => (entry.1.toList, entry.2)
    field "id" members = some (if id = 0 then none else some (u32 id)) ∧
      field "error" members = some (error.map Error.toJson) ∧
      field "result" members = some result := by
  have idKey : ∀ entry ∈ skipIf (id == 0) "id" (u32 id), entry.1 = "id" := by
    unfold skipIf
    split <;> simp
  have errorKey : ∀ entry ∈ error.toList.map fun error => ("error", error.toJson),
      entry.1 = "error" := by simp
  have resultKey : ∀ entry ∈ result.toList.map fun value => ("result", value),
      entry.1 = "result" := by simp
  have keys : "id" ≠ "error" ∧ "id" ≠ "result" ∧ "error" ≠ "result" := by decide
  obtain ⟨idError, idResult, errorResult⟩ := keys
  simp only [field_written, List.filter_append, filter_key idKey, filter_key errorKey,
    filter_key resultKey, idError, idResult, errorResult, idError.symm, idResult.symm,
    errorResult.symm, if_true, if_false, List.append_nil, List.nil_append]
  refine ⟨?_, ?_, ?_⟩
  · by_cases zero : id = 0
    · subst zero
      rfl
    · have present : (id == 0) = false := by simpa using zero
      rw [present, if_neg zero]
      rfl
  · cases error <;> rfl
  · cases result <;> rfl

/-- A written reply is decoded as the reply with its result as it was written. -/
theorem decodeReply_toJson {reply : Reply Raw} {value : RawValue}
    (h : reply.toJson = some value) :
    decodeReply value.text = some { reply with
      result := (reply.result.bind Raw.toJson).bind fun json =>
        if json = .null then none else some (.ofText json.text) } := by
  obtain ⟨id, error, result⟩ := reply
  obtain ⟨members, written, eq⟩ := Option.bind_eq_some_iff.mp h
  cases eq
  have resultMembers :
      members = (result.bind Raw.toJson).toList.map fun value => ("result", value) := by
    cases result with
    | none =>
        cases written
        rfl
    | some raw =>
        obtain ⟨json, inner, rfl⟩ := Option.map_eq_some_iff.mp written
        simp [inner]
  obtain ⟨idField, errorField, resultField⟩ := reply_fields id error (result.bind Raw.toJson)
  rw [← resultMembers] at idField errorField resultField
  have idValue : decodeOr 0 decodeU32 (if id = 0 then none else some (u32 id)) = some id := by
    by_cases zero : id = 0 <;> simp [decodeOr, zero]
  have errorValue : decodeOption decodeError (error.map Error.toJson) = some error := by
    cases error with
    | none => rfl
    | some error => simp [decodeOption, toJson_ne_null]
  have resultValue :
      decodeOption (fun value => some (Raw.ofText value.text)) (result.bind Raw.toJson) =
        some ((result.bind Raw.toJson).bind fun json =>
          if json = .null then none else some (.ofText json.text)) := by
    cases result.bind Raw.toJson with
    | none => rfl
    | some json => by_cases null : json = .null <;> simp [decodeOption, null]
  simp only [decodeReply, readObject_object, Option.bind_eq_bind, Option.bind_some, idField,
    idValue, errorField, errorValue, resultField, resultValue]

end Codec

end Centrifugo
