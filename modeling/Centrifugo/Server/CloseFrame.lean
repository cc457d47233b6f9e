import Centrifugo.Core.Control
import Centrifugo.Protocol.Decode
import Centrifugo.Server.Writer

/-!
# Close frames

A close frame has 125 bytes, two of them for a code of 16 bits. A disconnect comes with a code of
32 bits and a reason of any length when a proxy or another node asks for it. The text around the
reason takes 30 or 31 bytes, and in a string some characters take more than one byte each.
-/

namespace Json

/-! ## The length of a written string -/

/-- The bytes that a character takes between the quotes of a string. -/
def writtenSize (c : Char) : Nat :=
  if c ∈ ['"', '\\', '\n', '\r', '\t'] ∨ c.toNat = 8 ∨ c.toNat = 12 then 2
  else if isControl c then 6
  else c.utf8Size

theorem length_encodeUtf8_singleton (c : Char) : (encodeUtf8 [c]).length = c.utf8Size := by
  simp [encodeUtf8]

/-- A text of characters that take one byte each. -/
theorem length_encodeUtf8_ascii {text : Text} (ascii : ∀ c ∈ text, c.utf8Size = 1) :
    (encodeUtf8 text).length = text.length := by
  induction text with
  | nil => rfl
  | cons c text ih =>
      obtain ⟨here, later⟩ := List.forall_mem_cons.mp ascii
      rw [← List.singleton_append, encodeUtf8_append, List.length_append, List.length_append,
        ih later, length_encodeUtf8_singleton, here, List.length_singleton]

theorem utf8Size_hexDigit (n : Nat) : (hexDigit n).utf8Size = 1 := by
  have all : ∀ d < 16, (Nat.digitChar d).utf8Size = 1 := by decide
  exact all (n % 16) (Nat.mod_lt n (by decide))

theorem length_encodeUtf8_escapeChar (c : Char) :
    (encodeUtf8 (escapeChar c)).length = writtenSize c := by
  unfold escapeChar writtenSize
  split
  next h => subst h; rfl
  split
  next h => subst h; rfl
  split
  next h => rw [if_pos (.inr (.inl h))]; rfl
  split
  next h => rw [if_pos (.inr (.inr h))]; rfl
  split
  next h => subst h; rfl
  split
  next h => subst h; rfl
  split
  next h => subst h; rfl
  next quotes slash back feed line carriage tab =>
    have plain : ¬ (c ∈ ['"', '\\', '\n', '\r', '\t'] ∨ c.toNat = 8 ∨ c.toNat = 12) := by
      simp [quotes, slash, back, feed, line, carriage, tab]
    rw [if_neg plain]
    split
    · have letters : '\\'.utf8Size = 1 ∧ 'u'.utf8Size = 1 ∧ '0'.utf8Size = 1 := ⟨rfl, rfl, rfl⟩
      apply length_encodeUtf8_ascii
      simp [letters, utf8Size_hexDigit]
    · exact length_encodeUtf8_singleton c

/-- A string between its quotes takes what its characters take. -/
theorem length_encodeUtf8_escape (text : Text) :
    (encodeUtf8 (escape text)).length = (text.map writtenSize).sum := by
  induction text with
  | nil => rfl
  | cons c text ih =>
      rw [escape_cons, encodeUtf8_append, List.length_append, length_encodeUtf8_escapeChar, ih]
      rfl

end Json

namespace Centrifugo

open Json

/-! ## The text of a close frame -/

namespace Disconnect

/-- The bytes of the reason in the text. -/
def reasonSize (d : Disconnect) : Nat := (d.reason.toList.map writtenSize).sum

/-- The assertion on the text, in builds that check it. -/
def assertion (d : Disconnect) : Bool := (encodeUtf8 d.closeText).length < 127

/-- What clients read in the text. -/
def readCloseText (text : Text) : Option (String × Bool) := do
  match ← readStruct ["reason", "reconnect"] text with
  | [some reason, some reconnect] =>
      some (← Codec.decodeText reason, ← reconnect.toBool?)
  | _ => none

theorem closeText_eq (d : Disconnect) :
    d.closeText = "\x7b\"reason\":\"".toList ++ (escape d.reason.toList ++
      ("\",\"reconnect\":".toList ++ ((RawValue.bool d.reconnect).text ++ ['}']))) := by
  simp [closeText, RawValue.object, RawValue.string, member, quote]
  rfl

/-- The hint not to reconnect is one byte longer than the other one. -/
theorem length_closeText (d : Disconnect) :
    (encodeUtf8 d.closeText).length = d.reasonSize + if d.reconnect then 30 else 31 := by
  have front : (encodeUtf8 "\x7b\"reason\":\"".toList).length = 11 := by decide
  have middle : (encodeUtf8 "\",\"reconnect\":".toList).length = 14 := by decide
  have back : (encodeUtf8 ((RawValue.bool d.reconnect).text ++ ['}'])).length =
      if d.reconnect then 5 else 6 := by
    cases d.reconnect <;> rfl
  simp only [closeText_eq, encodeUtf8_append, List.length_append] at back ⊢
  rw [length_encodeUtf8_escape, ← reasonSize, front, middle, back]
  split <;> omega

/-- Whatever the reason is, clients read it back. -/
theorem readCloseText_closeText (d : Disconnect) :
    readCloseText d.closeText = some (d.reason, d.reconnect) := by
  have fields : readStruct ["reason", "reconnect"] d.closeText =
      some [some (.string d.reason), some (.bool d.reconnect)] :=
    @readStruct_written [("reason", some (.string d.reason)),
      ("reconnect", some (.bool d.reconnect))] (by simp)
  have reason : Codec.decodeText (.string d.reason) = some d.reason := by
    simp [Codec.decodeText]
  simp only [readCloseText, fields, Option.bind_eq_bind, Option.bind_some, reason,
    RawValue.toBool?_bool]

/-- The reason leaves room for the rest of the text. -/
def Short (d : Disconnect) : Prop := d.reasonSize ≤ if d.reconnect then 93 else 92

instance (d : Disconnect) : Decidable d.Short := inferInstanceAs (Decidable (_ ≤ _))

theorem length_closeText_le_iff (d : Disconnect) :
    (encodeUtf8 d.closeText).length ≤ 123 ↔ d.Short := by
  rw [length_closeText, Short]
  split <;> omega

/-- The assertion allows for four bytes more than a close frame has. -/
theorem assertion_of_short {d : Disconnect} (short : d.Short) : d.assertion = true := by
  have fits := (length_closeText_le_iff d).mpr short
  rw [assertion, decide_eq_true_eq]
  omega

def builtIn : List Disconnect :=
  [normal, shutdown, invalidToken, badRequest, serverError, expired, subExpired, stale, slow,
    writeError, insufficientState, forceReconnect, forceNoReconnect, connectionLimit]

theorem short_of_builtIn : ∀ d ∈ builtIn, d.code.toNat < 2 ^ 16 ∧ d.Short := by decide

end Disconnect

/-! ## The frame -/

/-- What a close frame must be for a disconnect. -/
structure LegalClose (d : Disconnect) (code : UInt16) (reason : Text) : Prop where
  short : (encodeUtf8 reason).length ≤ 123
  read : Disconnect.readCloseText reason = some (d.reason, d.reconnect)
  code : code.toNat = d.code.toNat
  assertion : d.assertion = true

def WsMessage.LegalFor (d : Disconnect) : WsMessage → Prop
  | .close code reason => LegalClose d code reason
  | .text _ | .binary _ | .ping => False

/-- The writer closes with the first close of its queue. -/
theorem Writer.Sound.mem_closes {w : Writer} (sound : w.Sound) {msg : WsMessage}
    (closes : msg ∈ w.closes) : ∃ d, firstClose w.entered = some d ∧ msg = .ofClose d := by
  obtain ⟨groups, -, -, accounts⟩ := sound
  have quiet : w.closes ≠ [] := List.ne_nil_of_mem closes
  unfold Accounts at accounts
  split at accounts
  case h_6 =>
    obtain ⟨d, rest, front, entered, written, before⟩ | ⟨-, none, -⟩ := accounts
    · refine ⟨d, by rw [entered, firstClose_frames]; rfl, ?_⟩
      rw [Writer.closes, written, List.filter_append, before] at closes
      exact List.mem_singleton.mp closes
    · exact absurd none quiet
  all_goals exact absurd accounts.1 quiet

/-- Another node can ask for any disconnect at all. -/
theorem exists_target (d : Disconnect) :
    ∃ (hub : Hub) (message : ControlMessage) (handle : ClientHandle),
      (handle, .disconnect d) ∈ message.targets hub := by
  let handle : ClientHandle := ⟨"7c3d", "ann", .json, 0, some 1⟩
  refine ⟨(Hub.new fun _ => 0).add handle, .disconnect "ann" d.code d.reason d.reconnect [],
    handle, List.mem_map.mpr ⟨handle, ?_, rfl⟩⟩
  decide

/-- The frame that closes a connection is legal just if the code of the disconnect fits in 16
bits and its reason in what the text leaves for it. -/
theorem ofClose_legalFor_iff (d : Disconnect) :
    (WsMessage.ofClose d).LegalFor d ↔
      d.code.toNat < 2 ^ 16 ∧ d.reasonSize ≤ if d.reconnect then 93 else 92 := by
  constructor
  · intro legal
    exact ⟨(Writer.toNat_toUInt16_eq_iff _).mp legal.code,
      d.length_closeText_le_iff.mp legal.short⟩
  · rintro ⟨code, short⟩
    exact ⟨d.length_closeText_le_iff.mpr short, d.readCloseText_closeText,
      (Writer.toNat_toUInt16_eq_iff _).mpr code, Disconnect.assertion_of_short short⟩

/-- A code that is cut down to 4464, a text with one byte too many that the assertion lets through,
and a text that it does not let through; another node can ask for each of them. -/
theorem not_ofClose_legalFor :
    (∀ d : Disconnect, ∃ (hub : Hub) (message : ControlMessage) (handle : ClientHandle),
      (handle, .disconnect d) ∈ message.targets hub) ∧
    ¬ (WsMessage.ofClose ⟨70000, "bye", false⟩).LegalFor ⟨70000, "bye", false⟩ ∧
    ¬ (WsMessage.ofClose ⟨4000, .ofList (.replicate 93 'a'), false⟩).LegalFor
      ⟨4000, .ofList (.replicate 93 'a'), false⟩ ∧
    Disconnect.assertion ⟨4000, .ofList (.replicate 93 'a'), false⟩ = true ∧
    Disconnect.assertion ⟨4000, .ofList (.replicate 96 'a'), false⟩ = false := by
  refine ⟨exists_target, ?_, ?_, by decide +kernel, by decide +kernel⟩
  · intro legal
    exact absurd legal.code (by decide)
  · intro legal
    exact absurd legal.short (by decide +kernel)

end Centrifugo
