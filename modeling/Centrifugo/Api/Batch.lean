import Centrifugo.Api.Dispatch
import Centrifugo.Core.Client.Commands
import Centrifugo.Data.Batch

/-!
# Bodies of many commands

A body holds commands one after another, JSON values or delimited protobuf messages. Every
command is dispatched as soon as it is read. So a body is refused whole only when its very
first command is malformed: otherwise the commands in front of the malformed one have been
executed already.
-/

namespace Centrifugo

open Json Proto

variable {σ : Type} (node : ApiNode σ)

namespace JsonApi

/-- The commands of a JSON body. -/
def commands : Source Text ApiCommand := values ApiCommand.decode

end JsonApi

namespace PbApi

/-- The command at the front of some bytes. -/
def next (bytes : Bytes) : Front ApiPb.Command Bytes :=
  if bytes = [] then .done
  else
    match decodeDelimited bytes with
    | none => .malformed
    | some (cmd, rest) => .item cmd rest

/-- The commands of a protobuf body. -/
def commands : Source Bytes ApiPb.Command where
  next := next
  size := List.length
  shrinks := by
    intro bytes rest cmd h
    unfold next at h
    repeat' split at h
    all_goals cases h
    next found => exact length_decodeDelimited_lt found

end PbApi

/-- White space at which a text is trimmed. -/
def isWhitespace (c : Char) : Bool :=
  (9 ≤ c.toNat && c.toNat ≤ 13) || (0x2000 ≤ c.toNat && c.toNat ≤ 0x200A) ||
    [0x20, 0x85, 0xA0, 0x1680, 0x2028, 0x2029, 0x202F, 0x205F, 0x3000].contains c.toNat

/-- Dispatch the commands of a protobuf body. Without replies the answer is a 400. -/
def runProtobuf (body : Bytes) (s : σ) : Batch σ ApiPb.Command Pb.Reply :=
  if body = [] then ⟨s, [], none⟩ else PbApi.commands.run (PbApi.dispatch node) body s

/-- Dispatch the commands of a JSON body. -/
def runCommands (printF64 : F64 → RawValue) (body : Text) (s : σ) :
    Batch σ ApiCommand ApiReply :=
  if body.all isWhitespace then ⟨s, [], none⟩
  else JsonApi.commands.run (JsonApi.dispatch node printF64) body s

/-- A command in either format. -/
inductive ApiItem
  | json (cmd : ApiCommand)
  | protobuf (cmd : ApiPb.Command)
  deriving DecidableEq

def ApiItem.id : ApiItem → UInt32
  | json cmd => cmd.id
  | protobuf cmd => cmd.id

/-- A reply in either format. -/
inductive ApiFrame
  | json (reply : ApiReply)
  | protobuf (reply : Pb.Reply)
  deriving DecidableEq

namespace ApiFrame

def id : ApiFrame → UInt32
  | json reply => reply.id
  | protobuf reply => reply.id

/-- A line, or a message with its length. -/
def bytes : ApiFrame → Bytes
  | json reply => encodeUtf8 (reply.toJson.text ++ ['\n'])
  | protobuf reply => encodeDelimited reply

end ApiFrame

structure HttpResponse where
  status : Nat
  contentType : String
  body : Bytes
  deriving DecidableEq

def HttpResponse.badRequest : HttpResponse where
  status := 400
  contentType := "text/plain; charset=utf-8"
  body := Field.utf8 "Bad Request"

/-- The content type of the request comes back. -/
def respond (contentType : String) : Option (List ApiFrame) → HttpResponse
  | none => .badRequest
  | some replies => ⟨200, contentType, replies.flatMap ApiFrame.bytes⟩

def isProtobuf (contentType : String) : Bool :=
  "application/octet-stream".toList.isPrefixOf contentType.toList

/-- A request to the API, with the commands that it has executed. -/
def runApi (printF64 : F64 → RawValue) (contentType : String) (body : Bytes) (s : σ) :
    Batch σ ApiItem ApiFrame × HttpResponse :=
  let batch :=
    if isProtobuf contentType then (runProtobuf node body s).map .protobuf .protobuf
    else
      match decodeUtf8 body with
      | some text => (runCommands node printF64 text s).map .json .json
      | none => ⟨s, [], none⟩
  (batch, respond contentType batch.replies)

/-- The commands of a body in front of the first malformed one, and whether there is none. -/
def commandsOf (contentType : String) (body : Bytes) : List ApiItem × Bool :=
  if isProtobuf contentType then
    let found := PbApi.commands.items body
    (found.1.map .protobuf, found.2)
  else
    match decodeUtf8 body with
    | some text =>
        let found := JsonApi.commands.items text
        (found.1.map .json, found.2)
    | none => ([], false)

/-- A refused body has executed nothing, and an accepted one is answered command by command. -/
def AllOrNothing (printF64 : F64 → RawValue) (contentType : String) (body : Bytes) (s : σ) :
    Prop :=
  let (batch, response) := runApi node printF64 contentType body s
  (response.status = 400 → batch.executed = [] ∧ batch.state = s) ∧
    (response.status = 200 → (commandsOf contentType body).2 = true ∧
      batch.executed = (commandsOf contentType body).1 ∧
      ∃ replies : List ApiFrame, response.body = replies.flatMap ApiFrame.bytes ∧
        replies.map ApiFrame.id = (commandsOf contentType body).1.map ApiItem.id)

/-! ## What a body leads to -/

theorem valueStart_whitespace {c : Char} (white : isWhitespace c) : valueStart [] c = none := by
  have differs : ∀ d : Char, isWhitespace d = false → c ≠ d := by
    rintro d black rfl
    rw [white] at black
    cases black
  have digit : c.isDigit = false := by
    by_contra digit
    simp only [Char.isDigit, Bool.not_eq_false, Bool.and_eq_true, decide_eq_true_eq] at digit
    have low : 48 ≤ c.toNat := UInt32.le_iff_toNat_le.mp digit.1
    have high : c.toNat ≤ 57 := UInt32.le_iff_toNat_le.mp digit.2
    simp only [isWhitespace, List.contains_eq_mem, List.mem_cons, List.not_mem_nil, or_false,
      Bool.or_eq_true, Bool.and_eq_true, decide_eq_true_eq] at white
    omega
  simp [valueStart, differs, isWhitespace, digit]

/-- A body that is blank holds no command. -/
theorem items_of_blank {text : Text} (blank : text.all isWhitespace) :
    (JsonApi.commands.items text).2 = true ∨ (JsonApi.commands.items text).1 = [] := by
  cases start : skipSpace text with
  | nil =>
      left
      rw [Source.items_of_done]
      exact if_pos start
  | cons c rest =>
      right
      rw [Source.items_of_malformed]
      have part : c ∈ skipSpace text := start ▸ List.mem_cons_self
      have mem : c ∈ text := (List.dropWhile_sublist isSpace).mem part
      have white := List.all_eq_true.mp blank c mem
      have space : isSpace c = false := by
        have := List.head?_dropWhile_not isSpace text
        rw [← skipSpace, start] at this
        simpa using this
      have unread : scan .value [] (c :: rest) = none := by
        simp [scan, Json.next, space, valueStart_whitespace white, Phase.complete]
      have unreadable : readValue text = none := by
        simp [readValue, start, unread]
      simp [JsonApi.commands, values, nextValue, start, unreadable]

variable {node} {printF64 : F64 → RawValue} {contentType : String} {s : σ}

theorem ends_runProtobuf (body : Bytes) :
    Batch.Ends ApiPb.Command.id Pb.Reply.id (PbApi.commands.items body) s
      (runProtobuf node body s) := by
  unfold runProtobuf
  split
  next empty =>
    refine .refused (.inl ?_)
    rw [Source.items_of_done]
    exact if_pos empty
  next => exact .of_run _ (PbApi.id_dispatch node) body s

theorem ends_runCommands (body : Text) :
    Batch.Ends ApiCommand.id ApiReply.id (JsonApi.commands.items body) s
      (runCommands node printF64 body s) := by
  unfold runCommands
  split
  next blank => exact .refused (items_of_blank blank)
  next => exact .of_run _ (JsonApi.id_dispatch node printF64) body s

theorem ends_runApi (body : Bytes) :
    Batch.Ends ApiItem.id ApiFrame.id (commandsOf contentType body) s
      (runApi node printF64 contentType body s).1 := by
  simp only [runApi, commandsOf]
  split
  · exact (ends_runProtobuf body).map (fun _ => rfl) fun _ => rfl
  split
  next text _ => exact (ends_runCommands text).map (fun _ => rfl) fun _ => rfl
  next => exact .refused (.inr rfl)

/-- A body is handled all or nothing exactly when it is well-formed to its end, or malformed
from its first command on. -/
theorem allOrNothing_iff (node : ApiNode σ) (printF64 : F64 → RawValue) (contentType : String)
    (body : Bytes) (s : σ) :
    AllOrNothing node printF64 contentType body s ↔
      ((commandsOf contentType body).2 = true ∨ (commandsOf contentType body).1 = []) := by
  have ends := @ends_runApi σ node printF64 contentType s body
  rw [← ends.untouched_iff]
  have response : (runApi node printF64 contentType body s).2 =
      respond contentType (runApi node printF64 contentType body s).1.replies := rfl
  simp only [AllOrNothing, response]
  generalize (runApi node printF64 contentType body s).1 = batch at ends
  constructor
  · intro sound refused
    refine sound.1 ?_
    rw [refused]
    rfl
  · intro untouched
    cases ends with
    | refused fine => exact ⟨fun _ => ⟨rfl, rfl⟩, nofun⟩
    | malformed state partly _ => exact ⟨fun _ => untouched rfl, nofun⟩
    | answered state replies whole tags =>
        exact ⟨nofun, fun _ => ⟨whole, rfl, replies, rfl, tags⟩⟩

namespace Sample

def apiState : MemoryNode where
  world := world
  moments _ := ⟨fun _ => noon, "xyz", 0, ⟨0, ∅⟩⟩

/-- A command, and another one that breaks off. -/
def torn : Bytes :=
  Field.utf8 ("\x7b\"id\":1,\"method\":\"publish\"," ++
    "\"params\":\x7b\"channel\":\"news\",\"data\":1\x7d\x7d\x7b\"id\":2")

end Sample

/-- The publish is executed, and the body refused. -/
theorem not_allOrNothing_torn :
    ¬ AllOrNothing (Sample.node.api "first") (fun _ => .null) "application/json" Sample.torn
      Sample.apiState := by
  rintro ⟨untouched, -⟩
  have executed := (untouched (by decide +kernel)).1
  revert executed
  decide +kernel

end Centrifugo
