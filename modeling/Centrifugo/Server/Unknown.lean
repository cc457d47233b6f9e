import Centrifugo.Protocol.Frames
import Centrifugo.Server.Loop

/-!
# Unknown methods

A client may send a method that this build does not know. Its command is meant to be answered
with an error and to leave the other commands of the frame alone. The dispatcher does that; the
decoders let every number through to it that is not negative.
-/

namespace Centrifugo

open Json Proto

/-- A command as a client writes it. Its method is any number of 32 bits. -/
structure ClientCommand where
  id : UInt32
  method : Int32
  params : Option Raw
  deriving DecidableEq

namespace ClientCommand

/-- The command that a decoder makes of it. -/
def accept (cmd : ClientCommand) : Option Command :=
  (MethodType.fromI32 cmd.method).map fun method => ⟨cmd.id, method, cmd.params⟩

/-- The command that is meant: a method that is out of range is an unknown one. -/
def meant (cmd : ClientCommand) : Command :=
  ⟨cmd.id, (MethodType.fromI32 cmd.method).getD .unknown, cmd.params⟩

end ClientCommand

theorem MethodType.fromU64_isSome (n : Nat) : (fromU64 n).isSome := by
  unfold fromU64
  split <;> rfl

theorem MethodType.fromI32_isSome_iff (n : Int32) : (fromI32 n).isSome ↔ 0 ≤ n := by
  unfold fromI32
  split
  next negative => simpa using negative
  next positive => simpa [fromU64_isSome] using positive

theorem ClientCommand.accept_of_nonneg {cmd : ClientCommand} (h : 0 ≤ cmd.method) :
    cmd.accept = some cmd.meant := by
  obtain ⟨method, known⟩ := Option.isSome_iff_exists.mp
    ((MethodType.fromI32_isSome_iff cmd.method).mpr h)
  simp [accept, meant, known]

namespace Codec

/-! ## Frames of clients -/

/-- A whole number of 32 bits. -/
def readI32 (value : RawValue) : Option Int32 :=
  match value.text with
  | '-' :: digits =>
      let n := Nat.ofDigitChars 10 digits 0
      if digits.all Char.isDigit ∧ 0 < n ∧ n ≤ 2 ^ 31 then some (Int32.ofInt (-n)) else none
  | _ => value.toNat?.bind fun n => if n < 2 ^ 31 then some (Int32.ofNat n) else none

/-- A method by its number or its name. -/
def readMethod (value : RawValue) : Option Int32 :=
  (readI32 value).or
    (((decodeText value).bind MethodType.fromName).map MethodType.toI32)

def readCommand (value : RawValue) : Option ClientCommand := do
  match ← readStruct ["id", "method", "params"] value.text with
  | [id, method, params] =>
      some {
        id := ← decodeOr 0 decodeU32 id
        method := ← decodeOr 0 readMethod method
        params := ← decodeRaw params }
  | _ => none

def takeClientCommand (message : Bytes) : Option ClientCommand :=
  (decode message : Option Pb.Command).map fun cmd => ⟨cmd.id, cmd.method, vecToRaw cmd.params⟩

/-- The commands of a well-formed frame, whatever their methods. A frame is not empty. -/
def readFrame (proto : ProtocolType) (frame : Bytes) : Option (List ClientCommand) :=
  if frame = [] then none
  else
    match proto with
    | .json => (decodeUtf8 frame).bind (whole (values readCommand))
    | .protobuf => whole (messages takeClientCommand) frame

/-- The commands that the loop finds in a frame. -/
def decodeFrame (proto : ProtocolType) (frame : Bytes) : Option (List Command) :=
  if frame = [] then none else decodeCommands proto frame

theorem decodeText_of_head {value : RawValue} {c : Char} {rest : Text}
    (text : value.text = c :: rest) (plain : c ≠ '"') : decodeText value = none := by
  have none : value.toText? = none := by
    unfold RawValue.toText?
    rw [text]
    split
    next eq =>
      cases eq
      exact absurd rfl plain
    next => rfl
  rw [decodeText, none, Option.map_none]

theorem decodeU64_of_head {value : RawValue} {c : Char} {rest : Text}
    (text : value.text = c :: rest) (sign : c.isDigit = false) : decodeU64 value = none := by
  have none : value.toNat? = none := by
    rw [RawValue.toNat?, text]
    simp [sign]
  simp [decodeU64, none]

theorem fromI32_ofNat {n : Nat} (small : n < 2 ^ 31) :
    MethodType.fromI32 (Int32.ofNat n) = MethodType.fromU64 n := by
  have value : (Int32.ofNat n).toInt = n := Int32.toInt_ofNat_of_lt small
  have positive : ¬ Int32.ofNat n < 0 := by
    rw [Int32.lt_iff_toInt_lt, value, Int32.toInt_zero]
    omega
  rw [MethodType.fromI32, if_neg positive, value, Int.toNat_natCast]

theorem fromI32_neg {n : Nat} (positive : 0 < n) (small : n ≤ 2 ^ 31) :
    MethodType.fromI32 (Int32.ofInt (-n)) = none := by
  have value : (Int32.ofInt (-n)).toInt = -n := Int32.toInt_ofInt_of_le (by omega) (by omega)
  have negative : Int32.ofInt (-n) < 0 := by
    rw [Int32.lt_iff_toInt_lt, value, Int32.toInt_zero]
    omega
  rw [MethodType.fromI32, if_pos negative]

/-- A method that can be read is decoded by its number. -/
theorem decodeMethod_of_readMethod {value : RawValue} {method : Int32}
    (read : readMethod value = some method) : decodeMethod value = MethodType.fromI32 method := by
  obtain number | ⟨-, name⟩ := Option.or_eq_some_iff.mp read
  · unfold readI32 at number
    split at number
    next digits text =>
      have sign : decodeU64 value = none := decodeU64_of_head text rfl
      have plain : decodeText value = none := decodeText_of_head text (by decide)
      simp only [Option.ite_none_right_eq_some, Option.some.injEq] at number
      obtain ⟨⟨-, positive, small⟩, rfl⟩ := number
      rw [fromI32_neg positive small, decodeMethod, sign]
      simp only [plain, Option.bind_none]
    next =>
      obtain ⟨n, digits, number⟩ := Option.bind_eq_some_iff.mp number
      simp only [Option.ite_none_right_eq_some, Option.some.injEq] at number
      obtain ⟨small, rfl⟩ := number
      have wide : decodeU64 value = some n := by
        simp only [decodeU64, digits, Option.bind_eq_bind, Option.bind_some]
        exact if_pos (by omega)
      rw [fromI32_ofNat small, decodeMethod, wide]
  · obtain ⟨known, named, rfl⟩ := Option.map_eq_some_iff.mp name
    have quoted : decodeU64 value = none := by
      obtain ⟨text, given, -⟩ := Option.bind_eq_some_iff.mp named
      obtain ⟨first, rest, head, -⟩ := value.head
      have quote : first = '"' := by
        by_contra plain
        rw [decodeText_of_head head plain] at given
        cases given
      exact decodeU64_of_head head (by rw [quote]; rfl)
    rw [MethodType.fromI32_toI32, decodeMethod, quoted]
    exact named

theorem decodeCommand_of_readCommand {value : RawValue} {cmd : ClientCommand}
    (read : readCommand value = some cmd) : decodeCommand value = cmd.accept := by
  obtain ⟨members, struct, read⟩ := Option.bind_eq_some_iff.mp read
  split at read
  next id method params =>
    obtain ⟨id', idRead, read⟩ := Option.bind_eq_some_iff.mp read
    obtain ⟨method', methodRead, read⟩ := Option.bind_eq_some_iff.mp read
    obtain ⟨params', paramsRead, read⟩ := Option.bind_eq_some_iff.mp read
    cases read
    have decoded : decodeOr .connect decodeMethod method = MethodType.fromI32 method' := by
      cases method with
      | none =>
          cases methodRead
          rfl
      | some value => exact decodeMethod_of_readMethod methodRead
    simp only [decodeCommand, struct, Option.bind_eq_bind, Option.bind_some, idRead, decoded,
      paramsRead, ClientCommand.accept]
    cases MethodType.fromI32 method' <;> rfl
  next => cases read

theorem takeCommand_eq {message : Bytes} {cmd : ClientCommand}
    (taken : takeClientCommand message = some cmd) : takeCommand message = cmd.accept := by
  obtain ⟨pb, decoded, rfl⟩ := Option.map_eq_some_iff.mp taken
  rw [takeCommand, decoded, Option.bind_some, commandFromPb, ClientCommand.accept]
  cases MethodType.fromI32 pb.method <;> rfl

/-- A well-formed frame is decoded when every command of it is accepted. -/
theorem decodeFrame_of_readFrame {proto : ProtocolType} {frame : Bytes}
    {cmds : List ClientCommand} (read : readFrame proto frame = some cmds) :
    decodeFrame proto frame = cmds.mapM ClientCommand.accept := by
  unfold readFrame at read
  split at read
  · cases read
  next nonempty =>
    rw [decodeFrame, if_neg nonempty]
    cases proto with
    | json =>
        obtain ⟨text, decoded, read⟩ := Option.bind_eq_some_iff.mp read
        rw [decodeCommands, decoded, Option.bind_some]
        exact whole_values_mapM (fun _ _ => decodeCommand_of_readCommand) read
    | protobuf => exact whole_messages_mapM (fun _ _ => takeCommand_eq) read

end Codec

/-! ## Frames in the loop -/

/-- The method is one of this build. -/
def Command.known (cmd : Command) : Bool := decide (cmd.method ≠ .unknown)

/-- A command that was handled, with what it was answered. -/
abbrev Handling := Command × List (Reply Result)

def Handling.known (handling : Handling) : Bool := handling.1.known

/-- An unknown command is answered with an error and with nothing else. -/
def Handling.Refused (handling : Handling) : Prop :=
  handling.1.known = false → handling.2 = [.err handling.1.id .methodNotFound]

def Phase.replies : Phase → List (Reply Result)
  | .batch _ replies | .replying replies _ => replies
  | _ => []

namespace Connection

/-- The loop goes through the commands of a frame, up to where it replies. -/
inductive Handles (node : Node) : Connection → List Handling → Connection → Prop
  | done {s : Session} {replies : List (Reply Result)} {disconnect : Option Disconnect} :
      Handles node ⟨s, .replying replies disconnect⟩ [] ⟨s, .replying replies disconnect⟩
  | interfered {s : Session} {cmds : List Command} {replies : List (Reply Result)}
      {trace : List Handling} {c' : Connection} (world : World) :
      Handles node ⟨{ s with world := world }, .batch cmds replies⟩ trace c' →
      Handles node ⟨s, .batch cmds replies⟩ trace c'
  | finished {s : Session} {replies : List (Reply Result)} {trace : List Handling}
      {c' : Connection} :
      Handles node ⟨s, .replying replies none⟩ trace c' →
      Handles node ⟨s, .batch [] replies⟩ trace c'
  | handled {s : Session} {cmd : Command} {cmds : List Command} {replies : List (Reply Result)}
      {c c' : Connection} {trace : List Handling} (readings : Readings)
      (answers : List (Reply Result)) :
      Connection.step ⟨s, .batch (cmd :: cmds) replies⟩ node (.command readings) = some c →
      c.phase.replies = replies ++ answers → Handles node c trace c' →
      Handles node ⟨s, .batch (cmd :: cmds) replies⟩ ((cmd, answers) :: trace) c'

section

variable {node : Node} {s : Session} {cmd : Command} {cmds : List Command}
  {replies : List (Reply Result)} {readings : Readings} {trace : List Handling}
  {c c' : Connection}

/-- A command with an id is handled, and the batch goes on or ends with it. -/
theorem step_command (numbered : cmd.id ≠ 0) :
    let handled := s.handleCommand node readings cmd
    Connection.step ⟨s, .batch (cmd :: cmds) replies⟩ node (.command readings) =
      some ⟨handled.1, match handled.2.disconnect with
        | some disconnect => .replying (replies ++ handled.2.replies) (some disconnect)
        | none => .batch cmds (replies ++ handled.2.replies)⟩ := by
  intro handled
  have required : ¬ (cmd.id = 0 ∧ cmd.method ≠ .send) := fun missing => numbered missing.1
  show some (Connection.onCommand _ node readings cmd cmds replies) = _
  rw [onCommand, if_neg required]
  show some (match handled.2.disconnect with
    | some disconnect => ⟨handled.1, .replying (replies ++ handled.2.replies) (some disconnect)⟩
    | none => ⟨handled.1, .batch cmds (replies ++ handled.2.replies)⟩ : Connection) = _
  cases handled.2.disconnect <;> rfl

/-- Nothing else happens in a batch. -/
theorem Handles.of_step {event : Event} (numbered : ∀ cmd ∈ cmds, cmd.id ≠ 0)
    (step : Connection.step ⟨s, .batch cmds replies⟩ node event = some c)
    (rest : Handles node c trace c') :
    ∃ trace', Handles node ⟨s, .batch cmds replies⟩ trace' c' := by
  cases event with
  | interference world =>
      cases step
      exact ⟨_, .interfered world rest⟩
  | command readings =>
      cases cmds with
      | nil =>
          cases step
          exact ⟨_, .finished rest⟩
      | cons cmd cmds =>
          have handled := @step_command node s cmd cmds replies readings
            (numbered cmd List.mem_cons_self)
          rw [step] at handled
          refine ⟨_, .handled readings (s.handleCommand node readings cmd).2.replies step ?_ rest⟩
          rw [Option.some.inj handled]
          dsimp only
          split <;> rfl
  | _ => cases step

theorem handleCommand_unknown (authenticated : s.client.authenticated)
    (unknown : cmd.known = false) :
    s.handleCommand node readings cmd = (s, .reply (.err cmd.id .methodNotFound)) := by
  have method : cmd.method = .unknown := by simpa [Command.known] using unknown
  simp [Session.handleCommand, Session.handle, Guard.demand, authenticated, Session.dispatch,
    method, CommandOutcome.refuse, CommandOutcome.reply]

theorem step_unknown (authenticated : s.client.authenticated) (numbered : cmd.id ≠ 0)
    (unknown : cmd.known = false) :
    Connection.step ⟨s, .batch (cmd :: cmds) replies⟩ node (.command readings) =
      some ⟨s, .batch cmds (replies ++ [.err cmd.id .methodNotFound])⟩ := by
  rw [step_command numbered, handleCommand_unknown authenticated unknown]
  rfl

theorem handleCommand_authenticated (authenticated : s.client.authenticated) :
    (s.handleCommand node readings cmd).1.client.authenticated :=
  Session.act_authenticated authenticated (.command readings cmd)

end

/-- What the run of a frame comes to, and that of the same frame without its unknown commands. -/
structure Spared (node : Node) (s : Session) (cmds : List Command)
    (replies others : List (Reply Result)) (trace : List Handling) (c' : Connection)
    (disconnect : Option Disconnect) : Prop where
  whole : c'.phase = .replying (replies ++ trace.flatMap Prod.snd) disconnect
  refused : ∀ handling ∈ trace, handling.Refused
  inOrder : trace.map Prod.fst <+: cmds
  all : disconnect = none → trace.map Prod.fst = cmds
  absent : Handles node ⟨s, .batch (cmds.filter Command.known) others⟩
    (trace.filter Handling.known)
    ⟨c'.session,
      .replying (others ++ (trace.filter Handling.known).flatMap Prod.snd) disconnect⟩

/-- The unknown commands of a frame can be left out. -/
theorem Handles.spared {node : Node} {c c' : Connection} {trace : List Handling}
    (h : Handles node c trace c') :
    ∀ {s : Session} {cmds : List Command} {replies : List (Reply Result)},
      c = ⟨s, .batch cmds replies⟩ → s.client.authenticated → (∀ cmd ∈ cmds, cmd.id ≠ 0) →
      ∀ others, ∃ disconnect, Spared node s cmds replies others trace c' disconnect := by
  induction h with
  | done => rintro _ _ _ ⟨⟩
  | interfered world _ ih =>
      rintro s cmds replies ⟨⟩ authenticated numbered others
      obtain ⟨disconnect, spared⟩ := ih rfl authenticated numbered others
      exact ⟨disconnect, { spared with absent := .interfered world spared.absent }⟩
  | finished rest _ =>
      rintro s cmds replies ⟨⟩ _ _ others
      cases rest
      refine ⟨none, ?_, nofun, List.nil_prefix, fun _ => rfl, ?_⟩
      · simp
      · simpa using Handles.finished .done
  | @handled s cmd cmds replies c c' trace readings answers step added rest ih =>
      rintro _ _ _ ⟨⟩ authenticated numbered others
      obtain ⟨first, later⟩ := List.forall_mem_cons.mp numbered
      cases known : cmd.known with
      | false =>
          rw [step_unknown authenticated first known] at step
          cases step
          have answer := List.append_cancel_left added
          subst answer
          obtain ⟨disconnect, spared⟩ := ih rfl authenticated later others
          have left : Handling.known (cmd, [.err cmd.id .methodNotFound]) = false := known
          refine ⟨disconnect, ?_, ?_, ?_, ?_, ?_⟩
          · simpa using spared.whole
          · exact List.forall_mem_cons.mpr ⟨fun _ => rfl, spared.refused⟩
          · simpa using spared.inOrder
          · intro open'
            rw [List.map_cons, spared.all open']
          · simpa [left, known] using spared.absent
      | true =>
          have kept : Handling.known (cmd, answers) = true := known
          have fine : Handling.Refused (cmd, answers) := by
            intro unknown
            exact absurd (known.symm.trans unknown) (by decide)
          have filtered : (cmd :: cmds).filter Command.known =
              cmd :: cmds.filter Command.known := List.filter_cons_of_pos known
          have alone := fun others => @step_command node s cmd (cmds.filter Command.known) others
            readings first
          rw [step_command first] at step
          cases step
          have authenticated' := @handleCommand_authenticated node s cmd readings authenticated
          generalize s.handleCommand node readings cmd = handled
            at alone added ih rest authenticated'
          obtain ⟨s', outcome⟩ := handled
          cases closing : outcome.disconnect with
          | some disconnect =>
              simp only [closing] at alone added rest
              have answer := List.append_cancel_left added
              subst answer
              cases rest
              refine ⟨some disconnect, ?_, ?_, ?_, nofun, ?_⟩
              · simp
              · exact List.forall_mem_cons.mpr ⟨fine, nofun⟩
              · simp
              · rw [filtered, List.filter_cons_of_pos kept]
                have one := Handles.handled readings outcome.replies (alone others) rfl .done
                simpa using one
          | none =>
              simp only [closing] at alone added ih
              have answer := List.append_cancel_left added
              subst answer
              obtain ⟨disconnect, spared⟩ := ih rfl authenticated' later (others ++ outcome.replies)
              refine ⟨disconnect, ?_, ?_, ?_, ?_, ?_⟩
              · simpa using spared.whole
              · exact List.forall_mem_cons.mpr ⟨fine, spared.refused⟩
              · simpa using spared.inOrder
              · intro open'
                rw [List.map_cons, spared.all open']
              · rw [filtered, List.filter_cons_of_pos kept]
                have one := Handles.handled readings outcome.replies (alone others) rfl
                  spared.absent
                simpa using one

/-- Unknown commands in front of others change nothing for those. -/
theorem Handles.behind {node : Node} {s : Session} {front rest : List Command}
    {replies : List (Reply Result)} {trace : List Handling} {c' : Connection}
    (readings : Readings) (authenticated : s.client.authenticated)
    (unknown : ∀ cmd ∈ front, cmd.known = false) (numbered : ∀ cmd ∈ front, cmd.id ≠ 0)
    (h : Handles node ⟨s, .batch rest
      (replies ++ front.map fun cmd => .err cmd.id .methodNotFound)⟩ trace c') :
    ∃ trace', trace'.filter Handling.known = trace.filter Handling.known ∧
      Handles node ⟨s, .batch (front ++ rest) replies⟩ trace' c' := by
  induction front generalizing replies with
  | nil => exact ⟨trace, rfl, by simpa using h⟩
  | cons cmd front ih =>
      obtain ⟨first, later⟩ := List.forall_mem_cons.mp unknown
      obtain ⟨firstId, laterIds⟩ := List.forall_mem_cons.mp numbered
      obtain ⟨trace', same, run⟩ :=
        @ih (replies ++ [.err cmd.id .methodNotFound]) later laterIds (by simpa using h)
      have left : Handling.known (cmd, [.err cmd.id .methodNotFound]) = false := first
      refine ⟨(cmd, [.err cmd.id .methodNotFound]) :: trace', ?_, ?_⟩
      · rw [List.filter_cons_of_neg (by simp [left]), same]
      · exact .handled readings _ (step_unknown authenticated firstId first) rfl run

/-- Unknown commands can be put into a frame. -/
theorem Handles.inserted {node : Node} {c c' : Connection} {trace : List Handling}
    (h : Handles node c trace c') (idle : Readings) :
    ∀ {s : Session} {cmds : List Command} {others : List (Reply Result)},
      c = ⟨s, .batch (cmds.filter Command.known) others⟩ → s.client.authenticated →
      (∀ cmd ∈ cmds, cmd.id ≠ 0) → ∀ replies, ∃ trace' replies' disconnect,
        trace'.filter Handling.known = trace ∧ (∃ rs, c'.phase = .replying rs disconnect) ∧
          Handles node ⟨s, .batch cmds replies⟩ trace'
            ⟨c'.session, .replying replies' disconnect⟩ := by
  induction h with
  | done => rintro _ _ _ ⟨⟩
  | interfered world _ ih =>
      intro s cmds others same authenticated numbered replies
      cases same
      obtain ⟨trace', replies', disconnect, same, ended, run⟩ :=
        ih rfl authenticated numbered replies
      exact ⟨trace', replies', disconnect, same, ended, .interfered world run⟩
  | @finished s others trace c' rest _ =>
      intro _ cmds _ same authenticated numbered replies
      obtain ⟨rfl, phase⟩ := Connection.mk.inj same
      obtain ⟨none, rfl⟩ := Phase.batch.inj phase
      cases rest
      have unknown : ∀ cmd ∈ cmds, cmd.known = false := by
        simpa using List.filter_eq_nil_iff.mp none.symm
      obtain ⟨trace', same, run⟩ := @Handles.behind node s cmds [] replies [] _ idle
        authenticated unknown numbered (.finished .done)
      rw [List.append_nil] at run
      exact ⟨trace', _, _, same, ⟨_, rfl⟩, run⟩
  | @handled s cmd known others c c' trace readings answers step added rest ih =>
      intro _ cmds _ same authenticated numbered replies
      obtain ⟨rfl, phase⟩ := Connection.mk.inj same
      obtain ⟨split, rfl⟩ := Phase.batch.inj phase
      obtain ⟨front, later, rfl, unknown, isKnown, rfl⟩ := List.filter_eq_cons_iff.mp split.symm
      obtain ⟨frontIds, numbered⟩ := List.forall_mem_append.mp numbered
      obtain ⟨first, laterIds⟩ := List.forall_mem_cons.mp numbered
      have kept : Handling.known (cmd, answers) = true := isKnown
      have ahead : ∀ cmd ∈ front, cmd.known = false := by simpa using unknown
      -- The run from the known command on, after whatever the others are answered.
      have onward : ∀ rs, ∃ trace' replies' disconnect,
          trace'.filter Handling.known = trace ∧ (∃ rs, c'.phase = .replying rs disconnect) ∧
            Handles node ⟨s, .batch (cmd :: later) rs⟩ ((cmd, answers) :: trace')
              ⟨c'.session, .replying replies' disconnect⟩ := by
        intro rs
        have alone := @step_command node s cmd later rs readings first
        rw [step_command first] at step
        cases step
        have authenticated' := @handleCommand_authenticated node s cmd readings authenticated
        generalize s.handleCommand node readings cmd = handled at alone added ih rest authenticated'
        obtain ⟨s', outcome⟩ := handled
        cases closing : outcome.disconnect with
        | some disconnect =>
            simp only [closing] at alone added rest
            have answer := List.append_cancel_left added
            subst answer
            cases rest
            exact ⟨[], _, _, rfl, ⟨_, rfl⟩, .handled readings _ alone rfl .done⟩
        | none =>
            simp only [closing] at alone added ih
            have answer := List.append_cancel_left added
            subst answer
            obtain ⟨trace', replies', disconnect, same, ended, run⟩ :=
              ih rfl authenticated' laterIds (rs ++ outcome.replies)
            exact ⟨trace', replies', disconnect, same, ended, .handled readings _ alone rfl run⟩
      obtain ⟨trace', replies', disconnect, same, ended, run⟩ := onward _
      obtain ⟨trace'', same', run'⟩ :=
        Handles.behind idle authenticated ahead frontIds run
      refine ⟨trace'', replies', disconnect, ?_, ended, run'⟩
      rw [same', List.filter_cons_of_pos kept, same]

/-- Unknown methods in a frame are answered, and the rest goes as without them. -/
structure Tolerates (node : Node) (s : Session) (cmds : List Command) : Prop where
  /-- Every way through the frame is one through its known commands, with the replies to the
  unknown ones left out. -/
  absent : ∀ {trace : List Handling} {c' : Connection},
    Handles node ⟨s, .batch cmds []⟩ trace c' →
    ∃ disconnect, Spared node s cmds [] [] trace c' disconnect
  /-- No way through the known commands is lost. -/
  present : ∀ {trace : List Handling} {c' : Connection}, Readings →
    Handles node ⟨s, .batch (cmds.filter Command.known) []⟩ trace c' →
    ∃ trace' replies disconnect, trace'.filter Handling.known = trace ∧
      (∃ rs, c'.phase = .replying rs disconnect) ∧
      Handles node ⟨s, .batch cmds []⟩ trace' ⟨c'.session, .replying replies disconnect⟩

theorem tolerates {node : Node} {s : Session} {cmds : List Command}
    (authenticated : s.client.authenticated) (numbered : ∀ cmd ∈ cmds, cmd.id ≠ 0) :
    Tolerates node s cmds where
  absent run := run.spared rfl authenticated numbered []
  present readings run := run.inserted readings rfl authenticated numbered []

/-- The frame is decoded as it is meant, and its unknown methods do no harm. -/
def Welcomes (node : Node) (c : Connection) (frame : Bytes) (cmds : List ClientCommand) : Prop :=
  c.step node (.frame (Codec.decodeFrame c.session.client.proto frame)) =
      some ⟨c.session, .batch (cmds.map ClientCommand.meant) []⟩ ∧
    Tolerates node c.session (cmds.map ClientCommand.meant)

/-- A frame of commands is welcome unless a method in it is negative. -/
theorem welcomes_iff {node : Node} {c : Connection} {frame : Bytes} {cmds : List ClientCommand}
    (authenticated : c.session.client.authenticated) (reading : c.phase = .reading)
    (wellFormed : Codec.readFrame c.session.client.proto frame = some cmds)
    (numbered : ∀ cmd ∈ cmds, cmd.id ≠ 0) :
    c.Welcomes node frame cmds ↔ ∀ cmd ∈ cmds, 0 ≤ cmd.method := by
  obtain ⟨s, phase⟩ := c
  cases reading
  have decoded := Codec.decodeFrame_of_readFrame wellFormed
  have framed : Connection.step ⟨s, .reading⟩ node
      (.frame (Codec.decodeFrame s.client.proto frame)) =
        some (Connection.onFrame ⟨s, .reading⟩ (cmds.mapM ClientCommand.accept)) := by
    rw [← decoded]
    rfl
  constructor
  · rintro ⟨taken, -⟩ cmd mem
    rw [framed] at taken
    have accepted : (cmds.mapM ClientCommand.accept).isSome := by
      cases accepted : cmds.mapM ClientCommand.accept with
      | none =>
          rw [accepted] at taken
          cases congrArg Connection.phase (Option.some.inj taken)
      | some known => rfl
    have one := (mapM_isSome _ _).mp accepted cmd mem
    rw [ClientCommand.accept, Option.isSome_map] at one
    exact (MethodType.fromI32_isSome_iff cmd.method).mp one
  · intro positive
    have accepted : cmds.mapM ClientCommand.accept = some (cmds.map ClientCommand.meant) := by
      rw [mapM_eq_some, List.forall₂_map_right_iff, List.forall₂_same]
      intro cmd mem
      exact ClientCommand.accept_of_nonneg (positive cmd mem)
    refine ⟨by rw [framed, accepted]; rfl, tolerates authenticated ?_⟩
    simpa [ClientCommand.meant] using numbered

end Connection

namespace Sample

/-- A connection of user 42 over JSON. -/
def jsonConnection : Connection where
  session := { session with client := { session.client with proto := .json } }
  phase := .reading

/-- A frame with two commands, the second of which is a PING. -/
def pingBehind (method : String) : Bytes :=
  encodeUtf8 ("\x7b\"id\":1,\"method\":" ++ method ++ "\x7d\x7b\"id\":2,\"method\":7\x7d").toList

end Sample

theorem Connection.welcomes_iff_foreign :
    Sample.jsonConnection.Welcomes Sample.node (Sample.pingBehind "99")
        [⟨1, 99, none⟩, ⟨2, 7, none⟩] ↔
      ∀ cmd ∈ ([⟨1, 99, none⟩, ⟨2, 7, none⟩] : List ClientCommand), 0 ≤ cmd.method :=
  Connection.welcomes_iff rfl rfl (by decide +kernel) (by decide)

/-- A negative method closes the connection and takes the PING behind it along. -/
theorem Connection.not_welcomes_negative :
    ¬ ∀ (node : Node) (c : Connection) (frame : Bytes) (cmds : List ClientCommand),
      c.session.client.authenticated → c.phase = .reading →
      Codec.readFrame c.session.client.proto frame = some cmds → (∀ cmd ∈ cmds, cmd.id ≠ 0) →
      c.Welcomes node frame cmds := by
  intro all
  have wellFormed : Codec.readFrame .json (Sample.pingBehind "-1") =
      some [⟨1, -1, none⟩, ⟨2, 7, none⟩] := by decide +kernel
  have refused : Codec.decodeFrame .json (Sample.pingBehind "-1") = none := by decide +kernel
  obtain ⟨taken, -⟩ := all Sample.node Sample.jsonConnection (Sample.pingBehind "-1") _ rfl rfl
    wellFormed (by decide)
  change Connection.step _ _ (.frame (Codec.decodeFrame .json _)) = _ at taken
  rw [refused] at taken
  cases congrArg Connection.phase (Option.some.inj taken)

end Centrifugo
