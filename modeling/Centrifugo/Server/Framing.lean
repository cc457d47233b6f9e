import Centrifugo.Protocol.Framing

/-!
# Frames on a JSON transport

A JSON connection gets reply frames, which hold the replies of one batch, and push
frames, which hold one. Over a WebSocket the frames are concatenated as they are.
Over SockJS each poll cuts them into lines and puts every line in an array.

Both sides rely on one reply being one line. The main theorem says for which
payloads that is so.
-/

namespace Centrifugo

open Json Codec

def ClientInfo.payloads (info : ClientInfo) : List Raw :=
  info.connInfo.toList ++ info.chanInfo.toList

def Publication.payloads (publication : Publication) : List Raw :=
  publication.data.toList ++ publication.info.toList.flatMap ClientInfo.payloads

/-- What is put in the queue of a JSON connection as one frame. -/
inductive Frame
  | replies (batch : List (Reply Raw))
  | push (event : Push)
  | publication (channel : String) (body : Publication)
  | join (channel : String) (body : Join)
  | leave (channel : String) (body : Leave)

namespace Frame

def encode : Frame → Option Bytes
  | .replies batch => encodeReplies batch
  | .push event => encodePushFrame event
  | .publication channel body => makePushFrame channel .publication body.toJson
  | .join channel body => makePushFrame channel .join body.toJson
  | .leave channel body => makePushFrame channel .leave body.toJson

/-- The reply around an inner message. -/
def innerReply (channel : String) (type : PushType) (inner : Option RawValue) :
    Option (Reply Raw) := do
  let push ← makePush channel type inner
  pushReply push

/-- The replies a frame stands for. -/
def toReplies : Frame → Option (List (Reply Raw))
  | .replies batch => some batch
  | .push event => (pushReply event).map fun reply => [reply]
  | .publication channel body =>
      (innerReply channel .publication body.toJson).map fun reply => [reply]
  | .join channel body => (innerReply channel .join body.toJson).map fun reply => [reply]
  | .leave channel body => (innerReply channel .leave body.toJson).map fun reply => [reply]

theorem encode_eq (frame : Frame) : frame.encode = frame.toReplies.bind encodeReplies := by
  have inner : ∀ channel type json, makePushFrame channel type json =
      ((innerReply channel type json).map fun reply => [reply]).bind encodeReplies := by
    intro channel type json
    simp [makePushFrame, encodePushFrame, innerReply, Option.bind_assoc, Option.map_bind,
      Option.bind_map]
  cases frame with
  | replies batch => rfl
  | push event => simp [encode, encodePushFrame, toReplies, Option.bind_map]
  | publication channel body => exact inner channel .publication body.toJson
  | join channel body => exact inner channel .join body.toJson
  | leave channel body => exact inner channel .leave body.toJson

/-- All payload fields of a frame. -/
def payloads : Frame → List Raw
  | .replies batch => batch.flatMap fun reply => reply.result.toList
  | .push event => event.data.toList
  | .publication _ body => body.payloads
  | .join _ body => body.info.payloads
  | .leave _ body => body.info.payloads

/-- Every payload is a JSON text. -/
def Valid (frame : Frame) : Prop := ∀ raw ∈ frame.payloads, raw.Valid

/-- The results of the replies, which a reader gets back as payloads. -/
def results : Frame → List Raw
  | .replies batch => batch.flatMap fun reply => reply.result.toList
  | _ => []

/-- No payload has a line break between its tokens, and the result of a reply is
neither `null` nor surrounded by whitespace. -/
def SingleLine (frame : Frame) : Prop :=
  (∀ raw ∈ frame.payloads, ¬ raw.Multiline) ∧ ∀ raw ∈ frame.results, raw.Exact

end Frame

/-! ## SockJS messages -/

/-- The array elements of a message frame: the non-empty lines of its messages. -/
def framed (msgs : List Text) : List Text :=
  msgs.flatMap fun msg => (lines msg).filter fun line => !line.isEmpty

/-- A SockJS message frame. -/
def messageFrame (msgs : List Text) : Text :=
  'a' :: ((RawValue.array ((framed msgs).map fun line => .string (String.ofList line))).text ++
    ['\n'])

/-! ## Line breaks in what the encoders write -/

/-- Members that can be written when the payloads are valid, and that have a line
break exactly when some payload has one. -/
def CarriesMembers (members : Option (List (String × RawValue))) (payloads : List Raw) : Prop :=
  (∀ raw ∈ payloads, raw.Valid) → ∃ entries, members = some entries ∧
    ((∃ entry ∈ entries, '\n' ∈ entry.2.text) ↔ ∃ raw ∈ payloads, raw.Multiline)

/-- The same for a whole message. -/
def Carries (json : Option RawValue) (payloads : List Raw) : Prop :=
  (∀ raw ∈ payloads, raw.Valid) → ∃ value, json = some value ∧ value ≠ .null ∧
    ('\n' ∈ value.text ↔ ∃ raw ∈ payloads, raw.Multiline)

theorem carried_object {json : Option RawValue} {payloads : List Raw}
    {entries : List (String × RawValue)} (written : json = some (.object entries))
    (breaks : (∃ entry ∈ entries, '\n' ∈ entry.2.text) ↔ ∃ raw ∈ payloads, raw.Multiline) :
    ∃ value, json = some value ∧ value ≠ .null ∧
      ('\n' ∈ value.text ↔ ∃ raw ∈ payloads, raw.Multiline) := by
  refine ⟨.object entries, written, ?_, RawValue.newline_mem_object.trans breaks⟩
  intro null
  cases congrArg RawValue.text null

theorem Carries.member {json : Option RawValue} {payloads : List Raw}
    (h : Carries json payloads) (name : String) :
    CarriesMembers (json.map fun value => [(name, value)]) payloads := by
  intro valid
  obtain ⟨value, rfl, -, breaks⟩ := h valid
  exact ⟨[(name, value)], rfl, by simpa using breaks⟩

theorem carries_raw (name : String) (raw : Raw) :
    CarriesMembers (raw.toJson.map fun value => [(name, value)]) [raw] := by
  intro valid
  obtain ⟨value, written⟩ := Raw.toJson_of_valid (valid raw List.mem_cons_self)
  exact ⟨[(name, value)], by simp [written], by simpa using Raw.newline_mem_toJson written⟩

theorem carries_optionalRaw (name : String) (raw : Option Raw) :
    CarriesMembers (optionalRaw name raw) raw.toList := by
  cases raw with
  | none => exact fun _ => ⟨[], rfl, by simp⟩
  | some raw => exact carries_raw name raw

theorem newline_notMem_null : '\n' ∉ RawValue.null.text := by decide

theorem carries_nullableRaw (name : String) (raw : Option Raw) :
    CarriesMembers (nullableRaw name raw) raw.toList := by
  cases raw with
  | none => exact fun _ => ⟨[(name, .null)], rfl, by simp [newline_notMem_null]⟩
  | some raw => exact carries_raw name raw

@[simp] theorem newline_mem_skipIf {skip : Bool} {name : String} {value : RawValue} :
    (∃ entry ∈ skipIf skip name value, '\n' ∈ entry.2.text) ↔
      skip = false ∧ '\n' ∈ value.text := by
  cases skip <;> simp [skipIf]

@[simp] theorem newline_notMem_u32 (n : UInt32) : '\n' ∉ (u32 n).text :=
  RawValue.newline_notMem_number n.toNat

theorem carries_clientInfo (info : ClientInfo) : Carries info.toJson info.payloads := by
  intro valid
  obtain ⟨conn, connWritten, connBreaks⟩ := carries_optionalRaw "conn_info" info.connInfo
    fun raw mem => valid raw (List.mem_append_left _ mem)
  obtain ⟨chan, chanWritten, chanBreaks⟩ := carries_optionalRaw "chan_info" info.chanInfo
    fun raw mem => valid raw (List.mem_append_right _ mem)
  have written : info.toJson = some (.object
      ([("user", .string info.user), ("client", .string info.client)] ++ conn ++ chan)) := by
    simp [ClientInfo.toJson, connWritten, chanWritten]
  refine carried_object written ?_
  simp only [List.mem_append, or_and_right, exists_or, connBreaks, chanBreaks,
    ClientInfo.payloads]
  simp

theorem carries_optionalInfo (info : Option ClientInfo) :
    CarriesMembers (optionalInfo info) (info.toList.flatMap ClientInfo.payloads) := by
  cases info with
  | none => exact fun _ => ⟨[], rfl, by simp⟩
  | some info => simpa [optionalInfo] using (carries_clientInfo info).member "info"

theorem carries_publication (publication : Publication) :
    Carries publication.toJson publication.payloads := by
  intro valid
  obtain ⟨data, dataWritten, dataBreaks⟩ := carries_nullableRaw "data" publication.data
    fun raw mem => valid raw (List.mem_append_left _ mem)
  obtain ⟨info, infoWritten, infoBreaks⟩ := carries_optionalInfo publication.info
    fun raw mem => valid raw (List.mem_append_right _ mem)
  refine carried_object (by simp [Publication.toJson, dataWritten, infoWritten]; rfl) ?_
  simp only [List.mem_append, or_and_right, exists_or, dataBreaks, infoBreaks,
    newline_mem_skipIf, Publication.payloads]
  simp

theorem carries_inner {json : Option RawValue} {payloads : List Raw}
    (h : Carries json payloads) : Carries (do some (.object [("info", ← json)])) payloads := by
  intro valid
  obtain ⟨value, rfl, -, breaks⟩ := h valid
  exact carried_object rfl (by simpa using breaks)

theorem carries_join (join : Join) : Carries join.toJson join.info.payloads :=
  carries_inner (carries_clientInfo join.info)

theorem carries_leave (leave : Leave) : Carries leave.toJson leave.info.payloads :=
  carries_inner (carries_clientInfo leave.info)

theorem carries_push (push : Push) : Carries push.toJson push.data.toList := by
  intro valid
  obtain ⟨data, dataWritten, dataBreaks⟩ := carries_nullableRaw "data" push.data valid
  refine carried_object (by simp [Push.toJson, dataWritten]; rfl) ?_
  simp only [List.mem_append, or_and_right, exists_or, dataBreaks, newline_mem_skipIf]
  simp

theorem newline_notMem_error (error : Error) : '\n' ∉ error.toJson.text := by
  rw [Error.toJson, RawValue.newline_mem_object]
  simp

theorem carries_reply (reply : Reply Raw) : Carries reply.toJson reply.result.toList := by
  intro valid
  obtain ⟨result, written, breaks⟩ := carries_optionalRaw "result" reply.result valid
  refine carried_object (by simp [Reply.toJson, written]; rfl) ?_
  simp only [List.mem_append, or_and_right, exists_or, breaks, newline_mem_skipIf]
  simp [newline_notMem_error]

/-! ## From frames to lines -/

/-- A reply of which a reader gets back everything, on one line. -/
def LineSafe (reply : Reply Raw) : Prop :=
  ∀ raw ∈ reply.result, ¬ raw.Multiline ∧ raw.Exact

/-- A reply that carries an encoded message: its result is a value as written. -/
theorem pushReply_of_carries (push : Push) (valid : ∀ raw ∈ push.data, raw.Valid) :
    ∃ reply, pushReply push = some reply ∧ (∀ raw ∈ reply.result, raw.Valid) ∧
      (LineSafe reply ↔ ∀ raw ∈ push.data, ¬ raw.Multiline) := by
  obtain ⟨value, written, notNull, breaks⟩ := carries_push push (by simpa using valid)
  have inline : (Raw.ofText value.text).toJson = some value := Raw.toJson_ofText value
  refine ⟨⟨0, none, some (.ofText value.text)⟩, by simp [pushReply, encodeRaw, written], ?_, ?_⟩
  · rintro raw ⟨⟩
    exact ⟨value.text, Raw.text?_ofText _, by rw [trim_of_isValue value.valid]; exact value.valid⟩
  · have exact : (Raw.ofText value.text).Exact := (Raw.exact_iff inline).mpr ⟨notNull, rfl⟩
    have line : (Raw.ofText value.text).Multiline ↔ ∃ raw ∈ push.data, raw.Multiline := by
      rw [← Raw.newline_mem_toJson inline, breaks]
      simp
    simp [LineSafe, exact, line]

theorem innerReply_of_carries {channel : String} {type : PushType} {json : Option RawValue}
    {payloads : List Raw} (carries : Carries json payloads)
    (valid : ∀ raw ∈ payloads, raw.Valid) :
    ∃ reply, Frame.innerReply channel type json = some reply ∧
      (∀ raw ∈ reply.result, raw.Valid) ∧
      (LineSafe reply ↔ ∀ raw ∈ payloads, ¬ raw.Multiline) := by
  obtain ⟨value, rfl, -, breaks⟩ := carries valid
  have inline : (Raw.ofText value.text).toJson = some value := Raw.toJson_ofText value
  have inner : (Raw.ofText value.text).Valid :=
    ⟨value.text, Raw.text?_ofText _, by rw [trim_of_isValue value.valid]; exact value.valid⟩
  obtain ⟨reply, framed, results, safe⟩ :=
    pushReply_of_carries ⟨type, channel, some (.ofText value.text)⟩ (by simpa using inner)
  refine ⟨reply, by simpa [Frame.innerReply, makePush, encodeRaw] using framed, results, ?_⟩
  rw [safe]
  simp only [Option.mem_def, Option.some.injEq, forall_eq', ← Raw.newline_mem_toJson inline, breaks]
  simp

theorem Frame.toReplies_of_valid {frame : Frame} (valid : frame.Valid) :
    ∃ replies, frame.toReplies = some replies ∧
      (∀ reply ∈ replies, ∀ raw ∈ reply.result, raw.Valid) ∧
      (frame.SingleLine ↔ ∀ reply ∈ replies, LineSafe reply) := by
  have one : ∀ (payloads : List Raw) {json : Option (Reply Raw)},
      (∃ reply, json = some reply ∧ (∀ raw ∈ reply.result, raw.Valid) ∧
        (LineSafe reply ↔ ∀ raw ∈ payloads, ¬ raw.Multiline)) →
      ∃ replies, (json.map fun reply => [reply]) = some replies ∧
        (∀ reply ∈ replies, ∀ raw ∈ reply.result, raw.Valid) ∧
        (((∀ raw ∈ payloads, ¬ raw.Multiline) ∧ ∀ raw ∈ ([] : List Raw), raw.Exact) ↔
          ∀ reply ∈ replies, LineSafe reply) := by
    rintro payloads json ⟨reply, rfl, results, safe⟩
    exact ⟨[reply], rfl, by simpa using results, by simp [safe]⟩
  cases frame with
  | replies batch =>
      refine ⟨batch, rfl, ?_, ?_⟩
      · intro reply mem raw result
        exact valid raw (List.mem_flatMap.mpr ⟨reply, mem, by simpa using result⟩)
      · simp only [SingleLine, payloads, results, LineSafe, List.mem_flatMap, Option.mem_toList]
        constructor
        · rintro ⟨lines, exact⟩ reply mem raw result
          exact ⟨lines raw ⟨reply, mem, result⟩, exact raw ⟨reply, mem, result⟩⟩
        · intro safe
          refine ⟨?_, ?_⟩
          · rintro raw ⟨reply, mem, result⟩
            exact (safe reply mem raw result).1
          · rintro raw ⟨reply, mem, result⟩
            exact (safe reply mem raw result).2
  | push event =>
      have carried := pushReply_of_carries event (by simpa [Valid, payloads] using valid)
      exact one event.data.toList (by simpa using carried)
  | publication channel body =>
      exact one body.payloads (innerReply_of_carries (carries_publication body) valid)
  | join channel body =>
      exact one body.info.payloads (innerReply_of_carries (carries_join body) valid)
  | leave channel body =>
      exact one body.info.payloads (innerReply_of_carries (carries_leave body) valid)

/-! ## Lines as written -/

/-- A reply and the value it is written as. -/
def WrittenAs (reply : Reply Raw) (value : RawValue) : Prop := reply.toJson = some value

/-- The bytes of the lines of a stream. -/
def lineBytes (values : List RawValue) : List Bytes :=
  values.map fun value => encodeUtf8 value.text

theorem lineBytes_append (front back : List RawValue) :
    lineBytes (front ++ back) = lineBytes front ++ lineBytes back :=
  List.map_append

theorem lineBytes_eq (values : List RawValue) :
    lineBytes values = (values.map RawValue.text).map encodeUtf8 := by
  simp [lineBytes]

theorem exists_writtenAs {replies : List (Reply Raw)}
    (valid : ∀ reply ∈ replies, ∀ raw ∈ reply.result, raw.Valid) :
    ∃ values, List.Forall₂ WrittenAs replies values := by
  induction replies with
  | nil => exact ⟨[], .nil⟩
  | cons reply replies ih =>
      obtain ⟨values, written⟩ := ih fun other mem => valid other (List.mem_cons_of_mem _ mem)
      obtain ⟨value, here, -⟩ := carries_reply reply
        (by simpa using valid reply List.mem_cons_self)
      exact ⟨value :: values, .cons here written⟩

theorem encodeReply_writtenAs {reply : Reply Raw} {value : RawValue}
    (h : WrittenAs reply value) :
    encodeReply reply = some (encodeUtf8 value.text ++ [newlineByte]) := by
  have json : reply.toJson = some value := h
  simp [encodeReply, json]

theorem encodeReplies_writtenAs {replies : List (Reply Raw)} {values : List RawValue}
    (h : List.Forall₂ WrittenAs replies values) :
    encodeReplies replies = some (terminate newlineByte (lineBytes values)) := by
  induction h with
  | nil => rfl
  | cons here _ ih =>
      simp [encodeReplies, encodeReply_writtenAs here, ih, lineBytes]

/-- A reply line is clean and decodes to its reply exactly for a line-safe reply. -/
theorem lineSafe_iff {reply : Reply Raw} {value : RawValue} (h : WrittenAs reply value)
    (valid : ∀ raw ∈ reply.result, raw.Valid) :
    LineSafe reply ↔ '\n' ∉ value.text ∧ decodeReply value.text = some reply := by
  obtain ⟨value', written, -, breaks⟩ := carries_reply reply (by simpa using valid)
  cases h.symm.trans written
  have clean : '\n' ∉ value.text ↔ ∀ raw ∈ reply.result, ¬ raw.Multiline := by
    rw [breaks]
    simp
  have decoded : decodeReply value.text = some reply ↔ ∀ raw ∈ reply.result, raw.Exact := by
    rw [decodeReply_toJson written]
    obtain ⟨id, error, result⟩ := reply
    cases result with
    | none => simp
    | some raw =>
        obtain ⟨json, inline⟩ := Raw.toJson_of_valid (valid raw rfl)
        by_cases null : json = .null
        · simp [inline, null, Raw.exact_iff inline]
        · simp [inline, null, Raw.exact_iff inline]
  rw [clean, decoded]
  constructor
  · intro safe
    exact ⟨fun raw mem => (safe raw mem).1, fun raw mem => (safe raw mem).2⟩
  · rintro ⟨lines, exact⟩ raw mem
    exact ⟨lines raw mem, exact raw mem⟩

theorem lineBytes_clean {values : List RawValue} :
    (∀ line ∈ lineBytes values, newlineByte ∉ line) ↔ ∀ value ∈ values, '\n' ∉ value.text := by
  simp [lineBytes]

theorem lineBytes_ne_nil {values : List RawValue} : ∀ line ∈ lineBytes values, line ≠ [] := by
  intro line mem empty
  obtain ⟨value, -, rfl⟩ := List.mem_map.mp mem
  have text : value.text = [] := encodeUtf8_injective (empty.trans rfl)
  exact value.text_ne_nil text

theorem decode_lineBytes (values : List RawValue) :
    (lineBytes values).mapM decodeLine = (values.map RawValue.text).mapM decodeReply := by
  simp [lineBytes, decodeLine, Function.comp_def]

/-- The frames of a stream, each as the lines it is written as. -/
theorem encode_frames {frames : List Frame} (valid : ∀ frame ∈ frames, frame.Valid) :
    ∃ (batches : List (List (Reply Raw))) (groups : List (List RawValue)),
      frames.mapM Frame.toReplies = some batches ∧
      List.Forall₂ (List.Forall₂ WrittenAs) batches groups ∧
      frames.mapM Frame.encode =
        some (groups.map fun group => terminate newlineByte (lineBytes group)) ∧
      (∀ reply ∈ batches.flatten, ∀ raw ∈ reply.result, raw.Valid) ∧
      ((∀ frame ∈ frames, frame.SingleLine) ↔ ∀ reply ∈ batches.flatten, LineSafe reply) := by
  induction frames with
  | nil => exact ⟨[], [], rfl, .nil, rfl, by simp, by simp⟩
  | cons frame frames ih =>
      obtain ⟨batches, groups, replies, written, encoded, results, safe⟩ :=
        ih fun other mem => valid other (List.mem_cons_of_mem _ mem)
      obtain ⟨batch, first, here, single⟩ :=
        Frame.toReplies_of_valid (valid frame List.mem_cons_self)
      obtain ⟨group, lines⟩ := exists_writtenAs here
      refine ⟨batch :: batches, group :: groups, ?_, .cons lines written, ?_, ?_, ?_⟩
      · simp [List.mapM_cons, first, replies]
      · simp [List.mapM_cons, frame.encode_eq, first, encodeReplies_writtenAs lines, encoded]
      · intro reply mem
        rcases List.mem_append.mp (List.flatten_cons ▸ mem) with mem | mem
        · exact here reply mem
        · exact results reply mem
      · simp only [List.forall_mem_cons, List.flatten_cons, List.forall_mem_append, single, safe]

/-! ## The framing contract -/

/-- Every reply is its own line: one line break, at its end. -/
def OneLineEach (replies : List (Reply Raw)) (stream : Bytes) : Prop :=
  ∃ bodies, List.Forall₂ (fun reply body =>
      encodeReply reply = some (body ++ [newlineByte]) ∧ newlineByte ∉ body) replies bodies ∧
    stream = terminate newlineByte bodies

/-- The poll that takes these frames gets one array element per reply. -/
def PolledAs (replies : List (Reply Raw)) (chunks : List Bytes) : Prop :=
  ∃ (msgs elements : List Text), chunks.mapM decodeUtf8 = some msgs ∧
    messageFrame msgs = 'a' :: ((RawValue.array
      (elements.map fun element => .string (String.ofList element))).text ++ ['\n']) ∧
    elements.mapM decodeReply = some replies

/-- What a WebSocket reader and a SockJS client rely on. -/
def WellFramed (frames : List Frame) : Prop :=
  ∃ chunks batches, frames.mapM Frame.encode = some chunks ∧
    frames.mapM Frame.toReplies = some batches ∧
    OneLineEach batches.flatten chunks.flatten ∧
    (records newlineByte chunks.flatten).mapM decodeLine = some batches.flatten ∧
    PolledAs batches.flatten chunks

theorem flatten_terminate (groups : List (List RawValue)) :
    (groups.map fun group => terminate newlineByte (lineBytes group)).flatten =
      terminate newlineByte (lineBytes groups.flatten) := by
  induction groups with
  | nil => rfl
  | cons group groups ih =>
      rw [List.map_cons, List.flatten_cons, ih, List.flatten_cons, lineBytes_append,
        terminate_append]

/-- The stream itself settles which replies are line-safe. -/
theorem lineSafe_of_stream {replies : List (Reply Raw)} {values : List RawValue}
    (written : List.Forall₂ WrittenAs replies values)
    (valid : ∀ reply ∈ replies, ∀ raw ∈ reply.result, raw.Valid) :
    (∀ reply ∈ replies, LineSafe reply) ↔
      (∀ value ∈ values, '\n' ∉ value.text) ∧
        (values.map RawValue.text).mapM decodeReply = some replies := by
  induction written with
  | nil => simp
  | cons here rest ih =>
      rename_i reply value replies values
      have first := lineSafe_iff here (valid reply List.mem_cons_self)
      have others := ih fun other mem => valid other (List.mem_cons_of_mem _ mem)
      simp only [List.forall_mem_cons, first, others, List.map_cons, mapM_eq_some,
        List.forall₂_cons]
      tauto

theorem oneLineEach_clean {replies : List (Reply Raw)} {values : List RawValue} {stream : Bytes}
    (written : List.Forall₂ WrittenAs replies values) (h : OneLineEach replies stream) :
    ∀ value ∈ values, '\n' ∉ value.text := by
  obtain ⟨bodies, lines, -⟩ := h
  induction written generalizing bodies with
  | nil => simp
  | cons here others ih =>
      rename_i reply value replies values
      obtain ⟨body, bodies, ⟨encoded, clean⟩, rest, rfl⟩ := List.forall₂_cons_left_iff.mp lines
      have same : encodeUtf8 value.text ++ [newlineByte] = body ++ [newlineByte] :=
        Option.some.inj ((encodeReply_writtenAs here).symm.trans encoded)
      obtain rfl := List.append_cancel_right same
      rw [List.forall_mem_cons]
      exact ⟨by simpa using clean, ih bodies rest⟩

theorem value_last_ne_carriageReturn (value : RawValue) :
    stripCarriageReturn value.text = value.text := by
  obtain ⟨front, last, eq, space⟩ := isValue_last value.valid
  rw [eq]
  refine stripCarriageReturn_of_last ?_
  rintro rfl
  cases space

/-- A poll cuts the frames back into the lines they were written from. -/
theorem framed_groups {groups : List (List RawValue)}
    (clean : ∀ value ∈ groups.flatten, '\n' ∉ value.text) :
    framed (groups.map fun group => terminate '\n' (group.map RawValue.text)) =
      groups.flatten.map RawValue.text := by
  have cut : ∀ group ∈ groups,
      ((lines (terminate '\n' (group.map RawValue.text))).filter fun line => !line.isEmpty) =
        group.map RawValue.text := by
    intro group mem
    have texts : ∀ line ∈ group.map RawValue.text, '\n' ∉ line := by
      intro line hl
      obtain ⟨value, hv, rfl⟩ := List.mem_map.mp hl
      exact clean value (List.mem_flatten.mpr ⟨group, mem, hv⟩)
    rw [lines_terminate texts, List.map_map]
    simp only [Function.comp_def, value_last_ne_carriageReturn]
    refine List.filter_eq_self.mpr ?_
    intro line hl
    obtain ⟨value, -, rfl⟩ := List.mem_map.mp hl
    simpa using value.text_ne_nil
  rw [framed, List.flatMap_map, List.map_flatten]
  exact congrArg List.flatten (List.map_congr_left cut)

theorem polledAs_of_clean {replies : List (Reply Raw)} {groups : List (List RawValue)}
    (clean : ∀ value ∈ groups.flatten, '\n' ∉ value.text)
    (decoded : (groups.flatten.map RawValue.text).mapM decodeReply = some replies) :
    PolledAs replies (groups.map fun group => terminate newlineByte (lineBytes group)) := by
  refine ⟨groups.map fun group => terminate '\n' (group.map RawValue.text),
    groups.flatten.map RawValue.text, ?_, ?_, decoded⟩
  · rw [mapM_eq_some, List.forall₂_map_left_iff, List.forall₂_map_right_iff, List.forall₂_same]
    intro group _
    rw [lineBytes_eq, ← encodeUtf8_terminate, decodeUtf8_encodeUtf8]
  · rw [messageFrame, framed_groups clean]

theorem singleLine_of_wellFramed {frames : List Frame} (valid : ∀ frame ∈ frames, frame.Valid)
    (h : WellFramed frames) : ∀ frame ∈ frames, frame.SingleLine := by
  obtain ⟨batches, groups, replies, written, encoded, results, safe⟩ := encode_frames valid
  obtain ⟨chunks, batches', encoded', replies', lines, decoded, -⟩ := h
  cases encoded.symm.trans encoded'
  cases replies.symm.trans replies'
  have flat : List.Forall₂ WrittenAs batches.flatten groups.flatten := List.rel_flatten written
  have clean := oneLineEach_clean flat lines
  rw [flatten_terminate, records_terminate (lineBytes_clean.mpr clean) lineBytes_ne_nil,
    decode_lineBytes] at decoded
  exact safe.mpr ((lineSafe_of_stream flat results).mpr ⟨clean, decoded⟩)

/-- One reply is one line, and is read back as sent, exactly when every payload of
the frames keeps to one line and every reply result is read back as it is. -/
theorem wellFramed_iff {frames : List Frame} (valid : ∀ frame ∈ frames, frame.Valid) :
    WellFramed frames ↔ ∀ frame ∈ frames, frame.SingleLine := by
  refine ⟨singleLine_of_wellFramed valid, ?_⟩
  intro single
  obtain ⟨batches, groups, replies, written, encoded, results, safe⟩ := encode_frames valid
  have flat : List.Forall₂ WrittenAs batches.flatten groups.flatten := List.rel_flatten written
  obtain ⟨clean, decoded⟩ := (lineSafe_of_stream flat results).mp (safe.mp single)
  refine ⟨_, batches, encoded, replies, ?_, ?_, polledAs_of_clean clean decoded⟩
  · refine ⟨lineBytes groups.flatten, ?_, flatten_terminate groups⟩
    rw [lineBytes, List.forall₂_map_right_iff]
    have both : ∀ {replies : List (Reply Raw)} {values : List RawValue},
        List.Forall₂ WrittenAs replies values → (∀ value ∈ values, '\n' ∉ value.text) →
        List.Forall₂ (fun reply value =>
          encodeReply reply = some (encodeUtf8 value.text ++ [newlineByte]) ∧
            newlineByte ∉ encodeUtf8 value.text) replies values := by
      intro replies values written clean
      induction written with
      | nil => exact .nil
      | cons here _ ih =>
          rw [List.forall_mem_cons] at clean
          exact .cons ⟨encodeReply_writtenAs here, by simpa using clean.1⟩ (ih clean.2)
    exact both flat clean
  · rw [flatten_terminate, records_terminate (lineBytes_clean.mpr clean) lineBytes_ne_nil,
      decode_lineBytes]
    exact decoded

/-- A payload that is written as text. -/
theorem Raw.valid_ofText {data : Text} (value : isValue (trim data)) : (Raw.ofText data).Valid :=
  ⟨data, Raw.text?_ofText data, value⟩

theorem Raw.multiline_ofText {data : Text} : (Raw.ofText data).Multiline ↔ '\n' ∈ trim data := by
  simp [Raw.Multiline]

theorem Raw.exact_ofText {data : Text} :
    (Raw.ofText data).Exact ↔ trim data = data ∧ data ≠ RawValue.null.text := by
  simp [Raw.Exact]

/-- A publication of `data` to one channel, as the frames of a subscriber. -/
def published (data : Text) : List Frame :=
  [.publication "news" { data := some (.ofText data) }]

theorem published_valid {data : Text} (value : isValue (trim data)) :
    ∀ frame ∈ published data, frame.Valid := by
  simpa [published, Frame.Valid, Frame.payloads, Publication.payloads] using
    Raw.valid_ofText value

theorem published_singleLine {data : Text} :
    (∀ frame ∈ published data, frame.SingleLine) ↔ '\n' ∉ trim data := by
  simp [published, Frame.SingleLine, Frame.payloads, Frame.results, Publication.payloads,
    Raw.multiline_ofText]

/-- Replies in one frame, a join, and publications, one with a line break in a string and one
with line breaks around it. -/
def busyFrames : List Frame :=
  [.replies [⟨1, none, some (.ofText "\x7b\"seq\":1\x7d".toList)⟩,
      ⟨2, some .permissionDenied, none⟩],
    .join "news" ⟨{ user := "42", client := "2a1f", connInfo := some (.ofText "[1]".toList) }⟩,
    .publication "news" { data := some (.ofText "\"a\\nb\"".toList) },
    .publication "news" { data := some (.ofText "\n0\n".toList) }]

theorem wellFramed_busy : WellFramed busyFrames := by
  refine (wellFramed_iff ?_).mpr ?_
  · simp only [busyFrames, Frame.Valid, Frame.payloads, ClientInfo.payloads, Publication.payloads,
      List.forall_mem_cons, List.flatMap_cons, List.flatMap_nil, Option.toList_some,
      Option.toList_none, List.append_nil, List.not_mem_nil, IsEmpty.forall_iff, implies_true,
      and_true]
    exact ⟨Raw.valid_ofText (by decide), Raw.valid_ofText (by decide),
      Raw.valid_ofText (by decide), Raw.valid_ofText (by decide)⟩
  · simp only [busyFrames, Frame.SingleLine, Frame.payloads, Frame.results, ClientInfo.payloads,
      Publication.payloads, List.forall_mem_cons, List.flatMap_cons, List.flatMap_nil,
      Option.toList_some, Option.toList_none, List.append_nil, List.not_mem_nil,
      IsEmpty.forall_iff, implies_true, and_true, Raw.multiline_ofText, Raw.exact_ofText]
    decide

/-- An empty object with a line break between its braces is a JSON text, and the
publication of it is cut in two. -/
theorem not_wellFramed_multiline :
    ¬ ∀ frames : List Frame, (∀ frame ∈ frames, frame.Valid) → WellFramed frames := by
  intro claim
  have valid : ∀ frame ∈ published ['{', '\n', '}'], frame.Valid := published_valid (by decide)
  have single := singleLine_of_wellFramed valid (claim _ valid)
  exact published_singleLine.mp single (by decide)

end Centrifugo
