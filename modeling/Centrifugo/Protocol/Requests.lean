import Centrifugo.Json.Lines
import Centrifugo.Protocol.Commands

/-!
# Requests over JSON

The parameters of a command are a struct with a default for each field that is absent. `null` is
another matter: it is accepted where a field is optional or asks for it, and refused elsewhere,
so that the request cannot be decoded and the connection is closed.
-/

namespace Json

/-! ## Objects with one member more -/

section

variable {front back : List (Text × RawValue)} {name other : String} {value : RawValue}

theorem filter_key_of_notMem {members : List (Text × RawValue)}
    (absent : name.toList ∉ members.map Prod.fst) :
    (members.filter fun entry => entry.1 = name.toList) = [] := by
  refine List.filter_eq_nil_iff.mpr ?_
  intro entry mem same
  exact absent (of_decide_eq_true same ▸ List.mem_map_of_mem mem)

theorem field_of_notMem {members : List (Text × RawValue)}
    (absent : name.toList ∉ members.map Prod.fst) : field name members = some none := by
  rw [field, filter_key_of_notMem absent]

theorem field_inserted (absent : name.toList ∉ (front ++ back).map Prod.fst) :
    field name (front ++ (name.toList, value) :: back) = some (some value) := by
  rw [List.map_append, List.mem_append, not_or] at absent
  rw [field, List.filter_append, List.filter_cons_of_pos (by simp),
    filter_key_of_notMem absent.1, filter_key_of_notMem absent.2]
  rfl

theorem field_inserted_ne (differs : name ≠ other) :
    field name (front ++ (other.toList, value) :: back) = field name (front ++ back) := by
  have away : other.toList ≠ name.toList := by
    simpa [String.toList_inj] using differs.symm
  rw [field, field, List.filter_append, List.filter_append, List.filter_cons_of_neg (by simpa)]

/-- A member is read as a field when no other has its name. -/
theorem field_member :
    field name (front ++ (name.toList, value) :: back) =
      if name.toList ∈ (front ++ back).map Prod.fst then none else some (some value) := by
  split
  next mem =>
    obtain ⟨entry, inside, same⟩ := List.mem_map.mp mem
    have found : 0 < ((front ++ back).filter fun entry => entry.1 = name.toList).length :=
      List.length_pos_of_mem (List.mem_filter.mpr ⟨inside, by simpa using same⟩)
    have more : 2 ≤ ((front ++ (name.toList, value) :: back).filter
        fun entry => entry.1 = name.toList).length := by
      rw [List.filter_append, List.length_append] at found ⊢
      rw [List.filter_cons_of_pos (by simp), List.length_cons]
      omega
    rw [field]
    split
    next nothing => simp [nothing] at more
    next single => simp [single] at more
    next => rfl
  next absent => exact field_inserted absent

/-- Another value for one of the fields of a struct. -/
theorem mapM_field_set {members members' : List (Text × RawValue)} {names : List String}
    (distinct : names.Nodup) {i : Nat} (here : names[i]? = some name)
    (others : ∀ n, n ≠ name → field n members' = field n members)
    (changed : field name members' = (field name members).map fun _ => some value) :
    (names.mapM fun n => field n members') =
      (names.mapM fun n => field n members).map (·.set i (some value)) := by
  induction names generalizing i with
  | nil => cases here
  | cons first names ih =>
      obtain ⟨fresh, distinct⟩ := List.nodup_cons.mp distinct
      rw [List.mapM_cons, List.mapM_cons]
      cases i with
      | zero =>
          cases here
          rw [changed, mapM_congr fun n mem => others n (ne_of_mem_of_not_mem mem fresh)]
          cases field name members with
          | none => rfl
          | some slot => cases names.mapM fun n => field n members <;> rfl
      | succ i =>
          have differs : first ≠ name := by
            rintro rfl
            exact fresh (List.mem_of_getElem? here)
          rw [others first differs, ih distinct here]
          cases field first members with
          | none => rfl
          | some slot => cases names.mapM fun n => field n members <;> rfl

/-- The same for reading the struct. -/
theorem readStruct_set {members members' : List (Text × RawValue)} {names : List String}
    {text text' : Text} (distinct : names.Nodup) {i : Nat} (here : names[i]? = some name)
    (before : readObject text = some members) (after : readObject text' = some members')
    (others : ∀ n, n ≠ name → field n members' = field n members)
    (changed : field name members' = (field name members).map fun _ => some value) :
    readStruct names text' = (readStruct names text).map (·.set i (some value)) := by
  simp only [readStruct, before, after]
  exact mapM_field_set distinct here others changed

/-- The values that are read for a struct have the places of its fields. -/
theorem slots_of_readStruct {members : List (Text × RawValue)} {names : List String}
    {text : Text} {slots : List (Option RawValue)} (object : readObject text = some members)
    (read : readStruct names text = some slots) :
    slots.length = names.length ∧
      ∀ {i : Nat}, names[i]? = some name → field name members = slots[i]? := by
  simp only [readStruct, object] at read
  obtain ⟨length, each⟩ := List.forall₂_iff_get.mp (mapM_eq_some.mp read)
  refine ⟨length.symm, fun {i} here => ?_⟩
  obtain ⟨bound, rfl⟩ := List.getElem?_eq_some_iff.mp here
  rw [List.getElem?_eq_getElem (length ▸ bound)]
  exact each i bound (length ▸ bound)

end

end Json

namespace Centrifugo

open Json

namespace Codec

/-! ## The requests -/

/-- How a struct is read: the names of its fields, and what is made of their values. -/
structure StructReader (α : Type) where
  names : List String
  fields : List (Option RawValue) → Option α

def StructReader.decode {α : Type} (reader : StructReader α) (value : RawValue) : Option α :=
  (readStruct reader.names value.text).bind reader.fields

/-- A field whose `null` is its default. -/
def nullAsDefault {α : Type} (default : α) (decode : RawValue → Option α)
    (field : Option RawValue) : Option α :=
  (decodeOption decode field).map (Option.getD · default)

def subscribeRequest : StructReader SubscribeRequest where
  names := ["channel", "token", "recover", "seq", "gen", "epoch", "offset"]
  fields
    | [channel, token, recover, seq, gen, epoch, offset] => do
        some {
          channel := ← decodeOr "" decodeText channel
          token := ← decodeOr "" decodeText token
          recover := ← nullAsDefault false RawValue.toBool? recover
          seq := ← nullAsDefault 0 decodeU32 seq
          gen := ← nullAsDefault 0 decodeU32 gen
          epoch := ← nullAsDefault "" decodeText epoch
          offset := ← nullAsDefault 0 (fun value => (decodeU64 value).map UInt64.ofNat) offset }
    | _ => none

/-- Of two entries for a channel the last one counts. -/
def decodeSubs (value : RawValue) : Option (Map String SubscribeRequest) := do
  let members ← readObject value.text
  let subs ← members.mapM fun member =>
    (subscribeRequest.decode member.2).map fun sub => (String.ofList member.1, sub)
  some (subs.foldl (fun (map : Map String SubscribeRequest) sub => map.insert sub.1 sub.2) ∅)

def connectRequest : StructReader ConnectRequest where
  names := ["token", "data", "name", "version", "subs"]
  fields
    | [token, data, name, version, subs] => do
        some {
          token := ← decodeOr "" decodeText token
          data := ← decodeRaw data
          name := ← decodeOr "" decodeText name
          version := ← decodeOr "" decodeText version
          subs := ← decodeOr ∅ decodeSubs subs }
    | _ => none

def publishRequest : StructReader PublishRequest where
  names := ["channel", "data"]
  fields
    | [channel, data] => do
        some { channel := ← decodeOr "" decodeText channel, data := ← decodeRaw data }
    | _ => none

def channelRequest : StructReader ChannelRequest where
  names := ["channel"]
  fields
    | [channel] => do some { channel := ← decodeOr "" decodeText channel }
    | _ => none

def unsubscribeRequest : StructReader UnsubscribeRequest := channelRequest
def presenceRequest : StructReader PresenceRequest := channelRequest
def presenceStatsRequest : StructReader PresenceStatsRequest := channelRequest
def historyRequest : StructReader HistoryRequest := channelRequest

def refreshRequest : StructReader RefreshRequest where
  names := ["token"]
  fields
    | [token] => do some { token := ← decodeOr "" decodeText token }
    | _ => none

def subRefreshRequest : StructReader SubRefreshRequest where
  names := ["channel", "token"]
  fields
    | [channel, token] => do
        some {
          channel := ← decodeOr "" decodeText channel
          token := ← decodeOr "" decodeText token }
    | _ => none

def rpcRequest : StructReader RpcRequest where
  names := ["method", "data"]
  fields
    | [method, data] => do
        some { method := ← decodeOr "" decodeText method, data := ← decodeRaw data }
    | _ => none

/-! ## `null` -/

theorem decodeText_null : decodeText .null = none := rfl

theorem nullAsDefault_none {α : Type} {default : α} {decode : RawValue → Option α} :
    nullAsDefault default decode none = some default := rfl

theorem nullAsDefault_null {α : Type} {default : α} {decode : RawValue → Option α} :
    nullAsDefault default decode (some .null) = some default := rfl

theorem decodeRaw_none : decodeRaw none = some none := rfl

theorem decodeRaw_null : decodeRaw (some .null) = some none := rfl

theorem decodeSubs_null : decodeSubs .null = none := rfl

namespace StructReader

variable {α : Type} {reader : StructReader α} {nullable : List String}

/-- The reader takes `null` for an absent field just where the field is one of `nullable`. -/
def Takes (reader : StructReader α) (nullable : List String) : Prop :=
  reader.names.Nodup ∧ ∀ (i : Nat) (f : String) (slots : List (Option RawValue)),
    reader.names[i]? = some f → slots.length = reader.names.length → slots[i]? = some none →
      reader.fields (slots.set i (some .null)) =
        if f ∈ nullable then reader.fields slots else none

/-- A reader of one field. -/
theorem takes_single {name : String} {fields : List (Option RawValue) → Option α}
    (replaced : fields [some .null] = if name ∈ nullable then fields [none] else none) :
    Takes ⟨[name], fields⟩ nullable := by
  refine ⟨List.nodup_singleton name, ?_⟩
  intro i f slots here length empty
  obtain ⟨slot, rfl⟩ := List.length_eq_one_iff.mp length
  obtain rfl : i = 0 := Nat.lt_one_iff.mp (List.getElem?_eq_some_iff.mp here).1
  cases here
  cases empty
  exact replaced

/-- A reader of two fields. -/
theorem takes_pair {first second : String} {fields : List (Option RawValue) → Option α}
    (distinct : first ≠ second)
    (left : ∀ slot, fields [some .null, slot] =
      if first ∈ nullable then fields [none, slot] else none)
    (right : ∀ slot, fields [slot, some .null] =
      if second ∈ nullable then fields [slot, none] else none) :
    Takes ⟨[first, second], fields⟩ nullable := by
  refine ⟨by simpa using distinct, ?_⟩
  intro i f slots here length empty
  obtain ⟨slot, slot', rfl⟩ := List.length_eq_two.mp length
  have bound : i < 2 := (List.getElem?_eq_some_iff.mp here).1
  interval_cases i
  · cases here
    cases empty
    exact left slot'
  · cases here
    cases empty
    exact right slot

theorem Takes.decode_inserted (takes : reader.Takes nullable)
    {front back : List (Text × RawValue)} {value value' : RawValue} {f : String}
    (known : f ∈ reader.names) (absent : f.toList ∉ (front ++ back).map Prod.fst)
    (before : readObject value.text = some (front ++ back))
    (after : readObject value'.text = some (front ++ (f.toList, .null) :: back)) :
    reader.decode value' = if f ∈ nullable then reader.decode value else none := by
  obtain ⟨i, here⟩ := List.mem_iff_getElem?.mp known
  have empty := field_of_notMem absent
  have read' := readStruct_set takes.1 here before after (fun n => field_inserted_ne)
    (by rw [field_inserted absent, empty, Option.map_some])
  rw [decode, decode, read']
  cases read : readStruct reader.names value.text with
  | none => simp
  | some slots =>
      obtain ⟨length, place⟩ := slots_of_readStruct before read
      exact takes.2 i f slots here length ((place here).symm.trans empty)

end StructReader

theorem subscribeRequest_takes :
    subscribeRequest.Takes ["recover", "seq", "gen", "epoch", "offset"] := by
  refine ⟨by decide, ?_⟩
  intro i f slots here length empty
  match slots, length with
  | [channel, token, recover, seq, gen, epoch, offset], _ =>
      have bound : i < 7 := (List.getElem?_eq_some_iff.mp here).1
      interval_cases i <;> cases here <;> cases empty <;>
        simp [subscribeRequest, decodeOr, decodeText_null, nullAsDefault_none,
          nullAsDefault_null]

theorem connectRequest_takes : connectRequest.Takes ["data"] := by
  refine ⟨by decide, ?_⟩
  intro i f slots here length empty
  match slots, length with
  | [token, data, name, version, subs], _ =>
      have bound : i < 5 := (List.getElem?_eq_some_iff.mp here).1
      interval_cases i <;> cases here <;> cases empty <;>
        simp [connectRequest, decodeOr, decodeText_null, decodeRaw_none, decodeRaw_null,
          decodeSubs_null]

theorem publishRequest_takes : publishRequest.Takes ["data"] := by
  refine StructReader.takes_pair (by decide) ?_ ?_
  · intro data
    simp [decodeOr, decodeText_null]
  · intro channel
    simp [decodeRaw_none, decodeRaw_null]

theorem channelRequest_takes : channelRequest.Takes [] := by
  refine StructReader.takes_single ?_
  simp [decodeOr, decodeText_null]

theorem refreshRequest_takes : refreshRequest.Takes [] := by
  refine StructReader.takes_single ?_
  simp [decodeOr, decodeText_null]

theorem subRefreshRequest_takes : subRefreshRequest.Takes [] := by
  refine StructReader.takes_pair (by decide) ?_ ?_
  · intro token
    simp [decodeOr, decodeText_null]
  · intro channel
    simp [decodeOr, decodeText_null]

theorem rpcRequest_takes : rpcRequest.Takes ["data"] := by
  refine StructReader.takes_pair (by decide) ?_ ?_
  · intro data
    simp [decodeOr, decodeText_null]
  · intro method
    simp [decodeRaw_none, decodeRaw_null]

/-- A request among those for the subscriptions of a connection. -/
theorem decodeSubs_replaced {nullable : List String} {f : String} {value value' : RawValue}
    {first last : List (Text × RawValue)} {channel : Text} {request request' : RawValue}
    (before : readObject value.text = some (first ++ (channel, request) :: last))
    (after : readObject value'.text = some (first ++ (channel, request') :: last))
    (sub : subscribeRequest.decode request' =
      if f ∈ nullable then subscribeRequest.decode request else none) :
    decodeSubs value' = if f ∈ nullable then decodeSubs value else none := by
  simp only [decodeSubs, before, after, Option.bind_eq_bind, Option.bind_some, List.mapM_append,
    List.mapM_cons, sub]
  split
  next => rfl
  next => simp

/-- The subscriptions among the fields of a connection. -/
theorem connectRequest_replaced {nullable : List String} {f : String}
    {value value' subs subs' : RawValue} {front back : List (Text × RawValue)}
    (before : readObject value.text = some (front ++ ("subs".toList, subs) :: back))
    (after : readObject value'.text = some (front ++ ("subs".toList, subs') :: back))
    (map : decodeSubs subs' = if f ∈ nullable then decodeSubs subs else none) :
    connectRequest.decode value' = if f ∈ nullable then connectRequest.decode value else none := by
  have here : connectRequest.names[4]? = some "subs" := rfl
  have read' := readStruct_set connectRequest_takes.1 here before after
    (fun n differs => by rw [field_inserted_ne differs, field_inserted_ne differs])
    (by rw [field_member, field_member]; split <;> rfl)
  rw [StructReader.decode, StructReader.decode, read']
  cases read : readStruct connectRequest.names value.text with
  | none => simp
  | some slots =>
      obtain ⟨length, place⟩ := slots_of_readStruct before read
      have there := (place here).symm
      rw [field_member] at there
      match slots, length with
      | [token, data, name, version, _], _ =>
          split at there
          next => cases there
          next =>
            cases there
            simp only [Option.map_some, Option.bind_some, List.set_cons_succ, List.set_cons_zero,
              connectRequest, decodeOr, map]
            by_cases allowed : f ∈ nullable <;> simp [allowed]

end Codec

/-! ## Request types -/

/-- The requests that have parameters. -/
inductive RequestType
  | connect
  | subscribe
  | unsubscribe
  | publish
  | presence
  | presenceStats
  | history
  | refresh
  | subRefresh
  | rpc
  deriving DecidableEq, Repr

namespace RequestType

def Request : RequestType → Type
  | connect => ConnectRequest
  | subscribe => SubscribeRequest
  | unsubscribe => UnsubscribeRequest
  | publish => PublishRequest
  | presence => PresenceRequest
  | presenceStats => PresenceStatsRequest
  | history => HistoryRequest
  | refresh => RefreshRequest
  | subRefresh => SubRefreshRequest
  | rpc => RpcRequest

def empty : (type : RequestType) → type.Request
  | connect => ({} : ConnectRequest)
  | subscribe => ({} : SubscribeRequest)
  | unsubscribe | presence | presenceStats | history => ({} : ChannelRequest)
  | publish => ({} : PublishRequest)
  | refresh => ({} : RefreshRequest)
  | subRefresh => ({} : SubRefreshRequest)
  | rpc => ({} : RpcRequest)

def reader : (type : RequestType) → Codec.StructReader type.Request
  | connect => Codec.connectRequest
  | subscribe => Codec.subscribeRequest
  | unsubscribe => Codec.unsubscribeRequest
  | publish => Codec.publishRequest
  | presence => Codec.presenceRequest
  | presenceStats => Codec.presenceStatsRequest
  | history => Codec.historyRequest
  | refresh => Codec.refreshRequest
  | subRefresh => Codec.subRefreshRequest
  | rpc => Codec.rpcRequest

/-- The parameters of a command over JSON. -/
def decodeParams (type : RequestType) : Option Raw → Option type.Request
  | none => some type.empty
  | some raw => raw.toJson.bind type.reader.decode

@[simp] theorem decodeParams_ofText (type : RequestType) (value : RawValue) :
    type.decodeParams (some (.ofText value.text)) = type.reader.decode value := by
  rw [decodeParams, Raw.toJson_ofText, Option.bind_some]

/-- The fields that may be `null`. -/
def nullable : RequestType → List String
  | connect | publish | rpc => ["data"]
  | subscribe => ["recover", "seq", "gen", "epoch", "offset"]
  | unsubscribe | presence | presenceStats | history | refresh | subRefresh => []

theorem reader_takes (type : RequestType) : type.reader.Takes type.nullable := by
  cases type with
  | connect => exact Codec.connectRequest_takes
  | subscribe => exact Codec.subscribeRequest_takes
  | publish => exact Codec.publishRequest_takes
  | unsubscribe | presence | presenceStats | history => exact Codec.channelRequest_takes
  | refresh => exact Codec.refreshRequest_takes
  | subRefresh => exact Codec.subRefreshRequest_takes
  | rpc => exact Codec.rpcRequest_takes

/-- Parameters that have no members are the default request. -/
theorem decode_nil (type : RequestType) {value : RawValue}
    (nothing : readObject value.text = some []) :
    type.reader.decode value = some type.empty := by
  cases type <;> simp [reader, Codec.StructReader.decode, readStruct, nothing] <;> rfl

/-- One more field that is `null`, in the parameters themselves or in one of the subscription
requests of a connection. The second type is that of the request with the field. -/
inductive NullAdded (f : String) : RequestType → RequestType → RawValue → RawValue → Prop
  | member {type : RequestType} {value value' : RawValue} {front back : List (Text × RawValue)}
      (known : f ∈ type.reader.names) (absent : f.toList ∉ (front ++ back).map Prod.fst)
      (before : readObject value.text = some (front ++ back))
      (after : readObject value'.text = some (front ++ (f.toList, .null) :: back)) :
      NullAdded f type type value value'
  | sub {value value' subs subs' request request' : RawValue} {channel : Text}
      {front back first last : List (Text × RawValue)}
      (before : readObject value.text = some (front ++ ("subs".toList, subs) :: back))
      (after : readObject value'.text = some (front ++ ("subs".toList, subs') :: back))
      (entries : readObject subs.text = some (first ++ (channel, request) :: last))
      (entries' : readObject subs'.text = some (first ++ (channel, request') :: last))
      (added : NullAdded f .subscribe .subscribe request request') :
      NullAdded f .connect .subscribe value value'

variable {f : String} {type inner : RequestType} {value value' : RawValue}

/-- An object that gets a `null` for a field that was absent is decoded as before, or not at all. -/
theorem NullAdded.decode (added : NullAdded f type inner value value') :
    type.reader.decode value' = if f ∈ inner.nullable then type.reader.decode value else none := by
  induction added with
  | @member type _ _ _ _ known absent before after =>
      exact type.reader_takes.decode_inserted known absent before after
  | sub before after entries entries' _ ih =>
      exact Codec.connectRequest_replaced before after
        (Codec.decodeSubs_replaced entries entries' ih)

/-- A command without parameters, or with `null` for them. -/
theorem params_of_decodeCommand {cmd : Command} {members : List (Text × RawValue)}
    (object : readObject value.text = some members)
    (nothing : field "params" members = some none ∨ field "params" members = some (some .null))
    (decoded : Codec.decodeCommand value = some cmd) : cmd.params = none := by
  obtain ⟨slots, read, made⟩ := Option.bind_eq_some_iff.mp decoded
  rw [readStruct, object, mapM_eq_some] at read
  obtain _ | ⟨-, _ | ⟨-, _ | ⟨found, ⟨⟩⟩⟩⟩ := read
  simp only [Option.bind_eq_bind, Option.bind_eq_some_iff] at made
  obtain ⟨id, -, method, -, params, hasParams, made⟩ := made
  cases made
  obtain absent | null := nothing
  · cases found.symm.trans absent
    exact (Option.some.inj hasParams).symm
  · cases found.symm.trans null
    exact (Option.some.inj hasParams).symm

/-- A request is not changed by one more `null` just if the field is one that may be `null`, or
the request cannot be decoded anyway; and without parameters it is the default one. -/
theorem decodeParams_null_iff (added : NullAdded f type inner value value') :
    (type.decodeParams (some (.ofText value'.text)) =
          type.decodeParams (some (.ofText value.text)) ↔
        f ∈ inner.nullable ∨ type.decodeParams (some (.ofText value.text)) = none) ∧
      (type.decodeParams (some (.ofText value'.text)) =
        if f ∈ inner.nullable then type.decodeParams (some (.ofText value.text)) else none) ∧
      ∀ type : RequestType,
        (∀ {value : RawValue} {cmd : Command} {members : List (Text × RawValue)},
          readObject value.text = some members →
          field "params" members = some none ∨ field "params" members = some (some .null) →
          Codec.decodeCommand value = some cmd → type.decodeParams cmd.params = some type.empty) ∧
        ∀ {value : RawValue}, readObject value.text = some [] →
          type.decodeParams (some (.ofText value.text)) = some type.empty := by
  simp only [decodeParams_ofText]
  refine ⟨?_, added.decode, fun type => ⟨?_, fun nothing => type.decode_nil nothing⟩⟩
  · rw [added.decode]
    split
    next allowed => simp [allowed]
    next refused => simp [refused, eq_comm]
  · intro value cmd members object nothing decoded
    rw [params_of_decodeCommand object nothing decoded]
    rfl

/-- Parameters of a SUBSCRIBE, without an epoch and with `null` for it. -/
def Sample.news : RawValue := .object [("channel", .string "news")]

def Sample.newsEpochNull : RawValue := .object [("channel", .string "news"), ("epoch", .null)]

theorem decodeParams_null_iff_epoch :
    subscribe.decodeParams (some (.ofText Sample.newsEpochNull.text)) =
      some ({ channel := "news" } : SubscribeRequest) := by
  have added : NullAdded "epoch" subscribe subscribe Sample.news Sample.newsEpochNull :=
    @NullAdded.member _ _ _ _ [("channel".toList, .string "news")] [] (by decide) (by decide)
      (readObject_object _) (readObject_object _)
  have decoded : subscribe.decodeParams (some (.ofText Sample.news.text)) =
      some ({ channel := "news" } : SubscribeRequest) := by
    rw [decodeParams_ofText]
    change Codec.subscribeRequest.decode Sample.news = _
    decide +kernel
  exact ((decodeParams_null_iff added).1.mpr (.inl (by decide))).trans decoded

/-- Without a token CONNECT is decoded, with `null` for it the connection is closed; RPC does the
same with its method, and CONNECT with the channel of one of its subscriptions. -/
theorem not_decodeParams_null :
    connect.decodeParams (some (.ofText (RawValue.object []).text)) =
        some ({} : ConnectRequest) ∧
      connect.decodeParams (some (.ofText (RawValue.object [("token", .null)]).text)) = none ∧
      rpc.decodeParams (some (.ofText (RawValue.object [("data", .number 1)]).text)) =
        some ({ data := some ⟨[49]⟩ } : RpcRequest) ∧
      rpc.decodeParams (some (.ofText
        (RawValue.object [("data", .number 1), ("method", .null)]).text)) = none ∧
      connect.decodeParams (some (.ofText (RawValue.object
        [("subs", .object [("news", .object [("channel", .null)])])]).text)) = none := by
  simp only [decodeParams_ofText]
  refine ⟨connect.decode_nil rfl, ?_, ?_, ?_, ?_⟩
  · change Codec.connectRequest.decode _ = none
    decide +kernel
  · change Codec.rpcRequest.decode _ = _
    decide +kernel
  · change Codec.rpcRequest.decode _ = none
    decide +kernel
  · change Codec.connectRequest.decode _ = none
    decide +kernel

end RequestType

end Centrifugo
