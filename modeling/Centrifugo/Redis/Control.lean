import Centrifugo.Core.Control
import Centrifugo.Protocol.Wire

/-!
# Control commands on the wire

A control command travels as a `Command` message with its origin, its method and the encoded
parameters of that method. A node skips the commands that carry its own uid: it has applied
them before it published them.
-/

namespace Centrifugo

open Json Proto

namespace Controlpb

structure Command where
  uid : String := ""
  method : UInt32 := 0
  params : Bytes := []
  deriving DecidableEq

structure Node where
  uid : String := ""
  name : String := ""
  version : String := ""
  numClients : UInt32 := 0
  numUsers : UInt32 := 0
  numChannels : UInt32 := 0
  uptime : UInt32 := 0
  deriving DecidableEq

structure Unsubscribe where
  channel : String := ""
  user : String := ""
  deriving DecidableEq

structure Disconnect where
  user : String := ""
  whitelist : List String := []
  code : UInt32 := 0
  reason : String := ""
  reconnect : Bool := false
  deriving DecidableEq

inductive MethodType
  | node
  | unsubscribe
  | disconnect
  deriving DecidableEq

namespace MethodType

def toUInt32 : MethodType → UInt32
  | node => 0
  | unsubscribe => 1
  | disconnect => 2

def tryFrom (method : UInt32) : Option MethodType :=
  if method = 0 then some node
  else if method = 1 then some unsubscribe
  else if method = 2 then some disconnect
  else none

@[simp] theorem tryFrom_toUInt32 (method : MethodType) :
    tryFrom method.toUInt32 = some method := by
  cases method <;> rfl

end MethodType

instance : Message Command where
  empty := {}
  fields c := Field.text 1 c.uid ++ Field.uint 2 c.method.toNat ++ Field.blob 3 c.params
  merge c field := match field.tag with
    | 1 => do
        let uid ← field.value.toText?
        some { c with uid := uid }
    | 2 => do
        let method ← field.value.toUInt32?
        some { c with method := method }
    | 3 => do
        let params ← field.value.toBlob?
        some { c with params := params }
    | _ => some c

instance : Message Node where
  empty := {}
  fields n := Field.text 1 n.uid ++ Field.text 2 n.name ++ Field.text 3 n.version ++
    Field.uint 4 n.numClients.toNat ++ Field.uint 5 n.numUsers.toNat ++
    Field.uint 6 n.numChannels.toNat ++ Field.uint 7 n.uptime.toNat
  merge n field := match field.tag with
    | 1 => do
        let uid ← field.value.toText?
        some { n with uid := uid }
    | 2 => do
        let name ← field.value.toText?
        some { n with name := name }
    | 3 => do
        let version ← field.value.toText?
        some { n with version := version }
    | 4 => do
        let numClients ← field.value.toUInt32?
        some { n with numClients := numClients }
    | 5 => do
        let numUsers ← field.value.toUInt32?
        some { n with numUsers := numUsers }
    | 6 => do
        let numChannels ← field.value.toUInt32?
        some { n with numChannels := numChannels }
    | 7 => do
        let uptime ← field.value.toUInt32?
        some { n with uptime := uptime }
    | _ => some n

instance : Message Unsubscribe where
  empty := {}
  fields u := Field.text 1 u.channel ++ Field.text 2 u.user
  merge u field := match field.tag with
    | 1 => do
        let channel ← field.value.toText?
        some { u with channel := channel }
    | 2 => do
        let user ← field.value.toText?
        some { u with user := user }
    | _ => some u

instance : Message Disconnect where
  empty := {}
  fields d := Field.text 1 d.user ++ Field.texts 2 d.whitelist ++ Field.uint 3 d.code.toNat ++
    Field.text 4 d.reason ++ Field.flag 5 d.reconnect
  merge d field := match field.tag with
    | 1 => do
        let user ← field.value.toText?
        some { d with user := user }
    | 2 => do
        let client ← field.value.toText?
        some { d with whitelist := d.whitelist ++ [client] }
    | 3 => do
        let code ← field.value.toUInt32?
        some { d with code := code }
    | 4 => do
        let reason ← field.value.toText?
        some { d with reason := reason }
    | 5 => do
        let reconnect ← field.value.toBool?
        some { d with reconnect := reconnect }
    | _ => some d

/-! ## The messages are lawful -/

instance : Lawful Command where
  typed c := by
    simp only [Message.fields, List.mem_append, or_imp, forall_and]
    exact ⟨⟨Field.typed_text (by decide) (by decide),
      Field.typed_uint (by decide) (by decide) (Pb.lt_of_u32 _)⟩,
      Field.typed_blob (by decide) (by decide)⟩
  merged c _ := by
    obtain ⟨uid, method, params⟩ := c
    have uid' : (Field.text 1 uid).foldlM Message.merge ({} : Command) = some { uid } :=
      foldlM_optional (by rintro rfl; rfl) (by simp [Message.merge])
    have method' : (Field.uint 2 method.toNat).foldlM Message.merge ({ uid } : Command) =
        some { uid, method } :=
      foldlM_optional (by intro zero; rw [Pb.zero_of_u32 zero]) (by simp [Message.merge])
    have params' : (Field.blob 3 params).foldlM Message.merge ({ uid, method } : Command) =
        some { uid, method, params } :=
      foldlM_optional (by rintro rfl; rfl) (by simp [Message.merge, Value.toBlob?])
    exact foldlM_append_of (foldlM_append_of uid' method') params'

instance : Lawful Node where
  typed n := by
    simp only [Message.fields, List.mem_append, or_imp, forall_and]
    have number : ∀ tag, 0 < tag → tag < 2 ^ 29 → ∀ n : UInt32,
        ∀ field ∈ Field.uint tag n.toNat, field.Typed :=
      fun _ positive small n => Field.typed_uint positive small (Pb.lt_of_u32 n)
    exact ⟨⟨⟨⟨⟨⟨Field.typed_text (by decide) (by decide),
      Field.typed_text (by decide) (by decide)⟩, Field.typed_text (by decide) (by decide)⟩,
      number 4 (by decide) (by decide) _⟩, number 5 (by decide) (by decide) _⟩,
      number 6 (by decide) (by decide) _⟩, number 7 (by decide) (by decide) _⟩
  merged n _ := by
    obtain ⟨uid, name, version, numClients, numUsers, numChannels, uptime⟩ := n
    have uid' : (Field.text 1 uid).foldlM Message.merge ({} : Node) = some { uid } :=
      foldlM_optional (by rintro rfl; rfl) (by simp [Message.merge])
    have name' : (Field.text 2 name).foldlM Message.merge ({ uid } : Node) =
        some { uid, name } :=
      foldlM_optional (by rintro rfl; rfl) (by simp [Message.merge])
    have version' : (Field.text 3 version).foldlM Message.merge ({ uid, name } : Node) =
        some { uid, name, version } :=
      foldlM_optional (by rintro rfl; rfl) (by simp [Message.merge])
    have numClients' : (Field.uint 4 numClients.toNat).foldlM Message.merge
        ({ uid, name, version } : Node) = some { uid, name, version, numClients } :=
      foldlM_optional (by intro zero; rw [Pb.zero_of_u32 zero]) (by simp [Message.merge])
    have numUsers' : (Field.uint 5 numUsers.toNat).foldlM Message.merge
        ({ uid, name, version, numClients } : Node) =
          some { uid, name, version, numClients, numUsers } :=
      foldlM_optional (by intro zero; rw [Pb.zero_of_u32 zero]) (by simp [Message.merge])
    have numChannels' : (Field.uint 6 numChannels.toNat).foldlM Message.merge
        ({ uid, name, version, numClients, numUsers } : Node) =
          some { uid, name, version, numClients, numUsers, numChannels } :=
      foldlM_optional (by intro zero; rw [Pb.zero_of_u32 zero]) (by simp [Message.merge])
    have uptime' : (Field.uint 7 uptime.toNat).foldlM Message.merge
        ({ uid, name, version, numClients, numUsers, numChannels } : Node) =
          some { uid, name, version, numClients, numUsers, numChannels, uptime } :=
      foldlM_optional (by intro zero; rw [Pb.zero_of_u32 zero]) (by simp [Message.merge])
    exact foldlM_append_of (foldlM_append_of (foldlM_append_of (foldlM_append_of
      (foldlM_append_of (foldlM_append_of uid' name') version') numClients') numUsers')
      numChannels') uptime'

instance : Lawful Unsubscribe where
  typed u := by
    simp only [Message.fields, List.mem_append, or_imp, forall_and]
    exact ⟨Field.typed_text (by decide) (by decide), Field.typed_text (by decide) (by decide)⟩
  merged u _ := by
    obtain ⟨channel, user⟩ := u
    have channel' : (Field.text 1 channel).foldlM Message.merge ({} : Unsubscribe) =
        some { channel } :=
      foldlM_optional (by rintro rfl; rfl) (by simp [Message.merge])
    have user' : (Field.text 2 user).foldlM Message.merge ({ channel } : Unsubscribe) =
        some { channel, user } :=
      foldlM_optional (by rintro rfl; rfl) (by simp [Message.merge])
    exact foldlM_append_of channel' user'

/-- Each text of the whitelist is added to those before. -/
private theorem foldlM_whitelist (d : Disconnect) (clients : List String) :
    (Field.texts 2 clients).foldlM Message.merge d =
      some { d with whitelist := d.whitelist ++ clients } := by
  induction clients generalizing d with
  | nil => simp [Field.texts]
  | cons client clients ih =>
      have first : Message.merge d ⟨2, .bytes (Field.utf8 client)⟩ =
          some { d with whitelist := d.whitelist ++ [client] } := by simp [Message.merge]
      have rest := ih { d with whitelist := d.whitelist ++ [client] }
      simp only [Field.texts, List.map_cons, List.foldlM_cons, first, Option.bind_eq_bind,
        Option.bind_some] at rest ⊢
      simpa using rest

instance : Lawful Disconnect where
  typed d := by
    simp only [Message.fields, List.mem_append, or_imp, forall_and]
    exact ⟨⟨⟨⟨Field.typed_text (by decide) (by decide),
      Field.typed_texts (by decide) (by decide)⟩,
      Field.typed_uint (by decide) (by decide) (Pb.lt_of_u32 _)⟩,
      Field.typed_text (by decide) (by decide)⟩, Field.typed_flag (by decide) (by decide)⟩
  merged d _ := by
    obtain ⟨user, whitelist, code, reason, reconnect⟩ := d
    have user' : (Field.text 1 user).foldlM Message.merge ({} : Disconnect) = some { user } :=
      foldlM_optional (by rintro rfl; rfl) (by simp [Message.merge])
    have whitelist' : (Field.texts 2 whitelist).foldlM Message.merge ({ user } : Disconnect) =
        some { user, whitelist } := foldlM_whitelist { user } whitelist
    have code' : (Field.uint 3 code.toNat).foldlM Message.merge
        ({ user, whitelist } : Disconnect) = some { user, whitelist, code } :=
      foldlM_optional (by intro zero; rw [Pb.zero_of_u32 zero]) (by simp [Message.merge])
    have reason' : (Field.text 4 reason).foldlM Message.merge
        ({ user, whitelist, code } : Disconnect) = some { user, whitelist, code, reason } :=
      foldlM_optional (by rintro rfl; rfl) (by simp [Message.merge])
    have reconnect' : (Field.flag 5 reconnect).foldlM Message.merge
        ({ user, whitelist, code, reason } : Disconnect) =
          some { user, whitelist, code, reason, reconnect } :=
      foldlM_optional (by rintro rfl; rfl) (by
        intro set
        have true : reconnect = true := by simpa using set
        subst true
        simp [Message.merge, Value.toBool?])
    exact foldlM_append_of (foldlM_append_of (foldlM_append_of (foldlM_append_of user' whitelist')
      code') reason') reconnect'

end Controlpb

/-! ## Commands -/

namespace ControlMessage

def method : ControlMessage → Controlpb.MethodType
  | unsubscribe .. => .unsubscribe
  | disconnect .. => .disconnect
  | node _ => .node

def params : ControlMessage → Bytes
  | unsubscribe user channel => encode ({ channel, user } : Controlpb.Unsubscribe)
  | disconnect user code reason reconnect whitelist =>
      encode ({ user, whitelist, code, reason, reconnect } : Controlpb.Disconnect)
  | node info =>
      encode ({
        uid := info.uid
        name := info.name
        version := info.version
        numClients := info.numClients
        numUsers := info.numUsers
        numChannels := info.numChannels
        uptime := info.uptime } : Controlpb.Node)

/-- The metrics of a node are not sent. -/
def withoutMetrics : ControlMessage → ControlMessage
  | node info => node { info with metrics := none }
  | message => message

end ControlMessage

def encodeControl (nodeUid : String) (message : ControlMessage) : Bytes :=
  encode ({ uid := nodeUid, method := message.method.toUInt32, params := message.params } :
    Controlpb.Command)

/-- The command of another node. `none` for an own one and for one that cannot be decoded. -/
def decodeControl (bytes : Bytes) (selfUid : String) : Option ControlMessage := do
  let cmd : Controlpb.Command ← decode bytes
  if cmd.uid = selfUid then none
  else
    match ← Controlpb.MethodType.tryFrom cmd.method with
    | .unsubscribe => do
        let u : Controlpb.Unsubscribe ← decode cmd.params
        some (.unsubscribe u.user u.channel)
    | .disconnect => do
        let d : Controlpb.Disconnect ← decode cmd.params
        some (.disconnect d.user d.code d.reason d.reconnect d.whitelist)
    | .node => do
        let n : Controlpb.Node ← decode cmd.params
        some (.node {
          uid := n.uid
          name := n.name
          version := n.version
          numClients := n.numClients
          numUsers := n.numUsers
          numChannels := n.numChannels
          uptime := n.uptime })

/-- The parameters are part of the command, and not longer. -/
theorem length_params_le (nodeUid : String) (message : ControlMessage) :
    message.params.length ≤ (encodeControl nodeUid message).length := by
  by_cases empty : message.params = []
  · simp [empty]
  · have part : (⟨3, .bytes message.params⟩ : Field) ∈ Message.fields
        ({ uid := nodeUid, method := message.method.toUInt32, params := message.params } :
          Controlpb.Command) := by
      simp [Message.fields, Field.blob, empty]
    exact length_bytes_le part

/-- A command of another node is decoded as it was. -/
theorem decodeControl_encodeControl {nodeUid selfUid : String} {message : ControlMessage}
    (short : (encodeControl nodeUid message).length < 2 ^ 64) :
    decodeControl (encodeControl nodeUid message) selfUid =
      if nodeUid = selfUid then none else some message.withoutMetrics := by
  have inner := Nat.lt_of_le_of_lt (length_params_le nodeUid message) short
  have command := decode_encode short
  rw [decodeControl, encodeControl, command]
  simp only [Option.bind_eq_bind, Option.bind_some, Controlpb.MethodType.tryFrom_toUInt32]
  split
  · rfl
  cases message with
  | unsubscribe user channel =>
      have params := decode_encode inner
      simp only [ControlMessage.method, ControlMessage.params, params, Option.bind_some,
        ControlMessage.withoutMetrics]
  | disconnect user code reason reconnect whitelist =>
      have params := decode_encode inner
      simp only [ControlMessage.method, ControlMessage.params, params, Option.bind_some,
        ControlMessage.withoutMetrics]
  | node info =>
      have params := decode_encode inner
      simp only [ControlMessage.method, ControlMessage.params, params, Option.bind_some,
        ControlMessage.withoutMetrics]

end Centrifugo
