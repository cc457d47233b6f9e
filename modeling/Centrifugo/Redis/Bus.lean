import Centrifugo.Data.Run
import Centrifugo.Redis.Engine
import Mathlib.Data.List.Perm.Basic
import Mathlib.Logic.Function.Basic

/-!
# Commands on the bus

The nodes of a cluster share one control channel. A node applies a command of its own before
it publishes it, and skips it when the bus brings it back. So a command is applied at most
once on every node, and once when nothing of it is on the way any more.
-/

namespace Centrifugo

open Json Proto

/-- The calls that affect a user on every node. -/
inductive UserCall
  /-- An empty channel stands for all channels. -/
  | unsubscribeUser (user channel : String)
  | disconnectUser (user : String) (code : UInt32) (reason : String)
  deriving DecidableEq

def UserCall.message : UserCall → ControlMessage
  | unsubscribeUser user channel => .unsubscribe user channel
  | disconnectUser user code reason => .disconnect user code reason false []

namespace ControlMessage

/-- A ping is no command. -/
def isCommand : ControlMessage → Bool
  | node _ => false
  | _ => true

@[simp] theorem isCommand_message (call : UserCall) : call.message.isCommand = true := by
  cases call <;> rfl

end ControlMessage

/-- A node as the bus sees it. -/
structure Member where
  hub : Hub
  /-- The nodes that it knows from their pings. -/
  registry : Map String NodeInfoData := ∅
  /-- The connections that commands have addressed. -/
  told : List (ClientHandle × Signal) := []

namespace Member

/-- Signal every connection that a command addresses, or note the node of a ping. -/
def applyControl (m : Member) (message : ControlMessage) : Member :=
  { m with
    registry := match message with
      | .node info => m.registry.insert info.uid info
      | _ => m.registry
    told := m.told ++ message.targets m.hub }

/-- A message of the control channel. -/
def receive (uid keyPrefix : String) (m : Member) (payload : Bytes) : Member :=
  match dispatchMessage uid keyPrefix (keyPrefix ++ ".control") payload with
  | some (.control message) => m.applyControl message
  | _ => m

end Member

/-- A message that a node has encoded. -/
structure Parcel (ι : Type*) where
  sender : ι
  message : ControlMessage

/-- The nodes, and what is on the way between them. -/
structure Bus (ι : Type*) where
  members : ι → Member
  /-- Encoded, and not yet published. -/
  outgoing : List (Parcel ι) := []
  /-- Published, and not yet delivered to a node. -/
  pending : ι → List (Parcel ι) := fun _ => []
  /-- The commands of all calls so far. -/
  issued : List ControlMessage := []
  /-- The commands that have come to a node, its own as it issued them, each with the connections
  that the node had then. -/
  due : ι → List (ControlMessage × Hub) := fun _ => []

inductive BusAction (ι : Type*)
  | connections (i : ι) (hub : Hub)
  | issue (i : ι) (call : UserCall)
  | ping (i : ι) (info : NodeInfoData)
  | publish (parcel : Parcel ι)
  | deliver (i : ι) (parcel : Parcel ι)

variable {ι : Type*}

namespace Parcel

def payload (uid : ι → String) (parcel : Parcel ι) : Bytes :=
  encodeControl (uid parcel.sender) parcel.message

/-- The command that a node is to follow, which a ping and an own message are not. -/
def commandFor [DecidableEq ι] (i : ι) (parcel : Parcel ι) : Option ControlMessage :=
  if parcel.sender ≠ i ∧ parcel.message.isCommand then some parcel.message else none

end Parcel

/-- Every payload that is published is delivered to every node once, in any order. A payload
fits into memory. -/
inductive Bus.Step [DecidableEq ι] (uid : ι → String) (keyPrefix : String) :
    Bus ι → BusAction ι → Bus ι → Prop
  /-- The connections of a node come and go. -/
  | connections (s : Bus ι) (i : ι) (hub : Hub) :
      Step uid keyPrefix s (.connections i hub)
        { s with members := Function.update s.members i { s.members i with hub } }
  /-- A call is applied first and then encoded. -/
  | issue (s : Bus ι) (i : ι) (call : UserCall)
      (short : (Parcel.payload uid ⟨i, call.message⟩).length < 2 ^ 64) :
      Step uid keyPrefix s (.issue i call)
        { s with
          members := Function.update s.members i ((s.members i).applyControl call.message)
          outgoing := s.outgoing ++ [⟨i, call.message⟩]
          issued := s.issued ++ [call.message]
          due := Function.update s.due i (s.due i ++ [(call.message, (s.members i).hub)]) }
  | ping (s : Bus ι) (i : ι) (info : NodeInfoData)
      (short : (Parcel.payload uid ⟨i, .node info⟩).length < 2 ^ 64) :
      Step uid keyPrefix s (.ping i info) { s with outgoing := s.outgoing ++ [⟨i, .node info⟩] }
  | publish (s : Bus ι) (front rest : List (Parcel ι)) (parcel : Parcel ι)
      (waits : s.outgoing = front ++ parcel :: rest) :
      Step uid keyPrefix s (.publish parcel)
        { s with
          outgoing := front ++ rest
          pending := fun i => s.pending i ++ [parcel] }
  | deliver (s : Bus ι) (i : ι) (front rest : List (Parcel ι)) (parcel : Parcel ι)
      (waits : s.pending i = front ++ parcel :: rest) :
      Step uid keyPrefix s (.deliver i parcel)
        { s with
          members := Function.update s.members i
            (Member.receive (uid i) keyPrefix (s.members i) (parcel.payload uid))
          pending := Function.update s.pending i (front ++ rest)
          due := Function.update s.due i (s.due i ++
            (parcel.commandFor i).toList.map fun message => (message, (s.members i).hub)) }

/-- No call yet, and nothing on the way. -/
def Bus.Fresh (s : Bus ι) : Prop :=
  s.outgoing = [] ∧ s.issued = [] ∧
    ∀ i, (s.members i).told = [] ∧ s.pending i = [] ∧ s.due i = []

namespace Member

theorem told_applyControl (m : Member) (message : ControlMessage) :
    (m.applyControl message).told = m.told ++ message.targets m.hub := rfl

/-- A node applies what the bus brings it unless it is its own. -/
theorem receive_eq (uid keyPrefix : String) (m : Member) (payload : Bytes) :
    receive uid keyPrefix m payload =
      match decodeControl payload uid with
      | some message => m.applyControl message
      | none => m := by
  rw [receive, dispatchMessage, if_pos rfl]
  cases decodeControl payload uid <;> rfl

/-- What the bus brings signals the connections of the command that a node is to follow. -/
theorem told_receive [DecidableEq ι] {uid : ι → String} (distinct : Function.Injective uid)
    (keyPrefix : String) (m : Member) (i : ι) {parcel : Parcel ι}
    (short : (parcel.payload uid).length < 2 ^ 64) :
    (receive (uid i) keyPrefix m (parcel.payload uid)).told =
      m.told ++ (parcel.commandFor i).toList.flatMap (ControlMessage.targets m.hub) := by
  obtain ⟨sender, message⟩ := parcel
  have decoded := @decodeControl_encodeControl (uid sender) (uid i) message short
  rw [receive_eq, Parcel.payload, decoded]
  by_cases own : sender = i
  · simp [Parcel.commandFor, own]
  · rw [if_neg fun same => own (distinct same)]
    cases message <;>
      simp [Parcel.commandFor, own, told_applyControl, ControlMessage.withoutMetrics,
        ControlMessage.isCommand, ControlMessage.targets]

end Member

namespace Bus

/-- The commands that some parcels hold for a node. -/
def heldFor [DecidableEq ι] (i : ι) (parcels : List (Parcel ι)) : List ControlMessage :=
  parcels.filterMap (Parcel.commandFor i)

theorem heldFor_append [DecidableEq ι] (i : ι) (parcels more : List (Parcel ι)) :
    heldFor i (parcels ++ more) = heldFor i parcels ++ heldFor i more := List.filterMap_append

theorem heldFor_perm [DecidableEq ι] {parcels parcels' : List (Parcel ι)} (i : ι)
    (same : parcels.Perm parcels') : (heldFor i parcels).Perm (heldFor i parcels') :=
  same.filterMap _

theorem heldFor_singleton [DecidableEq ι] (i : ι) (parcel : Parcel ι) :
    heldFor i [parcel] = (parcel.commandFor i).toList := by
  cases found : parcel.commandFor i <;> simp [heldFor, found]

/-- What a node has been due and what is on the way to it make up the commands issued, and its
connections were signalled for what it has been due. -/
structure Accounted [DecidableEq ι] (uid : ι → String) (s : Bus ι) : Prop where
  told : ∀ i, (s.members i).told = (s.due i).flatMap fun entry => entry.1.targets entry.2
  due : ∀ i, ((s.due i).map Prod.fst ++ heldFor i (s.pending i ++ s.outgoing)).Perm s.issued
  short : ∀ i, ∀ parcel ∈ s.pending i ++ s.outgoing, (parcel.payload uid).length < 2 ^ 64

variable [DecidableEq ι] {uid : ι → String} {keyPrefix : String} {s s' : Bus ι}
variable {action : BusAction ι}

theorem Accounted.start (fresh : s.Fresh) : Accounted uid s := by
  obtain ⟨outgoing, issued, empty⟩ := fresh
  refine ⟨fun i => ?_, fun i => ?_, fun i => ?_⟩ <;> obtain ⟨told, pending, due⟩ := empty i
  · simp [told, due]
  · simp [pending, due, outgoing, issued, heldFor]
  · simp [pending, outgoing]

/-- A parcel that a node puts on the way. -/
theorem Accounted.short_send (h : Accounted uid s) {parcel : Parcel ι}
    (short : (parcel.payload uid).length < 2 ^ 64) (i : ι) :
    ∀ other ∈ s.pending i ++ (s.outgoing ++ [parcel]), (other.payload uid).length < 2 ^ 64 := by
  intro other mem
  rw [← List.append_assoc] at mem
  rcases List.mem_append.mp mem with before | new
  · exact h.short i other before
  · rw [List.mem_singleton.mp new]
    exact short

theorem Accounted.issue (h : Accounted uid s) (i : ι) {call : UserCall}
    (short : (Parcel.payload uid ⟨i, call.message⟩).length < 2 ^ 64) :
    Accounted uid { s with
      members := Function.update s.members i ((s.members i).applyControl call.message)
      outgoing := s.outgoing ++ [⟨i, call.message⟩]
      issued := s.issued ++ [call.message]
      due := Function.update s.due i (s.due i ++ [(call.message, (s.members i).hub)]) } := by
  refine ⟨fun j => ?_, fun j => ?_, h.short_send short⟩
  · by_cases same : j = i
    · subst same
      simp [Member.told_applyControl, h.told j]
    · simpa only [Function.update_of_ne same] using h.told j
  · have before := h.due j
    simp only [← List.append_assoc (s.pending j), heldFor_append j _ [_], heldFor_singleton]
    by_cases same : j = i
    · subst same
      -- the node skips its own command, which it has applied already
      have skipped : (Parcel.mk j call.message).commandFor j = none := by
        simp [Parcel.commandFor]
      simp only [Function.update_self, List.map_append, List.map_singleton, skipped,
        Option.toList_none, List.append_nil]
      calc (s.due j).map Prod.fst ++ [call.message] ++ heldFor j (s.pending j ++ s.outgoing)
        _ |>.Perm ((s.due j).map Prod.fst ++ heldFor j (s.pending j ++ s.outgoing) ++
              [call.message]) := by
            rw [List.append_assoc, List.append_assoc]
            exact List.perm_append_comm.append_left _
        _ |>.Perm (s.issued ++ [call.message]) := before.append_right _
    · have held : (Parcel.mk i call.message).commandFor j = some call.message := by
        simp [Parcel.commandFor, Ne.symm same]
      simp only [Function.update_of_ne same, held, Option.toList_some, ← List.append_assoc]
      exact before.append_right _

theorem Accounted.deliver (h : Accounted uid s) (distinct : Function.Injective uid) (i : ι)
    {front rest : List (Parcel ι)} {parcel : Parcel ι}
    (waits : s.pending i = front ++ parcel :: rest) :
    Accounted uid { s with
      members := Function.update s.members i
        (Member.receive (uid i) keyPrefix (s.members i) (parcel.payload uid))
      pending := Function.update s.pending i (front ++ rest)
      due := Function.update s.due i (s.due i ++
        (parcel.commandFor i).toList.map fun message => (message, (s.members i).hub)) } := by
  have short := h.short i
  rw [waits] at short
  refine ⟨fun j => ?_, fun j => ?_, fun j => ?_⟩ <;> by_cases same : j = i
  · subst same
    have told := Member.told_receive distinct keyPrefix (s.members j) j (short parcel (by simp))
    simp [told, h.told j, List.flatMap_map]
  · simpa only [Function.update_of_ne same] using h.told j
  · subst same
    have before := h.due j
    rw [waits] at before
    simp only [Function.update_self, List.map_append, List.map_map]
    refine List.Perm.trans ?_ before
    have moved : (heldFor j (parcel :: (front ++ rest ++ s.outgoing))).Perm
        (heldFor j (front ++ parcel :: rest ++ s.outgoing)) :=
      heldFor_perm j (by simpa using List.perm_middle.symm)
    rw [← List.singleton_append, heldFor_append, heldFor_singleton] at moved
    rw [List.append_assoc]
    simpa [Function.comp_def] using moved.append_left ((s.due j).map Prod.fst)
  · simpa only [Function.update_of_ne same] using h.due j
  · subst same
    intro other mem
    refine short other ?_
    simp only [Function.update_self, List.mem_append, List.mem_cons] at mem ⊢
    tauto
  · simpa only [Function.update_of_ne same] using h.short j

theorem Accounted.step (h : Accounted uid s) (distinct : Function.Injective uid)
    (move : Step uid keyPrefix s action s') : Accounted uid s' := by
  cases move with
  | connections i hub =>
      refine ⟨fun j => ?_, h.due, h.short⟩
      by_cases same : j = i
      · subst same
        simpa using h.told j
      · simpa only [Function.update_of_ne same] using h.told j
  | issue i call short => exact h.issue i short
  | ping i info short =>
      refine ⟨h.told, fun j => ?_, h.short_send short⟩
      have none : (Parcel.mk i (.node info)).commandFor j = none := by
        simp [Parcel.commandFor, ControlMessage.isCommand]
      simpa only [← List.append_assoc, heldFor_append j _ [_], heldFor_singleton, none,
        Option.toList_none, List.append_nil] using h.due j
  | publish front rest parcel waits =>
      have due := h.due
      have short := h.short
      rw [waits] at due short
      refine ⟨h.told, fun j => ?_, fun j other mem => short j other ?_⟩
      · refine (List.Perm.append_left _ (heldFor_perm j ?_)).trans (due j)
        simpa using List.perm_middle.symm.append_left (s.pending j)
      · simp only [List.mem_append, List.mem_cons, List.not_mem_nil, or_false] at mem ⊢
        tauto
  | deliver i front rest parcel waits => exact h.deliver distinct i waits

/-- The connections of a node are signalled for each command as the node gets it, which it does
at most once, and exactly once when nothing is on the way to it. What a node decodes is what
another node has encoded. -/
theorem commands_applied (distinct : Function.Injective uid)
    (run : Reachable Fresh (Step uid keyPrefix) s) :
    (∀ i, (s.members i).told = ((s.due i).flatMap fun entry => entry.1.targets entry.2) ∧
      ((s.due i).map Prod.fst).Subperm s.issued ∧
      (s.outgoing = [] → s.pending i = [] → ((s.due i).map Prod.fst).Perm s.issued)) ∧
    ∀ nodeUid selfUid message, (encodeControl nodeUid message).length < 2 ^ 64 →
      decodeControl (encodeControl nodeUid message) selfUid =
        if nodeUid = selfUid then none else some message.withoutMetrics := by
  have accounted : Accounted uid s :=
    run.invariant (Accounted uid) (fun _ fresh => .start fresh)
      fun _ _ _ here move => here.step distinct move
  refine ⟨fun i => ⟨accounted.told i, ?_, ?_⟩, fun _ _ _ short => decodeControl_encodeControl short⟩
  · exact (List.sublist_append_left _ _).subperm.trans (accounted.due i).subperm
  · intro outgoing pending
    have all := accounted.due i
    rwa [outgoing, pending, List.append_nil, heldFor, List.filterMap_nil, List.append_nil] at all

end Bus

namespace Sample

def uids : Bool → String
  | false => "first"
  | true => "second"

def aliceHandle : ClientHandle := ⟨"a", "alice", .json, 0, some 0⟩

def bobHandle : ClientHandle := ⟨"b", "bob", .json, 1, some 1⟩

def bobHub : Hub := (Hub.new fun _ => ⟨0, by decide⟩).add bobHandle

/-- Only the first node has a connection of the other user. -/
def quietBus : Bus Bool where
  members
    | false => { hub := bobHub.add aliceHandle }
    | true => { hub := bobHub }

def kick : UserCall := .disconnectUser "alice" 3012 "force disconnect"

def cutOff : UserCall := .unsubscribeUser "bob" "news"

end Sample

open Sample in
/-- Each node issues a command. A connection that the second node gets meanwhile is signalled. -/
theorem Bus.commands_applied_crossing : ∃ s : Bus Bool,
    Reachable Bus.Fresh (Bus.Step uids "app") s ∧
      (s.members false).told =
        [(aliceHandle, .disconnect ⟨3012, "force disconnect", false⟩),
          (bobHandle, .unsubscribe "news")] ∧
      (s.members true).told =
        [(bobHandle, .unsubscribe "news"),
          (aliceHandle, .disconnect ⟨3012, "force disconnect", false⟩)] ∧
      ∀ i, ((s.due i).map Prod.fst).Perm [kick.message, cutOff.message] := by
  let first : Parcel Bool := ⟨false, kick.message⟩
  let second : Parcel Bool := ⟨true, cutOff.message⟩
  have fresh : quietBus.Fresh := by
    refine ⟨rfl, rfl, fun i => ?_⟩
    cases i <;> exact ⟨rfl, rfl, rfl⟩
  have kicked := (Reachable.start fresh).next
    (@Bus.Step.issue Bool _ uids "app" quietBus false kick (by decide +kernel))
  have issued := kicked.next (.issue _ true cutOff (by decide +kernel))
  have published := (issued.next (.publish _ [first] [] second rfl)).next
    (.publish _ [] [] first rfl)
  have joined := published.next (.connections _ true (bobHub.add aliceHandle))
  have run := (((joined.next (.deliver _ false [] [first] second rfl)).next
    (.deliver _ true [second] [] first rfl)).next (.deliver _ false [] [] first rfl)).next
    (.deliver _ true [] [] second rfl)
  have distinct : Function.Injective uids := by
    intro i j same
    cases i <;> cases j <;> simp_all [uids]
  have all := (commands_applied distinct run).1
  refine ⟨_, run, (all false).1, (all true).1, fun i => (all i).2.2 rfl ?_⟩
  cases i <;> rfl

end Centrifugo
