import Centrifugo.Core.Node
import Centrifugo.Data.Run

/-!
# SockJS polls

A SockJS client takes what is queued for it by successive polls. A poll waits for a
first item; when that is a frame, it takes the frames behind it into the same answer.

A close that comes alone is answered as it is, and the session leaves the registry. A
close that a poll finds behind frames is taken off the queue and forgotten.
-/

namespace Centrifugo

open Json

/-- The text of a close frame, which has the reason and a hint to reconnect. -/
def Disconnect.closeText (disconnect : Disconnect) : Text :=
  (RawValue.object [
    ("reason", .string disconnect.reason),
    ("reconnect", .bool disconnect.reconnect)]).text

/-- The answer to a poll. -/
inductive Answer
  | messages (msgs : List Sent)
  | close (code : UInt32) (reason : Text)
  | heartbeat
  deriving DecidableEq

namespace Answer

def ofClose (disconnect : Disconnect) : Answer := .close disconnect.code disconnect.closeText

/-- The answer when every sender of a queue is gone. -/
def goAway : Answer := .close 3000 ['G', 'o', ' ', 'a', 'w', 'a', 'y', '!']

def delivered : Answer → List Sent
  | .messages msgs => msgs
  | .close _ _ | .heartbeat => []

def isClose : Answer → Bool
  | .close _ _ => true
  | .messages _ | .heartbeat => false

end Answer

/-- How far the poll of a session is; a client has one poll at a time. -/
inductive Poll
  | idle
  | waiting
  /-- Collecting the frames that are there. -/
  | draining (msgs : List Sent)

def Poll.collected : Poll → List Sent
  | .draining msgs => msgs
  | .idle | .waiting => []

def Poll.isDraining : Poll → Bool
  | .draining _ => true
  | .idle | .waiting => false

/-- A session as its polls see it. `entered` is a ghost field with everything that was
put in the queue. -/
structure SockjsSession where
  outgoing : Queue := {}
  /-- The client task or another sender of the queue is still there. -/
  senders : Bool := true
  /-- The registry maps the id of the session to it. -/
  registered : Bool := true
  poll : Poll := .idle
  answers : List Answer := []
  entered : List (Out Sent) := []

inductive PollEvent
  | put (item : Out Sent)
  /-- The last sender goes. -/
  | hangUp
  | poll
  /-- The poll gets its first item, or learns that there is none to come. -/
  | receive
  | tryReceive
  | elapse

namespace SockjsSession

/-- The poll ends with an answer. -/
def answer (s : SockjsSession) (answer : Answer) : SockjsSession :=
  { s with poll := .idle, answers := s.answers ++ [answer] }

/-- Drop the session with its queue. -/
def remove (s : SockjsSession) : SockjsSession :=
  { s with registered := false, outgoing := { items := [], closed := true } }

def put (s : SockjsSession) (item : Out Sent) : Option SockjsSession :=
  if s.senders && s.outgoing.hasRoom then
    some { s with
      outgoing := { s.outgoing with items := s.outgoing.items ++ [item] }
      entered := s.entered ++ [item] }
  else none

def take (s : SockjsSession) (rest : List (Out Sent)) : SockjsSession :=
  { s with outgoing := { s.outgoing with items := rest } }

def receive (s : SockjsSession) : Option SockjsSession :=
  match s.outgoing.items with
  | .frame frame :: rest => some { s.take rest with poll := .draining [frame] }
  | .close disconnect :: _ => some (s.answer (.ofClose disconnect)).remove
  | [] => if s.senders then none else some (s.answer .goAway).remove

/-- The loop ends at the first item that is no frame, which it has taken by then. -/
def tryReceive (s : SockjsSession) (msgs : List Sent) : SockjsSession :=
  match s.outgoing.items with
  | .frame more :: rest => { s.take rest with poll := .draining (msgs ++ [more]) }
  | .close _ :: rest => (s.take rest).answer (.messages msgs)
  | [] => s.answer (.messages msgs)

def step (s : SockjsSession) : PollEvent → Option SockjsSession
  | .put item => s.put item
  | .hangUp => some { s with senders := false }
  | .poll =>
      match s.poll with
      | .idle => if s.registered then some { s with poll := .waiting } else none
      | _ => none
  | .receive =>
      match s.poll with
      | .waiting => s.receive
      | _ => none
  | .tryReceive =>
      match s.poll with
      | .draining msgs => some (s.tryReceive msgs)
      | _ => none
  | .elapse =>
      match s.poll with
      | .waiting =>
          if s.outgoing.items.isEmpty && s.senders then some (s.answer .heartbeat) else none
      | _ => none

def Step (s : SockjsSession) (event : PollEvent) (s' : SockjsSession) : Prop :=
  s.step event = some s'

/-- A session as the first poll creates it. -/
def Created (s : SockjsSession) : Prop := s = {}

/-! ## What the queue asks for -/

end SockjsSession

section Asked

variable {φ : Type}

/-- The frames in front of the first close. -/
def framesBefore : List (Out φ) → List φ
  | .frame frame :: items => frame :: framesBefore items
  | .close _ :: _ | [] => []

def firstClose : List (Out φ) → Option Disconnect
  | .frame _ :: items => firstClose items
  | .close disconnect :: _ => some disconnect
  | [] => none

theorem firstClose_append (items more : List (Out φ)) :
    firstClose (items ++ more) = (firstClose items).or (firstClose more) := by
  induction items with
  | nil => rfl
  | cons item items ih =>
      cases item with
      | frame frame => exact ih
      | close disconnect => rfl

theorem framesBefore_append (items more : List (Out φ)) :
    framesBefore (items ++ more) =
      framesBefore items ++ if (firstClose items).isNone then framesBefore more else [] := by
  induction items with
  | nil => rfl
  | cons item items ih =>
      cases item with
      | frame frame =>
          simp only [List.cons_append, framesBefore, ih]
          rfl
      | close disconnect => rfl

end Asked

namespace SockjsSession

/-- The messages of all answers. -/
def delivered (s : SockjsSession) : List Sent := s.answers.flatMap Answer.delivered

/-- The messages that answers to come will have before a close. -/
def pending (s : SockjsSession) : List Sent :=
  s.poll.collected ++ framesBefore s.outgoing.items

def closes (s : SockjsSession) : List Answer := s.answers.filter Answer.isClose

/-- The first close comes while frames are in the queue or in the hands of a poll. -/
def hides (s : SockjsSession) : PollEvent → Bool
  | .put (.close _) =>
      (firstClose s.entered).isNone && (!s.outgoing.items.isEmpty || s.poll.isDraining)
  | _ => false

/-! ## Sessions that keep their closes -/

/-- What has become of the first close. -/
inductive Stage (s : SockjsSession) : Prop
  | streaming (unclosed : firstClose s.entered = none)
      (frames : firstClose s.outgoing.items = none) (registered : s.registered)
      (quiet : s.closes = [])
  /-- The next answer is the close. -/
  | closing (disconnect : Disconnect) (rest : List (Out Sent))
      (first : firstClose s.entered = some disconnect)
      (next : s.outgoing.items = .close disconnect :: rest)
      (attentive : s.poll.isDraining = false) (registered : s.registered)
      (quiet : s.closes = [])
  | closed (disconnect : Disconnect) (first : firstClose s.entered = some disconnect)
      (removed : s.registered = false) (idle : s.poll = .idle)
      (dropped : s.outgoing = { items := [], closed := true })
      (told : s.closes = [.ofClose disconnect])
  /-- Without a close, once all senders were gone. -/
  | abandoned (unclosed : firstClose s.entered = none) (removed : s.registered = false)
      (idle : s.poll = .idle) (dropped : s.outgoing = { items := [], closed := true })
      (silent : s.senders = false) (told : s.closes = [.goAway])

structure Sound (s : SockjsSession) : Prop where
  kept : s.delivered ++ s.pending = framesBefore s.entered
  stage : s.Stage

variable {s s' : SockjsSession}

@[simp] theorem delivered_answer (s : SockjsSession) (answer : Answer) :
    (s.answer answer).delivered = s.delivered ++ answer.delivered := by
  simp [delivered, SockjsSession.answer]

@[simp] theorem closes_answer (s : SockjsSession) (answer : Answer) :
    (s.answer answer).closes = s.closes ++ if answer.isClose then [answer] else [] := by
  cases isClose : answer.isClose <;> simp [closes, SockjsSession.answer, isClose]

theorem Sound.put {item : Out Sent} (h : s.Sound) (careful : s.hides (.put item) = false)
    (move : s.put item = some s') : s'.Sound := by
  unfold SockjsSession.put at move
  split at move
  next room =>
    cases move
    have kept := h.kept
    cases h.stage with
    | streaming unclosed frames registered quiet =>
        refine ⟨?_, ?_⟩
        · simpa [delivered, pending, framesBefore_append, unclosed, frames] using
            congrArg (· ++ framesBefore [item]) kept
        · cases item with
          | frame frame =>
              exact .streaming (by simp [firstClose_append, unclosed, firstClose])
                (by simp [firstClose_append, frames, firstClose]) registered quiet
          | close disconnect =>
              simp only [hides, unclosed, Option.isNone_none, Bool.true_and, Bool.or_eq_false_iff,
                Bool.not_eq_false', List.isEmpty_iff] at careful
              exact .closing disconnect [] (by simp [firstClose_append, unclosed, firstClose])
                (by simp [careful.1]) careful.2 registered quiet
    | closing disconnect rest first next attentive registered quiet =>
        refine ⟨?_, ?_⟩
        · simpa [delivered, pending, framesBefore_append, first, next, framesBefore] using kept
        · exact .closing disconnect (rest ++ [item]) (by simp [firstClose_append, first])
            (by simp [next]) attentive registered quiet
    | closed disconnect first removed idle dropped told =>
        simp [dropped, Queue.hasRoom] at room
    | abandoned unclosed removed idle dropped silent told =>
        simp [dropped, Queue.hasRoom] at room
  next => cases move

@[simp] theorem delivered_remove (s : SockjsSession) : s.remove.delivered = s.delivered := rfl

@[simp] theorem closes_remove (s : SockjsSession) : s.remove.closes = s.closes := rfl

theorem pending_answer (s : SockjsSession) (answer : Answer) :
    (s.answer answer).pending = framesBefore s.outgoing.items := rfl

theorem pending_remove (s : SockjsSession) (answer : Answer) :
    (s.answer answer).remove.pending = [] := rfl

theorem Sound.receive (h : s.Sound) (waiting : s.poll = .waiting)
    (move : s.receive = some s') : s'.Sound := by
  have kept := h.kept
  simp only [pending, waiting, Poll.collected, List.nil_append] at kept
  unfold SockjsSession.receive at move
  cases h.stage with
  | streaming unclosed frames registered quiet =>
      split at move
      next frame rest next =>
        cases move
        rw [next] at frames kept
        exact ⟨kept, .streaming unclosed frames registered quiet⟩
      next disconnect rest next =>
        rw [next] at frames
        cases frames
      next empty =>
        split at move
        next => cases move
        next silent =>
          cases move
          rw [empty] at kept
          refine ⟨?_, .abandoned unclosed rfl rfl rfl (Bool.eq_false_of_not_eq_true silent) ?_⟩
          · rw [pending_remove, delivered_remove, delivered_answer, List.append_nil]
            exact kept
          · rw [closes_remove, closes_answer, quiet]
            rfl
  | closing disconnect rest first next attentive registered quiet =>
      rw [next] at move kept
      cases move
      refine ⟨?_, .closed disconnect first rfl rfl rfl ?_⟩
      · rw [pending_remove, delivered_remove, delivered_answer, List.append_nil]
        exact kept
      · rw [closes_remove, closes_answer, quiet]
        rfl
  | closed disconnect first removed idle dropped told =>
      rw [idle] at waiting
      cases waiting
  | abandoned unclosed removed idle dropped silent told =>
      rw [idle] at waiting
      cases waiting

/-- An answer without a close, with the frames that the poll has collected. -/
theorem Sound.answer {answer : Answer}
    (kept : s.delivered ++ (answer.delivered ++ framesBefore s.outgoing.items) =
      framesBefore s.entered)
    (unclosed : firstClose s.entered = none) (frames : firstClose s.outgoing.items = none)
    (registered : s.registered) (quiet : s.closes = []) (stays : answer.isClose = false) :
    (s.answer answer).Sound := by
  refine ⟨?_, .streaming unclosed frames registered ?_⟩
  · rw [pending_answer, delivered_answer, List.append_assoc]
    exact kept
  · rw [closes_answer, quiet, stays]
    rfl

theorem Sound.tryReceive {msgs : List Sent} (h : s.Sound) (draining : s.poll = .draining msgs) :
    (s.tryReceive msgs).Sound := by
  have kept := h.kept
  simp only [pending, draining, Poll.collected] at kept
  unfold SockjsSession.tryReceive
  cases h.stage with
  | streaming unclosed frames registered quiet =>
      split
      next more rest next =>
        rw [next] at frames kept
        refine ⟨?_, .streaming unclosed frames registered quiet⟩
        show s.delivered ++ ((msgs ++ [more]) ++ framesBefore rest) = framesBefore s.entered
        rw [List.append_assoc]
        exact kept
      next disconnect rest next =>
        rw [next] at frames
        cases frames
      next empty =>
        exact .answer kept unclosed frames registered quiet rfl
  | closing disconnect rest first next attentive registered quiet =>
      rw [draining] at attentive
      cases attentive
  | closed disconnect first removed idle dropped told =>
      rw [idle] at draining
      cases draining
  | abandoned unclosed removed idle dropped silent told =>
      rw [idle] at draining
      cases draining

theorem Sound.step {event : PollEvent} (h : s.Sound) (careful : s.hides event = false)
    (move : Step s event s') : s'.Sound := by
  unfold Step SockjsSession.step at move
  cases event with
  | put item => exact h.put careful move
  | hangUp =>
      cases move
      refine ⟨h.kept, ?_⟩
      cases h.stage with
      | streaming unclosed frames registered quiet =>
          exact .streaming unclosed frames registered quiet
      | closing disconnect rest first next attentive registered quiet =>
          exact .closing disconnect rest first next attentive registered quiet
      | closed disconnect first removed idle dropped told =>
          exact .closed disconnect first removed idle dropped told
      | abandoned unclosed removed idle dropped silent told =>
          exact .abandoned unclosed removed idle dropped rfl told
  | poll =>
      cases poll : s.poll <;> rw [poll] at move <;> simp only [] at move
      case idle =>
        split at move
        next registered =>
          cases move
          have kept := h.kept
          simp only [pending, poll] at kept
          refine ⟨kept, ?_⟩
          cases h.stage with
          | streaming unclosed frames registered quiet =>
              exact .streaming unclosed frames registered quiet
          | closing disconnect rest first next attentive registered quiet =>
              exact .closing disconnect rest first next rfl registered quiet
          | closed disconnect first removed idle dropped told =>
              rw [removed] at registered
              cases registered
          | abandoned unclosed removed idle dropped silent told =>
              rw [removed] at registered
              cases registered
        next => cases move
      all_goals cases move
  | receive =>
      cases poll : s.poll <;> rw [poll] at move <;> simp only [] at move
      case waiting => exact h.receive poll move
      all_goals cases move
  | tryReceive =>
      cases poll : s.poll <;> rw [poll] at move <;> simp only [] at move
      case draining =>
        cases move
        exact h.tryReceive poll
      all_goals cases move
  | elapse =>
      cases poll : s.poll <;> rw [poll] at move <;> simp only [] at move
      case waiting =>
        split at move
        next empty =>
          cases move
          have kept := h.kept
          simp only [pending, poll] at kept
          cases h.stage with
          | streaming unclosed frames registered quiet =>
              exact .answer kept unclosed frames registered quiet rfl
          | closing disconnect rest first next attentive registered quiet =>
              simp [next] at empty
          | closed disconnect first removed idle dropped told =>
              rw [idle] at poll
              cases poll
          | abandoned unclosed removed idle dropped silent told =>
              rw [idle] at poll
              cases poll
        next => cases move
      all_goals cases move

theorem Sound.of_created (h : Created s) : s.Sound := by
  rw [h]
  exact ⟨rfl, .streaming rfl rfl rfl rfl⟩

/-! ## Every close is told -/

/-- The next answer, which a poll can have at once, is a close that ends the session. -/
structure AboutToTell (s : SockjsSession) (disconnect : Disconnect) : Prop where
  quiet : s.closes = []
  only : ∀ event s', Step s event s' → s'.answers = s.answers ∨
    s'.answers = s.answers ++ [.ofClose disconnect] ∧ s'.registered = false
  reachable : ∃ polls s', Steps Step s polls s' ∧
    s'.answers = s.answers ++ [.ofClose disconnect] ∧ s'.registered = false

/-- A close was answered after all frames in front of it, or it is about to be. -/
def Told (s : SockjsSession) (disconnect : Disconnect) : Prop :=
  s.delivered = framesBefore s.entered ∧
    (s.closes = [.ofClose disconnect] ∧ s.registered = false ∨ s.AboutToTell disconnect)

theorem aboutToTell {disconnect : Disconnect} {rest : List (Out Sent)}
    (next : s.outgoing.items = .close disconnect :: rest)
    (attentive : s.poll.isDraining = false) (registered : s.registered)
    (quiet : s.closes = []) : s.AboutToTell disconnect := by
  have answered : ∀ t : SockjsSession, t.poll = .waiting → t.outgoing = s.outgoing →
      Step t .receive (t.answer (.ofClose disconnect)).remove := by
    intro t waiting same
    simp [Step, SockjsSession.step, SockjsSession.receive, waiting, same, next]
  refine ⟨quiet, ?_, ?_⟩
  · intro event s' move
    cases event with
    | put item =>
        simp only [Step, SockjsSession.step, SockjsSession.put] at move
        split at move <;> cases move
        exact .inl rfl
    | receive =>
        cases poll : s.poll with
        | waiting =>
            cases (answered s poll rfl).symm.trans move
            exact .inr ⟨rfl, rfl⟩
        | _ => simp [Step, SockjsSession.step, poll] at move
    | tryReceive =>
        cases poll : s.poll with
        | draining msgs =>
            rw [poll] at attentive
            cases attentive
        | _ => simp [Step, SockjsSession.step, poll] at move
    | elapse => cases poll : s.poll <;> simp [Step, SockjsSession.step, poll, next] at move
    | hangUp =>
        cases move
        exact .inl rfl
    | poll =>
        cases poll : s.poll <;> simp [Step, SockjsSession.step, poll, registered] at move
        rw [← move]
        exact .inl rfl
  · cases poll : s.poll with
    | idle =>
        have begun : Step s .poll { s with poll := .waiting } := by
          simp [Step, SockjsSession.step, poll, registered]
        exact ⟨_, _, .cons begun (.cons (answered _ rfl rfl) (.nil _)), rfl, rfl⟩
    | waiting => exact ⟨_, _, .cons (answered s poll rfl) (.nil _), rfl, rfl⟩
    | draining msgs =>
        rw [poll] at attentive
        cases attentive

theorem Sound.told (h : s.Sound) {disconnect : Disconnect}
    (first : firstClose s.entered = some disconnect) : s.Told disconnect := by
  have kept := h.kept
  cases h.stage with
  | streaming unclosed frames registered quiet =>
      rw [unclosed] at first
      cases first
  | closing disconnect' rest first' next attentive registered quiet =>
      cases first'.symm.trans first
      have uncollected : s.poll.collected = [] := by
        cases poll : s.poll with
        | draining msgs =>
            rw [poll] at attentive
            cases attentive
        | _ => rfl
      simp only [pending, uncollected, next, framesBefore, List.append_nil] at kept
      exact ⟨kept, .inr (aboutToTell next attentive registered quiet)⟩
  | closed disconnect' first' removed idle dropped told =>
      cases first'.symm.trans first
      simp only [pending, idle, dropped, Poll.collected, framesBefore, List.append_nil] at kept
      exact ⟨kept, .inl ⟨told, removed⟩⟩
  | abandoned unclosed removed idle dropped silent told =>
      rw [unclosed] at first
      cases first

/-- As long as no close is hidden, polls deliver the frames in front of the first close and
then this close. -/
theorem polls_deliver (run : Reachable Created
      (guarded Step fun s event => s.hides event = false) s) :
    s.delivered ++ s.pending = framesBefore s.entered ∧
      ∀ disconnect, firstClose s.entered = some disconnect → s.Told disconnect := by
  have sound : s.Sound := by
    refine run.invariant Sound (fun _ => Sound.of_created) ?_
    intro s event s' h move
    exact h.step move.1 move.2
  exact ⟨sound.kept, fun _ => sound.told⟩

end SockjsSession

/-! ## A close behind a frame -/

namespace SockjsSession

/-- The replies of a frame come with the close of its last command. -/
def pong : Out Sent := .frame (.replies [.bare 1])

def afterEvents (events : List PollEvent) : SockjsSession :=
  (events.foldlM SockjsSession.step {}).getD {}

/-- The close comes after a poll has fetched the frame. -/
theorem polls_deliver_apart :
    let s := afterEvents [.put pong, .poll, .receive, .tryReceive, .put (.close .badRequest),
      .hangUp, .poll, .receive]
    s.delivered ++ s.pending = framesBefore s.entered ∧
      ∀ disconnect, firstClose s.entered = some disconnect → s.Told disconnect := by
  intro s
  have run : Steps (guarded Step fun s event => s.hides event = false) {}
      [.put pong, .poll, .receive, .tryReceive, .put (.close .badRequest), .hangUp, .poll,
        .receive] s := .guarded_of_foldlM rfl
  exact polls_deliver (run.reachable (.start rfl))

/-- The close comes before a poll fetches the frame. -/
theorem not_polls_deliver_behind :
    ¬ ∀ s : SockjsSession, Reachable Created Step s →
      s.delivered ++ s.pending = framesBefore s.entered ∧
        ∀ disconnect, firstClose s.entered = some disconnect → s.Told disconnect := by
  intro all
  have run : Steps Step {} [.put pong, .put (.close .badRequest), .hangUp, .poll, .receive,
      .tryReceive, .poll, .receive] _ := .of_foldlM (fun _ _ _ move => move) rfl
  obtain ⟨-, told⟩ := all _ (run.reachable (.start rfl))
  obtain ⟨-, ⟨closes, -⟩ | ⟨quiet, -⟩⟩ := told .badRequest rfl
  · exact absurd closes (by decide)
  · exact absurd quiet (by decide)

end SockjsSession

end Centrifugo
