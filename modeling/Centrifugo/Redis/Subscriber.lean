import Centrifugo.Data.Run
import Mathlib.Data.List.Basic

/-!
# The subscription to Redis

A node has two connections: commands go through a manager that reconnects by itself, messages
come from a subscription that a task drains. With Sentinel the task resolves the master and
subscribes again whenever the subscription ends. A standalone task has no such loop, and ends
with its first subscription.
-/

namespace Centrifugo

inductive RedisMode
  | standalone
  | sentinel
  deriving DecidableEq

/-- Where the subscriber task is. -/
inductive SubscriberTask
  | draining (server : Nat)
  | sleeping
  | resolving
  | rebuilding (server : Nat)
  | subscribing (server : Nat)
  | ended
  deriving DecidableEq

structure Link where
  mode : RedisMode
  reachable : Nat → Bool
  /-- The master that Sentinel would tell. -/
  master : Nat
  /-- The server of the command manager. -/
  manager : Nat
  /-- The manager has a connection. -/
  connected : Bool
  task : SubscriberTask

namespace Link

inductive Action
  | fail (server : Nat)
  | recover (server : Nat)
  | failover (server : Nat)
  /-- The manager loses its connection, and later has one again. -/
  | dropped
  | reconnected
  /-- A message, or the end of the stream with its connection. -/
  | message
  | lost
  | slept
  | resolved (success : Bool)
  | rebuilt (success : Bool)
  | subscribed (success : Bool)
  deriving DecidableEq

/-- The actions of the subscriber task. -/
def Action.own : Action → Bool
  | message | lost | slept | resolved _ | rebuilt _ | subscribed _ => true
  | _ => false

/-- What the task does after its stream has ended. -/
def afterDrain : RedisMode → SubscriberTask
  | .standalone => .ended
  | .sentinel => .sleeping

def step (link : Link) : Action → Option Link
  | .fail server => some { link with reachable := Function.update link.reachable server false }
  | .recover server => some { link with reachable := Function.update link.reachable server true }
  | .failover server => some { link with master := server }
  | .dropped => some { link with connected := false }
  | .reconnected =>
      if link.reachable link.manager then some { link with connected := true } else none
  | .message =>
      match link.task with
      | .draining _ => some link
      | _ => none
  | .lost =>
      match link.task with
      | .draining _ => some { link with task := afterDrain link.mode }
      | _ => none
  | .slept =>
      match link.task with
      | .sleeping => some { link with task := .resolving }
      | _ => none
  | .resolved success =>
      match link.task with
      | .resolving =>
          some { link with task := if success then .rebuilding link.master else .sleeping }
      | _ => none
  | .rebuilt success =>
      match link.task with
      | .rebuilding server =>
          -- a failure is logged, and the task goes on
          if !success then some { link with task := .subscribing server }
          else if link.reachable server then
            some { link with manager := server, connected := true, task := .subscribing server }
          else none
      | _ => none
  | .subscribed success =>
      match link.task with
      | .subscribing server =>
          if !success then some { link with task := .sleeping }
          else if link.reachable server then some { link with task := .draining server }
          else none
      | _ => none

def Step (link : Link) (action : Action) (link' : Link) : Prop := link.step action = some link'

/-- The engine is connected to a server with both connections. -/
def Started (link : Link) : Prop :=
  link.connected = true ∧ link.task = .draining link.manager

def Reached : Link → Prop := Reachable Started Step

/-- Commands reach a server. -/
def Works (link : Link) : Prop := link.connected = true ∧ link.reachable link.manager = true

def Running (link : Link) : Prop := ∃ server, link.task = .draining server

/-- The task would have a subscription again if every server answered. -/
def Retrying (link : Link) : Prop :=
  ∃ actions link', Steps (guarded Step fun _ action => action.own)
    { link with reachable := fun _ => true } actions link' ∧ link'.Running

/-- The task can do nothing more. -/
def Terminal (link : Link) : Prop := ∀ action, action.own → link.step action = none

/-- A node whose commands work receives its messages, or is about to. -/
structure Healthy (link : Link) : Prop where
  attended : link.Works → link.Running ∨ link.Retrying
  notTerminal : ¬ link.Terminal

/-- A standalone subscription is not lost. -/
def Keeps (link : Link) (action : Action) : Prop :=
  link.mode = .standalone → action ≠ .lost

/-! ## A task that has not ended -/

variable {link link' : Link} {action : Action}

theorem step_ended (move : link.Step action link') (going : link.task ≠ .ended)
    (keeps : link.Keeps action) : link'.task ≠ .ended := by
  unfold Step step at move
  cases action with
  | lost =>
      simp only at move
      split at move
      next server task =>
        cases move
        cases mode : link.mode with
        | standalone => exact absurd rfl (keeps mode)
        | sentinel => simp [afterDrain]
      next => cases move
  | fail server =>
      cases move
      exact going
  | recover server =>
      cases move
      exact going
  | failover server =>
      cases move
      exact going
  | dropped =>
      cases move
      exact going
  | reconnected =>
      simp only at move
      split at move
      · cases move
        exact going
      · cases move
  | message =>
      simp only at move
      split at move
      · cases move
        exact going
      · cases move
  | slept =>
      simp only at move
      split at move
      · cases move
        simp
      · cases move
  | resolved success =>
      simp only at move
      split at move
      · cases move
        cases success <;> simp
      · cases move
  | rebuilt success =>
      simp only at move
      split at move
      · repeat' split at move
        all_goals cases move
        all_goals simp
      · cases move
  | subscribed success =>
      simp only at move
      split at move
      · repeat' split at move
        all_goals cases move
        all_goals simp
      · cases move

/-- One more action of the task on the way to a subscription. -/
theorem Retrying.cons (action : Action) (link' : Link) (own : action.own)
    (move : { link with reachable := fun _ => true }.step action =
      some { link' with reachable := fun _ => true }) (rest : link'.Retrying) : link.Retrying := by
  obtain ⟨actions, last, run, running⟩ := rest
  exact ⟨action :: actions, last, .cons ⟨own, move⟩ run, running⟩

theorem retrying_subscribing {server : Nat} (task : link.task = .subscribing server) :
    link.Retrying := by
  refine Retrying.cons (.subscribed true) { link with task := .draining server } rfl
    (by simp [step, task]) ?_
  exact ⟨[], _, .nil _, server, rfl⟩

theorem retrying_rebuilding {server : Nat} (task : link.task = .rebuilding server) :
    link.Retrying :=
  Retrying.cons (.rebuilt false) { link with task := .subscribing server } rfl
    (by simp [step, task]) (retrying_subscribing rfl)

theorem retrying_resolving (task : link.task = .resolving) : link.Retrying :=
  Retrying.cons (.resolved true) { link with task := .rebuilding link.master } rfl
    (by simp [step, task]) (retrying_rebuilding rfl)

theorem retrying_sleeping (task : link.task = .sleeping) : link.Retrying :=
  Retrying.cons .slept { link with task := .resolving } rfl (by simp [step, task])
    (retrying_resolving rfl)

theorem healthy_of_going (going : link.task ≠ .ended) : link.Healthy := by
  constructor
  · intro _
    cases task : link.task with
    | draining server => exact .inl ⟨server, task⟩
    | sleeping => exact .inr (retrying_sleeping task)
    | resolving => exact .inr (retrying_resolving task)
    | rebuilding server => exact .inr (retrying_rebuilding task)
    | subscribing server => exact .inr (retrying_subscribing task)
    | ended => exact absurd task going
  · intro terminal
    cases task : link.task with
    | draining server => simpa [step, task] using terminal .message rfl
    | sleeping => simpa [step, task] using terminal .slept rfl
    | resolving => simpa [step, task] using terminal (.resolved false) rfl
    | rebuilding server => simpa [step, task] using terminal (.rebuilt false) rfl
    | subscribing server => simpa [step, task] using terminal (.subscribed false) rfl
    | ended => exact absurd task going

/-- In every run in which no standalone subscription is lost, the node stays healthy. -/
theorem healthy_of_kept (h : Reachable Started (guarded Step Keeps) link) : link.Healthy := by
  apply healthy_of_going
  refine Reachable.invariant (fun link => link.task ≠ .ended) ?_ ?_ h
  · intro link started ended
    rw [started.2] at ended
    cases ended
  · intro link action link' going step
    exact step_ended step.2 going step.1

/-- A task that has ended stays so, whatever happens. -/
theorem ended_step (move : link.Step action link') (ended : link.task = .ended) :
    link'.task = .ended := by
  unfold Step step at move
  cases action <;> simp only [ended] at move
  case reconnected =>
    split at move
    · cases move
      rfl
    · cases move
  all_goals cases move
  all_goals rfl

theorem not_retrying_of_ended (ended : link.task = .ended) : ¬ link.Retrying := by
  rintro ⟨actions, last, run, server, running⟩
  have still : last.task = .ended :=
    run.invariant (fun link => link.task = .ended) (fun _ _ _ here step => ended_step step.2 here)
      ended
  rw [still] at running
  cases running

end Link

namespace Sample

def linked (mode : RedisMode) : Link where
  mode := mode
  reachable := fun _ => true
  master := 0
  manager := 0
  connected := true
  task := .draining 0

theorem linked_started (mode : RedisMode) : (linked mode).Started := ⟨rfl, rfl⟩

end Sample

/-- With Sentinel, a node that has lost its subscription resolves the master again. -/
theorem Link.healthy_of_kept_sentinel :
    { Sample.linked .sentinel with task := .resolving }.Healthy := by
  have lost : Reachable Started (guarded Step Keeps)
      { Sample.linked .sentinel with task := .sleeping } :=
    .next (.start (Sample.linked_started .sentinel)) (a := .lost) ⟨nofun, rfl⟩
  exact healthy_of_kept (.next lost (a := .slept) ⟨nofun, rfl⟩)

/-- A standalone node that has lost its subscription publishes, and receives nothing more. -/
theorem Link.not_healthy_of_reached : ¬ ∀ link, Reached link → link.Healthy := by
  intro all
  have lost : Reached { Sample.linked .standalone with task := .ended } :=
    .next (.start (Sample.linked_started .standalone)) (a := .lost) rfl
  obtain ⟨server, running⟩ | retrying := (all _ lost).attended ⟨rfl, rfl⟩
  · cases running
  · exact not_retrying_of_ended rfl retrying

end Centrifugo
