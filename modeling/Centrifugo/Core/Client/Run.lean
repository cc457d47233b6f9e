import Centrifugo.Core.Client.Frame
import Centrifugo.Data.Run

/-!
# Session runs

A session goes through commands and lifecycle operations in any order. In between, other
sessions and the engine change the world that it shares.
-/

namespace Centrifugo

/-- The steps of a session. -/
inductive Action
  | command (readings : Readings) (cmd : Command)
  | serverUnsubscribe (channel : String)
  | flushPendingJoins
  | refreshPresence
  | proactiveRefresh (readings : Readings)
  /-- Others leave the shared world in a new state. -/
  | interference (world : World)

namespace Session

def act (s : Session) (node : Node) : Action → Session
  | .command readings cmd => (s.handleCommand node readings cmd).1
  | .serverUnsubscribe channel => s.serverUnsubscribe node channel
  | .flushPendingJoins => s.flushPendingJoins node
  | .refreshPresence => s.refreshPresence
  | .proactiveRefresh readings => (s.proactiveRefresh node readings).1
  | .interference world => { s with world := world }

def Step (node : Node) (s : Session) (action : Action) (s' : Session) : Prop :=
  s' = s.act node action

/-- A session as the transport creates it. -/
def Fresh (s : Session) : Prop :=
  ∃ proto transport tx ctrl,
    s.client = { proto := proto, transport := transport, tx := tx, ctrl := ctrl }

def Reached (node : Node) : Session → Prop := Reachable Fresh (Step node)

variable {s : Session} {node : Node}

/-- A drop of a channel leaves the rest of the subscriptions. -/
theorem lookup_unsubscribeChannel (s : Session) (node : Node) (channel other : String) :
    (s.unsubscribeChannel node channel).client.subscriptions.lookup other =
      if other = channel then none else s.client.subscriptions.lookup other := by
  cases held : s.client.subscriptions.lookup channel with
  | none =>
      rw [unsubscribeChannel_absent node held]
      split
      next same => rw [same, held]
      next => rfl
  | some state =>
      rw [unsubscribeChannel_client node held]
      exact Map.lookup_erase_eq channel other _

/-- A session keeps its protocol. Once authenticated, it stays so. -/
theorem act_kept (s : Session) (node : Node) (action : Action) :
    (s.act node action).client.proto = s.client.proto ∧
      (s.client.authenticated → (s.act node action).client.authenticated) := by
  cases action with
  | command readings cmd =>
      have effect := s.handleCommand_effect node readings cmd
      rw [act]
      generalize s.handleCommand node readings cmd = after at effect
      cases effect with
      | connected req creds _ _ _ =>
          obtain ⟨subscriptions, pendingJoins, client⟩ :=
            applyConnect_client (s.identify readings.uuid) node readings cmd creds
          rw [client]
          exact ⟨rfl, fun _ => rfl⟩
      | subscribed req opts grant _ _ _ =>
          rw [applySubscribe_client]
          exact ⟨rfl, fun h => h⟩
      | unsubscribed channel _ _ _ =>
          obtain ⟨subscriptions, handed, client⟩ := s.unsubscribeChannel_frame node channel
          rw [applyUnsubscribe, client]
          exact ⟨rfl, fun h => h⟩
      | refreshed ct _ _ _ =>
          rw [applyRefresh_client]
          exact ⟨rfl, fun h => h⟩
      | subRefreshed channel token _ _ _ =>
          rw [applySubRefresh_session]
          exact ⟨rfl, fun h => h⟩
      | _ => exact ⟨rfl, fun h => h⟩
  | serverUnsubscribe channel =>
      obtain ⟨subscriptions, handed, client⟩ := s.unsubscribeChannel_frame node channel
      rw [act, serverUnsubscribe_client, client]
      exact ⟨rfl, fun h => h⟩
  | flushPendingJoins =>
      rw [act, flushPendingJoins_client]
      exact ⟨rfl, fun h => h⟩
  | refreshPresence =>
      rw [act, refreshPresence_client]
      exact ⟨rfl, fun h => h⟩
  | proactiveRefresh readings =>
      obtain ⟨connInfo, expireAt, client⟩ := s.proactiveRefresh_client node readings
      rw [act, client]
      exact ⟨rfl, fun h => h⟩
  | interference world => exact ⟨rfl, fun h => h⟩

theorem act_authenticated (authenticated : s.client.authenticated) (action : Action) :
    (s.act node action).client.authenticated :=
  (s.act_kept node action).2 authenticated

/-- Only an authenticated session has subscriptions. -/
def Idle (s : Session) : Prop :=
  s.client.authenticated = false → ∀ channel, s.client.subscriptions.lookup channel = none

theorem act_idle (idle : s.Idle) (action : Action) : (s.act node action).Idle := by
  intro unauthenticated channel
  have before : s.client.authenticated = false := by
    by_contra authenticated
    have after := @act_authenticated _ node (by simpa using authenticated) action
    rw [unauthenticated] at after
    cases after
  have none := idle before channel
  cases action with
  | command readings cmd =>
      have effect := s.handleCommand_effect node readings cmd
      rw [act] at unauthenticated ⊢
      generalize s.handleCommand node readings cmd = after at effect unauthenticated
      cases effect with
      | connected req creds _ parsed _ =>
          obtain ⟨subscriptions, pendingJoins, client⟩ :=
            applyConnect_client (s.identify readings.uuid) node readings cmd creds
          rw [client] at unauthenticated
          cases unauthenticated
      | refused _ => exact none
      | identified _ _ => exact none
      | answered _ _ => exact none
      | _ => simp_all
  | serverUnsubscribe channel' =>
      rw [act, serverUnsubscribe_client, lookup_unsubscribeChannel, none]
      exact ite_self _
  | flushPendingJoins =>
      rw [act, flushPendingJoins_client]
      exact none
  | refreshPresence =>
      rw [act, refreshPresence_client]
      exact none
  | proactiveRefresh readings =>
      obtain ⟨connInfo, expireAt, client⟩ := s.proactiveRefresh_client node readings
      rw [act, client]
      exact none
  | interference world => exact none

theorem Reached.idle (h : Reached node s) : s.Idle := by
  refine h.invariant Idle ?_ ?_
  · intro s fresh _ channel
    obtain ⟨proto, transport, tx, ctrl, client⟩ := fresh
    rw [client]
    rfl
  · intro s action _ idle step
    rw [step]
    exact act_idle idle action

end Session

end Centrifugo
