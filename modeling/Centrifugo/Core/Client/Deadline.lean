import Centrifugo.Core.Client.Expiry
import Centrifugo.Core.Client.Run

/-!
# Deadlines of subscriptions

A subscription with a deadline keeps it until a SUB_REFRESH brings a new token. The new
deadline is that of a token which is valid for the client and the channel; an expired
token is answered as a success too and takes the deadline away until the next grant. The
expiry timer closes the session once the latest grant has passed with its grace period,
unless an expired token came after it.
-/

namespace Centrifugo

namespace Session

/-- The subscription is held before and after a step. -/
def Holding (node : Node) (channel : String) (s : Session) (action : Action) (s' : Session) :
    Prop :=
  Step node s action s' ∧ s'.client.isSubscribed channel

/-- A SUB_REFRESH of a channel, with what its token verifies to. -/
def RefreshesWith (s : Session) (node : Node) (channel : String)
    (outcome : Except VerifyError SubscribeToken → Prop) : Action → Prop
  | .command readings cmd => cmd.method = .subRefresh ∧ ∃ req,
      parseParams node.decoders.subRefresh {} s.client.proto cmd.params = some req ∧
        req.channel = channel ∧
        outcome (s.world.verifier.verifySubscribeToken readings.verifiedAt req.token)
  | _ => False

/-- The token of a SUB_REFRESH is valid for this client and channel. -/
def Renews (s : Session) (node : Node) (channel : String) : Action → Prop :=
  s.RefreshesWith node channel fun verified =>
    ∃ t, verified = .ok t ∧ t.client = s.client.id ∧ t.channel = channel

/-- The token of a SUB_REFRESH has expired. -/
def Lapses (s : Session) (node : Node) (channel : String) : Action → Prop :=
  s.RefreshesWith node channel fun verified => verified = .error .expired

/-- No token is both valid and expired. -/
theorem not_renews_of_lapses {s : Session} {node : Node} {channel : String} {action : Action}
    (lapses : s.Lapses node channel action) : ¬ s.Renews node channel action := by
  intro renews
  cases action with
  | command readings cmd =>
      obtain ⟨_, req, params, _, expired⟩ := lapses
      obtain ⟨_, req', params', _, t, valid, _⟩ := renews
      rw [params] at params'
      cases params'
      rw [expired] at valid
      cases valid
  | _ => exact lapses

/-- The deadline that a step grants to a subscription with a valid token. -/
def granted (s : Session) (node : Node) (channel : String) : Action → Option Int
  | .command readings cmd =>
      match s.client.authenticated && cmd.method = .subRefresh,
        s.checkSubRefresh node readings cmd with
      | true, .ok (name, some t) => if name = channel then some t.expireAt else none
      | _, _ => none
  | _ => none

/-- Steps along which the latest granted deadline is carried, until an expired token comes
after it. -/
def Tracked (node : Node) (channel : String) (s : Session × Option Int) (action : Action)
    (s' : Session × Option Int) : Prop :=
  Holding node channel s.1 action s'.1 ∧
    ∀ d, s'.2 = some d ↔ s.1.granted node channel action = some d ∨
      s.2 = some d ∧ s.1.granted node channel action = none ∧ ¬ s.1.Lapses node channel action

variable {s : Session} {node : Node} {channel : String} {deadline : Int}

theorem renews_of_granted {action : Action} (h : s.granted node channel action = some deadline) :
    s.Renews node channel action := by
  cases action with
  | command readings cmd =>
      simp only [granted] at h
      split at h
      next name t ready checked =>
        split at h
        next same =>
          subst same
          simp only [Bool.and_eq_true, decide_eq_true_iff] at ready
          obtain ⟨req, state, params, named, _, verified, client, channel, _⟩ :=
            checkSubRefresh_ok checked
          exact ⟨ready.2, req, params, named, t, verified, client, channel⟩
        next => cases h
      next => cases h
  | _ => cases h

theorem Holding.tracked_grant {action : Action} {s' : Session}
    (holding : Holding node channel s action s')
    (grant : s.granted node channel action = some deadline) (latest : Option Int) :
    Tracked node channel (s, latest) action (s', some deadline) := by
  refine ⟨holding, fun d => ?_⟩
  rw [grant]
  simp

/-- After an expired token, no deadline is carried. -/
theorem Holding.tracked_lapse {action : Action} {s' : Session}
    (holding : Holding node channel s action s') (lapsed : s.Lapses node channel action)
    (latest : Option Int) : Tracked node channel (s, latest) action (s', none) := by
  refine ⟨holding, fun d => ?_⟩
  have no_grant : s.granted node channel action ≠ some d := fun grant =>
    not_renews_of_lapses lapsed (renews_of_granted grant)
  simp [no_grant, lapsed]

/-- Commands other than SUB_REFRESH leave the deadlines alone. -/
theorem handleCommand_deadline (authenticated : s.client.authenticated) {readings : Readings}
    {cmd : Command} (other : cmd.method ≠ .subRefresh)
    (held : (s.handleCommand node readings cmd).1.client.isSubscribed channel)
    (before : s.client.isSubscribed channel) :
    (s.handleCommand node readings cmd).1.client.deadlineOf channel =
      s.client.deadlineOf channel := by
  have effect := s.handleCommand_effect node readings cmd
  generalize s.handleCommand node readings cmd = after at effect held
  cases effect with
  | connected req creds _ parsed _ =>
      have unauthenticated := (parseConnect_ok parsed).1
      rw [authenticated] at unauthenticated
      cases unauthenticated
  | subscribed req opts grant _ _ checked =>
      have free := (checkSubscribe_ok checked).2.1
      have different : channel ≠ req.channel := by
        rintro rfl
        simp [Client.isSubscribed, free] at before
      rw [applySubscribe_client]
      simp only [Client.deadlineOf, AList.lookup_insert_ne different]
  | unsubscribed name _ _ _ =>
      have kept := lookup_unsubscribeChannel s node name channel
      simp only [applyUnsubscribe, Client.isSubscribed, Client.deadlineOf, kept] at held ⊢
      split
      next same => simp [same] at held
      next => rfl
  | refreshed ct _ _ _ =>
      rw [applyRefresh_client]
      rfl
  | subRefreshed name token method _ _ => exact absurd method other
  | _ => rfl

/-- A SUB_REFRESH grants the deadline of its token, or takes the deadline away. -/
theorem onSubRefresh_deadline (authenticated : s.client.authenticated)
    (stored : s.client.deadlineOf channel = some deadline) {readings : Readings} {cmd : Command}
    (method : cmd.method = .subRefresh) :
    (s.handleCommand node readings cmd).1.client.deadlineOf channel =
        some ((s.granted node channel (.command readings cmd)).getD deadline) ∨
      s.Lapses node channel (.command readings cmd) ∧
        (s.handleCommand node readings cmd).1.client.deadlineOf channel = some 0 := by
  have dispatched : s.handleCommand node readings cmd = s.onSubRefresh node readings cmd := by
    simp [handleCommand, handle, Guard.demand, authenticated, dispatch, method]
  rw [dispatched, onSubRefresh]
  cases checked : s.checkSubRefresh node readings cmd with
  | error refusal =>
      left
      simp [handle, granted, checked, stored]
  | ok answer =>
      obtain ⟨name, token⟩ := answer
      by_cases same : name = channel
      · subst same
        cases token with
        | some t =>
            left
            obtain ⟨state, held, _⟩ := Option.map_eq_some_iff.mp stored
            simp [handle, granted, checked, authenticated, method, applySubRefresh_session,
              updateSubscription, Client.deadlineOf, held, SubState.refreshed]
        | none =>
            right
            obtain ⟨req, state, params, named, held, expired⟩ := checkSubRefresh_ok checked
            refine ⟨⟨method, req, params, named, expired⟩, ?_⟩
            simp [handle, applySubRefresh_session, updateSubscription, Client.deadlineOf, held,
              SubState.refreshed]
      · left
        have untouched : (s.applySubRefresh readings cmd name token).1.client.deadlineOf channel =
            s.client.deadlineOf channel := by
          rw [applySubRefresh_session]
          simp only [updateSubscription, Client.deadlineOf,
            Map.lookup_alter_ne (Ne.symm same)]
        have none : s.granted node channel (.command readings cmd) = none := by
          cases token <;> simp [granted, checked, authenticated, method, same]
        rw [handle, untouched, stored, none]
        rfl

theorem isSubscribed_of_deadline (stored : s.client.deadlineOf channel = some deadline) :
    s.client.isSubscribed channel := by
  obtain ⟨state, found, _⟩ := Option.map_eq_some_iff.mp stored
  simp [Client.isSubscribed, found]

theorem deadline_of_granted (authenticated : s.client.authenticated)
    (stored : s.client.deadlineOf channel = some deadline) {action : Action} {d : Int}
    (grant : s.granted node channel action = some d) :
    (s.act node action).client.deadlineOf channel = some d := by
  have renews := renews_of_granted grant
  cases action with
  | command readings cmd =>
      obtain kept | ⟨lapsed, _⟩ := onSubRefresh_deadline authenticated stored renews.1
      · rwa [grant] at kept
      · exact absurd renews (not_renews_of_lapses lapsed)
  | _ => cases grant

/-- What a step makes of the deadline of a subscription that it leaves in place. -/
theorem act_deadline (authenticated : s.client.authenticated)
    (stored : s.client.deadlineOf channel = some deadline) {action : Action}
    (held : (s.act node action).client.isSubscribed channel) :
    (s.act node action).client.deadlineOf channel =
        some ((s.granted node channel action).getD deadline) ∨
      s.Lapses node channel action ∧
        (s.act node action).client.deadlineOf channel = some 0 := by
  have before := isSubscribed_of_deadline stored
  cases action with
  | command readings cmd =>
      by_cases method : cmd.method = .subRefresh
      · exact onSubRefresh_deadline authenticated stored method
      · left
        rw [act, handleCommand_deadline authenticated method held before, stored]
        simp [granted, method]
  | serverUnsubscribe name =>
      left
      rw [act] at held ⊢
      rw [serverUnsubscribe_client] at held ⊢
      have kept := lookup_unsubscribeChannel s node name channel
      simp only [Client.isSubscribed, Client.deadlineOf, kept] at held ⊢
      split
      next same => simp [same] at held
      next => exact stored
  | flushPendingJoins =>
      left
      rw [act, flushPendingJoins_client]
      exact stored
  | refreshPresence =>
      left
      rw [act, refreshPresence_client]
      exact stored
  | proactiveRefresh readings =>
      left
      obtain ⟨connInfo, expireAt, client⟩ := s.proactiveRefresh_client node readings
      rw [act, client]
      exact stored
  | interference world => exact .inl stored

/-! ## Runs -/

theorem authenticated_of_deadline (reached : Reached node s)
    (stored : s.client.deadlineOf channel = some deadline) : s.client.authenticated := by
  by_contra unauthenticated
  have none := reached.idle (by simpa using unauthenticated) channel
  rw [Client.deadlineOf, none] at stored
  cases stored

/-- The expiry timer closes a session with a subscription past its grace period. -/
theorem checkExpired_of_deadline (authenticated : s.client.authenticated)
    (stored : s.client.deadlineOf channel = some deadline) (positive : 0 < deadline)
    {now : UnixTime} (past : deadline + Client.closeDelay < now.seconds) :
    (s.client.checkExpired now).isSome := by
  obtain ⟨state, held, rfl⟩ := Option.map_eq_some_iff.mp stored
  have bounded := now.bounded
  simp only [i64Max, Client.closeDelay] at bounded past
  have exact : i64 (state.expireAt + Client.closeDelay) = state.expireAt + 25 := by
    rw [Client.closeDelay, i64_eq] <;> omega
  have passed : Client.pastDeadline now state.expireAt := by
    simp only [Client.pastDeadline, exact, Bool.and_eq_true, decide_eq_true_iff]
    omega
  have found : s.client.subscriptions.entries.any
      fun entry => Client.pastDeadline now entry.2.expireAt := by
    rw [List.any_eq_true]
    exact ⟨⟨channel, state⟩, AList.mem_lookup_iff.mp held, passed⟩
  simp only [Client.checkExpired, authenticated, found]
  split
  next h => cases h
  next => split <;> rfl

/-- Along a tracked run, the stored deadline is the one that is carried. -/
theorem tracked_deadline {actions : List Action} {s₀ s₁ : Session × Option Int}
    (run : Steps (Tracked node channel) s₀ actions s₁)
    (begin : s₀.1.client.authenticated ∧ ∃ stored, s₀.1.client.deadlineOf channel = some stored ∧
      ∀ d, s₀.2 = some d → stored = d) :
    s₁.1.client.authenticated ∧ ∃ stored, s₁.1.client.deadlineOf channel = some stored ∧
      ∀ d, s₁.2 = some d → stored = d := by
  refine run.invariant (fun s => s.1.client.authenticated ∧
    ∃ stored, s.1.client.deadlineOf channel = some stored ∧ ∀ d, s.2 = some d → stored = d)
    ?_ begin
  intro s action s' here step
  obtain ⟨authenticated, stored, before, carried⟩ := here
  obtain ⟨⟨moved, held⟩, latest⟩ := step
  rw [moved] at held ⊢
  refine ⟨act_authenticated authenticated action, ?_⟩
  obtain kept | ⟨lapsed, cleared⟩ := act_deadline authenticated before held
  · refine ⟨_, kept, fun d current => ?_⟩
    obtain grant | ⟨old, no_grant, _⟩ := (latest d).mp current
    · rw [grant]
      rfl
    · rw [no_grant]
      exact carried d old
  · refine ⟨0, cleared, fun d current => ?_⟩
    obtain grant | ⟨_, _, lasting⟩ := (latest d).mp current
    · exact absurd (renews_of_granted grant) (not_renews_of_lapses lapsed)
    · exact absurd lapsed lasting

/-- A deadline is moved to a later time only by a SUB_REFRESH with a token for this client
and channel, and removed only by such a token or by an expired one. The expiry timer closes
the session once the latest granted deadline has passed with its grace period, if no
expired token came after the grant. -/
theorem subscription_deadline {s₀ : Session} {e : Int} (reached : Reached node s₀)
    (stored : s₀.client.deadlineOf channel = some e) (positive : 0 < e) :
    (∀ actions s d, Steps (Holding node channel) s₀ actions s →
      s.client.deadlineOf channel = some d → e < d →
      ∃ front action rest m, actions = front ++ action :: rest ∧
        Steps (Holding node channel) s₀ front m ∧ m.Renews node channel action) ∧
    (∀ actions s, Steps (Holding node channel) s₀ actions s →
      s.client.deadlineOf channel = some 0 →
      ∃ front action rest m, actions = front ++ action :: rest ∧
        Steps (Holding node channel) s₀ front m ∧
        (m.Renews node channel action ∨ m.Lapses node channel action)) ∧
    ∀ actions s d now, Steps (Tracked node channel) (s₀, some e) actions (s, some d) →
      0 < d → d + Client.closeDelay < UnixTime.seconds now →
      (s.client.checkExpired now).isSome := by
  have authenticated := authenticated_of_deadline reached stored
  refine ⟨?_, ?_, ?_⟩
  · -- without a grant the deadline stays `e` or is taken away, and both are at most `e`
    intro actions s d run after later
    have outcome := run.kept_or_exists
      (fun s => s.client.authenticated ∧
        ∃ stored, s.client.deadlineOf channel = some stored ∧ stored ≤ e)
      (fun s action => s.Renews node channel action) ?_ ⟨authenticated, e, stored, le_refl e⟩
    · obtain ⟨_, stored, same, early⟩ | renewed := outcome
      · rw [same] at after
        cases after
        omega
      · exact renewed
    · intro s action s' here step
      obtain ⟨authenticated, stored, before, early⟩ := here
      obtain ⟨moved, held⟩ := step
      rw [moved] at held ⊢
      have still := @act_authenticated s node authenticated action
      obtain kept | ⟨_, cleared⟩ := act_deadline authenticated before held
      · cases grant : s.granted node channel action with
        | none =>
            rw [grant] at kept
            exact .inl ⟨still, stored, kept, early⟩
        | some d => exact .inr (renews_of_granted grant)
      · exact .inl ⟨still, 0, cleared, by omega⟩
  · intro actions s run removed
    have outcome := run.kept_or_exists
      (fun s => s.client.authenticated ∧ s.client.deadlineOf channel = some e)
      (fun s action => s.Renews node channel action ∨ s.Lapses node channel action) ?_
      ⟨authenticated, stored⟩
    · obtain kept | changed := outcome
      · rw [kept.2] at removed
        cases removed
        omega
      · exact changed
    · intro s action s' here step
      obtain ⟨moved, held⟩ := step
      rw [moved] at held ⊢
      obtain kept | ⟨lapsed, _⟩ := act_deadline here.1 here.2 held
      · cases grant : s.granted node channel action with
        | none =>
            rw [grant] at kept
            exact .inl ⟨act_authenticated here.1 action, kept⟩
        | some d => exact .inr (.inl (renews_of_granted grant))
      · exact .inr (.inr lapsed)
  · intro actions s d now run current past
    obtain ⟨live, latest, held, carried⟩ := tracked_deadline run
      ⟨authenticated, e, stored, fun d same => by cases same; rfl⟩
    exact checkExpired_of_deadline live (carried d rfl ▸ held) current past

end Session

/-! ## A subscription with an expired refresh and a later one -/

namespace Sample

def refreshOld : Action :=
  .command (readings noon) ⟨4, .subRefresh, some (privateParams oldSubscribeToken)⟩

def refreshLater : Action :=
  .command (readings noon) ⟨5, .subRefresh, some (privateParams laterSubscribeToken)⟩

theorem subscribedSession_reached : Session.Reached privateNode subscribedSession := by
  have fresh : Session.Fresh freshSession := ⟨_, _, _, _, rfl⟩
  have connected : Session.Step privateNode freshSession
    (.command (readings noon) connect) privateSession := rfl
  have subscribed : Session.Step privateNode privateSession
    (.command (readings noon) subscribePrivate) subscribedSession := rfl
  exact .next (.next (.start fresh) connected) subscribed

theorem subscribedSession_deadline : subscribedSession.client.deadlineOf "$ch" = some 90000 := by
  decide +kernel

/-- The session after a SUB_REFRESH with the expired token. -/
def lapsedSession : Session := subscribedSession.act privateNode refreshOld

theorem subscribedSession_lapses : subscribedSession.Lapses privateNode "$ch" refreshOld :=
  ⟨rfl, ⟨"$ch", oldSubscribeToken⟩, by decide +kernel, rfl, by decide +kernel⟩

theorem lapsedSession_deadline : lapsedSession.client.deadlineOf "$ch" = some 0 := by
  decide +kernel

/-- The session after one more, with the token of the later deadline. -/
def renewedSession : Session := lapsedSession.act privateNode refreshLater

open Session

theorem lapsedSession_grants :
    lapsedSession.granted privateNode "$ch" refreshLater = some 95000 := by
  decide +kernel

theorem renewedSession_deadline : renewedSession.client.deadlineOf "$ch" = some 95000 := by
  have connected : subscribedSession.client.authenticated :=
    authenticated_of_deadline subscribedSession_reached subscribedSession_deadline
  have still : lapsedSession.client.authenticated := by
    rw [lapsedSession]
    exact act_authenticated connected refreshOld
  rw [renewedSession]
  exact deadline_of_granted still lapsedSession_deadline lapsedSession_grants

theorem lapsed_holding : Holding privateNode "$ch" subscribedSession refreshOld lapsedSession :=
  ⟨rfl, isSubscribed_of_deadline lapsedSession_deadline⟩

theorem renewed_holding : Holding privateNode "$ch" lapsedSession refreshLater renewedSession :=
  ⟨rfl, isSubscribed_of_deadline renewedSession_deadline⟩

/-- The expired token drops the first grant, the valid one brings the next. -/
theorem renewed_tracked : Steps (Tracked privateNode "$ch") (subscribedSession, some 90000)
    [refreshOld, refreshLater] (renewedSession, some 95000) :=
  .cons (lapsed_holding.tracked_lapse subscribedSession_lapses _)
    (.cons (renewed_holding.tracked_grant lapsedSession_grants _) (.nil _))

end Sample

open Sample in
theorem Session.subscription_deadline_renewed :
    (∃ front action rest m, [refreshOld, refreshLater] = front ++ action :: rest ∧
      Steps (Holding privateNode "$ch") subscribedSession front m ∧
      m.Renews privateNode "$ch" action) ∧
    (∃ front action rest m, [refreshOld] = front ++ action :: rest ∧
      Steps (Holding privateNode "$ch") subscribedSession front m ∧
      (m.Renews privateNode "$ch" action ∨ m.Lapses privateNode "$ch" action)) ∧
    (renewedSession.client.checkExpired (.ofNat 95026 (by decide))).isSome := by
  obtain ⟨later, removed, closed⟩ := subscription_deadline subscribedSession_reached
    subscribedSession_deadline (by decide)
  refine ⟨?_, ?_, ?_⟩
  · exact later [refreshOld, refreshLater] renewedSession 95000
      (.cons lapsed_holding (.cons renewed_holding (.nil _))) renewedSession_deadline (by decide)
  · exact removed [refreshOld] lapsedSession (.cons lapsed_holding (.nil _)) lapsedSession_deadline
  · exact closed [refreshOld, refreshLater] renewedSession 95000 (.ofNat 95026 (by decide))
      renewed_tracked (by decide) (by decide)

/-- An expired token takes the deadline away. -/
theorem Session.not_subscription_deadline_valid :
    ¬ ∀ (node : Node) (channel : String) (s₀ s : Session) (e d : Int) (actions : List Action),
      Reached node s₀ → s₀.client.deadlineOf channel = some e → 0 < e →
      Steps (Holding node channel) s₀ actions s → s.client.deadlineOf channel = some d →
      e < d ∨ d = 0 →
      ∃ front action rest m, actions = front ++ action :: rest ∧
        Steps (Holding node channel) s₀ front m ∧ m.Renews node channel action := by
  intro all
  obtain ⟨front, action, rest, m, split, before, renews⟩ := all Sample.privateNode "$ch"
    Sample.subscribedSession Sample.lapsedSession 90000 0 [_] Sample.subscribedSession_reached
    Sample.subscribedSession_deadline (by decide) (.cons Sample.lapsed_holding (.nil _))
    Sample.lapsedSession_deadline (.inr rfl)
  obtain ⟨rfl, rfl⟩ : front = [] ∧ action = Sample.refreshOld := by
    cases front with
    | nil =>
        cases split
        exact ⟨rfl, rfl⟩
    | cons _ front => simp at split
  rw [before.eq_of_nil] at renews
  exact not_renews_of_lapses Sample.subscribedSession_lapses renews

end Centrifugo
