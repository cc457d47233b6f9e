import Centrifugo.Core.Client.Run

/-!
# Personal channels

The name of a personal channel ends in the id of its user, and the end of a channel name is read
as a list of the users that may subscribe. The two agree on ids without a separator. In another
id each part of the list is a user of its own, who may subscribe as well.
-/

namespace Centrifugo

open Json Guard

/-- What follows the last separator of a text with a separator in front. -/
theorem afterLast_append_cons (c : Char) (front back : Text) :
    afterLast c (front ++ c :: back) = some ((afterLast c back).getD back) := by
  have cut : c ∈ front ++ c :: back := by simp
  rw [afterLast, if_pos cut, List.reverse_append, List.reverse_cons, List.append_assoc,
    List.takeWhile_append]
  by_cases inside : c ∈ back
  · have stops : (back.reverse.takeWhile (· ≠ c)).length ≠ back.reverse.length := by
      intro all
      have whole := (List.takeWhile_prefix _).eq_of_length all
      have every := List.takeWhile_eq_self_iff.mp whole c (List.mem_reverse.mpr inside)
      simp at every
    rw [if_neg stops, afterLast, if_pos inside, Option.getD_some]
  · have past : back.reverse.takeWhile (· ≠ c) = back.reverse := by
      rw [List.takeWhile_eq_self_iff]
      intro a mem
      have differs : a ≠ c := by
        rintro rfl
        exact inside (List.mem_reverse.mp mem)
      simpa using differs
    rw [if_pos (congrArg List.length past), afterLast, if_neg inside, Option.getD_none]
    simp

namespace Namespaces

variable {registry : Namespaces} {user other personal : String}

/-- What stands before the boundary in the name of a personal channel. -/
def personalFront (registry : Namespaces) : Text :=
  if registry.userPersonalChannelNamespace = "" then []
  else registry.userPersonalChannelNamespace.toList ++ registry.namespaceBoundary.toList

/-- The users that the personal channel of a user is open to. -/
def sharers (user : String) : List Text :=
  ((afterLast '#' user.toList).getD user.toList).splitOn ','

theorem toList_personalChannel (own : registry.personalChannel user = some personal) :
    personal.toList = registry.personalFront ++ '#' :: user.toList := by
  unfold personalChannel at own
  split at own
  · cases own
  split at own
  next top =>
    cases own
    simp [personalFront, top]
  next named =>
    cases own
    simp [personalFront, named]

/-- Two users have different personal channels. -/
theorem personalChannel_injective (own : registry.personalChannel user = some personal)
    (own' : registry.personalChannel other = some personal) : user = other := by
  have name := toList_personalChannel own
  rw [toList_personalChannel own'] at name
  have rest := List.append_cancel_left name
  exact String.toList_inj.mp (List.cons.inj rest).2.symm

theorem userAllowed_personalChannel (own : registry.personalChannel user = some personal) :
    userAllowed personal other ↔ other.toList ∈ sharers user := by
  unfold userAllowed
  rw [toList_personalChannel own, afterLast_append_cons]
  simp [sharers]

/-- An id without separators is shared with nobody. -/
theorem sharers_of_plain (comma : ',' ∉ user.toList) (boundary : '#' ∉ user.toList) :
    sharers user = [user.toList] := by
  rw [sharers, afterLast, if_neg boundary, Option.getD_none]
  exact List.splitOn_eq_singleton comma

end Namespaces

namespace Session

variable {s : Session} {node : Node} {u personal : String}

/-! ## How a session gets into a personal channel -/

/-- The steps that may take a session into the personal channel of a user: a CONNECT that is
granted the identity of the user or one that lists the channel, and a SUBSCRIBE to the channel
by one of those that it is open to. -/
def Takes (node : Node) (s : Session) (u personal : String) : Action → Prop
  | .command readings cmd =>
      (cmd.method = .connect ∧ ∃ req creds, s.parseConnect node cmd = .ok req ∧
        (s.identify readings.uuid).checkConnect node readings req = .ok creds ∧
        (creds.user = u ∨ personal ∈ creds.channels)) ∨
      (cmd.method = .subscribe ∧ ∃ req opts grant,
        s.checkSubscribe node readings cmd = .ok (req, opts, grant) ∧ req.channel = personal ∧
        s.client.user.toList ∈ Namespaces.sharers u)
  | _ => False

theorem isSubscribed_insert (client : Client) (channel : String) (state : SubState)
    (held : ((client.subscriptions.insert channel state).lookup personal).isSome) :
    personal = channel ∨ client.isSubscribed personal := by
  rw [Map.lookup_insert_eq] at held
  split at held
  next same => exact .inl same
  next => exact .inr held

theorem isSubscribed_serverSideSubscribes {readings : Readings} {channels : List String}
    {subs : Map String SubscribeResult} {i : Nat}
    (held : (serverSideSubscribes node readings s subs i channels).1.client.isSubscribed personal) :
    personal ∈ channels ∨ s.client.isSubscribed personal := by
  induction channels generalizing s subs i with
  | nil => exact .inr held
  | cons channel channels ih =>
      obtain listed | before := @ih
        (s.serverSideSubscribe node (readings.engine i) (readings.epoch i) channel).1 _ _ held
      · exact .inl (List.mem_cons_of_mem _ listed)
      · rw [serverSideSubscribe_client] at before
        obtain rfl | before := isSubscribed_insert _ _ _ before
        · exact .inl List.mem_cons_self
        · exact .inr before

theorem isSubscribed_applyConnect {readings : Readings} {cmd : Command} {creds : Creds}
    (held : (s.applyConnect node readings cmd creds).1.client.isSubscribed personal) :
    personal ∈ connectChannels node creds ∨ s.client.isSubscribed personal := by
  simp only [applyConnect] at held
  split at held
  · exact .inr held
  · exact @isSubscribed_serverSideSubscribes (s.authenticate creds).register _ _ _ _ _ _ held

theorem userAllowed_of_checkSubscribe {readings : Readings} {cmd : Command}
    {req : SubscribeRequest} {opts : ChannelOptions} {grant : Grant}
    (checked : s.checkSubscribe node readings cmd = .ok (req, opts, grant)) :
    userAllowed req.channel s.client.user := by
  simp only [checkSubscribe, require_bind, demand_bind] at checked
  obtain ⟨parsed, -, -, -, -, -, options, -, -, -, allowed, checked⟩ := checked
  obtain ⟨authorized, -, same⟩ := bind_eq_ok.mp checked
  cases same
  exact allowed

theorem isSubscribed_unsubscribeChannel {channel : String}
    (held : (s.unsubscribeChannel node channel).client.isSubscribed personal) :
    s.client.isSubscribed personal := by
  rw [Client.isSubscribed, lookup_unsubscribeChannel] at held
  split at held
  · cases held
  · exact held

theorem isSubscribed_updateSubscription {channel : String} {change : SubState → SubState}
    (held : (s.updateSubscription channel change).client.isSubscribed personal) :
    s.client.isSubscribed personal := by
  change ((s.client.subscriptions.alter channel (Option.map change)).lookup personal).isSome
    at held
  rw [Map.lookup_alter] at held
  split at held
  next same =>
    rw [Option.isSome_map, ← same] at held
    exact held
  next => exact held

/-- A session gets into a personal channel by no other step. -/
theorem isSubscribed_act (own : node.namespaces.personalChannel u = some personal)
    (action : Action) (held : (s.act node action).client.isSubscribed personal) :
    s.client.isSubscribed personal ∨ Takes node s u personal action := by
  cases action with
  | command readings cmd =>
      have effect := s.handleCommand_effect node readings cmd
      rw [Session.act] at held
      generalize s.handleCommand node readings cmd = after at effect held
      cases effect with
      | connected req creds method parsed checked =>
          obtain mem | before := isSubscribed_applyConnect held
          · refine .inr (.inl ⟨method, req, creds, parsed, checked, ?_⟩)
            obtain listed | mine := mem_connectChannels mem
            · exact .inr listed
            · exact .inl (Namespaces.personalChannel_injective mine own)
          · exact .inl before
      | subscribed req opts grant method _ checked =>
          rw [applySubscribe_client] at held
          obtain asked | before := isSubscribed_insert _ _ _ held
          · have allowed := userAllowed_of_checkSubscribe checked
            rw [← asked, Namespaces.userAllowed_personalChannel own] at allowed
            exact .inr (.inr ⟨method, req, opts, grant, checked, asked.symm, allowed⟩)
          · exact .inl before
      | unsubscribed channel _ _ _ => exact .inl (isSubscribed_unsubscribeChannel held)
      | refreshed ct _ _ _ =>
          rw [applyRefresh_client] at held
          exact .inl held
      | subRefreshed channel token _ _ _ =>
          rw [applySubRefresh_session] at held
          exact .inl (isSubscribed_updateSubscription held)
      | _ => exact .inl held
  | serverUnsubscribe channel =>
      rw [Session.act, serverUnsubscribe_client] at held
      exact .inl (isSubscribed_unsubscribeChannel held)
  | flushPendingJoins =>
      rw [Session.act, flushPendingJoins_client] at held
      exact .inl held
  | refreshPresence =>
      rw [Session.act, refreshPresence_client] at held
      exact .inl held
  | proactiveRefresh readings =>
      obtain ⟨connInfo, expireAt, client⟩ := s.proactiveRefresh_client node readings
      rw [Session.act, client] at held
      exact .inl held
  | interference world => exact .inl held

end Session

namespace Sample

/-- A node with personal channels whose decoders know two requests. -/
def personalNode : Node := { node with
  namespaces := { userSubscribeToPersonal := true }
  decoders := { decoders with
    connect := fun _ _ => some { token := "jwt" }
    subscribe := fun _ _ => some { channel := "#a,b" } } }

/-- A verifier that takes every connection token as one for a user with these channels. -/
def issued (user : String) (channels : List String) : TokenVerifier := { verifier with
  codec := { verifier.codec with
    decodeHeader := fun _ => some ⟨.hs256, none⟩
    decodeConnect := fun _ _ _ => some { sub := some user, channels := some channels } }
  hmac := some ⟨[]⟩ }

/-- A new session that presents such a token. -/
def arrival (user : String) (channels : List String) : Session where
  client := { proto := .json, tx := 0 }
  world := { world with verifier := issued user channels }

def arrive : Action := .command (readings noon) ⟨1, .connect, some ⟨[]⟩⟩

def subscribeShared : Action := .command (readings noon) ⟨2, .subscribe, some ⟨[]⟩⟩

end Sample

namespace Session

variable {s : Session} {node : Node} {u personal : String}

/-- In every run, a session that is in the personal channel of a user was taken into it by a
CONNECT for that user or one that lists the channel, or by a SUBSCRIBE of a user that the
channel is open to, and has been in it since. The channel of an id without separators is open to
that user only. -/
theorem personal_channel_guarded {s₀ : Session} {actions : List Action} (fresh : s₀.Fresh)
    (own : node.namespaces.personalChannel u = some personal)
    (run : Steps (Session.Step node) s₀ actions s) (held : s.client.isSubscribed personal) :
    (',' ∉ u.toList → '#' ∉ u.toList → Namespaces.sharers u = [u.toList]) ∧
    ∃ front action rest m, actions = front ++ action :: rest ∧
      Steps (Session.Step node) s₀ front m ∧ Takes node m u personal action ∧
      Steps (guarded (Session.Step node) fun k _ => k.client.isSubscribed personal)
        (m.act node action) rest s := by
  refine ⟨Namespaces.sharers_of_plain, ?_⟩
  have outside : ¬ s₀.client.isSubscribed personal := by
    obtain ⟨proto, transport, tx, ctrl, client⟩ := fresh
    rw [client]
    intro held
    cases held
  have keep : ∀ s action s', ¬ s.client.isSubscribed personal → Session.Step node s action s' →
      ¬ s'.client.isSubscribed personal ∨ Takes node s u personal action := by
    rintro s action _ out rfl
    by_cases into : (s.act node action).client.isSubscribed personal
    · exact .inr ((isSubscribed_act own action into).resolve_left out)
    · exact .inl into
  obtain still | ⟨front, action, rest, m, m', split, before, takes, move, since⟩ :=
    run.kept_or_lost _ _ keep outside
  · exact absurd held still
  · cases move
    refine ⟨front, action, rest, m, split, before, takes, ?_⟩
    simpa only [not_not] using since

/-- The token of one user lists the channel of another. -/
theorem personal_channel_guarded_listed : ∃ front action rest m,
    [Sample.arrive] = front ++ action :: rest ∧
      Steps (Session.Step Sample.personalNode) (Sample.arrival "bob" ["#ann"]) front m ∧
      Takes Sample.personalNode m "ann" "#ann" action ∧
      Steps (guarded (Session.Step Sample.personalNode)
        fun k _ => k.client.isSubscribed "#ann") (m.act Sample.personalNode action) rest
        ((Sample.arrival "bob" ["#ann"]).act Sample.personalNode Sample.arrive) :=
  (@personal_channel_guarded _ _ "ann" "#ann" _ [Sample.arrive]
    ⟨.json, "websocket", 0, none, rfl⟩ (by decide) (.cons rfl (.nil _)) (by decide +kernel)).2

/-- User a subscribes without a token to the personal channel of user "a,b". A token for user
bob that lists the personal channel of ann puts him there. -/
theorem not_personal_exclusive :
    (Sample.personalNode.namespaces.personalChannel "a,b" = some "#a,b" ∧
      let s := (Sample.arrival "a" []).act Sample.personalNode Sample.arrive
      s.client.user = "a" ∧ s.client.isSubscribed "#a,b" = false ∧
        (s.act Sample.personalNode Sample.subscribeShared).client.isSubscribed "#a,b") ∧
    (Sample.personalNode.namespaces.personalChannel "ann" = some "#ann" ∧
      let s := (Sample.arrival "bob" ["#ann"]).act Sample.personalNode Sample.arrive
      s.client.user = "bob" ∧ s.client.isSubscribed "#ann") := by
  decide +kernel

end Session

end Centrifugo
