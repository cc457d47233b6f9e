import Centrifugo.Core.Client.Personal
import Centrifugo.Server.Startup

/-!
# Namespaces of a file

A channel is cut at the first boundary behind the private prefix, and what is in front of
the boundary is looked up among the namespaces. The check of a file looks at the names of
the namespaces only. A boundary or a prefix of letters may be found inside a name, and the
boundary may be found in the id of a user.
-/

namespace Centrifugo

open Json Guard

/-! ## The first occurrence of a boundary -/

/-- The boundary does not occur in the name, not even partly, before it stands behind it. -/
def Clear (boundary name : Text) : Prop :=
  ∀ front back, front ++ boundary ++ back = name ++ boundary → back = []

/-- The text begins with a name and the boundary, which is the first. -/
def Begins (boundary name text : Text) : Prop :=
  Clear boundary name ∧ ∃ rest, text = name ++ boundary ++ rest

section SplitOnce

variable {boundary name text front back rest : Text}

theorem isPrefixOf_eq_none {text : Text} :
    boundary.isPrefixOf? text = none ↔ ¬ boundary <+: text := by
  constructor
  · rintro missing ⟨rest, whole⟩
    rw [List.isPrefixOf?_eq_some_iff_append_eq.mpr whole] at missing
    cases missing
  · intro away
    by_contra found
    obtain ⟨rest, found⟩ := Option.ne_none_iff_exists'.mp found
    exact away ⟨rest, List.isPrefixOf?_eq_some_iff_append_eq.mp found⟩

theorem splitOnce_eq_none : splitOnce boundary text = none ↔ ¬ boundary <:+: text := by
  induction text with
  | nil => simp [splitOnce]
  | cons c text ih =>
      rw [splitOnce, List.infix_cons_iff]
      match found : boundary.isPrefixOf? (c :: text) with
      | some rest =>
          have here : boundary <+: c :: text :=
            ⟨rest, List.isPrefixOf?_eq_some_iff_append_eq.mp found⟩
          simp [here]
      | none => simp [isPrefixOf_eq_none.mp found, ih]

theorem clear_nil : Clear boundary [] := by
  intro front back same
  have lengths := congrArg List.length same
  simp only [List.length_append, List.length_nil] at lengths
  exact List.eq_nil_of_length_eq_zero (by omega)

/-- A name that is not empty is not clear of a boundary at its beginning. -/
theorem not_clear_of_leading {c : Char}
    (here : boundary <+: c :: (name ++ boundary ++ rest)) : ¬ Clear boundary (c :: name) := by
  intro clear
  have shorter : boundary <+: c :: name ++ boundary := by
    refine List.prefix_of_prefix_length_le here ⟨rest, ?_⟩ ?_
    · simp
    · simp
      omega
  obtain ⟨back, whole⟩ := shorter
  obtain rfl := clear [] back whole
  have lengths := congrArg List.length whole
  simp at lengths
  omega

theorem clear_cons {c : Char} (away : ¬ boundary <+: c :: (name ++ boundary ++ rest)) :
    Clear boundary (c :: name) ↔ Clear boundary name := by
  constructor
  · intro clear front back same
    exact clear (c :: front) back (congrArg (c :: ·) same)
  · intro clear front back same
    cases front with
    | nil =>
        refine absurd ⟨back ++ rest, ?_⟩ away
        have whole : boundary ++ back = c :: (name ++ boundary) := same
        rw [← List.append_assoc, whole]
        simp
    | cons d front =>
        obtain ⟨rfl, tails⟩ := List.cons.inj same
        exact clear front back tails

/-- The text is cut behind what is clear of the boundary. -/
theorem splitOnce_eq_some : splitOnce boundary text = some (front, back) ↔
    text = front ++ boundary ++ back ∧ Clear boundary front := by
  induction text generalizing front with
  | nil =>
      simp only [splitOnce, Option.ite_none_right_eq_some, Option.some.injEq, Prod.mk.injEq]
      constructor
      · rintro ⟨rfl, rfl, rfl⟩
        exact ⟨rfl, clear_nil⟩
      · rintro ⟨whole, -⟩
        simp only [List.nil_eq, List.append_eq_nil_iff] at whole
        exact ⟨whole.1.2, whole.1.1.symm, whole.2.symm⟩
  | cons c text ih =>
      rw [splitOnce]
      match found : boundary.isPrefixOf? (c :: text) with
      | some rest =>
          have here := List.isPrefixOf?_eq_some_iff_append_eq.mp found
          simp only [Option.some.injEq, Prod.mk.injEq]
          constructor
          · rintro ⟨rfl, rfl⟩
            exact ⟨here.symm, clear_nil⟩
          · rintro ⟨whole, clear⟩
            cases front with
            | nil => exact ⟨rfl, List.append_cancel_left (here.trans whole)⟩
            | cons d front =>
                obtain ⟨rfl, tails⟩ := List.cons.inj whole
                exact absurd clear
                  (@not_clear_of_leading boundary front back _ ⟨rest, here.trans whole⟩)
      | none =>
          have away := isPrefixOf_eq_none.mp found
          constructor
          · intro cut
            obtain ⟨⟨front', back'⟩, later, same⟩ := Option.map_eq_some_iff.mp cut
            cases same
            obtain ⟨rfl, clear⟩ := ih.mp later
            exact ⟨rfl, (clear_cons away).mpr clear⟩
          · rintro ⟨whole, clear⟩
            cases front with
            | nil => exact absurd ⟨back, whole.symm⟩ away
            | cons d front =>
                obtain ⟨rfl, rfl⟩ := List.cons.inj whole
                rw [ih.mpr ⟨rfl, (clear_cons away).mp clear⟩]
                rfl

end SplitOnce

/-! ## What a channel is read as -/

namespace Namespaces

variable {registry : Namespaces} {channel : String}

/-- A channel without the private prefix. -/
def trimmed (registry : Namespaces) (channel : String) : Text :=
  (registry.privatePrefix.toList.isPrefixOf? channel.toList).getD channel.toList

/-- There is no boundary in the text. -/
def Unbounded (registry : Namespaces) (text : Text) : Prop :=
  registry.namespaceBoundary = "" ∨ ¬ registry.namespaceBoundary.toList <:+: text

theorem channelOptions_of_unbounded (none : registry.Unbounded (registry.trimmed channel)) :
    registry.channelOptions channel = some registry.default := by
  rw [channelOptions]
  split
  · rfl
  · rename_i bounded
    have uncut := splitOnce_eq_none.mpr (none.resolve_left bounded)
    rw [trimmed] at uncut
    rw [uncut]

theorem channelOptions_of_begins {name : String} (bounded : registry.namespaceBoundary ≠ "")
    (begins : Begins registry.namespaceBoundary.toList name.toList (registry.trimmed channel)) :
    registry.channelOptions channel = registry.namespaces.lookup name := by
  obtain ⟨clear, rest, whole⟩ := begins
  have cut := splitOnce_eq_some.mpr ⟨whole, clear⟩
  rw [trimmed] at cut
  simp only [channelOptions, if_neg bounded, cut]
  exact congrArg (fun key => registry.namespaces.lookup key) String.ofList_toList

/-- A channel with a boundary begins with what stands in front of it. -/
theorem unbounded_or_begins (registry : Namespaces) (text : Text) :
    registry.Unbounded text ∨ registry.namespaceBoundary ≠ "" ∧
      ∃ name : String, Begins registry.namespaceBoundary.toList name.toList text := by
  by_cases bounded : registry.namespaceBoundary = ""
  · exact .inl (.inl bounded)
  match cut : splitOnce registry.namespaceBoundary.toList text with
  | none => exact .inl (.inr (splitOnce_eq_none.mp cut))
  | some (front, back) =>
      obtain ⟨whole, clear⟩ := splitOnce_eq_some.mp cut
      refine .inr ⟨bounded, String.ofList front, ?_⟩
      rw [String.toList_ofList]
      exact ⟨clear, back, whole⟩

end Namespaces

/-- Only one name stands in front of the first boundary. -/
theorem Begins.unique {boundary name name' text : Text} (h : Begins boundary name text)
    (h' : Begins boundary name' text) : name = name' := by
  obtain ⟨clear, rest, whole⟩ := h
  obtain ⟨clear', rest', whole'⟩ := h'
  have cut := splitOnce_eq_some.mpr ⟨whole, clear⟩
  rw [splitOnce_eq_some.mpr ⟨whole', clear'⟩] at cut
  exact (Prod.mk.inj (Option.some.inj cut)).1.symm

/-! ## The namespaces of an accepted file -/

section File

variable {fc : FileConfig} {ns ns' : NamespaceCfg} {channel rest rest' : String}

theorem FileConfig.Accepted.lookup (h : fc.Accepted) (declared : ns ∈ fc.namespaces) :
    fc.registry.namespaces.lookup ns.name = some ns.options :=
  (lookup_collectNamespaces h.unique).mpr declared

theorem FileConfig.Accepted.eq_of_name (h : fc.Accepted) (declared : ns ∈ fc.namespaces)
    (declared' : ns' ∈ fc.namespaces) (same : ns.name = ns'.name) : ns = ns' := by
  obtain ⟨name, options⟩ := ns
  obtain ⟨name', options'⟩ := ns'
  obtain rfl : name = name' := same
  have found := h.lookup declared
  rw [h.lookup declared'] at found
  exact congrArg _ (Option.some.inj found).symm

namespace Namespaces

variable {registry : Namespaces}

theorem trimmed_append (text : String) :
    registry.trimmed (registry.privatePrefix ++ text) = text.toList := by
  rw [trimmed, List.isPrefixOf?_eq_some_iff_append_eq.mpr (String.toList_append).symm]
  rfl

theorem trimmed_suffix : registry.trimmed channel <:+ channel.toList := by
  rw [trimmed]
  match found : registry.privatePrefix.toList.isPrefixOf? channel.toList with
  | some rest => exact ⟨_, List.isPrefixOf?_eq_some_iff_append_eq.mp found⟩
  | none => exact List.suffix_rfl

/-- A channel that does not begin with the private prefix is left as it is, and so is every
channel when the prefix is empty. -/
theorem trimmed_of_not_private (free : registry.privatePrefix = "" ∨
    ¬ registry.privatePrefix.toList <+: channel.toList) :
    registry.trimmed channel = channel.toList := by
  rw [trimmed]
  rcases free with empty | away
  · rw [empty]
    cases channel.toList <;> rfl
  · rw [isPrefixOf_eq_none.mpr away, Option.getD_none]

end Namespaces

/-- A channel in the namespace of a file, behind the private prefix or where it is not begun
with, has the options of the namespace, when the boundary is first found behind the name. No
other namespace has such a channel. A channel without a boundary has the default options. -/
theorem namespaces_of_checkConfig {body : FileBody} (accepted : checkConfig body = .ok ()) :
    let fc := body.config
    let boundary := fc.channelNamespaceBoundary
    (∀ ns ∈ fc.namespaces, boundary ≠ "" → Clear boundary.toList ns.name.toList →
      ∀ rest : String,
        fc.registry.channelOptions (fc.channelPrivatePrefix ++ (ns.name ++ boundary ++ rest)) =
            some ns.options ∧
          (fc.channelPrivatePrefix = "" ∨
              ¬ fc.channelPrivatePrefix.toList <+: (ns.name ++ boundary ++ rest).toList →
            fc.registry.channelOptions (ns.name ++ boundary ++ rest) = some ns.options)) ∧
    (∀ ns ∈ fc.namespaces, ∀ ns' ∈ fc.namespaces, ns ≠ ns' →
      Clear boundary.toList ns.name.toList → Clear boundary.toList ns'.name.toList →
        ∀ rest rest' : String, ns.name ++ boundary ++ rest ≠ ns'.name ++ boundary ++ rest') ∧
    ∀ channel : String, boundary = "" ∨ ¬ boundary.toList <:+: channel.toList →
      fc.registry.channelOptions channel = some fc.options := by
  have rules := validateFileConfig_eq_ok.mp accepted
  intro fc boundary
  have begins : ∀ (ns : NamespaceCfg) (rest : String), Clear boundary.toList ns.name.toList →
      Begins boundary.toList ns.name.toList (ns.name ++ boundary ++ rest).toList := by
    intro ns rest clear
    exact ⟨clear, rest.toList, by simp⟩
  refine ⟨?_, ?_, ?_⟩
  · intro ns declared bounded clear rest
    have found := rules.lookup declared
    constructor
    · rw [← found]
      refine Namespaces.channelOptions_of_begins bounded ?_
      have start := @Namespaces.trimmed_append fc.registry (ns.name ++ boundary ++ rest)
      exact start ▸ begins ns rest clear
    · intro free
      rw [← found]
      refine Namespaces.channelOptions_of_begins bounded ?_
      rw [Namespaces.trimmed_of_not_private free]
      exact begins ns rest clear
  · intro ns declared ns' declared' differ clear clear' rest rest' same
    refine differ (rules.eq_of_name declared declared' (String.toList_inj.mp ?_))
    exact (begins ns rest clear).unique (same ▸ begins ns' rest' clear')
  · intro channel none
    refine Namespaces.channelOptions_of_unbounded (none.imp_right fun absent => ?_)
    exact fun inside => absent (inside.trans Namespaces.trimmed_suffix.isInfix)

end File

namespace Sample

/-- A file with two namespaces, of which the first has presence. -/
def chats : FileBody where
  namespaces := some [⟨"chat.v2", { presence := true }⟩, ⟨"chat", {}⟩]

/-- The boundary stands in the name of the first namespace. -/
def dotted : FileBody := { chats with
  texts
    | "channel_namespace_boundary" => some "."
    | _ => none }

/-- The private prefix is a letter that names begin with. -/
def lettered : FileBody := { chats with
  texts
    | "channel_private_prefix" => some "c"
    | _ => none }

/-- Without a boundary there are no namespaces. -/
def boundless : FileBody := { chats with
  texts
    | "channel_namespace_boundary" => some ""
    | _ => none }

end Sample

theorem namespaces_of_checkConfig_chats :
    checkConfig Sample.chats = .ok () ∧
      ∀ channel : String, ":" = "" ∨ ¬ ":".toList <:+: channel.toList →
        Sample.chats.config.registry.channelOptions channel = some Sample.chats.config.options :=
  ⟨by decide +kernel, (@namespaces_of_checkConfig Sample.chats (by decide +kernel)).2.2⟩

/-- Accepted files with a channel of the namespace `chat.v2` that has the options of another,
is in no namespace at all, or has the default options. -/
theorem not_namespaces_of_checkConfig :
    (checkConfig Sample.dotted = .ok () ∧
      Sample.dotted.config.registry.channelOptions "chat.v2.room" = some {}) ∧
    (checkConfig Sample.lettered = .ok () ∧
      Sample.lettered.config.registry.channelOptions "chat.v2:room" = none) ∧
    checkConfig Sample.boundless = .ok () ∧
      Sample.boundless.config.registry.channelOptions "chat.v2room" = some {} := by
  decide +kernel

/-! ## Personal channels -/

namespace FileConfig

variable {fc : FileConfig} {user personal : String}

/-- The options that personal channels should have. -/
def personalOptions (fc : FileConfig) : ChannelOptions :=
  if fc.userPersonalChannelNamespace = "" then fc.options
  else (fc.registry.namespaces.lookup fc.userPersonalChannelNamespace).getD fc.options

/-- A text is in the namespace when that is what stands in front of its first boundary. -/
def Within (fc : FileConfig) (name : String) (text : Text) : Prop :=
  fc.channelNamespaceBoundary ≠ "" ∧
    Begins fc.channelNamespaceBoundary.toList name.toList text

theorem Accepted.channelOptions_iff (h : fc.Accepted) {channel : String}
    {options : ChannelOptions} : fc.registry.channelOptions channel = some options ↔
      (fc.registry.Unbounded (fc.registry.trimmed channel) ∧ fc.options = options) ∨
        ∃ ns ∈ fc.namespaces, fc.Within ns.name (fc.registry.trimmed channel) ∧
          ns.options = options := by
  rcases fc.registry.unbounded_or_begins (fc.registry.trimmed channel) with
    none | ⟨bounded, name, begins⟩
  · have notWithin : ∀ name, ¬ fc.Within name (fc.registry.trimmed channel) := by
      rintro name ⟨bounded, clear, rest, whole⟩
      rcases none with empty | absent
      · exact bounded empty
      · exact absent ⟨name.toList, rest, whole.symm⟩
    rw [Namespaces.channelOptions_of_unbounded none]
    constructor
    · intro own
      exact .inl ⟨none, Option.some.inj own⟩
    · rintro (⟨-, own⟩ | ⟨ns, -, within, -⟩)
      · exact congrArg _ own
      · exact absurd within (notWithin _)
  · have bound : ¬ fc.registry.Unbounded (fc.registry.trimmed channel) := by
      rintro (empty | absent)
      · exact bounded empty
      · obtain ⟨-, rest, whole⟩ := begins
        exact absent ⟨name.toList, rest, whole.symm⟩
    rw [Namespaces.channelOptions_of_begins bounded begins]
    constructor
    · intro found
      exact .inr ⟨⟨name, options⟩, (lookup_collectNamespaces h.unique).mp found,
        ⟨bounded, begins⟩, rfl⟩
    · rintro (⟨none, -⟩ | ⟨ns, declared, ⟨-, begins'⟩, rfl⟩)
      · exact absurd none bound
      · have same : name = ns.name := String.toList_inj.mp (begins.unique begins')
        rw [same]
        exact h.lookup declared

/-- What is asked of the personal channel of a user: it has its options, nobody else has it,
and a CONNECT whose credentials are for that user is not refused for it. -/
structure ServesPersonal (fc : FileConfig) (user personal : String) : Prop where
  options : fc.registry.channelOptions personal = some fc.personalOptions
  distinct : ∀ other, fc.registry.personalChannel other = some personal → other = user
  admits : ∀ (s : Session) (node : Node) (readings : Readings) (req : ConnectRequest)
    (creds : Session.Creds), node.namespaces = fc.registry →
      s.connectCreds node readings req = .ok (some creds) → creds.user = user →
        (∀ channel ∈ creds.channels, (node.channelOptions channel).isSome = true) →
          s.checkConnect node readings req ≠ .error (.error .unknownChannel)

/-- The text of the channel, without the private prefix, has no boundary when there is no
namespace of personal channels, and begins with that namespace when there is one. Else it is
without a boundary, or in another namespace, that has the same options. -/
def ReadsPersonal (fc : FileConfig) (text : Text) : Prop :=
  (fc.userPersonalChannelNamespace = "" ∧ fc.registry.Unbounded text) ∨
  (fc.userPersonalChannelNamespace ≠ "" ∧ fc.Within fc.userPersonalChannelNamespace text) ∨
  (fc.userPersonalChannelNamespace ≠ "" ∧ fc.registry.Unbounded text ∧
    fc.options = fc.personalOptions) ∨
  ∃ ns ∈ fc.namespaces, ns.name ≠ fc.userPersonalChannelNamespace ∧ fc.Within ns.name text ∧
    ns.options = fc.personalOptions

theorem Accepted.personalOptions_declared (h : fc.Accepted)
    (named : fc.userPersonalChannelNamespace ≠ "") :
    ⟨fc.userPersonalChannelNamespace, fc.personalOptions⟩ ∈ fc.namespaces := by
  obtain ⟨⟨name, options⟩, declared, same⟩ := List.mem_map.mp (h.personal named)
  obtain rfl : name = fc.userPersonalChannelNamespace := same
  have own : fc.personalOptions = options := by
    rw [personalOptions, if_neg named]
    exact congrArg (·.getD fc.options) (h.lookup declared)
  rw [own]
  exact declared

theorem Accepted.readsPersonal_iff (h : fc.Accepted) :
    fc.registry.channelOptions personal = some fc.personalOptions ↔
      fc.ReadsPersonal (fc.registry.trimmed personal) := by
  rw [h.channelOptions_iff, ReadsPersonal]
  by_cases top : fc.userPersonalChannelNamespace = ""
  · have own : fc.options = fc.personalOptions := (if_pos top).symm
    constructor
    · rintro (⟨none, -⟩ | ⟨ns, declared, within, same⟩)
      · exact .inl ⟨top, none⟩
      · refine .inr (.inr (.inr ⟨ns, declared, fun empty => ?_, within, same⟩))
        have valid := (h.namespaces ns declared).1
        rw [empty, top] at valid
        exact absurd valid (by decide)
    · rintro (⟨-, none⟩ | ⟨named, -⟩ | ⟨named, -⟩ | ⟨ns, declared, -, within, same⟩)
      · exact .inl ⟨none, own⟩
      · exact absurd top named
      · exact absurd top named
      · exact .inr ⟨ns, declared, within, same⟩
  · have declared := h.personalOptions_declared top
    constructor
    · rintro (⟨none, same⟩ | ⟨ns, declared', within, same⟩)
      · exact .inr (.inr (.inl ⟨top, none, same⟩))
      · by_cases own : ns.name = fc.userPersonalChannelNamespace
        · exact .inr (.inl ⟨top, own ▸ within⟩)
        · exact .inr (.inr (.inr ⟨ns, declared', own, within, same⟩))
    · rintro (⟨empty, -⟩ | ⟨-, within⟩ | ⟨-, none, same⟩ | ⟨ns, declared', -, within, same⟩)
      · exact absurd empty top
      · exact .inr ⟨_, declared, within, rfl⟩
      · exact .inl ⟨none, same⟩
      · exact .inr ⟨ns, declared', within, same⟩

/-- A CONNECT whose channels are all known is not refused for a channel. -/
theorem admits_of_known {s : Session} {node : Node} {readings : Readings} {req : ConnectRequest}
    {creds : Session.Creds} (established : s.connectCreds node readings req = .ok (some creds))
    (known : ∀ channel ∈ Session.connectChannels node creds,
      (node.channelOptions channel).isSome = true) :
    s.checkConnect node readings req = .ok creds := by
  have all : ((Session.connectChannels node creds).all fun channel =>
      (node.channelOptions channel).isSome) = true := List.all_eq_true.mpr known
  simp only [Session.checkConnect, bind_eq_ok]
  exact ⟨some creds, established, creds, rfl, (), demand_eq_ok.mpr all, rfl⟩

/-- A personal channel is served exactly when it is read as what it was put together from. -/
theorem servesPersonal_iff {body : FileBody} (accepted : checkConfig body = .ok ())
    (own : body.config.registry.personalChannel user = some personal) :
    body.config.ServesPersonal user personal ↔
      body.config.ReadsPersonal (body.config.registry.trimmed personal) := by
  have rules := validateFileConfig_eq_ok.mp accepted
  rw [← rules.readsPersonal_iff]
  constructor
  · exact ServesPersonal.options
  · intro found
    refine ⟨found, fun other own' => Namespaces.personalChannel_injective own' own, ?_⟩
    intro s node readings req creds registered established same known refused
    have admitted := admits_of_known established fun channel mem => by
      rcases Session.mem_connectChannels mem with listed | mine
      · exact known channel listed
      · rw [registered, same, own] at mine
        obtain rfl := Option.some.inj mine
        rw [Node.channelOptions, registered, found]
        rfl
    rw [admitted] at refused
    cases refused

end FileConfig

namespace Sample

/-- A file that turns personal channels on. -/
def personalBody : FileBody where
  flags
    | "user_subscribe_to_personal" => some true
    | _ => none

end Sample

namespace FileConfig

theorem servesPersonal_iff_ann :
    Sample.personalBody.config.ServesPersonal "ann" "#ann" ↔
      Sample.personalBody.config.ReadsPersonal
        (Sample.personalBody.config.registry.trimmed "#ann") :=
  servesPersonal_iff (by decide +kernel) (by decide +kernel)

/-- The personal channel of user "a:b" is read as one of a namespace "#a", and a CONNECT with a
valid token of that user is refused. -/
theorem not_servesPersonal :
    checkConfig Sample.personalBody = .ok () ∧
      Sample.personalBody.config.registry.personalChannel "a:b" = some "#a:b" ∧
      Sample.personalBody.config.registry.channelOptions "#a:b" = none ∧
      Sample.personalNode.namespaces = Sample.personalBody.config.registry ∧
      ((Sample.arrival "a:b" []).handleCommand Sample.personalNode (Sample.readings Sample.noon)
        ⟨1, .connect, some ⟨[]⟩⟩).2 = ⟨[.err 1 .unknownChannel], none⟩ :=
  ⟨by decide +kernel, by decide +kernel, by decide +kernel, rfl, by decide +kernel⟩

end FileConfig

end Centrifugo
