import Centrifugo.Redis.Bus

/-!
# Who is in the cluster

A node pings the others about itself, and keeps what it has heard of each of them with the time
at which it heard it. Now and then it forgets the nodes that it has not heard of for a while. It
never forgets itself.

Pings may be lost, arrive late or out of order. The clock of a node does not go back.
-/

namespace Centrifugo

open Json

/-- The known nodes, each with the time of its last ping in milliseconds. -/
structure NodeRegistry where
  selfUid : String
  nodes : Map String (NodeInfoData × Int) := ∅

namespace NodeRegistry

def new (selfUid : String) : NodeRegistry := { selfUid }

def add (registry : NodeRegistry) (now : Int) (info : NodeInfoData) : NodeRegistry :=
  { registry with nodes := registry.nodes.insert info.uid (info, now) }

def list (registry : NodeRegistry) : List NodeInfoData :=
  registry.nodes.toPairs.map fun entry => entry.2.1

def clean (registry : NodeRegistry) (now maxAge : Int) : NodeRegistry :=
  { registry with
    nodes := registry.nodes.retain fun uid node =>
      uid == registry.selfUid || now - node.2 ≤ maxAge }

/-- Each node is known under its own uid. -/
def Keyed (registry : NodeRegistry) : Prop :=
  ∀ uid node, registry.nodes.lookup uid = some node → node.1.uid = uid

theorem lookup_add (registry : NodeRegistry) (now : Int) (info : NodeInfoData) (uid : String) :
    (registry.add now info).nodes.lookup uid =
      if uid = info.uid then some (info, now) else registry.nodes.lookup uid :=
  Map.lookup_insert_eq _ _ _ _

theorem lookup_clean (registry : NodeRegistry) (now maxAge : Int) (uid : String) :
    (registry.clean now maxAge).nodes.lookup uid = (registry.nodes.lookup uid).filter fun node =>
      uid == registry.selfUid || now - node.2 ≤ maxAge :=
  Map.lookup_retain _ _ _

theorem mem_list {registry : NodeRegistry} (keyed : registry.Keyed) {info : NodeInfoData} :
    info ∈ registry.list ↔ ∃ seen, registry.nodes.lookup info.uid = some (info, seen) := by
  rw [list, List.mem_map]
  constructor
  · intro h
    obtain ⟨⟨uid, node⟩, mem, rfl⟩ := h
    have found : registry.nodes.lookup uid = some node := Map.mem_toPairs.mp mem
    have own : node.1.uid = uid := keyed _ _ found
    rw [← own] at found
    exact ⟨node.2, found⟩
  · intro h
    obtain ⟨seen, found⟩ := h
    exact ⟨(info.uid, info, seen), Map.mem_toPairs.mpr found, rfl⟩

/-- No node is listed twice. -/
theorem nodup_list {registry : NodeRegistry} (keyed : registry.Keyed) :
    (registry.list.map NodeInfoData.uid).Nodup := by
  have uids : registry.list.map NodeInfoData.uid = registry.nodes.entries.keys := by
    rw [list, Map.toPairs, List.map_map, List.map_map, List.keys]
    refine List.map_congr_left fun entry mem => ?_
    exact keyed entry.1 entry.2 (AList.mem_lookup_iff.mpr mem)
  rw [uids]
  exact registry.nodes.keys_nodup

end NodeRegistry

/-- The time after which a node is forgotten. -/
def nodeInfoMaxDelay : Int := 7000

/-- The nodes with their clocks, the published pings, and what has happened. -/
structure Membership (ι : Type*) where
  registry : ι → NodeRegistry
  now : ι → Int
  wire : List Bytes := []
  /-- The pings of all nodes so far. -/
  pinged : List NodeInfoData := []
  /-- The last ping of each node that a node has heard. -/
  heard : ι → String → Option (NodeInfoData × Int)
  /-- When a node has last forgotten others. -/
  cleaned : ι → Option Int := fun _ => none

inductive MembershipAction (ι : Type*)
  | ping (i : ι) (info : NodeInfoData)
  | receive (i : ι) (payload : Bytes)
  | clean (i : ι)
  | tick (i : ι) (elapsed : Nat)

namespace Membership

variable {ι : Type*}

section Steps

variable [DecidableEq ι]

/-- A node hears of a node. -/
def hear (s : Membership ι) (i : ι) (info : NodeInfoData) : Membership ι :=
  { s with
    registry := Function.update s.registry i ((s.registry i).add (s.now i) info)
    heard := Function.update s.heard i
      (Function.update (s.heard i) info.uid (some (info, s.now i))) }

/-- A node forgets the nodes that it has not heard of for a while. -/
def forget (s : Membership ι) (i : ι) : Membership ι :=
  { s with
    registry := Function.update s.registry i ((s.registry i).clean (s.now i) nodeInfoMaxDelay)
    cleaned := Function.update s.cleaned i (some (s.now i)) }

inductive Step (uid : ι → String) (keyPrefix : String) :
    Membership ι → MembershipAction ι → Membership ι → Prop
  | ping (s : Membership ι) (i : ι) (info : NodeInfoData) (own : info.uid = uid i)
      (short : (encodeControl (uid i) (.node info)).length < 2 ^ 64) :
      Step uid keyPrefix s (.ping i info) { s with
        wire := s.wire ++ [encodeControl (uid i) (.node info)]
        pinged := s.pinged ++ [info] }
  | receive (s : Membership ι) (i : ι) (payload : Bytes) (info : NodeInfoData)
      (published : payload ∈ s.wire)
      (read : dispatchMessage (uid i) keyPrefix (keyPrefix ++ ".control") payload =
        some (.control (.node info))) :
      Step uid keyPrefix s (.receive i payload) (s.hear i info)
  | clean (s : Membership ι) (i : ι) : Step uid keyPrefix s (.clean i) (s.forget i)
  | tick (s : Membership ι) (i : ι) (elapsed : Nat) :
      Step uid keyPrefix s (.tick i elapsed)
        { s with now := Function.update s.now i (s.now i + elapsed) }

end Steps

/-- Every node knows itself. -/
def Started (uid : ι → String) (s : Membership ι) : Prop :=
  s.wire = [] ∧ s.pinged = [] ∧ ∀ i, s.cleaned i = none ∧ ∃ own : NodeInfoData, own.uid = uid i ∧
    s.registry i = (NodeRegistry.new (uid i)).add (s.now i) own ∧
    s.heard i = Function.update (fun _ => none) (uid i) (some (own, s.now i))

def Reached [DecidableEq ι] (uid : ι → String) (keyPrefix : String) : Membership ι → Prop :=
  Reachable (Started uid) (Step uid keyPrefix)

/-- A node has been heard of recently enough at the last cleaning. -/
def Recent (s : Membership ι) (i : ι) (uid : String) (node : NodeInfoData × Int) : Prop :=
  uid = (s.registry i).selfUid ∨ ∀ t ∈ s.cleaned i, t - node.2 ≤ nodeInfoMaxDelay

/-- The registry of a node has what it has heard, unless it has forgotten it. -/
structure Sound (uid : ι → String) (s : Membership ι) : Prop where
  self : ∀ i, (s.registry i).selfUid = uid i
  known : ∀ i uid' node, (s.registry i).nodes.lookup uid' = some node ↔
    s.heard i uid' = some node ∧ s.Recent i uid' node
  keyed : ∀ i uid' node, s.heard i uid' = some node → node.1.uid = uid'
  past : ∀ i uid' node, s.heard i uid' = some node → node.2 ≤ s.now i
  cleaned : ∀ i, ∀ t ∈ s.cleaned i, t ≤ s.now i
  own : ∀ i, (s.heard i (uid i)).isSome
  wire : ∀ payload ∈ s.wire, ∃ j, ∃ info ∈ s.pinged, info.uid = uid j ∧
    payload = encodeControl (uid j) (.node info) ∧ payload.length < 2 ^ 64
  learned : ∀ i uid' node, s.heard i uid' = some node → uid' ≠ uid i →
    ∃ info ∈ s.pinged, node.1 = { info with metrics := none }

variable {uid : ι → String} {keyPrefix : String} {s s' : Membership ι}

theorem sound_of_started (started : Started uid s) : Sound uid s := by
  obtain ⟨silent, nobody, start⟩ := started
  have self (i : ι) : (s.registry i).selfUid = uid i := by
    obtain ⟨-, own, -, same, -⟩ := start i
    rw [same]
    rfl
  have heard (i : ι) (uid' : String) (node : NodeInfoData × Int)
      (found : s.heard i uid' = some node) :
      uid' = uid i ∧ node.1.uid = uid' ∧ node.2 = s.now i ∧
        (s.registry i).nodes.lookup uid' = some node := by
    obtain ⟨-, own, named, same, only⟩ := start i
    rw [only] at found
    by_cases here : uid' = uid i
    · subst here
      rw [Function.update_self] at found
      cases found
      refine ⟨rfl, named, rfl, ?_⟩
      rw [same, NodeRegistry.lookup_add, if_pos named.symm]
    · rw [Function.update_of_ne here] at found
      cases found
  refine ⟨self, fun i uid' node => ?_, fun i uid' node found => (heard i uid' node found).2.1,
    fun i uid' node found => (heard i uid' node found).2.2.1.le, fun i t found => ?_, fun i => ?_,
    fun payload mem => ?_, fun i uid' node found other => ?_⟩
  · constructor
    · intro found
      obtain ⟨-, own, named, same, only⟩ := start i
      rw [same, NodeRegistry.lookup_add] at found
      obtain ⟨rfl, rfl⟩ | ⟨-, found⟩ := (ite_eq_iff.mp found).imp (And.imp_right Option.some.inj) id
      · refine ⟨by rw [only, named, Function.update_self], .inl ?_⟩
        rw [self, named]
      · cases found
    · intro h
      exact (heard i uid' node h.1).2.2.2
  · rw [(start i).1] at found
    cases found
  · obtain ⟨-, own, -, -, only⟩ := start i
    rw [only, Function.update_self]
    rfl
  · rw [silent] at mem
    cases mem
  · exact absurd (heard i uid' node found).1 other

theorem Sound.ping (sound : Sound uid s) (i : ι) {info : NodeInfoData} (own : info.uid = uid i)
    (short : (encodeControl (uid i) (.node info)).length < 2 ^ 64) :
    Sound uid { s with
      wire := s.wire ++ [encodeControl (uid i) (.node info)]
      pinged := s.pinged ++ [info] } := by
  refine ⟨sound.self, sound.known, sound.keyed, sound.past, sound.cleaned, sound.own,
    fun payload mem => ?_, fun j uid' node found other => ?_⟩
  · obtain old | new := List.mem_append.mp mem
    · obtain ⟨j, sent, pinged, rest⟩ := sound.wire payload old
      exact ⟨j, sent, List.mem_append_left _ pinged, rest⟩
    · obtain rfl := List.mem_singleton.mp new
      exact ⟨i, info, List.mem_append_right _ List.mem_cons_self, own, rfl, short⟩
  · obtain ⟨sent, pinged, same⟩ := sound.learned j uid' node found other
    exact ⟨sent, List.mem_append_left _ pinged, same⟩

/-- What a node reads on the bus is what another node has sent, without the metrics. -/
theorem Sound.learns (sound : Sound uid s) {i : ι} {payload : Bytes} {info : NodeInfoData}
    (published : payload ∈ s.wire)
    (read : dispatchMessage (uid i) keyPrefix (keyPrefix ++ ".control") payload =
      some (.control (.node info))) :
    ∃ sent ∈ s.pinged, info = { sent with metrics := none } := by
  obtain ⟨j, sent, pinged, -, rfl, short⟩ := sound.wire payload published
  have decoded := @decodeControl_encodeControl (uid j) (uid i) _ short
  rw [dispatchMessage, if_pos rfl, decoded] at read
  split at read
  · cases read
  · cases read
    exact ⟨sent, pinged, rfl⟩

section Steps

variable [DecidableEq ι]

theorem Sound.hear (sound : Sound uid s) (i : ι) {info : NodeInfoData}
    (learned : ∃ sent ∈ s.pinged, info = { sent with metrics := none }) :
    Sound uid (s.hear i info) := by
  have self (j : ι) : ((s.hear i info).registry j).selfUid = uid j := by
    by_cases here : j = i
    · subst here
      simpa [Membership.hear, NodeRegistry.add] using sound.self j
    · simpa [Membership.hear, here] using sound.self j
  -- what is heard of a node is what was heard before, or the ping
  have heard (j : ι) (uid' : String) :
      (s.hear i info).heard j uid' =
        if j = i ∧ uid' = info.uid then some (info, s.now i) else s.heard j uid' := by
    by_cases here : j = i
    · subst here
      by_cases named : uid' = info.uid <;> simp [Membership.hear, named]
    · simp [Membership.hear, here]
  have found (j : ι) (uid' : String) :
      ((s.hear i info).registry j).nodes.lookup uid' =
        if j = i ∧ uid' = info.uid then some (info, s.now i)
        else (s.registry j).nodes.lookup uid' := by
    by_cases here : j = i
    · subst here
      simp [Membership.hear, NodeRegistry.lookup_add]
    · simp [Membership.hear, here]
  refine ⟨self, fun j uid' node => ?_, fun j uid' node => ?_, fun j uid' node => ?_,
    sound.cleaned, fun j => ?_, sound.wire, fun j uid' node => ?_⟩
  · rw [found, heard, Recent, self, ← sound.self j]
    split
    next here =>
      obtain ⟨rfl, rfl⟩ := here
      refine ⟨fun same => ⟨same, .inr fun t cleaned => ?_⟩, And.left⟩
      cases same
      have past := sound.cleaned j t cleaned
      unfold nodeInfoMaxDelay
      omega
    next => exact sound.known j uid' node
  · rw [heard]
    split
    next here =>
      intro same
      cases same
      exact here.2.symm
    next => exact sound.keyed j uid' node
  · rw [heard]
    split
    next here =>
      intro same
      cases same
      rw [here.1]
      exact le_refl (s.now i)
    next => exact sound.past j uid' node
  · rw [heard]
    split
    · rfl
    · exact sound.own j
  · rw [heard]
    split
    next =>
      intro same _
      cases same
      exact learned
    next => exact sound.learned j uid' node

theorem Sound.forget (sound : Sound uid s) (i : ι) : Sound uid (s.forget i) := by
  have self (j : ι) : ((s.forget i).registry j).selfUid = uid j := by
    by_cases here : j = i
    · subst here
      simpa [Membership.forget, NodeRegistry.clean] using sound.self j
    · simpa [Membership.forget, here] using sound.self j
  refine ⟨self, fun j uid' node => ?_, sound.keyed, sound.past, fun j t => ?_, sound.own,
    sound.wire, sound.learned⟩
  · by_cases here : j = i
    · subst here
      have known := sound.known j uid' node
      have cleaned : (s.forget j).cleaned j = some (s.now j) := Function.update_self ..
      have registry : (s.forget j).registry j =
          (s.registry j).clean (s.now j) nodeInfoMaxDelay := Function.update_self ..
      rw [registry, NodeRegistry.lookup_clean, Option.filter_eq_some_iff, known, Recent, Recent,
        cleaned, self, sound.self j]
      simp only [Bool.or_eq_true, beq_iff_eq, decide_eq_true_eq, Option.mem_some_iff,
        forall_eq', Membership.forget]
      constructor
      · rintro ⟨⟨heard, -⟩, recent⟩
        exact ⟨heard, recent⟩
      · rintro ⟨heard, recent⟩
        refine ⟨⟨heard, recent.imp_right fun late t before => ?_⟩, recent⟩
        have past := sound.cleaned j t before
        omega
    · simpa [Membership.forget, Recent, here] using sound.known j uid' node
  · by_cases here : j = i
    · subst here
      intro cleaned
      have same : s.now j = t := by simpa [Membership.forget] using cleaned
      exact same.ge
    · simpa [Membership.forget, here] using sound.cleaned j t

theorem Sound.tick (sound : Sound uid s) (i : ι) (elapsed : Nat) :
    Sound uid { s with now := Function.update s.now i (s.now i + elapsed) } := by
  have later (j : ι) : s.now j ≤ Function.update s.now i (s.now i + elapsed) j := by
    by_cases here : j = i
    · subst here
      rw [Function.update_self]
      omega
    · rw [Function.update_of_ne here]
  exact ⟨sound.self, sound.known, sound.keyed,
    fun j uid' node found => (sound.past j uid' node found).trans (later j),
    fun j t cleaned => (sound.cleaned j t cleaned).trans (later j), sound.own, sound.wire,
    sound.learned⟩

theorem sound_of_reached (h : Reached uid keyPrefix s) : Sound uid s := by
  refine Reachable.invariant _ (fun _ => sound_of_started) ?_ h
  intro s action s' sound step
  cases step with
  | ping i info own short => exact sound.ping i own short
  | receive i payload info published read => exact sound.hear i (sound.learns published read)
  | clean i => exact sound.forget i
  | tick i elapsed => exact sound.tick i elapsed

/-- A node lists itself once, and another node exactly when it had heard of it recently at the
last cleaning. What it lists of another node is in the last ping that it has heard. -/
theorem listed_iff_heard (h : Reached uid keyPrefix s) (i : ι) :
    ((s.registry i).list.map NodeInfoData.uid).Nodup ∧
      (∃ me ∈ (s.registry i).list, me.uid = uid i) ∧
      ∀ info : NodeInfoData, info ∈ (s.registry i).list ↔
        ∃ seen ≤ s.now i, s.heard i info.uid = some (info, seen) ∧
          (info.uid ≠ uid i → (∃ sent ∈ s.pinged, info = { sent with metrics := none }) ∧
            ∀ t ∈ s.cleaned i, t ≤ seen + nodeInfoMaxDelay) := by
  have sound := sound_of_reached h
  have keyed : (s.registry i).Keyed := fun uid' node found =>
    sound.keyed i uid' node ((sound.known i uid' node).mp found).1
  have listed (info : NodeInfoData) : info ∈ (s.registry i).list ↔
      ∃ seen, s.heard i info.uid = some (info, seen) ∧
        (info.uid = uid i ∨ ∀ t ∈ s.cleaned i, t - seen ≤ nodeInfoMaxDelay) := by
    rw [NodeRegistry.mem_list keyed]
    refine exists_congr fun seen => ?_
    rw [sound.known, Recent, sound.self]
  refine ⟨NodeRegistry.nodup_list keyed, ?_, fun info => ?_⟩
  · obtain ⟨⟨me, seen⟩, heard⟩ := Option.isSome_iff_exists.mp (sound.own i)
    have named : me.uid = uid i := sound.keyed i _ _ heard
    refine ⟨me, (listed me).mpr ⟨seen, ?_, .inl named⟩, named⟩
    rw [named]
    exact heard
  · rw [listed]
    constructor
    · rintro ⟨seen, heard, recent⟩
      refine ⟨seen, sound.past i _ _ heard, heard, fun other => ?_⟩
      refine ⟨sound.learned i _ _ heard other, fun t cleaned => ?_⟩
      have late := recent.resolve_left other t cleaned
      omega
    · rintro ⟨seen, -, heard, recent⟩
      refine ⟨seen, heard, or_iff_not_imp_left.mpr fun other t cleaned => ?_⟩
      have late := (recent other).2 t cleaned
      omega

end Steps

end Membership

namespace Sample

def nodeInfo (uid : String) : NodeInfoData := ⟨uid, "node", "2.8.6", 0, 0, 0, 0, none⟩

/-- Two nodes that have not heard of each other yet. -/
def strangers : Membership Bool where
  registry i := (NodeRegistry.new (uids i)).add 0 (nodeInfo (uids i))
  now _ := 0
  heard i := Function.update (fun _ => none) (uids i) (some (nodeInfo (uids i), 0))

end Sample

open Sample in
/-- A node hears of another one, and forgets it after eight seconds. -/
theorem Membership.listed_iff_heard_strangers : ∃ s : Membership Bool,
    Membership.Reached uids "app" s ∧ nodeInfo "first" ∉ (s.registry true).list ∧
      ∃ me ∈ (s.registry true).list, me.uid = "second" := by
  let frame := encodeControl "first" (.node (nodeInfo "first"))
  have started : strangers.Started uids :=
    ⟨rfl, rfl, fun i => ⟨rfl, nodeInfo (uids i), rfl, rfl, rfl⟩⟩
  have pinged := Reachable.next (.start started)
    (@Membership.Step.ping Bool _ uids "app" strangers false (nodeInfo "first") rfl
      (of_decide_eq_true rfl))
  have heard := pinged.next (.receive _ true frame (nodeInfo "first") (by simp [frame, uids])
    rfl)
  have forgotten := (heard.next (.tick _ true 8000)).next (.clean _ true)
  obtain ⟨-, self, listed⟩ := listed_iff_heard forgotten true
  refine ⟨_, forgotten, fun there => ?_, self⟩
  obtain ⟨seen, -, found, recent⟩ := (listed _).mp there
  have late := (recent (by decide)).2 8000 rfl
  have noon : seen = 0 := by
    have same : some (nodeInfo "first", (0 : Int)) = some (nodeInfo "first", seen) :=
      Eq.trans rfl found
    exact (congrArg Prod.snd (Option.some.inj same)).symm
  subst noon
  exact absurd late (by decide)

end Centrifugo
