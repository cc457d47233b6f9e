import Centrifugo.Server.Config

/-!
# Starting

A file is refused when its options ask for recovery without a history, when a name of a
namespace is no name or is there twice, and when the namespace of personal channels is not
declared. Nothing of this is looked at when there is no file, and the interval of presence
is looked at by neither way.
-/

namespace Centrifugo

open Json

/-! ## What a file is checked for -/

def HistoryOk (options : ChannelOptions) : Prop :=
  options.historyRecover = true → 0 < options.historySize ∧ 0 < options.historyLifetime

theorem checkHistory_eq_ok {options : ChannelOptions} {scope : String} :
    checkHistory options scope = .ok () ↔ HistoryOk options := by
  rw [checkHistory, HistoryOk]
  split
  · rename_i missing
    simp only [Bool.and_eq_true, Bool.or_eq_true, decide_eq_true_eq] at missing
    refine iff_of_false (by simp) fun enough => ?_
    have positive := enough missing.1
    omega
  · rename_i enough
    simp only [Bool.and_eq_true, Bool.or_eq_true, decide_eq_true_eq] at enough
    refine iff_of_true rfl fun recover => ?_
    have some : ¬ (options.historySize = 0 ∨ options.historyLifetime = 0) :=
      fun missing => enough ⟨recover, missing⟩
    omega

structure FileConfig.Accepted (fc : FileConfig) : Prop where
  history : HistoryOk fc.options
  namespaces : ∀ ns ∈ fc.namespaces, validNamespaceName ns.name = true ∧ HistoryOk ns.options
  unique : (fc.namespaces.map NamespaceCfg.name).Nodup
  personal : fc.userPersonalChannelNamespace ≠ "" →
    fc.userPersonalChannelNamespace ∈ fc.namespaces.map NamespaceCfg.name

/-- The loop gets through the namespaces that keep the rules and are not seen twice. -/
theorem checkNamespaces_eq_ok {seen seen' : List String} {namespaces : List NamespaceCfg} :
    checkNamespaces seen namespaces = .ok seen' ↔
      (∀ ns ∈ namespaces, validNamespaceName ns.name = true ∧ HistoryOk ns.options) ∧
      (namespaces.map NamespaceCfg.name).Nodup ∧
      (∀ ns ∈ namespaces, ns.name ∉ seen) ∧
      seen' = (namespaces.map NamespaceCfg.name).reverse ++ seen := by
  induction namespaces generalizing seen with
  | nil =>
      constructor
      · intro h
        obtain rfl := Except.ok.inj h
        simp
      · rintro ⟨-, -, -, rfl⟩
        rfl
  | cons ns rest ih =>
      rw [checkNamespaces]
      by_cases name : validNamespaceName ns.name = true
      · by_cases twice : ns.name ∈ seen
        · simp [name, twice]
        · match checked : checkHistory ns.options (" in namespace " ++ ns.name) with
          | .error e =>
              have bad : ¬ HistoryOk ns.options := by
                rw [← checkHistory_eq_ok, checked]
                simp
              simp [name, twice, bad]
          | .ok () =>
              have ok : HistoryOk ns.options := checkHistory_eq_ok.mp checked
              simp only [name, twice, Bool.not_true, if_false, Bool.false_eq_true, ih]
              have listed : (rest.map NamespaceCfg.name).reverse ++ ns.name :: seen =
                  ((ns :: rest).map NamespaceCfg.name).reverse ++ seen := by simp
              rw [listed, List.map_cons, List.nodup_cons, List.forall_mem_cons,
                List.forall_mem_cons]
              constructor
              · rintro ⟨each, unique, fresh, rest⟩
                refine ⟨⟨⟨name, ok⟩, each⟩, ⟨?_, unique⟩, ⟨twice, ?_⟩, rest⟩
                · intro mem
                  obtain ⟨ns', mem', same⟩ := List.mem_map.mp mem
                  exact fresh ns' mem' (same ▸ List.mem_cons_self)
                · exact fun ns' mem before => fresh ns' mem (List.mem_cons_of_mem _ before)
              · rintro ⟨⟨-, each⟩, ⟨other, unique⟩, ⟨-, fresh⟩, rest⟩
                refine ⟨each, unique, ?_, rest⟩
                intro ns' mem before
                rcases List.mem_cons.mp before with same | before
                · exact other (same ▸ List.mem_map_of_mem mem)
                · exact fresh ns' mem before
      · simp [name]

theorem validateFileConfig_eq_ok {fc : FileConfig} :
    validateFileConfig fc = .ok () ↔ fc.Accepted := by
  rw [validateFileConfig]
  match checked : checkHistory fc.options "" with
  | .error e =>
      refine iff_of_false (by simp) fun accepted => ?_
      rw [checkHistory_eq_ok.mpr accepted.history] at checked
      cases checked
  | .ok () =>
      match names : checkNamespaces [] fc.namespaces with
      | .error e =>
          refine iff_of_false (by simp) fun accepted => ?_
          rw [checkNamespaces_eq_ok.mpr
            ⟨accepted.namespaces, accepted.unique, by simp, rfl⟩] at names
          cases names
      | .ok seen =>
          obtain ⟨each, unique, -, rfl⟩ := checkNamespaces_eq_ok.mp names
          have declared : ∀ name, name ∈ (fc.namespaces.map NamespaceCfg.name).reverse ++ [] ↔
              name ∈ fc.namespaces.map NamespaceCfg.name := by simp
          simp only [declared]
          split
          · rename_i missing
            exact iff_of_false (by simp) fun accepted => missing.2 (accepted.personal missing.1)
          · rename_i present
            refine iff_of_true rfl ⟨checkHistory_eq_ok.mp checked, each, unique, fun named => ?_⟩
            exact not_not.mp fun absent => present ⟨named, absent⟩

/-- A namespace that is declared once is found under its name. -/
theorem lookup_collectNamespaces {namespaces : List NamespaceCfg}
    (unique : (namespaces.map NamespaceCfg.name).Nodup) {name : String}
    {options : ChannelOptions} :
    (collectNamespaces namespaces).lookup name = some options ↔ ⟨name, options⟩ ∈ namespaces := by
  have collected : ∀ start : Map String ChannelOptions,
      (namespaces.foldl (fun collected ns => collected.insert ns.name ns.options) start).lookup
          name = some options ↔
        ⟨name, options⟩ ∈ namespaces ∨
          (name ∉ namespaces.map NamespaceCfg.name ∧ start.lookup name = some options) := by
    induction namespaces with
    | nil => simp
    | cons ns rest ih =>
        intro start
        obtain ⟨fresh, unique⟩ := List.nodup_cons.mp unique
        rw [List.foldl_cons, ih unique, Map.lookup_insert_eq, List.mem_cons, List.map_cons,
          List.mem_cons]
        by_cases same : name = ns.name
        · subst same
          have absent : (⟨ns.name, options⟩ : NamespaceCfg) ∉ rest :=
            fun mem => fresh (List.mem_map.mpr ⟨_, mem, rfl⟩)
          have own : ns.options = options ↔ (⟨ns.name, options⟩ : NamespaceCfg) = ns := by
            obtain ⟨name, own⟩ := ns
            simp [eq_comm]
          simp [absent, fresh, own]
        · have other : (⟨name, options⟩ : NamespaceCfg) ≠ ns := fun h =>
            same (congrArg NamespaceCfg.name h)
          simp [same, other]
  simpa [collectNamespaces] using collected ∅

/-! ## What the server runs with -/

structure Settings.Valid (s : Settings) : Prop where
  history : HistoryOk s.namespaces.default
  namespaces : ∀ name options, s.namespaces.namespaces.lookup name = some options →
    validNamespaceName name = true ∧ HistoryOk options
  personal : s.namespaces.userPersonalChannelNamespace ≠ "" →
    (s.namespaces.namespaces.lookup s.namespaces.userPersonalChannelNamespace).isSome = true
  ping : 0 < s.clientPresencePingInterval

variable {file : Option (String × FileBody)} {a : ServeArgs} {explicit : List String} {env : Env}
  {s : Settings}

/-- Nothing but the interval of presence is left to check when a file was accepted. Without a
file everything is: the flags for recovery, and that there is no namespace of personal
channels, for none is declared. -/
def StartsValid (file : Option (String × FileBody)) (a : ServeArgs) (explicit : List String) :
    Prop :=
  match file with
  | some (_, body) =>
      0 < if explicit.contains "client_presence_ping_interval" then a.clientPresencePingInterval
        else body.number "client_presence_ping_interval" 25
  | none =>
      (a.historyRecover = true → 0 < a.historySize ∧ 0 < a.historyLifetime) ∧
        a.userPersonalChannelNamespace = "" ∧ 0 < a.clientPresencePingInterval

theorem Settings.valid_applyEnv : (s.applyEnv env explicit).Valid ↔ s.Valid :=
  ⟨fun h => ⟨h.history, h.namespaces, h.personal, h.ping⟩,
    fun h => ⟨h.history, h.namespaces, h.personal, h.ping⟩⟩

theorem FileConfig.Accepted.registry_valid {fc : FileConfig} (h : fc.Accepted) :
    HistoryOk fc.registry.default ∧
      (∀ name options, fc.registry.namespaces.lookup name = some options →
        validNamespaceName name = true ∧ HistoryOk options) ∧
      (fc.userPersonalChannelNamespace ≠ "" →
        (fc.registry.namespaces.lookup fc.userPersonalChannelNamespace).isSome = true) := by
  refine ⟨h.history, ?_, ?_⟩
  · intro name options found
    have declared := (lookup_collectNamespaces h.unique).mp found
    exact h.namespaces ⟨name, options⟩ declared
  · intro named
    obtain ⟨⟨_, options⟩, declared, rfl⟩ := List.mem_map.mp (h.personal named)
    exact Option.isSome_iff_exists.mpr ⟨options, (lookup_collectNamespaces h.unique).mpr declared⟩

theorem Settings.load_eq_ok {path : String} {body : FileBody}
    (checked : checkConfig body = .ok ()) :
    Settings.load (some (path, body)) a explicit env =
      .ok ((fromFileAndArgs body.config a explicit).applyEnv env explicit) := by
  rw [load, checked]

/-- A server that starts keeps the rules exactly when its configuration does what is not
checked. -/
theorem load_valid_iff (started : Settings.load file a explicit env = .ok s) :
    s.Valid ↔ StartsValid file a explicit := by
  match file with
  | none =>
      obtain rfl := Except.ok.inj started
      rw [Settings.valid_applyEnv]
      constructor
      · intro valid
        refine ⟨valid.history, ?_, valid.ping⟩
        by_contra named
        exact absurd (valid.personal named) Bool.false_ne_true
      · rintro ⟨history, unnamed, ping⟩
        refine ⟨history, ?_, fun named => absurd unnamed named, ping⟩
        intro name options found
        cases found
  | some (path, body) =>
      match checked : checkConfig body with
      | .error e =>
          rw [Settings.load, checked] at started
          cases started
      | .ok () =>
          rw [Settings.load_eq_ok checked] at started
          obtain rfl := Except.ok.inj started
          obtain ⟨history, namespaces, personal⟩ :=
            (validateFileConfig_eq_ok.mp checked).registry_valid
          rw [Settings.valid_applyEnv]
          exact ⟨fun valid => valid.ping, fun ping => ⟨history, namespaces, personal, ping⟩⟩

namespace Sample

def silentBody : FileBody where
  numbers
    | "client_presence_ping_interval" => some 0
    | _ => none

/-- A file with recovery in two records of options, and with a namespace for personal channels. -/
def recoveringBody : FileBody where
  texts
    | "user_personal_channel_namespace" => some "personal"
    | _ => none
  numbers
    | "history_size" => some 10
    | "history_lifetime" => some 60
    | "client_presence_ping_interval" => some 0
    | _ => none
  flags
    | "history_recover" => some true
    | _ => none
  namespaces := some
    [⟨"personal", {}⟩,
      ⟨"news", { historyRecover := true, historySize := 5, historyLifetime := 300 }⟩]

def pingingArgs : ServeArgs := { defaultArgs with clientPresencePingInterval := 10 }

end Sample

/-- The command line has the interval of presence that the file sets to zero. -/
theorem load_valid_iff_recovering :
    ∃ s, Settings.load (some ("config.json", Sample.recoveringBody)) Sample.pingingArgs
        ["client_presence_ping_interval"] (fun _ => none) = .ok s ∧ s.Valid := by
  have checked : checkConfig Sample.recoveringBody = .ok () := by decide +kernel
  have started := @Settings.load_eq_ok Sample.pingingArgs ["client_presence_ping_interval"]
    (fun _ => none) "config.json" _ checked
  have positive : StartsValid (some ("config.json", Sample.recoveringBody)) Sample.pingingArgs
      ["client_presence_ping_interval"] := by
    show (0 : Int) < 10
    decide
  exact ⟨_, started, (load_valid_iff started).mpr positive⟩

/-- The server starts with recovery and no history when there is no file, and with an interval
of presence of zero when there is one. -/
theorem not_load_valid :
    (∃ s, Settings.load none { Sample.defaultArgs with historyRecover := true } []
        (fun _ => none) = .ok s ∧ ¬ s.Valid) ∧
      ∃ s, Settings.load (some ("config.json", Sample.silentBody)) Sample.defaultArgs []
        (fun _ => none) = .ok s ∧ ¬ s.Valid := by
  refine ⟨⟨_, rfl, fun valid => ?_⟩, ⟨_, rfl, fun valid => ?_⟩⟩
  · have history := (Settings.valid_applyEnv.mp valid).history rfl
    exact absurd history.1 (by decide)
  · have ping := (Settings.valid_applyEnv.mp valid).ping
    exact absurd ping (by decide)

end Centrifugo
