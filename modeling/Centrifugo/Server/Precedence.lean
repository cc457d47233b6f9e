import Centrifugo.Server.Config

/-!
# Precedence of the configuration

A key should have the value of the command line, else of its variable, else of the file,
else its default. The arguments and the file are put together so. The second pass over the
variables overwrites a field that has its default, which it also has when the command line
gave just that; and the namespace of personal channels is only taken from a file.
-/

namespace Centrifugo

/-! ## Layers -/

/-- The first layer that has a value, or the default. -/
def resolve {α : Type} (flag env file : Option α) (default : α) : α :=
  ((flag.or env).or file).getD default

/-- What the command line gives, by the names of the arguments. -/
structure CommandLine where
  texts : String → Option String := fun _ => none
  numbers : String → Option Int := fun _ => none
  flags : String → Bool := fun _ => false

/-- The layers of a configuration. -/
structure Config where
  cmd : CommandLine := {}
  env : Env := fun _ => none
  file : Option FileBody := none

inductive Key
  | text (k : TextKey)
  | number (k : NumberKey)
  | flag (k : FlagKey)

inductive Setting
  | text (value : String)
  | number (value : Int)
  | flag (value : Bool)
  deriving DecidableEq

def ServeArgs.text (a : ServeArgs) : TextKey → String
  | .address => a.address
  | .name => a.name
  | .userPersonalChannelNamespace => a.userPersonalChannelNamespace
  | .tokenHmacSecretKey => a.tokenHmacSecretKey
  | .tokenRsaPublicKey => a.tokenRsaPublicKey
  | .tokenEcdsaPublicKey => a.tokenEcdsaPublicKey
  | .tokenJwksPublicEndpoint => a.tokenJwksPublicEndpoint
  | .apiKey => a.apiKey
  | .grpcApiKey => a.grpcApiKey
  | .proxyConnectEndpoint => a.proxyConnectEndpoint
  | .proxyRefreshEndpoint => a.proxyRefreshEndpoint
  | .proxySubscribeEndpoint => a.proxySubscribeEndpoint
  | .proxyPublishEndpoint => a.proxyPublishEndpoint
  | .proxyRpcEndpoint => a.proxyRpcEndpoint
  | .engine => a.engine
  | .redisAddress => a.redisAddress
  | .redisMasterName => a.redisMasterName
  | .redisSentinels => a.redisSentinels
  | .redisPassword => a.redisPassword
  | .redisPrefix => a.redisPrefix
  | .adminPassword => a.adminPassword
  | .adminSecret => a.adminSecret
  | .adminWebPath => a.adminWebPath

def ServeArgs.number (a : ServeArgs) : NumberKey → Int
  | .port => a.port
  | .clientPresencePingInterval => a.clientPresencePingInterval
  | .clientPresenceExpireInterval => a.clientPresenceExpireInterval
  | .grpcApiPort => a.grpcApiPort
  | .redisDb => a.redisDb
  | .redisHistoryMetaTtl => a.redisHistoryMetaTtl
  | .memoryHistoryMetaTtl => a.memoryHistoryMetaTtl

def ServeArgs.flag (a : ServeArgs) : FlagKey → Bool
  | .clientInsecure => a.clientInsecure
  | .apiInsecure => a.apiInsecure
  | .grpcApi => a.grpcApi
  | .admin => a.admin
  | .adminInsecure => a.adminInsecure

namespace Settings

def text (s : Settings) : TextKey → String
  | .address => s.address
  | .name => s.name
  | .userPersonalChannelNamespace => s.namespaces.userPersonalChannelNamespace
  | .tokenHmacSecretKey => s.tokenHmacSecretKey
  | .tokenRsaPublicKey => s.tokenRsaPublicKey
  | .tokenEcdsaPublicKey => s.tokenEcdsaPublicKey
  | .tokenJwksPublicEndpoint => s.tokenJwksPublicEndpoint
  | .apiKey => s.apiKey
  | .grpcApiKey => s.grpcApiKey
  | .proxyConnectEndpoint => s.proxyConnectEndpoint
  | .proxyRefreshEndpoint => s.proxyRefreshEndpoint
  | .proxySubscribeEndpoint => s.proxySubscribeEndpoint
  | .proxyPublishEndpoint => s.proxyPublishEndpoint
  | .proxyRpcEndpoint => s.proxyRpcEndpoint
  | .engine => s.engine
  | .redisAddress => s.redisAddress
  | .redisMasterName => s.redisMasterName
  | .redisSentinels => s.redisSentinels
  | .redisPassword => s.redisPassword
  | .redisPrefix => s.redisPrefix
  | .adminPassword => s.adminPassword
  | .adminSecret => s.adminSecret
  | .adminWebPath => s.adminWebPath

def number (s : Settings) : NumberKey → Int
  | .port => s.port
  | .clientPresencePingInterval => s.clientPresencePingInterval
  | .clientPresenceExpireInterval => s.clientPresenceExpireInterval
  | .grpcApiPort => s.grpcApiPort
  | .redisDb => s.redisDb
  | .redisHistoryMetaTtl => s.redisHistoryMetaTtl
  | .memoryHistoryMetaTtl => s.memoryHistoryMetaTtl

def flag (s : Settings) : FlagKey → Bool
  | .clientInsecure => s.clientInsecure
  | .apiInsecure => s.apiInsecure
  | .grpcApi => s.grpcApi
  | .admin => s.admin
  | .adminInsecure => s.adminInsecure

def value (s : Settings) : Key → Setting
  | .text k => .text (s.text k)
  | .number k => .number (s.number k)
  | .flag k => .flag (s.flag k)

end Settings

/-! ## The command line parser -/

/-- An argument has the value of the command line, else of its variable, else its default, and
the parser tells which. -/
structure Resolves {α : Type} (flag env : Option α) (default value : α) (source : ValueSource) :
    Prop where
  value_eq : value = (flag.or env).getD default
  source_eq : source =
    if flag.isSome then .commandLine else if env.isSome then .envVariable else .defaultValue

/-- What the parser documents of the arguments that it makes of a command line and variables. -/
structure Parsed (cmd : CommandLine) (env : Env) (a : ServeArgs)
    (source : String → ValueSource) : Prop where
  text : ∀ k : TextKey,
    Resolves (cmd.texts k.arg.id) (env k.arg.env) k.arg.default (a.text k) (source k.arg.id)
  number : ∀ k : NumberKey,
    Resolves (cmd.numbers k.arg.id) ((env k.arg.env).bind fun raw => parseInt raw.toList)
      k.arg.default (a.number k) (source k.arg.id)
  /-- A variable that is used for a number is one. -/
  reads : ∀ k : NumberKey, cmd.numbers k.arg.id = none → ∀ raw, env k.arg.env = some raw →
    (parseInt raw.toList).isSome = true
  /-- A flag is on when it is given, and has no variable. -/
  flag : ∀ k : FlagKey,
    Resolves (if cmd.flags k.arg.id then some true else none) none k.arg.default (a.flag k)
      (source k.arg.id)
  redisHost : Resolves (cmd.texts "redis_host") (env "CENTRIFUGO_REDIS_HOST") "" a.redisHost
    (source "redis_host")
  redisPort : Resolves (cmd.texts "redis_port") (env "CENTRIFUGO_REDIS_PORT") "" a.redisPort
    (source "redis_port")
  redisUrl : Resolves (cmd.texts "redis_url") (env "CENTRIFUGO_REDIS_URL") "" a.redisUrl
    (source "redis_url")

theorem Resolves.given_iff {α : Type} {flag env : Option α} {default value : α}
    {source : ValueSource} (h : Resolves flag env default value source) :
    source = .commandLine ∨ source = .envVariable ↔ (flag.or env).isSome = true := by
  rw [h.source_eq]
  cases flag <;> cases env <;> simp

theorem contains_explicitServeArgs {source : String → ValueSource} {id : String}
    (takesPart : id ∈ precedenceIds) :
    (explicitServeArgs source).contains id = true ↔
      source id = .commandLine ∨ source id = .envVariable := by
  simp [explicitServeArgs, takesPart]

theorem TextKey.takes_part (k : TextKey) : k.arg.id ∈ precedenceIds := by
  cases k <;> decide

theorem NumberKey.takes_part (k : NumberKey) : k.arg.id ∈ precedenceIds := by
  cases k <;> decide

theorem FlagKey.takes_part (k : FlagKey) : k.arg.id ∈ precedenceIds := by
  cases k <;> decide

/-! ## The value of a key -/

namespace Config

/-- The value by precedence. -/
def resolved (c : Config) : Key → Setting
  | .text k => .text (resolve (c.cmd.texts k.arg.id) (c.env k.arg.env)
      (c.file.bind fun body => body.texts k.arg.id) k.arg.default)
  | .number k => .number (resolve (c.cmd.numbers k.arg.id)
      ((c.env k.arg.env).bind fun raw => parseInt raw.toList)
      (c.file.bind fun body => body.numbers k.arg.id) k.arg.default)
  | .flag k => .flag (resolve (if c.cmd.flags k.arg.id then some true else none)
      ((c.env k.arg.env).bind parseBool) (c.file.bind fun body => body.flags k.arg.id)
      k.arg.default)

/-- The settings before the second pass over the variables. -/
def base (c : Config) (a : ServeArgs) (source : String → ValueSource) : Settings :=
  match c.file with
  | some body => Settings.fromFileAndArgs body.config a (explicitServeArgs source)
  | none => Settings.fromArgs a

/-- The settings that the server runs with. -/
def running (c : Config) (a : ServeArgs) (source : String → ValueSource) : Settings :=
  (c.base a source).applyEnv c.env (explicitServeArgs source)

/-- The aliases of the address of Redis are given nowhere. -/
def NoAliases (c : Config) : Prop :=
  ∀ id env, (id, env) ∈ [("redis_host", "CENTRIFUGO_REDIS_HOST"),
      ("redis_port", "CENTRIFUGO_REDIS_PORT"), ("redis_url", "CENTRIFUGO_REDIS_URL")] →
    c.cmd.texts id = none ∧ c.env env = none ∧ ∀ body ∈ c.file, body.texts id = none

/-- The keys that the second pass overwrites at their default. -/
def overlaid : List TextKey :=
  [.tokenHmacSecretKey, .tokenRsaPublicKey, .tokenEcdsaPublicKey, .tokenJwksPublicEndpoint,
    .apiKey, .proxyConnectEndpoint, .redisPassword, .engine, .redisAddress]

/-- The precedence holds for a key: when the second pass overwrites it, the command line does
not give the default against another variable, and the namespace of personal channels is the
one of the file when there is a file. -/
def Keeps (c : Config) : Key → Prop
  | .text k =>
      (k ∈ overlaid → c.cmd.texts k.arg.id = some k.arg.default →
        ∀ value ∈ c.env k.arg.env, value = "" ∨ value = k.arg.default) ∧
      (k = .userPersonalChannelNamespace → ∀ body ∈ c.file,
        ∀ value ∈ (c.cmd.texts k.arg.id).or (c.env k.arg.env),
          value = (body.texts k.arg.id).getD k.arg.default)
  | .number _ | .flag _ => True

end Config

namespace Settings

variable (s : Settings) (env : Env) (explicit : List String) (a : ServeArgs) (body : FileBody)

theorem text_applyEnv (k : TextKey) : (s.applyEnv env explicit).text k =
    if k ∈ Config.overlaid ∧ s.text k = k.arg.default then
      ((env k.arg.env).filter (· ≠ "")).getD (s.text k)
    else s.text k := by
  cases k <;>
    simp [applyEnv, text, fill, envVar, Config.overlaid, TextKey.arg]

theorem number_applyEnv (k : NumberKey) : (s.applyEnv env explicit).number k = s.number k := by
  cases k <;> rfl

theorem flag_applyEnv (k : FlagKey) : (s.applyEnv env explicit).flag k =
    if explicit.contains k.arg.id then s.flag k
    else ((env k.arg.env).bind parseBool).getD (s.flag k) := by
  have read : ∀ o : Option String, (o.filter (· ≠ "")).bind parseBool = o.bind parseBool := by
    rintro (_ | raw)
    · rfl
    · by_cases empty : raw = ""
      · subst empty
        decide
      · simp [Option.filter, empty]
  have each : ∀ (id key : String) (current : Bool),
      (if explicit.contains id then current else (envBool env key).getD current) =
        if explicit.contains id then current
        else ((env ("CENTRIFUGO_" ++ key)).bind parseBool).getD current := by
    intro id key current
    rw [envBool, envVar, read]
  cases k <;> exact (overlay_eq _ _ _).trans (each _ _ _)

/-- The fields that a file and the arguments are put together for in one way. -/
theorem text_fromFileAndArgs {k : TextKey} (personal : k ≠ .userPersonalChannelNamespace)
    (redis : k ≠ .redisAddress) : (fromFileAndArgs body.config a explicit).text k =
      if explicit.contains k.arg.id then a.text k
      else (body.texts k.arg.id).getD (if k = .address then a.address else k.arg.default) := by
  cases k <;> first | rfl | contradiction

theorem number_fromFileAndArgs (k : NumberKey) :
    (fromFileAndArgs body.config a explicit).number k =
      if explicit.contains k.arg.id then a.number k
      else (body.numbers k.arg.id).getD (if k = .port then a.port else k.arg.default) := by
  cases k <;> rfl

theorem flag_fromFileAndArgs (k : FlagKey) :
    (fromFileAndArgs body.config a explicit).flag k =
      if explicit.contains k.arg.id then a.flag k else (body.flags k.arg.id).getD false := by
  cases k <;> rfl

theorem text_fromArgs {k : TextKey} (redis : k ≠ .redisAddress) :
    (fromArgs a).text k = a.text k := by
  cases k <;> first | rfl | contradiction

theorem number_fromArgs (k : NumberKey) : (fromArgs a).number k = a.number k := by
  cases k <;> rfl

theorem flag_fromArgs (k : FlagKey) : (fromArgs a).flag k = a.flag k := by
  cases k <;> rfl

end Settings

/-! ## The layers put together -/

namespace Resolves

variable {α : Type} {flag env file : Option α} {default value : α} {source : ValueSource}
  {id : String} {sources : String → ValueSource}

theorem eq_default (h : Resolves flag env default value source) (absent : flag.or env = none) :
    value = default := by
  rw [h.value_eq, absent, Option.getD_none]

theorem not_given (h : Resolves flag env default value (sources id))
    (takesPart : id ∈ precedenceIds) (absent : flag.or env = none) :
    (explicitServeArgs sources).contains id = false := by
  rw [← Bool.not_eq_true, contains_explicitServeArgs takesPart, h.given_iff, absent]
  exact Bool.false_ne_true

theorem default_of_not_given (h : Resolves flag env default value (sources id))
    (takesPart : id ∈ precedenceIds) (absent : ¬ (explicitServeArgs sources).contains id = true) :
    value = default := by
  rw [contains_explicitServeArgs takesPart, h.given_iff, Option.not_isSome_iff_eq_none] at absent
  exact h.eq_default absent

/-- What is given is not looked up in the file, and what is not has its default. -/
theorem file_eq (h : Resolves flag env default value (sources id)) (takesPart : id ∈ precedenceIds)
    {fallback : α} (falls : fallback = value ∨ fallback = default) :
    (if (explicitServeArgs sources).contains id then value else file.getD fallback) =
      resolve flag env file default := by
  have given := (@contains_explicitServeArgs sources _ takesPart).trans h.given_iff
  rw [resolve]
  by_cases isGiven : (explicitServeArgs sources).contains id = true
  · obtain ⟨v, found⟩ := Option.isSome_iff_exists.mp (given.mp isGiven)
    rw [if_pos isGiven, h.value_eq, found]
    rfl
  · have same : fallback = default := by
      rcases falls with rfl | rfl
      · exact h.default_of_not_given takesPart isGiven
      · rfl
    rw [given, Option.not_isSome_iff_eq_none] at isGiven
    rw [if_neg (by rw [given, isGiven]; exact Bool.false_ne_true), isGiven, Option.none_or, same]

theorem no_file (h : Resolves flag env default value source) :
    value = resolve flag env none default := by
  rw [resolve, Option.or_none, h.value_eq]

end Resolves

namespace Config

variable {c : Config} {a : ServeArgs} {source : String → ValueSource}

/-- Without aliases the address of Redis is put together like any other text. -/
theorem redisAddress_base (parsed : Parsed c.cmd c.env a source) (plain : c.NoAliases) :
    .text ((c.base a source).redisAddress) = c.resolved (.text .redisAddress) := by
  obtain ⟨hostFlag, hostEnv, hostFile⟩ := plain "redis_host" "CENTRIFUGO_REDIS_HOST" (by simp)
  obtain ⟨portFlag, portEnv, portFile⟩ := plain "redis_port" "CENTRIFUGO_REDIS_PORT" (by simp)
  obtain ⟨urlFlag, urlEnv, urlFile⟩ := plain "redis_url" "CENTRIFUGO_REDIS_URL" (by simp)
  have noHost : (c.cmd.texts "redis_host").or (c.env "CENTRIFUGO_REDIS_HOST") = none := by
    rw [hostFlag, hostEnv, Option.or_none]
  have noPort : (c.cmd.texts "redis_port").or (c.env "CENTRIFUGO_REDIS_PORT") = none := by
    rw [portFlag, portEnv, Option.or_none]
  have noUrl : (c.cmd.texts "redis_url").or (c.env "CENTRIFUGO_REDIS_URL") = none := by
    rw [urlFlag, urlEnv, Option.or_none]
  have direct : effectiveRedisAddress a = a.redisAddress := by
    simp [effectiveRedisAddress, parsed.redisHost.eq_default noHost,
      parsed.redisPort.eq_default noPort, parsed.redisUrl.eq_default noUrl]
  have address := parsed.text .redisAddress
  refine congrArg Setting.text ?_
  match file : c.file with
  | none =>
      simp only [base, file, Settings.fromArgs, direct, Option.bind_none]
      exact address.no_file
  | some body =>
      simp only [base, file, Option.bind_some]
      rw [← address.file_eq (TextKey.takes_part _) (.inr rfl)]
      have fromFile : ¬ (explicitServeArgs source).contains "redis_address" = true →
          effectiveRedisAddressFile body.config a =
            (body.texts "redis_address").getD defaultRedisAddress := by
        intro absent
        have own : a.redisAddress = defaultRedisAddress :=
          address.default_of_not_given (TextKey.takes_part _) absent
        simp only [effectiveRedisAddressFile, FileBody.config, FileBody.text, hostFile body file,
          portFile body file, urlFile body file, direct, own]
        simpa using Eq.symm
      have any : ["redis_url", "redis_host", "redis_port", "redis_address"].any
          (explicitServeArgs source).contains =
            (explicitServeArgs source).contains "redis_address" := by
        simp only [List.any_cons, List.any_nil, parsed.redisHost.not_given (by decide) noHost,
          parsed.redisPort.not_given (by decide) noPort,
          parsed.redisUrl.not_given (by decide) noUrl, Bool.false_or, Bool.or_false]
      simp only [Settings.fromFileAndArgs, any, direct]
      split
      · rename_i isGiven
        exact (if_pos isGiven).symm
      · rename_i absent
        exact (fromFile absent).trans (if_neg absent).symm

/-- A text of the arguments and the file has its value by precedence. The namespace of
personal channels is left out. -/
theorem text_base (parsed : Parsed c.cmd c.env a source) {k : TextKey}
    (personal : k ≠ .userPersonalChannelNamespace) (plain : k = .redisAddress → c.NoAliases) :
    .text ((c.base a source).text k) = c.resolved (.text k) := by
  by_cases redis : k = .redisAddress
  · subst redis
    exact redisAddress_base parsed (plain rfl)
  refine congrArg Setting.text ?_
  match file : c.file with
  | none =>
      simp only [base, file, Option.bind_none, Settings.text_fromArgs a redis]
      exact (parsed.text k).no_file
  | some body =>
      simp only [base, file, Option.bind_some,
        Settings.text_fromFileAndArgs _ _ _ personal redis]
      refine (parsed.text k).file_eq k.takes_part ?_
      split
      · rename_i same
        subst same
        exact .inl rfl
      · exact .inr rfl

theorem number_running (parsed : Parsed c.cmd c.env a source) (k : NumberKey) :
    .number ((c.running a source).number k) = c.resolved (.number k) := by
  refine congrArg Setting.number ?_
  rw [running, Settings.number_applyEnv]
  match file : c.file with
  | none =>
      simp only [base, file, Option.bind_none, Settings.number_fromArgs]
      exact (parsed.number k).no_file
  | some body =>
      simp only [base, file, Option.bind_some, Settings.number_fromFileAndArgs]
      refine (parsed.number k).file_eq k.takes_part ?_
      split
      · rename_i same
        subst same
        exact .inl rfl
      · exact .inr rfl

/-- A flag that is given is on. Otherwise the second pass looks at the variable, then at the
file. -/
theorem flag_running (parsed : Parsed c.cmd c.env a source) (k : FlagKey) :
    .flag ((c.running a source).flag k) = c.resolved (.flag k) := by
  refine congrArg Setting.flag ?_
  have flag := parsed.flag k
  have off : k.arg.default = false := by cases k <;> rfl
  have given := (@contains_explicitServeArgs source _ k.takes_part).trans flag.given_iff
  have before : (c.base a source).flag k =
      if (explicitServeArgs source).contains k.arg.id then a.flag k
      else (c.file.bind fun body => body.flags k.arg.id).getD false := by
    match file : c.file with
    | none =>
        simp only [base, file, Option.bind_none, Settings.flag_fromArgs]
        split
        · rfl
        · rename_i absent
          exact (flag.default_of_not_given k.takes_part absent).trans off
    | some body => simp only [base, file, Option.bind_some, Settings.flag_fromFileAndArgs]
  rw [running, Settings.flag_applyEnv, before, resolve, off]
  by_cases on : c.cmd.flags k.arg.id = true
  · have isGiven : (explicitServeArgs source).contains k.arg.id = true := by
      rw [given, if_pos on]
      rfl
    rw [if_pos isGiven, if_pos isGiven, if_pos on, flag.value_eq, if_pos on]
    rfl
  · have absent : ¬ (explicitServeArgs source).contains k.arg.id = true := by
      rw [given, if_neg on]
      exact Bool.false_ne_true
    rw [if_neg absent, if_neg absent, if_neg on]
    cases (c.env k.arg.env).bind parseBool <;> rfl

/-- The second pass changes a text exactly when it has its default and the variable has
something else. -/
theorem text_running_iff (parsed : Parsed c.cmd c.env a source) {k : TextKey}
    (personal : k ≠ .userPersonalChannelNamespace) (plain : k = .redisAddress → c.NoAliases) :
    .text ((c.running a source).text k) = c.resolved (.text k) ↔
      (k ∈ overlaid → c.cmd.texts k.arg.id = some k.arg.default →
        ∀ value ∈ c.env k.arg.env, value = "" ∨ value = k.arg.default) := by
  have before : (c.base a source).text k = resolve (c.cmd.texts k.arg.id) (c.env k.arg.env)
      (c.file.bind fun body => body.texts k.arg.id) k.arg.default :=
    Setting.text.inj (text_base parsed personal plain)
  rw [resolved, Setting.text.injEq, running, Settings.text_applyEnv, before]
  by_cases listed : k ∈ overlaid
  · rw [resolve]
    match c.cmd.texts k.arg.id, c.env k.arg.env with
    | none, none => simp
    | none, some value =>
        by_cases empty : value = ""
        · simp [empty, Option.filter]
        · simp [empty, Option.filter]
    | some given, none => simp
    | some given, some value =>
        by_cases same : given = k.arg.default
        · by_cases empty : value = ""
          · simp [same, empty, Option.filter]
          · simp [same, empty, listed, Option.filter]
        · simp [same]
  · simp [listed]

/-- With a file the namespace of personal channels is the one of the file. -/
theorem personal_running_iff (parsed : Parsed c.cmd c.env a source) :
    .text ((c.running a source).text .userPersonalChannelNamespace) =
        c.resolved (.text .userPersonalChannelNamespace) ↔
      ∀ body ∈ c.file, ∀ value ∈ (c.cmd.texts "user_personal_channel_namespace").or
        (c.env "CENTRIFUGO_USER_PERSONAL_CHANNEL_NAMESPACE"),
          value = (body.texts "user_personal_channel_namespace").getD "" := by
  have away : TextKey.userPersonalChannelNamespace ∉ overlaid := by decide
  rw [resolved, Setting.text.injEq, running, Settings.text_applyEnv, if_neg fun h => away h.1]
  match file : c.file with
  | none =>
      refine iff_of_true ?_ (by simp)
      simp only [base, file, Option.bind_none]
      exact (parsed.text .userPersonalChannelNamespace).no_file
  | some body =>
      have own : (c.base a source).text .userPersonalChannelNamespace =
          (body.texts "user_personal_channel_namespace").getD "" := by
        simp only [base, file]
        rfl
      rw [own]
      simp only [TextKey.arg, resolve, Option.bind_some, Option.mem_some_iff, forall_eq']
      cases (c.cmd.texts "user_personal_channel_namespace").or
        (c.env "CENTRIFUGO_USER_PERSONAL_CHANNEL_NAMESPACE") with
      | none => simp
      | some value => simp [eq_comm]

/-- Every key has its value by precedence exactly when the second pass does not overwrite what
the command line gave, and a file names the namespace of personal channels that was given. -/
theorem running_resolved_iff (parsed : Parsed c.cmd c.env a source) (k : Key)
    (plain : k = .text .redisAddress → c.NoAliases) :
    (c.running a source).value k = c.resolved k ↔ c.Keeps k := by
  match k with
  | .number k => exact iff_of_true (number_running parsed k) trivial
  | .flag k => exact iff_of_true (flag_running parsed k) trivial
  | .text k =>
      by_cases personal : k = .userPersonalChannelNamespace
      · subst personal
        have away : TextKey.userPersonalChannelNamespace ∉ overlaid := by decide
        refine (personal_running_iff parsed).trans ?_
        simp [Keeps, away, TextKey.arg]
      · have redis : k = .redisAddress → c.NoAliases := fun same => plain (congrArg Key.text same)
        refine (text_running_iff parsed personal redis).trans ?_
        simp [Keeps, personal]

end Config

/-! ## A configuration -/

namespace Sample

/-- A file with a key for tokens and with a namespace for personal channels. -/
def fileBody : FileBody where
  texts
    | "token_hmac_secret_key" => some "file-secret"
    | "user_personal_channel_namespace" => some "personal"
    | _ => none
  namespaces := some [⟨"personal", {}⟩, ⟨"other", {}⟩]

/-- The command line empties the key for tokens and names the other namespace, and the variable
for the key is set. -/
def layers : Config where
  cmd :=
    { texts
        | "token_hmac_secret_key" => some ""
        | "user_personal_channel_namespace" => some "other"
        | _ => none }
  env
    | "CENTRIFUGO_TOKEN_HMAC_SECRET_KEY" => some "env-secret"
    | _ => none
  file := some fileBody

/-- The arguments that the parser makes of them. -/
def serveArgs : ServeArgs := { defaultArgs with userPersonalChannelNamespace := "other" }

def valueSource : String → ValueSource
  | "token_hmac_secret_key" | "user_personal_channel_namespace" => .commandLine
  | _ => .defaultValue

theorem parsed_layers : Parsed layers.cmd layers.env serveArgs valueSource where
  text k := by cases k <;> exact ⟨rfl, rfl⟩
  number k := by cases k <;> exact ⟨rfl, rfl⟩
  reads k := by cases k <;> exact fun _ raw set => by cases set
  flag k := by cases k <;> exact ⟨rfl, rfl⟩
  redisHost := ⟨rfl, rfl⟩
  redisPort := ⟨rfl, rfl⟩
  redisUrl := ⟨rfl, rfl⟩

end Sample

namespace Config

theorem running_resolved_iff_hmac :
    (Sample.layers.running Sample.serveArgs Sample.valueSource).value (.text .tokenHmacSecretKey) =
        Sample.layers.resolved (.text .tokenHmacSecretKey) ↔
      Sample.layers.Keeps (.text .tokenHmacSecretKey) :=
  running_resolved_iff Sample.parsed_layers (.text .tokenHmacSecretKey) fun same => by cases same

/-- A key that the command line empties is taken from the variable, and the namespace that it
names is not used. -/
theorem not_running_resolved :
    Parsed Sample.layers.cmd Sample.layers.env Sample.serveArgs Sample.valueSource ∧
      (let running := Sample.layers.running Sample.serveArgs Sample.valueSource
      running.value (.text .tokenHmacSecretKey) = .text "env-secret" ∧
        Sample.layers.resolved (.text .tokenHmacSecretKey) = .text "" ∧
        running.value (.text .userPersonalChannelNamespace) = .text "personal" ∧
        Sample.layers.resolved (.text .userPersonalChannelNamespace) = .text "other") :=
  ⟨Sample.parsed_layers, by decide +kernel⟩

end Config

end Centrifugo
