import Centrifugo.Api.Batch
import Centrifugo.Core.Options

/-!
# Configuration

The settings of the server come from the command line, from `CENTRIFUGO_` variables and,
when there is one, from a configuration file. The arguments carry what the command line
parser made of the first two, along with the names of those that were given; a second
pass over the variables is made on the settings. A file is checked before it is used.
-/

namespace Centrifugo

open Json

/-! ## Keys -/

/-- The keys with a text. -/
inductive TextKey
  | address
  | name
  | userPersonalChannelNamespace
  | tokenHmacSecretKey
  | tokenRsaPublicKey
  | tokenEcdsaPublicKey
  | tokenJwksPublicEndpoint
  | apiKey
  | grpcApiKey
  | proxyConnectEndpoint
  | proxyRefreshEndpoint
  | proxySubscribeEndpoint
  | proxyPublishEndpoint
  | proxyRpcEndpoint
  | engine
  | redisAddress
  | redisMasterName
  | redisSentinels
  | redisPassword
  | redisPrefix
  | adminPassword
  | adminSecret
  | adminWebPath
  deriving DecidableEq

/-- The keys with a number. -/
inductive NumberKey
  | port
  | clientPresencePingInterval
  | clientPresenceExpireInterval
  | grpcApiPort
  | redisDb
  | redisHistoryMetaTtl
  | memoryHistoryMetaTtl
  deriving DecidableEq

/-- The keys that are switched on and off. -/
inductive FlagKey
  | clientInsecure
  | apiInsecure
  | grpcApi
  | admin
  | adminInsecure
  deriving DecidableEq

/-- An argument with a long name, a variable and a default. -/
structure Arg (α : Type) where
  id : String
  env : String
  default : α

def TextKey.arg : TextKey → Arg String
  | .address => ⟨"address", "CENTRIFUGO_ADDRESS", "0.0.0.0"⟩
  | .name => ⟨"name", "CENTRIFUGO_NAME", ""⟩
  | .userPersonalChannelNamespace =>
      ⟨"user_personal_channel_namespace", "CENTRIFUGO_USER_PERSONAL_CHANNEL_NAMESPACE", ""⟩
  | .tokenHmacSecretKey => ⟨"token_hmac_secret_key", "CENTRIFUGO_TOKEN_HMAC_SECRET_KEY", ""⟩
  | .tokenRsaPublicKey => ⟨"token_rsa_public_key", "CENTRIFUGO_TOKEN_RSA_PUBLIC_KEY", ""⟩
  | .tokenEcdsaPublicKey => ⟨"token_ecdsa_public_key", "CENTRIFUGO_TOKEN_ECDSA_PUBLIC_KEY", ""⟩
  | .tokenJwksPublicEndpoint =>
      ⟨"token_jwks_public_endpoint", "CENTRIFUGO_TOKEN_JWKS_PUBLIC_ENDPOINT", ""⟩
  | .apiKey => ⟨"api_key", "CENTRIFUGO_API_KEY", ""⟩
  | .grpcApiKey => ⟨"grpc_api_key", "CENTRIFUGO_GRPC_API_KEY", ""⟩
  | .proxyConnectEndpoint => ⟨"proxy_connect_endpoint", "CENTRIFUGO_PROXY_CONNECT_ENDPOINT", ""⟩
  | .proxyRefreshEndpoint => ⟨"proxy_refresh_endpoint", "CENTRIFUGO_PROXY_REFRESH_ENDPOINT", ""⟩
  | .proxySubscribeEndpoint =>
      ⟨"proxy_subscribe_endpoint", "CENTRIFUGO_PROXY_SUBSCRIBE_ENDPOINT", ""⟩
  | .proxyPublishEndpoint => ⟨"proxy_publish_endpoint", "CENTRIFUGO_PROXY_PUBLISH_ENDPOINT", ""⟩
  | .proxyRpcEndpoint => ⟨"proxy_rpc_endpoint", "CENTRIFUGO_PROXY_RPC_ENDPOINT", ""⟩
  | .engine => ⟨"engine", "CENTRIFUGO_ENGINE", "memory"⟩
  | .redisAddress => ⟨"redis_address", "CENTRIFUGO_REDIS_ADDRESS", "127.0.0.1:6379"⟩
  | .redisMasterName => ⟨"redis_master_name", "CENTRIFUGO_REDIS_MASTER_NAME", ""⟩
  | .redisSentinels => ⟨"redis_sentinels", "CENTRIFUGO_REDIS_SENTINELS", ""⟩
  | .redisPassword => ⟨"redis_password", "CENTRIFUGO_REDIS_PASSWORD", ""⟩
  | .redisPrefix => ⟨"redis_prefix", "CENTRIFUGO_REDIS_PREFIX", "centrifugo"⟩
  | .adminPassword => ⟨"admin_password", "CENTRIFUGO_ADMIN_PASSWORD", ""⟩
  | .adminSecret => ⟨"admin_secret", "CENTRIFUGO_ADMIN_SECRET", ""⟩
  | .adminWebPath => ⟨"admin_web_path", "CENTRIFUGO_ADMIN_WEB_PATH", ""⟩

def NumberKey.arg : NumberKey → Arg Int
  | .port => ⟨"port", "CENTRIFUGO_PORT", 8000⟩
  | .clientPresencePingInterval =>
      ⟨"client_presence_ping_interval", "CENTRIFUGO_CLIENT_PRESENCE_PING_INTERVAL", 25⟩
  | .clientPresenceExpireInterval =>
      ⟨"client_presence_expire_interval", "CENTRIFUGO_CLIENT_PRESENCE_EXPIRE_INTERVAL", 60⟩
  | .grpcApiPort => ⟨"grpc_api_port", "CENTRIFUGO_GRPC_API_PORT", 10000⟩
  | .redisDb => ⟨"redis_db", "CENTRIFUGO_REDIS_DB", 0⟩
  | .redisHistoryMetaTtl => ⟨"redis_history_meta_ttl", "CENTRIFUGO_REDIS_HISTORY_META_TTL", 0⟩
  | .memoryHistoryMetaTtl => ⟨"memory_history_meta_ttl", "CENTRIFUGO_MEMORY_HISTORY_META_TTL", 0⟩

/-- The flags have no variable in the command line parser; the second pass reads it. -/
def FlagKey.arg : FlagKey → Arg Bool
  | .clientInsecure => ⟨"client_insecure", "CENTRIFUGO_CLIENT_INSECURE", false⟩
  | .apiInsecure => ⟨"api_insecure", "CENTRIFUGO_API_INSECURE", false⟩
  | .grpcApi => ⟨"grpc_api", "CENTRIFUGO_GRPC_API", false⟩
  | .admin => ⟨"admin", "CENTRIFUGO_ADMIN", false⟩
  | .adminInsecure => ⟨"admin_insecure", "CENTRIFUGO_ADMIN_INSECURE", false⟩

/-- The arguments that take part in the precedence over a file. -/
def precedenceIds : List String := [
  "address",
  "port",
  "name",
  "user_personal_channel_namespace",
  "token_hmac_secret_key",
  "token_rsa_public_key",
  "token_ecdsa_public_key",
  "token_jwks_public_endpoint",
  "client_presence_ping_interval",
  "client_presence_expire_interval",
  "api_key",
  "grpc_api_port",
  "grpc_api_key",
  "proxy_connect_endpoint",
  "proxy_refresh_endpoint",
  "proxy_subscribe_endpoint",
  "proxy_publish_endpoint",
  "proxy_rpc_endpoint",
  "engine",
  "redis_address",
  "redis_host",
  "redis_port",
  "redis_url",
  "redis_master_name",
  "redis_sentinels",
  "redis_password",
  "redis_db",
  "redis_prefix",
  "redis_history_meta_ttl",
  "memory_history_meta_ttl",
  "admin_password",
  "admin_secret",
  "admin_web_path",
  "client_insecure",
  "api_insecure",
  "grpc_api",
  "admin",
  "admin_insecure"]

/-- Where the command line parser has a value from. -/
inductive ValueSource
  | commandLine
  | envVariable
  | defaultValue
  deriving DecidableEq

/-- The arguments that were given on the command line or by a variable. -/
def explicitServeArgs (valueSource : String → ValueSource) : List String :=
  precedenceIds.filter fun id =>
    valueSource id = .commandLine || valueSource id = .envVariable

/-! ## Arguments -/

structure ServeArgs where
  address : String
  port : Int
  name : String
  clientInsecure : Bool
  clientAnonymous : Bool
  userSubscribeToPersonal : Bool
  userPersonalChannelNamespace : String
  tokenHmacSecretKey : String
  tokenRsaPublicKey : String
  tokenEcdsaPublicKey : String
  tokenJwksPublicEndpoint : String
  publish : Bool
  subscribeToPublish : Bool
  presence : Bool
  joinLeave : Bool
  presenceDisableForClient : Bool
  clientPresencePingInterval : Int
  clientPresenceExpireInterval : Int
  historySize : Nat
  historyLifetime : Nat
  historyRecover : Bool
  historyDisableForClient : Bool
  apiKey : String
  apiInsecure : Bool
  grpcApi : Bool
  grpcApiPort : Int
  grpcApiKey : String
  proxyConnectEndpoint : String
  proxyRefreshEndpoint : String
  proxySubscribeEndpoint : String
  proxyPublishEndpoint : String
  proxyRpcEndpoint : String
  admin : Bool
  adminInsecure : Bool
  adminPassword : String
  adminSecret : String
  adminWebPath : String
  engine : String
  redisAddress : String
  redisHost : String
  redisPort : String
  redisUrl : String
  redisMasterName : String
  redisSentinels : String
  redisPassword : String
  redisDb : Int
  redisPrefix : String
  redisHistoryMetaTtl : Int
  memoryHistoryMetaTtl : Int

/-- The address of Redis from the aliases: the URL, else host and port, else the address. -/
def effectiveRedisAddress (a : ServeArgs) : String :=
  if a.redisUrl ≠ "" then a.redisUrl
  else if a.redisHost ≠ "" || a.redisPort ≠ "" then
    let host := if a.redisHost = "" then "127.0.0.1" else a.redisHost
    let port := if a.redisPort = "" then "6379" else a.redisPort
    host ++ ":" ++ port
  else a.redisAddress

/-! ## The file -/

structure NamespaceCfg where
  name : String
  options : ChannelOptions
  deriving DecidableEq

def defaultRedisAddress : String := "127.0.0.1:6379"

/-- The body of a file that parses: its members by name, each of the type of its field. -/
structure FileBody where
  texts : String → Option String := fun _ => none
  numbers : String → Option Int := fun _ => none
  flags : String → Option Bool := fun _ => none
  allowedOrigins : Option (List String) := none
  namespaces : Option (List NamespaceCfg) := none

structure FileConfig where
  name : String
  address : Option String
  port : Option Int
  clientInsecure : Bool
  clientAnonymous : Bool
  channelMaxLength : Int
  clientChannelLimit : Int
  clientUserConnectionLimit : Int
  allowedOrigins : Option (List String)
  clientPresencePingInterval : Int
  clientPresenceExpireInterval : Int
  tokenHmacSecretKey : String
  tokenRsaPublicKey : String
  tokenEcdsaPublicKey : String
  tokenJwksPublicEndpoint : String
  apiKey : String
  apiInsecure : Bool
  grpcApi : Bool
  grpcApiPort : Int
  grpcApiKey : String
  engine : String
  redisAddress : String
  redisHost : String
  redisPort : String
  redisUrl : String
  redisMasterName : String
  redisSentinels : String
  redisPassword : String
  redisDb : Int
  redisPrefix : String
  redisHistoryMetaTtl : Int
  memoryHistoryMetaTtl : Int
  proxyConnectEndpoint : String
  proxyRefreshEndpoint : String
  proxySubscribeEndpoint : String
  proxyPublishEndpoint : String
  proxyRpcEndpoint : String
  admin : Bool
  adminInsecure : Bool
  adminPassword : String
  adminSecret : String
  adminWebPath : String
  options : ChannelOptions
  channelNamespaceBoundary : String
  channelPrivatePrefix : String
  userSubscribeToPersonal : Bool
  userPersonalChannelNamespace : String
  namespaces : List NamespaceCfg

namespace FileBody

variable (body : FileBody)

def text (name default : String) : String := (body.texts name).getD default

def number (name : String) (default : Int) : Int := (body.numbers name).getD default

def flag (name : String) : Bool := (body.flags name).getD false

/-- The options of a channel, among the members of an object. -/
def options : ChannelOptions where
  presence := body.flag "presence"
  joinLeave := body.flag "join_leave"
  presenceDisableForClient := body.flag "presence_disable_for_client"
  historySize := (body.number "history_size" 0).toNat
  historyLifetime := (body.number "history_lifetime" 0).toNat
  historyRecover := body.flag "history_recover"
  historyDisableForClient := body.flag "history_disable_for_client"
  anonymous := body.flag "anonymous"
  serverSide := body.flag "server_side"
  proxySubscribe := body.flag "proxy_subscribe"
  proxyPublish := body.flag "proxy_publish"
  publish := body.flag "publish"
  subscribeToPublish := body.flag "subscribe_to_publish"

/-- The configuration, with a default for every member that is missing. -/
def config : FileConfig where
  name := body.text "name" ""
  address := body.texts "address"
  port := body.numbers "port"
  clientInsecure := body.flag "client_insecure"
  clientAnonymous := body.flag "client_anonymous"
  channelMaxLength := body.number "channel_max_length" 255
  clientChannelLimit := body.number "client_channel_limit" 128
  clientUserConnectionLimit := body.number "client_user_connection_limit" 0
  allowedOrigins := body.allowedOrigins
  clientPresencePingInterval := body.number "client_presence_ping_interval" 25
  clientPresenceExpireInterval := body.number "client_presence_expire_interval" 60
  tokenHmacSecretKey := body.text "token_hmac_secret_key" ""
  tokenRsaPublicKey := body.text "token_rsa_public_key" ""
  tokenEcdsaPublicKey := body.text "token_ecdsa_public_key" ""
  tokenJwksPublicEndpoint := body.text "token_jwks_public_endpoint" ""
  apiKey := body.text "api_key" ""
  apiInsecure := body.flag "api_insecure"
  grpcApi := body.flag "grpc_api"
  grpcApiPort := body.number "grpc_api_port" 10000
  grpcApiKey := body.text "grpc_api_key" ""
  engine := body.text "engine" "memory"
  redisAddress := body.text "redis_address" defaultRedisAddress
  redisHost := body.text "redis_host" ""
  redisPort := body.text "redis_port" ""
  redisUrl := body.text "redis_url" ""
  redisMasterName := body.text "redis_master_name" ""
  redisSentinels := body.text "redis_sentinels" ""
  redisPassword := body.text "redis_password" ""
  redisDb := body.number "redis_db" 0
  redisPrefix := body.text "redis_prefix" "centrifugo"
  redisHistoryMetaTtl := body.number "redis_history_meta_ttl" 0
  memoryHistoryMetaTtl := body.number "memory_history_meta_ttl" 0
  proxyConnectEndpoint := body.text "proxy_connect_endpoint" ""
  proxyRefreshEndpoint := body.text "proxy_refresh_endpoint" ""
  proxySubscribeEndpoint := body.text "proxy_subscribe_endpoint" ""
  proxyPublishEndpoint := body.text "proxy_publish_endpoint" ""
  proxyRpcEndpoint := body.text "proxy_rpc_endpoint" ""
  admin := body.flag "admin"
  adminInsecure := body.flag "admin_insecure"
  adminPassword := body.text "admin_password" ""
  adminSecret := body.text "admin_secret" ""
  adminWebPath := body.text "admin_web_path" ""
  options := body.options
  channelNamespaceBoundary := body.text "channel_namespace_boundary" ":"
  channelPrivatePrefix := body.text "channel_private_prefix" "$"
  userSubscribeToPersonal := body.flag "user_subscribe_to_personal"
  userPersonalChannelNamespace := body.text "user_personal_channel_namespace" ""
  namespaces := body.namespaces.getD []

end FileBody

/-- The address of Redis from a file, or else from the arguments. -/
def effectiveRedisAddressFile (fc : FileConfig) (a : ServeArgs) : String :=
  if fc.redisUrl ≠ "" then fc.redisUrl
  else if fc.redisHost ≠ "" || fc.redisPort ≠ "" then
    let host := if fc.redisHost = "" then "127.0.0.1" else fc.redisHost
    let port := if fc.redisPort = "" then "6379" else fc.redisPort
    host ++ ":" ++ port
  else if fc.redisAddress ≠ defaultRedisAddress then fc.redisAddress
  else effectiveRedisAddress a

/-! ## Checking a file -/

def checkHistory (options : ChannelOptions) (scope : String) : Except String Unit :=
  if options.historyRecover && (options.historySize = 0 || options.historyLifetime = 0) then
    .error ("both history size and history lifetime required for history recovery" ++ scope)
  else .ok ()

/-- Letters, digits, `-`, `_` and `.`, at least two of them. -/
def validNamespaceName (name : String) : Bool :=
  let bytes := encodeUtf8 name.toList
  2 ≤ bytes.length && bytes.all fun b =>
    (48 ≤ b && b ≤ 57) || (65 ≤ b && b ≤ 90) || (97 ≤ b && b ≤ 122) ||
      b = 45 || b = 95 || b = 46

/-- The loop over the namespaces, with the names that were seen. -/
def checkNamespaces (seen : List String) : List NamespaceCfg → Except String (List String)
  | [] => .ok seen
  | ns :: rest =>
      if !validNamespaceName ns.name then .error ("wrong namespace name: " ++ ns.name)
      else if ns.name ∈ seen then .error ("namespace name must be unique: " ++ ns.name)
      else
        match checkHistory ns.options (" in namespace " ++ ns.name) with
        | .error e => .error e
        | .ok () => checkNamespaces (ns.name :: seen) rest

def validateFileConfig (fc : FileConfig) : Except String Unit :=
  match checkHistory fc.options "" with
  | .error e => .error e
  | .ok () =>
      match checkNamespaces [] fc.namespaces with
      | .error e => .error e
      | .ok seen =>
          if fc.userPersonalChannelNamespace ≠ "" ∧ fc.userPersonalChannelNamespace ∉ seen then
            .error ("namespace for user personal channel not found: " ++
              fc.userPersonalChannelNamespace)
          else .ok ()

def checkConfig (body : FileBody) : Except String Unit := validateFileConfig body.config

/-! ## Settings -/

structure Settings where
  address : String
  port : Int
  name : String
  clientInsecure : Bool
  clientAnonymous : Bool
  channelMaxLength : Int
  clientChannelLimit : Int
  clientUserConnectionLimit : Int
  allowedOrigins : Option (List String)
  clientPresencePingInterval : Int
  clientPresenceExpireInterval : Int
  tokenHmacSecretKey : String
  tokenRsaPublicKey : String
  tokenEcdsaPublicKey : String
  tokenJwksPublicEndpoint : String
  apiKey : String
  apiInsecure : Bool
  grpcApi : Bool
  grpcApiPort : Int
  grpcApiKey : String
  engine : String
  redisAddress : String
  redisMasterName : String
  redisSentinels : String
  redisPassword : String
  redisDb : Int
  redisPrefix : String
  redisHistoryMetaTtl : Int
  memoryHistoryMetaTtl : Int
  proxyConnectEndpoint : String
  proxyRefreshEndpoint : String
  proxySubscribeEndpoint : String
  proxyPublishEndpoint : String
  proxyRpcEndpoint : String
  admin : Bool
  adminInsecure : Bool
  adminPassword : String
  adminSecret : String
  adminWebPath : String
  namespaces : Namespaces

/-- The namespaces by name. -/
def collectNamespaces (namespaces : List NamespaceCfg) : Map String ChannelOptions :=
  namespaces.foldl (fun collected ns => collected.insert ns.name ns.options) ∅

/-- The namespaces that a file declares. -/
def FileConfig.registry (fc : FileConfig) : Namespaces where
  default := fc.options
  namespaces := collectNamespaces fc.namespaces
  namespaceBoundary := fc.channelNamespaceBoundary
  privatePrefix := fc.channelPrivatePrefix
  userSubscribeToPersonal := fc.userSubscribeToPersonal
  userPersonalChannelNamespace := fc.userPersonalChannelNamespace

namespace Settings

/-- The settings without a file: one set of options, no namespaces. -/
def fromArgs (a : ServeArgs) : Settings where
  address := a.address
  port := a.port
  name := a.name
  clientInsecure := a.clientInsecure
  clientAnonymous := a.clientAnonymous
  channelMaxLength := 255
  clientChannelLimit := 128
  clientUserConnectionLimit := 0
  allowedOrigins := none
  clientPresencePingInterval := a.clientPresencePingInterval
  clientPresenceExpireInterval := a.clientPresenceExpireInterval
  tokenHmacSecretKey := a.tokenHmacSecretKey
  tokenRsaPublicKey := a.tokenRsaPublicKey
  tokenEcdsaPublicKey := a.tokenEcdsaPublicKey
  tokenJwksPublicEndpoint := a.tokenJwksPublicEndpoint
  apiKey := a.apiKey
  apiInsecure := a.apiInsecure
  grpcApi := a.grpcApi
  grpcApiPort := a.grpcApiPort
  grpcApiKey := a.grpcApiKey
  engine := a.engine
  redisAddress := effectiveRedisAddress a
  redisMasterName := a.redisMasterName
  redisSentinels := a.redisSentinels
  redisPassword := a.redisPassword
  redisDb := a.redisDb
  redisPrefix := a.redisPrefix
  redisHistoryMetaTtl := a.redisHistoryMetaTtl
  memoryHistoryMetaTtl := a.memoryHistoryMetaTtl
  proxyConnectEndpoint := a.proxyConnectEndpoint
  proxyRefreshEndpoint := a.proxyRefreshEndpoint
  proxySubscribeEndpoint := a.proxySubscribeEndpoint
  proxyPublishEndpoint := a.proxyPublishEndpoint
  proxyRpcEndpoint := a.proxyRpcEndpoint
  admin := a.admin
  adminInsecure := a.adminInsecure
  adminPassword := a.adminPassword
  adminSecret := a.adminSecret
  adminWebPath := a.adminWebPath
  namespaces :=
    { default :=
        { presence := a.presence
          joinLeave := a.joinLeave
          presenceDisableForClient := a.presenceDisableForClient
          historySize := a.historySize
          historyLifetime := a.historyLifetime
          historyRecover := a.historyRecover
          historyDisableForClient := a.historyDisableForClient
          anonymous := false
          serverSide := false
          proxySubscribe := false
          proxyPublish := false
          publish := a.publish
          subscribeToPublish := a.subscribeToPublish }
      namespaces := ∅
      namespaceBoundary := ":"
      privatePrefix := "$"
      userSubscribeToPersonal := a.userSubscribeToPersonal
      userPersonalChannelNamespace := a.userPersonalChannelNamespace }

/-- The settings with a file: an argument that was given, else the value of the file. -/
def fromFileAndArgs (fc : FileConfig) (a : ServeArgs) (explicit : List String) : Settings :=
  let s (id arg file : String) : String := if explicit.contains id then arg else file
  let b (id : String) (arg file : Bool) : Bool := if explicit.contains id then arg else file
  let n (id : String) (arg file : Int) : Int := if explicit.contains id then arg else file
  let redisAddress :=
    if ["redis_url", "redis_host", "redis_port", "redis_address"].any explicit.contains then
      effectiveRedisAddress a
    else effectiveRedisAddressFile fc a
  { address := s "address" a.address (fc.address.getD a.address)
    port := n "port" a.port (fc.port.getD a.port)
    name := s "name" a.name fc.name
    clientInsecure := b "client_insecure" a.clientInsecure fc.clientInsecure
    clientAnonymous := fc.clientAnonymous
    channelMaxLength := fc.channelMaxLength
    clientChannelLimit := fc.clientChannelLimit
    clientUserConnectionLimit := fc.clientUserConnectionLimit
    allowedOrigins := fc.allowedOrigins
    clientPresencePingInterval :=
      n "client_presence_ping_interval" a.clientPresencePingInterval fc.clientPresencePingInterval
    clientPresenceExpireInterval :=
      n "client_presence_expire_interval" a.clientPresenceExpireInterval
        fc.clientPresenceExpireInterval
    tokenHmacSecretKey := s "token_hmac_secret_key" a.tokenHmacSecretKey fc.tokenHmacSecretKey
    tokenRsaPublicKey := s "token_rsa_public_key" a.tokenRsaPublicKey fc.tokenRsaPublicKey
    tokenEcdsaPublicKey := s "token_ecdsa_public_key" a.tokenEcdsaPublicKey fc.tokenEcdsaPublicKey
    tokenJwksPublicEndpoint :=
      s "token_jwks_public_endpoint" a.tokenJwksPublicEndpoint fc.tokenJwksPublicEndpoint
    apiKey := s "api_key" a.apiKey fc.apiKey
    apiInsecure := b "api_insecure" a.apiInsecure fc.apiInsecure
    grpcApi := b "grpc_api" a.grpcApi fc.grpcApi
    grpcApiPort := n "grpc_api_port" a.grpcApiPort fc.grpcApiPort
    grpcApiKey := s "grpc_api_key" a.grpcApiKey fc.grpcApiKey
    engine := s "engine" a.engine fc.engine
    redisAddress := redisAddress
    redisMasterName := s "redis_master_name" a.redisMasterName fc.redisMasterName
    redisSentinels := s "redis_sentinels" a.redisSentinels fc.redisSentinels
    redisPassword := s "redis_password" a.redisPassword fc.redisPassword
    redisDb := n "redis_db" a.redisDb fc.redisDb
    redisPrefix := s "redis_prefix" a.redisPrefix fc.redisPrefix
    redisHistoryMetaTtl := n "redis_history_meta_ttl" a.redisHistoryMetaTtl fc.redisHistoryMetaTtl
    memoryHistoryMetaTtl :=
      n "memory_history_meta_ttl" a.memoryHistoryMetaTtl fc.memoryHistoryMetaTtl
    proxyConnectEndpoint :=
      s "proxy_connect_endpoint" a.proxyConnectEndpoint fc.proxyConnectEndpoint
    proxyRefreshEndpoint :=
      s "proxy_refresh_endpoint" a.proxyRefreshEndpoint fc.proxyRefreshEndpoint
    proxySubscribeEndpoint :=
      s "proxy_subscribe_endpoint" a.proxySubscribeEndpoint fc.proxySubscribeEndpoint
    proxyPublishEndpoint :=
      s "proxy_publish_endpoint" a.proxyPublishEndpoint fc.proxyPublishEndpoint
    proxyRpcEndpoint := s "proxy_rpc_endpoint" a.proxyRpcEndpoint fc.proxyRpcEndpoint
    admin := b "admin" a.admin fc.admin
    adminInsecure := b "admin_insecure" a.adminInsecure fc.adminInsecure
    adminPassword := s "admin_password" a.adminPassword fc.adminPassword
    adminSecret := s "admin_secret" a.adminSecret fc.adminSecret
    adminWebPath := s "admin_web_path" a.adminWebPath fc.adminWebPath
    namespaces := fc.registry }

end Settings

/-! ## Variables -/

abbrev Env := String → Option String

/-- A variable that is set to something. -/
def envVar (env : Env) (key : String) : Option String :=
  (env ("CENTRIFUGO_" ++ key)).filter (· ≠ "")

def trimText (s : String) : Text := (s.toList.dropWhile isWhitespace).rdropWhile isWhitespace

def parseBool (s : String) : Option Bool :=
  let word := (trimText s).map Char.toLower
  if word ∈ ["1".toList, "t".toList, "true".toList] then some true
  else if word ∈ ["0".toList, "f".toList, "false".toList] then some false
  else none

def envBool (env : Env) (key : String) : Option Bool := (envVar env key).bind parseBool

def parseDigits (digits : Text) : Option Nat :=
  if digits ≠ [] && digits.all Char.isDigit then
    some (digits.foldl (fun n c => n * 10 + (c.toNat - 48)) 0)
  else none

/-- A whole number in decimal, with a sign or without. -/
def parseInt (text : Text) : Option Int :=
  match text with
  | '-' :: digits => (parseDigits digits).map fun n => -(n : Int)
  | '+' :: digits => (parseDigits digits).map fun n => (n : Int)
  | digits => (parseDigits digits).map fun n => (n : Int)

def parseUsize (text : Text) : Option Int :=
  if text.head? = some '-' then none else (parseInt text).filter (· < 2 ^ 64)

/-- A field that is empty takes the variable. -/
def fill (env : Env) (field key : String) : String :=
  if field = "" then (envVar env key).getD field else field

namespace Settings

/-- The second pass over the variables. -/
def applyEnv (s : Settings) (env : Env) (explicit : List String) : Settings :=
  let overlay (id key : String) (current : Bool) : Bool :=
    match explicit.contains id, envBool env key with
    | false, some v => v
    | _, _ => current
  let limit (key : String) (current : Int) : Int :=
    ((envVar env key).bind fun v => parseUsize (trimText v)).getD current
  { s with
    tokenHmacSecretKey := fill env s.tokenHmacSecretKey "TOKEN_HMAC_SECRET_KEY"
    tokenRsaPublicKey := fill env s.tokenRsaPublicKey "TOKEN_RSA_PUBLIC_KEY"
    tokenEcdsaPublicKey := fill env s.tokenEcdsaPublicKey "TOKEN_ECDSA_PUBLIC_KEY"
    tokenJwksPublicEndpoint := fill env s.tokenJwksPublicEndpoint "TOKEN_JWKS_PUBLIC_ENDPOINT"
    apiKey := fill env s.apiKey "API_KEY"
    proxyConnectEndpoint := fill env s.proxyConnectEndpoint "PROXY_CONNECT_ENDPOINT"
    clientInsecure := overlay "client_insecure" "CLIENT_INSECURE" s.clientInsecure
    apiInsecure := overlay "api_insecure" "API_INSECURE" s.apiInsecure
    grpcApi := overlay "grpc_api" "GRPC_API" s.grpcApi
    admin := overlay "admin" "ADMIN" s.admin
    adminInsecure := overlay "admin_insecure" "ADMIN_INSECURE" s.adminInsecure
    clientAnonymous := s.clientAnonymous || envVar env "CLIENT_ANONYMOUS" = some "true"
    channelMaxLength := limit "CHANNEL_MAX_LENGTH" s.channelMaxLength
    clientChannelLimit := limit "CLIENT_CHANNEL_LIMIT" s.clientChannelLimit
    allowedOrigins :=
      match envVar env "ALLOWED_ORIGINS" with
      | some v =>
          some (((v.toList.splitOnP isWhitespace).filter (· ≠ [])).map String.ofList)
      | none => s.allowedOrigins
    engine := if s.engine = "memory" then (envVar env "ENGINE").getD s.engine else s.engine
    redisAddress :=
      if s.redisAddress = "127.0.0.1:6379" then (envVar env "REDIS_ADDRESS").getD s.redisAddress
      else s.redisAddress
    redisPassword := fill env s.redisPassword "REDIS_PASSWORD" }

/-- What the second pass makes of a flag. -/
theorem overlay_eq (given : Bool) (v : Option Bool) (current : Bool) :
    (match given, v with
      | false, some v => v
      | _, _ => current) = if given then current else v.getD current := by
  cases given <;> cases v <;> rfl

/-- The settings that the server runs with, when it starts. A file, which has a path and a
body, is checked first. -/
def load (file : Option (String × FileBody)) (a : ServeArgs) (explicit : List String) (env : Env) :
    Except String Settings :=
  match file with
  | some (path, body) =>
      match checkConfig body with
      | .error e => .error ("invalid config " ++ path ++ ": " ++ e)
      | .ok () => .ok ((fromFileAndArgs body.config a explicit).applyEnv env explicit)
  | none => .ok ((fromArgs a).applyEnv env explicit)

end Settings

namespace Sample

/-- The arguments of a command line without options. -/
def defaultArgs : ServeArgs where
  address := "0.0.0.0"
  port := 8000
  name := ""
  clientInsecure := false
  clientAnonymous := false
  userSubscribeToPersonal := false
  userPersonalChannelNamespace := ""
  tokenHmacSecretKey := ""
  tokenRsaPublicKey := ""
  tokenEcdsaPublicKey := ""
  tokenJwksPublicEndpoint := ""
  publish := false
  subscribeToPublish := false
  presence := false
  joinLeave := false
  presenceDisableForClient := false
  clientPresencePingInterval := 25
  clientPresenceExpireInterval := 60
  historySize := 0
  historyLifetime := 0
  historyRecover := false
  historyDisableForClient := false
  apiKey := ""
  apiInsecure := false
  grpcApi := false
  grpcApiPort := 10000
  grpcApiKey := ""
  proxyConnectEndpoint := ""
  proxyRefreshEndpoint := ""
  proxySubscribeEndpoint := ""
  proxyPublishEndpoint := ""
  proxyRpcEndpoint := ""
  admin := false
  adminInsecure := false
  adminPassword := ""
  adminSecret := ""
  adminWebPath := ""
  engine := "memory"
  redisAddress := "127.0.0.1:6379"
  redisHost := ""
  redisPort := ""
  redisUrl := ""
  redisMasterName := ""
  redisSentinels := ""
  redisPassword := ""
  redisDb := 0
  redisPrefix := "centrifugo"
  redisHistoryMetaTtl := 0
  memoryHistoryMetaTtl := 0

end Sample

end Centrifugo
