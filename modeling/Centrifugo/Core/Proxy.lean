import Centrifugo.Protocol.Messages

/-!
# Event proxies

Client events can be forwarded to external endpoints. An endpoint answers a request
in any way it likes, also differently each time it is asked, so a proxy is a function
of the attempt and the request. A failed transport is `none`.
-/

namespace Centrifugo

structure ProxyConnectRequest where
  client : String
  transport : String
  protocol : String
  data : Option Raw
  deriving DecidableEq

/-- The identity that a connect proxy grants. -/
structure ProxyConnectReply where
  user : String := ""
  info : Option Raw := none
  /-- Forwarded to the client in the connect reply. -/
  data : Option Raw := none
  expireAt : Int := 0
  channels : List String := []
  deriving DecidableEq

inductive ProxyConnectOutcome
  | credentials (reply : ProxyConnectReply)
  | error (code : UInt32) (message : String)
  | disconnect (code : UInt32) (reason : String)
  | noCredentials
  deriving DecidableEq

structure ProxyRequest where
  client : String
  user : String
  transport : String
  protocol : String
  channel : String := ""
  method : String := ""
  data : Option Raw := none
  token : String := ""
  deriving DecidableEq

inductive ProxyOutcome (τ : Type)
  | result (value : τ)
  | error (code : UInt32) (message : String)
  | disconnect (code : UInt32) (reason : String)
  deriving DecidableEq

structure RefreshCreds where
  expired : Bool := false
  expireAt : Int := 0
  info : Option Raw := none
  deriving DecidableEq

structure SubscribeCreds where
  info : Option Raw := none
  deriving DecidableEq

structure PublishData where
  /-- Absent to publish the original payload. -/
  data : Option Raw := none
  deriving DecidableEq

structure RpcData where
  data : Option Raw := none
  deriving DecidableEq

abbrev Proxy (ρ τ : Type) := Nat → ρ → Option τ

/-- The configured proxies. -/
structure Proxies where
  connect : Option (Proxy ProxyConnectRequest ProxyConnectOutcome) := none
  refresh : Option (Proxy ProxyRequest (ProxyOutcome RefreshCreds)) := none
  subscribe : Option (Proxy ProxyRequest (ProxyOutcome SubscribeCreds)) := none
  publish : Option (Proxy ProxyRequest (ProxyOutcome PublishData)) := none
  rpc : Option (Proxy ProxyRequest (ProxyOutcome RpcData)) := none

end Centrifugo
