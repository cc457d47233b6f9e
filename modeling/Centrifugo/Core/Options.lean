import Centrifugo.Core.Memory
import Centrifugo.Json.Lines

/-!
# Channel options and limits

A channel name resolves to options through the namespace registry. The part before
the boundary, after an optional private prefix, names the namespace; a name without
a boundary has the default options.
-/

namespace Centrifugo

open Json

structure ChannelOptions where
  presence : Bool := false
  joinLeave : Bool := false
  presenceDisableForClient : Bool := false
  historySize : Nat := 0
  historyLifetime : Nat := 0
  historyRecover : Bool := false
  historyDisableForClient : Bool := false
  anonymous : Bool := false
  serverSide : Bool := false
  proxySubscribe : Bool := false
  proxyPublish : Bool := false
  publish : Bool := false
  subscribeToPublish : Bool := false
  deriving DecidableEq, Repr, Inhabited

namespace ChannelOptions

def historyEnabled (options : ChannelOptions) : Bool :=
  0 < options.historySize && 0 < options.historyLifetime

def publishOptions (options : ChannelOptions) : PublishOptions :=
  if options.historyEnabled then ⟨options.historySize, options.historyLifetime⟩ else {}

end ChannelOptions

/-- Cut a text at the first occurrence of a separator. -/
def splitOnce (separator : Text) : Text → Option (Text × Text)
  | [] => if separator = [] then some ([], []) else none
  | c :: text =>
      match separator.isPrefixOf? (c :: text) with
      | some rest => some ([], rest)
      | none => (splitOnce separator text).map fun (front, rest) => (c :: front, rest)

/-- What follows the last occurrence of a character. -/
def afterLast (c : Char) (text : Text) : Option Text :=
  if c ∈ text then some (text.reverse.takeWhile (· ≠ c)).reverse else none

structure Namespaces where
  default : ChannelOptions := {}
  namespaces : Map String ChannelOptions := ∅
  namespaceBoundary : String := ":"
  privatePrefix : String := "$"
  /-- Subscribe users to their personal channel when they connect. -/
  userSubscribeToPersonal : Bool := false
  userPersonalChannelNamespace : String := ""

namespace Namespaces

/-- `none` for a channel in a namespace that does not exist. -/
def channelOptions (registry : Namespaces) (channel : String) : Option ChannelOptions :=
  let text := channel.toList
  let trimmed := (registry.privatePrefix.toList.isPrefixOf? text).getD text
  if registry.namespaceBoundary = "" then some registry.default
  else
    match splitOnce registry.namespaceBoundary.toList trimmed with
    | some (ns, _) => registry.namespaces.lookup (String.ofList ns)
    | none => some registry.default

def isPrivate (registry : Namespaces) (channel : String) : Bool :=
  registry.privatePrefix.toList.isPrefixOf channel.toList

def personalChannel (registry : Namespaces) (user : String) : Option String :=
  if !registry.userSubscribeToPersonal || user = "" then none
  else if registry.userPersonalChannelNamespace = "" then some ("#" ++ user)
  else some (registry.userPersonalChannelNamespace ++ registry.namespaceBoundary ++ "#" ++ user)

end Namespaces

/-- Limits with zero for unlimited. -/
structure Limits where
  channelMaxLength : Nat := 255
  clientChannelLimit : Nat := 128
  userConnectionLimit : Nat := 0
  deriving DecidableEq, Repr

/-- The length of a name in bytes. -/
def byteLength (name : String) : Nat := (name.toList.map Char.utf8Size).sum

/-- A channel `name#u1,u2` is open to the listed users only. -/
def userAllowed (channel user : String) : Bool :=
  match afterLast '#' channel.toList with
  | none => true
  | some allowed => (allowed.splitOn ',').any (· = user.toList)

def isUserLimited (channel : String) : Bool := '#' ∈ channel.toList

end Centrifugo
