import Centrifugo.Core.Time
import Centrifugo.Data.Guard
import Centrifugo.Protocol.Messages
import Mathlib.Algebra.Order.Round
import Mathlib.Data.Rat.Floor

/-!
# Token verification

A token is decoded with the key that its header selects, and its claims are then
read with the semantics of the server: validity bounds, connection info and the
deadline to report. What the JWT and base64 packages decode is a parameter; numeric
dates are exact rationals.
-/

namespace Centrifugo

open Json

inductive VerifyError
  | expired
  | invalid
  deriving DecidableEq, Repr

/-- A verified connection token. -/
structure ConnectToken where
  user : String
  info : Option Raw
  channels : List String
  /-- Unix seconds, zero for no expiry. -/
  expireAt : Int
  deriving DecidableEq

/-- A verified subscription token. -/
structure SubscribeToken where
  client : String
  channel : String
  info : Option Raw
  expireAt : Int
  /-- The token expires, the subscription does not. -/
  expireTokenOnly : Bool
  deriving DecidableEq

structure ConnectTokenClaims where
  sub : Option String := none
  exp : Option ℚ := none
  nbf : Option ℚ := none
  info : Option RawValue := none
  b64info : Option String := none
  channels : Option (List String) := none

structure SubscribeTokenClaims where
  client : Option String := none
  channel : Option String := none
  exp : Option ℚ := none
  nbf : Option ℚ := none
  info : Option RawValue := none
  b64info : Option String := none
  expireTokenOnly : Bool := false

inductive Algorithm
  | hs256 | hs384 | hs512
  | rs256 | rs384 | rs512
  | es256 | es384
  | ps256 | ps384 | ps512
  | edDSA
  deriving DecidableEq, Repr

structure Header where
  alg : Algorithm
  kid : Option String
  deriving DecidableEq

structure DecodingKey where
  bytes : Bytes
  deriving DecidableEq

/-- What the JWT and base64 packages do. A claims decoder checks the signature under
the key and algorithm and parses the claims. -/
structure TokenCodec where
  decodeHeader : String → Option Header
  decodeConnect : String → DecodingKey → Algorithm → Option ConnectTokenClaims
  decodeSubscribe : String → DecodingKey → Algorithm → Option SubscribeTokenClaims
  decodeBase64 : String → Option Bytes

structure TokenVerifier where
  codec : TokenCodec
  hmac : Option DecodingKey
  rsa : Option DecodingKey
  ecdsa : Option DecodingKey
  /-- Keys by id, replaced by a background fetch. -/
  jwks : Map String DecodingKey

namespace TokenVerifier

def keyFor (verifier : TokenVerifier) : Algorithm → Option DecodingKey
  | .hs256 | .hs384 | .hs512 => verifier.hmac
  | .rs256 | .rs384 | .rs512 => verifier.rsa
  | .es256 | .es384 => verifier.ecdsa
  | .ps256 | .ps384 | .ps512 | .edDSA => none

/-- A key of the fetched set wins over the static key of the algorithm. -/
def selectKey (verifier : TokenVerifier) (header : Header) : Option DecodingKey :=
  match header.kid.bind verifier.jwks.lookup with
  | some key => some key
  | none => verifier.keyFor header.alg

def verifyAndDecode {claims : Type} (verifier : TokenVerifier)
    (decode : String → DecodingKey → Algorithm → Option claims) (token : String) :
    Except VerifyError claims :=
  match verifier.codec.decodeHeader token with
  | none => .error .invalid
  | some header =>
      match verifier.selectKey header with
      | none => .error .invalid
      | some key =>
          match decode token key header.alg with
          | none => .error .invalid
          | some claims => .ok claims

/-- Absent bounds pass. -/
def checkExpiry (now : UnixTime) (exp nbf : Option ℚ) : Except VerifyError Unit :=
  if exp.any (fun e => (now.seconds : ℚ) ≥ e) then .error .expired
  else if nbf.any (fun n => (now.seconds : ℚ) < n) then .error .expired
  else .ok ()

/-- The whole seconds of a date, as far as 64 bits hold them. -/
def expireAtSecs (exp : Option ℚ) : Int :=
  match exp with
  | none => 0
  | some e => max (-2 ^ 63) (min ⌊e⌋ i64Max)

/-- Base64 info, when there is any, replaces inline info. -/
def resolveInfo (verifier : TokenVerifier) (b64info : Option String) (info : Option RawValue) :
    Except VerifyError (Option Raw) :=
  match b64info with
  | some b =>
      if b.isEmpty then .ok (info.map fun value => .ofText value.text)
      else
        match verifier.codec.decodeBase64 b with
        | none => .error .invalid
        | some bytes => .ok (some ⟨bytes⟩)
  | none => .ok (info.map fun value => .ofText value.text)

def verifyConnectToken (verifier : TokenVerifier) (now : UnixTime) (token : String) :
    Except VerifyError ConnectToken := do
  let claims ← verifier.verifyAndDecode verifier.codec.decodeConnect token
  checkExpiry now claims.exp claims.nbf
  let info ← verifier.resolveInfo claims.b64info claims.info
  return ⟨claims.sub.getD "", info, claims.channels.getD [], expireAtSecs claims.exp⟩

def verifySubscribeToken (verifier : TokenVerifier) (now : UnixTime) (token : String) :
    Except VerifyError SubscribeToken := do
  let claims ← verifier.verifyAndDecode verifier.codec.decodeSubscribe token
  checkExpiry now claims.exp claims.nbf
  let info ← verifier.resolveInfo claims.b64info claims.info
  return ⟨claims.client.getD "", claims.channel.getD "", info, expireAtSecs claims.exp,
    claims.expireTokenOnly⟩

/-- The deadline of a valid token has not passed, up to the fraction of a second that
is cut off. -/
theorem expireAtSecs_of_checkExpiry {now : UnixTime} {exp nbf : Option ℚ}
    (h : checkExpiry now exp nbf = .ok ()) :
    expireAtSecs exp = 0 ∨ now.seconds ≤ expireAtSecs exp := by
  cases exp with
  | none => exact .inl rfl
  | some e =>
      right
      have live : (now.seconds : ℚ) < e := by
        by_contra passed
        have past : (now.seconds : ℚ) ≥ e := not_lt.mp passed
        simp [checkExpiry, past] at h
      have floor : now.seconds ≤ ⌊e⌋ := Int.le_floor.mpr live.le
      have bounded := now.bounded
      simp only [expireAtSecs]
      omega

theorem verifyConnectToken_deadline {verifier : TokenVerifier} {now : UnixTime} {token : String}
    {ct : ConnectToken} (h : verifier.verifyConnectToken now token = .ok ct) :
    ct.expireAt = 0 ∨ now.seconds ≤ ct.expireAt := by
  simp only [verifyConnectToken, Guard.bind_eq_ok] at h
  obtain ⟨claims, -, _, live, info, -, made⟩ := h
  cases made
  exact expireAtSecs_of_checkExpiry live

theorem verifySubscribeToken_deadline {verifier : TokenVerifier} {now : UnixTime}
    {token : String} {t : SubscribeToken} (h : verifier.verifySubscribeToken now token = .ok t) :
    t.expireAt = 0 ∨ now.seconds ≤ t.expireAt := by
  simp only [verifySubscribeToken, Guard.bind_eq_ok] at h
  obtain ⟨claims, -, _, live, info, -, made⟩ := h
  cases made
  exact expireAtSecs_of_checkExpiry live

end TokenVerifier

end Centrifugo
