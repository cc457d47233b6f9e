import Centrifugo.Auth.Claims
import Centrifugo.Json.Tree

/-!
# Tokens that the server generates

The command line generates connection tokens with the secret of the configuration. A verifier
with that secret takes such a token for its user until it expires, and one with another secret
does not, unless HMAC makes the same key of both. What the JWT package encodes and decodes is a
parameter.
-/

namespace Centrifugo

open Json Codec

/-- The key that the bytes of a secret are. -/
def keyOf (secret : String) : DecodingKey := ⟨encodeUtf8 secret.toList⟩

/-- The static keys of a verifier. An empty secret is none. The first two parameters read keys
from PEM files. -/
def TokenVerifier.new (codec : TokenCodec) (fromRsaPem fromEcPem : Bytes → Option DecodingKey)
    (hmacSecret : String) (rsaPem ecdsaPem : Option Bytes) : Except VerifyError TokenVerifier := do
  let hmac := if hmacSecret.isEmpty then none else some (keyOf hmacSecret)
  let read (fromPem : Bytes → Option DecodingKey) :
      Option Bytes → Except VerifyError (Option DecodingKey)
    | none => .ok none
    | some pem =>
        match fromPem pem with
        | some key => .ok (some key)
        | none => .error .invalid
  let rsa ← read fromRsaPem rsaPem
  let ecdsa ← read fromEcPem ecdsaPem
  return { codec, hmac, rsa, ecdsa, jwks := ∅ }

/-- Signed integers, in decimal. -/
def intValue : Int → RawValue
  | .ofNat n => .number n
  | .negSucc n => .negative (n + 1)

/-- The end of a token, without one when it lasts. -/
def genExp (now : UnixTime) (ttlSecs : UInt64) : Option Int :=
  if ttlSecs = 0 then none else some (i64 (now.seconds + i64 ttlSecs.toNat))

/-- The members of a payload, with the names of all claims. -/
def genMembers (user : String) (exp : Option Int) : List (String × Option RawValue) :=
  [("sub", some (.string user)), ("exp", exp.map intValue), ("nbf", none), ("iat", none),
    ("info", none), ("b64info", none), ("channels", none)]

def genPayload (user : String) (exp : Option Int) : RawValue :=
  .object (written (genMembers user exp))

/-- Encoding with HS256, which a package does. -/
def genConnectToken (encode : RawValue → Bytes → Option String) (now : UnixTime)
    (hmacSecret user : String) (ttlSecs : UInt64) : Except VerifyError String :=
  match encode (genPayload user (genExp now ttlSecs)) (encodeUtf8 hmacSecret.toList) with
  | some token => .ok token
  | none => .error .invalid

/-- The key of HMAC with SHA-256: a block of 64 bytes, which a secret begins and zeros fill. A
longer secret is hashed. -/
def DecodingKey.hmacBlock (sha256 : Bytes → Bytes) (key : DecodingKey) : Bytes :=
  let short := if key.bytes.length ≤ 64 then key.bytes else sha256 key.bytes
  short ++ List.replicate (64 - short.length) 0

/-- A token that is encoded has its claims, and is signed with its key. -/
def Jwt.Reads (jwt : Jwt) (encode : RawValue → Bytes → Option String)
    (sha256 : Bytes → Bytes) : Prop :=
  ∀ payload secret token, encode payload secret = some token →
    jwt.decodeHeader token = some ⟨.hs256, none⟩ ∧ jwt.payload token = some payload ∧
      ∀ key, key.hmacBlock sha256 = DecodingKey.hmacBlock sha256 ⟨secret⟩ →
        jwt.signed token key .hs256 = true

namespace ConnectTokenClaims

variable {user : String} {exp : Option Int}

theorem names_genMembers : (genMembers user exp).map Prod.fst = names := rfl

theorem readDecimal_intValue (n : Int) : readDecimal (intValue n).text = some (n : ℚ) := by
  cases n with
  | ofNat n => exact readDecimal_number n
  | negSucc n => simp [intValue, readDecimal_negative, Int.cast_negSucc]

/-- A number is no string. -/
theorem toText?_intValue (n : Int) : (intValue n).toText? = none := by
  have decimal := readDecimal_intValue n
  unfold RawValue.toText?
  split
  next rest text =>
    rw [text, readDecimal_eq_none (by decide) (by decide)] at decimal
    cases decimal
  next => rfl

theorem intValue_ne_null (n : Int) : intValue n ≠ .null := by
  intro null
  have decimal := readDecimal_intValue n
  rw [null] at decimal
  cases decimal

theorem isFinite_intCast {n : Int} (near : |n| ≤ 2 ^ 63) : isFinite n := by
  obtain ⟨below, above⟩ := abs_le.mp near
  have below : (-2 ^ 63 : ℚ) ≤ n := by exact_mod_cast below
  have above : (n : ℚ) ≤ 2 ^ 63 := by exact_mod_cast above
  have far : (2 ^ 63 : ℚ) < (2 ^ 54 - 1) * 2 ^ 970 :=
    calc (2 ^ 63 : ℚ) ≤ 2 ^ 970 := pow_le_pow_right₀ (by norm_num) (by norm_num)
      _ < (2 ^ 54 - 1) * 2 ^ 970 := lt_mul_of_one_lt_left (by positivity) (by norm_num)
  rw [isFinite, Bool.and_eq_true, decide_eq_true_iff, decide_eq_true_iff]
  exact ⟨lt_of_lt_of_le (neg_lt_neg far) below, lt_of_le_of_lt above far⟩

theorem numericDate_intValue (near : ∀ n ∈ exp, |n| ≤ 2 ^ 63) :
    numericDate (exp.map intValue) = some (exp.map fun n : Int => (n : ℚ)) := by
  cases exp with
  | none => rfl
  | some n =>
      have finite := isFinite_intCast (near n rfl)
      rw [Option.map_some, numericDate, decodeOption, if_neg (intValue_ne_null n),
        toText?_intValue]
      simp [readDecimal_intValue, finite]

/-- The claims of a generated token. -/
theorem parse_genPayload (user : String) (near : ∀ n ∈ exp, |n| ≤ 2 ^ 63) :
    parse (genPayload user exp) =
      some { sub := some user, exp := exp.map fun n : Int => (n : ℚ) } := by
  have read := @readStruct_written (genMembers user exp) (by rw [names_genMembers]; decide)
  rw [names_genMembers] at read
  have quoted : RawValue.string user ≠ .null := by
    intro null
    have text := congrArg RawValue.toText? null
    rw [RawValue.toText?_string] at text
    cases text
  have sub : decodeOption decodeText (some (.string user)) = some (some user) := by
    simp [decodeOption, quoted, decodeText]
  have date := numericDate_intValue near
  rw [parse, genPayload, read]
  simp only [genMembers, List.map_cons, List.map_nil, Option.bind_eq_bind, Option.bind_some, sub,
    date]
  rfl

theorem rationalDates_genPayload {jwt : Jwt} {token : String}
    (claims : jwt.payload token = some (genPayload user exp)) : jwt.RationalDates token := by
  intro payload found names' named slots read entry mem dated
  rw [claims] at found
  cases found
  let members := (written (genMembers user exp)).map fun entry => (entry.1.toList, entry.2)
  have slots_eq : names'.mapM (fun name => field name members) = some slots := by
    have taken := Option.mem_def.mp read
    rw [genPayload, readStruct, readObject_object] at taken
    exact taken
  have slot : field entry.1 members = some entry.2 :=
    List.forall₂_zip (mapM_eq_some.mp slots_eq) mem
  have distinct : ((genMembers user exp).map Prod.fst).Nodup := by
    rw [names_genMembers]
    decide
  have field_eq {name : String} {value : Option RawValue}
      (member : (name, value) ∈ genMembers user exp) : field name members = some value := by
    rw [field_written, filter_written distinct member]
    cases value <;> rfl
  obtain date | date : entry.1 = "exp" ∨ entry.1 = "nbf" := by simpa using dated
  · have member : ("exp", exp.map intValue) ∈ genMembers user exp := by simp [genMembers]
    rw [date, field_eq member] at slot
    rw [← Option.some.inj slot]
    cases exp with
    | none => rfl
    | some n => simp [isSpecialFloat, toText?_intValue]
  · have member : ("nbf", none) ∈ genMembers user exp := by simp [genMembers]
    rw [date, field_eq member] at slot
    rw [← Option.some.inj slot]
    rfl

end ConnectTokenClaims

namespace TokenVerifier

variable {codec : TokenCodec} {fromRsaPem fromEcPem : Bytes → Option DecodingKey}
  {rsaPem ecdsaPem : Option Bytes} {secret own : String} {v : TokenVerifier}

/-- What a verifier is built with. -/
theorem new_eq_ok (built : new codec fromRsaPem fromEcPem own rsaPem ecdsaPem = .ok v) :
    v.codec = codec ∧ v.hmac = if own.isEmpty then none else some (keyOf own) := by
  simp only [new, Guard.bind_eq_ok] at built
  obtain ⟨rsa, -, ecdsa, -, made⟩ := built
  obtain rfl := Except.ok.inj made
  exact ⟨rfl, rfl⟩

/-- The end of a token whose end is not too far away. -/
theorem genExp_eq {start : UnixTime} {ttlSecs : UInt64}
    (soon : start.seconds + ttlSecs.toNat ≤ 2 ^ 53) :
    genExp start ttlSecs = if ttlSecs = 0 then none else some (start.seconds + ttlSecs.toNat) := by
  have begun := start.nonneg
  rw [genExp, @i64_eq ttlSecs.toNat (by omega) (by omega), i64_eq (by omega) (by omega)]

theorem abs_genExp_le {start : UnixTime} {ttlSecs : UInt64}
    (soon : start.seconds + ttlSecs.toNat ≤ 2 ^ 53) :
    ∀ n ∈ genExp start ttlSecs, |n| ≤ 2 ^ 63 := by
  have begun := start.nonneg
  rw [genExp_eq soon]
  intro n mem
  split at mem
  next => cases mem
  next =>
    cases mem
    exact abs_le.mpr ⟨by omega, by omega⟩

/-- The checks of a token whose claims have been decoded. -/
theorem verifyConnectToken_of_decoded {token : String} {claims : ConnectTokenClaims}
    (decoded : v.verifyAndDecode v.codec.decodeConnect token = .ok claims)
    (plain : claims.nbf = none ∧ claims.info = none ∧ claims.b64info = none)
    (now : UnixTime) : v.verifyConnectToken now token =
      if claims.exp.any fun e => (now.seconds : ℚ) ≥ e then .error .expired
      else .ok ⟨claims.sub.getD "", none, claims.channels.getD [], expireAtSecs claims.exp⟩ := by
  obtain ⟨nbf, info, b64info⟩ := plain
  rw [verifyConnectToken, decoded]
  change (checkExpiry now claims.exp claims.nbf >>= fun _ =>
    v.resolveInfo claims.b64info claims.info >>= fun info => _) = _
  rw [checkExpiry, nbf, info, b64info]
  split <;> rfl

/-- The verdict on the claims of a generated token. -/
theorem verifyConnectToken_of_genExp {start : UnixTime} {user token : String} {ttlSecs : UInt64}
    (soon : start.seconds + ttlSecs.toNat ≤ 2 ^ 53)
    (decoded : v.verifyAndDecode v.codec.decodeConnect token = .ok
      { sub := some user, exp := (genExp start ttlSecs).map fun n : Int => (n : ℚ) })
    (now : UnixTime) : v.verifyConnectToken now token =
      if ttlSecs = 0 then .ok ⟨user, none, [], 0⟩
      else if now.seconds < start.seconds + ttlSecs.toNat then
        .ok ⟨user, none, [], start.seconds + ttlSecs.toNat⟩
      else .error .expired := by
  rw [verifyConnectToken_of_decoded decoded ⟨rfl, rfl, rfl⟩, genExp_eq soon]
  by_cases lasting : ttlSecs = 0
  · simp [lasting, expireAtSecs]
  · have begun := start.nonneg
    have whole : expireAtSecs (some ((start.seconds + ttlSecs.toNat : Int) : ℚ)) =
        start.seconds + ttlSecs.toNat := by
      have large : i64Max = 2 ^ 63 - 1 := rfl
      simp only [expireAtSecs, Int.floor_intCast]
      omega
    simp only [lasting, if_false, Option.map_some, Option.any_some, whole, Option.getD_some,
      Option.getD_none, ge_iff_le, decide_eq_true_eq, Int.cast_le]
    split
    next late => rw [if_neg (by omega)]
    next live => rw [if_pos (by omega)]

/-- How a generated token decodes with the key of another secret. -/
theorem decodeConnect_generated {jwt : Jwt} {encode : RawValue → Bytes → Option String}
    {sha256 : Bytes → Bytes} (uses : codec.Uses jwt) (reads : jwt.Reads encode sha256)
    {start : UnixTime} {user token : String} {ttlSecs : UInt64}
    (soon : start.seconds + ttlSecs.toNat ≤ 2 ^ 53)
    (encoded : encode (genPayload user (genExp start ttlSecs))
      (encodeUtf8 secret.toList) = some token)
    (apart : jwt.signed token (keyOf own) .hs256 = true →
      (keyOf own).hmacBlock sha256 = (keyOf secret).hmacBlock sha256) :
    codec.decodeHeader token = some ⟨.hs256, none⟩ ∧
    codec.decodeConnect token (keyOf own) .hs256 =
      if (keyOf own).hmacBlock sha256 = (keyOf secret).hmacBlock sha256 then
        some { sub := some user, exp := (genExp start ttlSecs).map fun n : Int => (n : ℚ) }
      else none := by
  obtain ⟨header, payload, signed⟩ := reads _ _ _ encoded
  refine ⟨by rw [uses.header, header], ?_⟩
  have mine : jwt.signed token (keyOf own) .hs256 = true ↔
      (keyOf own).hmacBlock sha256 = (keyOf secret).hmacBlock sha256 := ⟨apart, signed _⟩
  rw [uses.connect _ (ConnectTokenClaims.rationalDates_genPayload payload), Jwt.decode, payload,
    Option.bind_some, ConnectTokenClaims.parse_genPayload user (abs_genExp_le soon)]
  simp only [mine]

/-- A generated token is good for its user until it expires, whatever other keys the verifier
has. A verifier without a secret does not take it, nor does one with a secret that HMAC makes
another key of, where the signatures with the two keys differ. -/
theorem verify_genConnectToken {jwt : Jwt} {encode : RawValue → Bytes → Option String}
    {sha256 : Bytes → Bytes} (uses : codec.Uses jwt) (reads : jwt.Reads encode sha256)
    {start : UnixTime} {user token : String} {ttlSecs : UInt64}
    (soon : start.seconds + ttlSecs.toNat ≤ 2 ^ 53)
    (generated : genConnectToken encode start secret user ttlSecs = .ok token)
    (apart : jwt.signed token (keyOf own) .hs256 = true →
      (keyOf own).hmacBlock sha256 = (keyOf secret).hmacBlock sha256)
    (built : new codec fromRsaPem fromEcPem own rsaPem ecdsaPem = .ok v)
    (jwks : Map String DecodingKey) (now : UnixTime) :
    { v with jwks }.verifyConnectToken now token =
      if own.isEmpty ∨ (keyOf own).hmacBlock sha256 ≠ (keyOf secret).hmacBlock sha256 then
        .error .invalid
      else if ttlSecs = 0 then .ok ⟨user, none, [], 0⟩
      else if now.seconds < start.seconds + ttlSecs.toNat then
        .ok ⟨user, none, [], start.seconds + ttlSecs.toNat⟩
      else .error .expired := by
  obtain ⟨sameCodec, hmac⟩ := new_eq_ok built
  have selected : { v with jwks }.selectKey ⟨.hs256, none⟩ = v.hmac := rfl
  have codecs : { v with jwks }.codec = codec := sameCodec
  generalize ({ v with jwks } : TokenVerifier) = w at selected codecs
  unfold genConnectToken at generated
  split at generated
  next token' encoded =>
    obtain rfl := Except.ok.inj generated
    obtain ⟨asked, read⟩ := decodeConnect_generated uses reads soon encoded apart
    rw [← codecs] at asked read
    by_cases unkeyed : own.isEmpty ∨
        (keyOf own).hmacBlock sha256 ≠ (keyOf secret).hmacBlock sha256
    · have refused : w.verifyAndDecode w.codec.decodeConnect token' = .error .invalid := by
        obtain empty | other := unkeyed
        · rw [if_pos empty] at hmac
          simp only [verifyAndDecode, asked, selected, hmac]
        · rw [if_neg other] at read
          split at hmac
          next => simp only [verifyAndDecode, asked, selected, hmac]
          next => simp only [verifyAndDecode, asked, selected, hmac, read]
      rw [if_pos unkeyed, verifyConnectToken, refused]
      rfl
    · obtain ⟨keyed, same⟩ := not_or.mp unkeyed
      rw [if_neg keyed] at hmac
      rw [if_pos (not_not.mp same)] at read
      rw [if_neg unkeyed]
      refine verifyConnectToken_of_genExp soon ?_ now
      simp only [verifyAndDecode, asked, selected, hmac, read]
  next => cases generated

end TokenVerifier

namespace Sample

/-- A token for a minute. -/
def minuteToken : String :=
  "eyJ0eXAiOiJKV1QiLCJhbGciOiJIUzI1NiJ9.eyJzdWIiOiJhbGljZSIsImV4cCI6MTA2MH0." ++
    "KCE-_7k7pSWstfJwGZ9spHLepwnKH7CutaPE5D1rdjI"

/-- The key of its secret. -/
def minuteBlock : Bytes := (keyOf "secret").hmacBlock fun _ => []

/-- The package on this token. -/
def minuteJwt : Jwt where
  decodeHeader token := if token = minuteToken then some ⟨.hs256, none⟩ else none
  signed token key alg :=
    token = minuteToken && key.hmacBlock (fun _ => []) = minuteBlock && alg = .hs256
  payload token := if token = minuteToken then some (genPayload "alice" (some 1060)) else none

def minuteEncode (payload : RawValue) (secret : Bytes) : Option String :=
  if payload = genPayload "alice" (some 1060) ∧ secret = (keyOf "secret").bytes then
    some minuteToken
  else none

def minuteCodec : TokenCodec where
  decodeHeader := minuteJwt.decodeHeader
  decodeConnect := minuteJwt.decode ConnectTokenClaims.parse
  decodeSubscribe := minuteJwt.decode SubscribeTokenClaims.parse
  decodeBase64 _ := none

theorem minute_uses : minuteCodec.Uses minuteJwt := ⟨rfl, fun _ _ => rfl, fun _ _ => rfl⟩

theorem minute_reads : minuteJwt.Reads minuteEncode fun _ => [] := by
  intro payload secret token encoded
  obtain ⟨⟨rfl, rfl⟩, same⟩ := Option.ite_none_right_eq_some.mp encoded
  obtain rfl := Option.some.inj same
  refine ⟨by simp [minuteJwt], by simp [minuteJwt], fun key same => ?_⟩
  simp only [minuteJwt, decide_true, Bool.true_and, Bool.and_true, decide_eq_true_eq]
  exact same

theorem minute_apart {own : String}
    (mine : minuteJwt.signed minuteToken (keyOf own) .hs256 = true) :
    (keyOf own).hmacBlock (fun _ => []) = (keyOf "secret").hmacBlock fun _ => [] := by
  have same : (keyOf own).hmacBlock (fun _ => []) = minuteBlock := by
    simpa [minuteJwt] using mine
  exact same

def minuteVerifier (secret : String) : Except VerifyError TokenVerifier :=
  TokenVerifier.new minuteCodec (fun _ => none) (fun _ => none) secret none none

end Sample

open Sample in
/-- The same secret, the empty one and another one. -/
theorem TokenVerifier.verify_genConnectToken_minute :
    let verified := fun secret => (minuteVerifier secret).bind fun v =>
      v.verifyConnectToken (.ofNat 1059 (by decide)) minuteToken
    verified "secret" = .ok ⟨"alice", none, [], 1060⟩ ∧ verified "" = .error .invalid ∧
      verified "guess" = .error .invalid := by
  intro verified
  have generated : genConnectToken minuteEncode (.ofNat 1000 (by decide)) "secret" "alice" 60 =
      .ok minuteToken := rfl
  have outcome := fun own v (built : minuteVerifier own = .ok v) =>
    TokenVerifier.verify_genConnectToken minute_uses minute_reads (by decide) generated
      minute_apart built v.jwks (.ofNat 1059 (by decide))
  exact ⟨outcome "secret" _ rfl, outcome "" _ rfl, outcome "guess" _ rfl⟩

end Centrifugo
