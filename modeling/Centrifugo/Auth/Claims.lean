import Centrifugo.Api.Batch
import Centrifugo.Auth.Verifier
import Centrifugo.Json.Number
import Centrifugo.Protocol.Decode

/-!
# Token outcomes

The claims of a token are read from its JSON payload; what the JWT package does before that, the
check of the signature above all, is a parameter. From there on a token is good, expired or
invalid. The validity bounds are looked at before the connection info is decoded, so a token out
of its bounds is expired whatever its info is.
-/

namespace Centrifugo

open Json Codec

/-! ## Claims -/

/-- The numbers that are rounded to a float of 64 bits, and not to an infinity. -/
def isFinite (q : ℚ) : Bool := -((2 ^ 54 - 1) * 2 ^ 970) < q && q < (2 ^ 54 - 1) * 2 ^ 970

/-- A date in seconds: a number, or a number in a string with white space around it. -/
def numericDate : Option RawValue → Option (Option ℚ) :=
  decodeOption fun value =>
    match value.toText? with
    | some text => readDecimal ((text.dropWhile isWhitespace).rdropWhile isWhitespace)
    | none => (readDecimal value.text).filter isFinite

/-- A string from which a float is read that is no rational. -/
def isSpecialFloat (value : RawValue) : Bool :=
  match value.toText? with
  | some text =>
      let word := (text.dropWhile isWhitespace).rdropWhile isWhitespace
      String.ofList ((takeSign word).2.map Char.toLower) ∈ ["inf", "infinity", "nan"] ||
        (readDecimal word).any fun q => !isFinite q
  | none => false

def decodeI64 (value : RawValue) : Option Int :=
  match value.text with
  | '-' :: digits =>
      let n := digitsValue digits
      if digits.all Char.isDigit ∧ 0 < n ∧ n ≤ 2 ^ 63 then some (-n) else none
  | _ => value.toNat?.bind fun n => if n < 2 ^ 63 then some n else none

def decodeTexts (value : RawValue) : Option (List String) :=
  (readArray value.text).bind (List.mapM decodeText)

deriving instance DecidableEq for ConnectTokenClaims

namespace ConnectTokenClaims

def names : List String := ["sub", "exp", "nbf", "iat", "info", "b64info", "channels"]

def parse (payload : RawValue) : Option ConnectTokenClaims := do
  match ← readStruct names payload.text with
  | [sub, exp, nbf, iat, info, b64info, channels] =>
      let _ ← decodeOption decodeI64 iat
      some {
        sub := ← decodeOption decodeText sub
        exp := ← numericDate exp
        nbf := ← numericDate nbf
        info := ← decodeOption some info
        b64info := ← decodeOption decodeText b64info
        channels := ← decodeOption decodeTexts channels }
  | _ => none

end ConnectTokenClaims

namespace SubscribeTokenClaims

def names : List String := ["client", "channel", "exp", "nbf", "info", "b64info", "eto"]

def parse (payload : RawValue) : Option SubscribeTokenClaims := do
  match ← readStruct names payload.text with
  | [client, channel, exp, nbf, info, b64info, eto] =>
      some {
        client := ← decodeOption decodeText client
        channel := ← decodeOption decodeText channel
        exp := ← numericDate exp
        nbf := ← numericDate nbf
        info := ← decodeOption some info
        b64info := ← decodeOption decodeText b64info
        expireTokenOnly := ← decodeOr false RawValue.toBool? eto }
  | _ => none

end SubscribeTokenClaims

/-! ## The JWT package -/

/-- The steps of the JWT package. -/
structure Jwt where
  decodeHeader : String → Option Header
  /-- The signature is that of the key, and the key is of the family of the algorithm. -/
  signed : String → DecodingKey → Algorithm → Bool
  /-- The claims of a token, as JSON. -/
  payload : String → Option RawValue

namespace Jwt

/-- The dates of a payload are rationals. -/
def RationalDates (jwt : Jwt) (token : String) : Prop :=
  ∀ payload ∈ jwt.payload token,
    ∀ names ∈ [ConnectTokenClaims.names, SubscribeTokenClaims.names],
      ∀ slots ∈ readStruct names payload.text, ∀ entry ∈ names.zip slots,
        entry.1 ∈ ["exp", "nbf"] → entry.2.any isSpecialFloat = false

/-- Checking the signature and then reading the claims. -/
def decode {κ : Type} (jwt : Jwt) (parse : RawValue → Option κ) (token : String)
    (key : DecodingKey) (alg : Algorithm) : Option κ :=
  if jwt.signed token key alg then (jwt.payload token).bind parse else none

end Jwt

/-- What a codec takes over from the package. -/
structure TokenCodec.Uses (codec : TokenCodec) (jwt : Jwt) : Prop where
  header : codec.decodeHeader = jwt.decodeHeader
  connect : ∀ token, jwt.RationalDates token →
    codec.decodeConnect token = jwt.decode ConnectTokenClaims.parse token
  subscribe : ∀ token, jwt.RationalDates token →
    codec.decodeSubscribe token = jwt.decode SubscribeTokenClaims.parse token

/-! ## Outcomes -/

/-- The clock is within the validity bounds. -/
def InBounds (now : UnixTime) (exp nbf : Option ℚ) : Prop :=
  (∀ e ∈ exp, (now.seconds : ℚ) < e) ∧ ∀ n ∈ nbf, n ≤ (now.seconds : ℚ)

/-- The outcomes of verifying a token, by what it says and by the clock. -/
structure Classified {κ τ : Type} (accepts : κ → Prop) (exp nbf : κ → Option ℚ)
    (info : κ → Except VerifyError (Option Raw)) (make : κ → Option Raw → τ)
    (expireAt : τ → Int) (verify : UnixTime → Except VerifyError τ) : Prop where
  ok : ∀ now result, verify now = .ok result ↔ ∃ claims data, accepts claims ∧
    InBounds now (exp claims) (nbf claims) ∧ info claims = .ok data ∧ result = make claims data
  expired : ∀ now, verify now = .error .expired ↔
    ∃ claims, accepts claims ∧ ¬ InBounds now (exp claims) (nbf claims)
  invalid : ∀ now, verify now = .error .invalid ↔ (∀ claims, ¬ accepts claims) ∨
    ∃ claims, accepts claims ∧ InBounds now (exp claims) (nbf claims) ∧
      info claims = .error .invalid
  /-- Whether a token is invalid does not depend on the clock when its info decodes. -/
  clock : (∀ claims, accepts claims → info claims ≠ .error .invalid) →
    ∀ now later, verify now = .error .invalid ↔ verify later = .error .invalid
  /-- What expired after it was good stays expired. -/
  final : ∀ now later last result, now.seconds ≤ later.seconds → later.seconds ≤ last.seconds →
    verify now = .ok result → verify later = .error .expired → verify last = .error .expired
  /-- A deadline of zero is no deadline, but for a date in the first second of the clock. -/
  deadline : ∀ now result, verify now = .ok result → ∃ claims, accepts claims ∧
    (exp claims = none → expireAt result = 0) ∧ ∀ e ∈ exp claims,
      now.seconds ≤ expireAt result ∧ (expireAt result = 0 → now.seconds = 0 ∧ e < 1)

namespace TokenVerifier

variable {now : UnixTime} {exp nbf : Option ℚ}

theorem checkExpiry_eq_ok {u : Unit} :
    checkExpiry now exp nbf = .ok u ↔ InBounds now exp nbf := by
  have ended : exp.any (fun e => (now.seconds : ℚ) ≥ e) = true ↔
      ¬ ∀ e ∈ exp, (now.seconds : ℚ) < e := by
    simp [Option.any_eq_true]
  have early : nbf.any (fun n => (now.seconds : ℚ) < n) = true ↔
      ¬ ∀ n ∈ nbf, n ≤ (now.seconds : ℚ) := by
    simp [Option.any_eq_true]
  rw [checkExpiry, InBounds]
  split
  next late =>
    constructor
    · intro passed
      cases passed
    · intro bounds
      exact absurd bounds.1 (ended.mp late)
  next live =>
    split
    next soon =>
      constructor
      · intro passed
        cases passed
      · intro bounds
        exact absurd bounds.2 (early.mp soon)
    next begun =>
      constructor
      · intro _
        exact ⟨not_not.mp (live ∘ ended.mpr), not_not.mp (begun ∘ early.mpr)⟩
      · intro _
        rfl

theorem checkExpiry_eq_error {e : VerifyError} :
    checkExpiry now exp nbf = .error e ↔ e = .expired ∧ ¬ InBounds now exp nbf := by
  rw [← @checkExpiry_eq_ok _ _ _ (), checkExpiry]
  split
  · simp [eq_comm]
  split
  · simp [eq_comm]
  · simp

/-- A deadline that has not passed. Cut down to whole seconds it is zero only in the first
second of the clock. -/
theorem expireAtSecs_of_lt {e : ℚ} (live : (now.seconds : ℚ) < e) :
    now.seconds ≤ expireAtSecs (some e) ∧
      (expireAtSecs (some e) = 0 → now.seconds = 0 ∧ e < 1) := by
  have floor : now.seconds ≤ ⌊e⌋ := Int.le_floor.mpr live.le
  have bounded := now.bounded
  have nonneg := now.nonneg
  have large : i64Max = 2 ^ 63 - 1 := rfl
  simp only [expireAtSecs]
  constructor
  · omega
  · intro zero
    have cut : ⌊e⌋ = 0 := by omega
    exact ⟨by omega, by simpa using Int.lt_floor_add_one e |>.trans_eq (by rw [cut]; norm_num)⟩

end TokenVerifier

open TokenVerifier

namespace Classified

variable {κ τ : Type} {accepts : κ → Prop} {exp nbf : κ → Option ℚ}
  {info : κ → Except VerifyError (Option Raw)} {make : κ → Option Raw → τ} {expireAt : τ → Int}
  {verify : UnixTime → Except VerifyError τ}

/-- The bounds of one token are an interval, so it leaves them once. -/
theorem not_inBounds_of_le {now later last : UnixTime} {exp nbf : Option ℚ}
    (live : InBounds now exp nbf) (gone : ¬ InBounds later exp nbf)
    (next : now.seconds ≤ later.seconds) (then_ : later.seconds ≤ last.seconds) :
    ¬ InBounds last exp nbf := by
  rintro ⟨before, -⟩
  refine gone ⟨fun e bound => ?_, fun n bound => ?_⟩
  · exact lt_of_le_of_lt (Int.cast_le.mpr then_) (before e bound)
  · exact (live.2 n bound).trans (Int.cast_le.mpr next)

/-- The three checks in their order. -/
theorem of_checks {decoded : Except VerifyError κ}
    (accepted : ∀ claims, decoded = .ok claims ↔ accepts claims)
    (refused : decoded ≠ .error .expired) (undecoded : ∀ claims, info claims ≠ .error .expired)
    (date : ∀ claims data, expireAt (make claims data) = expireAtSecs (exp claims))
    (checks : ∀ now, verify now = do
      let claims ← decoded
      checkExpiry now (exp claims) (nbf claims)
      let data ← info claims
      return make claims data) :
    Classified accepts exp nbf info make expireAt verify := by
  have unique : ∀ {claims other}, accepts claims → accepts other → claims = other := by
    intro claims other this that
    exact Except.ok.inj (((accepted _).mpr this).symm.trans ((accepted _).mpr that))
  have ok : ∀ now result, verify now = .ok result ↔ ∃ claims data, accepts claims ∧
      InBounds now (exp claims) (nbf claims) ∧ info claims = .ok data ∧
        result = make claims data := by
    intro now result
    simp only [checks, Guard.bind_eq_ok, accepted, checkExpiry_eq_ok]
    constructor
    · rintro ⟨claims, taken, _, live, data, read, made⟩
      exact ⟨claims, data, taken, live, read, (Except.ok.inj made).symm⟩
    · rintro ⟨claims, data, taken, live, read, rfl⟩
      exact ⟨claims, taken, (), live, data, read, rfl⟩
  have expired : ∀ now, verify now = .error .expired ↔
      ∃ claims, accepts claims ∧ ¬ InBounds now (exp claims) (nbf claims) := by
    intro now
    rw [checks, Guard.bind_eq_error, or_iff_right refused]
    constructor
    · rintro ⟨claims, taken, out⟩
      obtain out | ⟨_, -, out⟩ := Guard.bind_eq_error.mp out
      · exact ⟨claims, (accepted _).mp taken, (checkExpiry_eq_error.mp out).2⟩
      · obtain out | ⟨_, -, out⟩ := Guard.bind_eq_error.mp out
        · exact absurd out (undecoded claims)
        · cases out
    · rintro ⟨claims, taken, out⟩
      exact ⟨claims, (accepted _).mpr taken,
        Guard.bind_eq_error.mpr (.inl (checkExpiry_eq_error.mpr ⟨rfl, out⟩))⟩
  have invalid : ∀ now, verify now = .error .invalid ↔ (∀ claims, ¬ accepts claims) ∨
      ∃ claims, accepts claims ∧ InBounds now (exp claims) (nbf claims) ∧
        info claims = .error .invalid := by
    intro now
    rw [checks, Guard.bind_eq_error]
    apply or_congr
    · constructor
      · intro bad claims taken
        cases bad.symm.trans ((accepted claims).mpr taken)
      · intro nothing
        match decoded, accepted, refused with
        | .ok claims, accepted, _ => exact absurd ((accepted claims).mp rfl) (nothing claims)
        | .error .invalid, _, _ => rfl
        | .error .expired, _, refused => exact absurd rfl refused
    · constructor
      · rintro ⟨claims, taken, out⟩
        obtain out | ⟨_, live, out⟩ := Guard.bind_eq_error.mp out
        · cases (checkExpiry_eq_error.mp out).1
        · obtain out | ⟨_, -, out⟩ := Guard.bind_eq_error.mp out
          · exact ⟨claims, (accepted _).mp taken, checkExpiry_eq_ok.mp live, out⟩
          · cases out
      · rintro ⟨claims, taken, live, out⟩
        exact ⟨claims, (accepted _).mpr taken, Guard.bind_eq_error.mpr (.inr
          ⟨(), checkExpiry_eq_ok.mpr live, Guard.bind_eq_error.mpr (.inl out)⟩)⟩
  refine ⟨ok, expired, invalid, ?_, ?_, ?_⟩
  · intro decodes now later
    have never : ∀ now, verify now = .error .invalid ↔ ∀ claims, ¬ accepts claims := by
      intro now
      rw [invalid, or_iff_left]
      rintro ⟨claims, taken, -, undecoded⟩
      exact decodes claims taken undecoded
    rw [never, never]
  · intro now later last result next further good gone
    obtain ⟨claims, data, taken, live, -⟩ := (ok _ _).mp good
    obtain ⟨other, same, out⟩ := (expired _).mp gone
    cases unique taken same
    exact (expired _).mpr ⟨claims, taken, not_inBounds_of_le live out next further⟩
  · intro now result good
    obtain ⟨claims, data, taken, live, -, rfl⟩ := (ok _ _).mp good
    refine ⟨claims, taken, ?_, ?_⟩
    · intro none
      rw [date, none]
      rfl
    · intro e bound
      rw [date, Option.mem_def.mp bound]
      exact expireAtSecs_of_lt (live.1 e bound)

end Classified

namespace TokenVerifier

variable {v : TokenVerifier} {jwt : Jwt} {token : String}

/-- The signature is that of the key which is selected, and these are the claims. -/
def Accepts {κ : Type} (v : TokenVerifier) (jwt : Jwt) (parse : RawValue → Option κ)
    (token : String) (claims : κ) : Prop :=
  ∃ header key payload, jwt.decodeHeader token = some header ∧ v.selectKey header = some key ∧
    jwt.signed token key header.alg = true ∧ jwt.payload token = some payload ∧
      parse payload = some claims

theorem verifyAndDecode_eq_ok {κ : Type} {parse : RawValue → Option κ} {claims : κ}
    {decode : String → DecodingKey → Algorithm → Option κ}
    (header : v.codec.decodeHeader = jwt.decodeHeader)
    (decodes : decode token = jwt.decode parse token) :
    v.verifyAndDecode decode token = .ok claims ↔ v.Accepts jwt parse token claims := by
  rw [verifyAndDecode, decodes, header, Accepts]
  cases jwt.decodeHeader token with
  | none => simp
  | some header =>
      cases chosen : v.selectKey header with
      | none => simp [chosen]
      | some key =>
          simp only [Option.some.injEq, exists_eq_left', exists_and_left, chosen, Jwt.decode]
          cases jwt.signed token key header.alg with
          | false => simp
          | true =>
              simp only [if_true, true_and, ← Option.bind_eq_some_iff]
              cases (jwt.payload token).bind parse <;> simp

theorem verifyAndDecode_ne_expired {κ : Type}
    {decode : String → DecodingKey → Algorithm → Option κ} :
    v.verifyAndDecode decode token ≠ .error .expired := by
  rw [verifyAndDecode]
  repeat' split
  all_goals
    intro h
    cases h

theorem resolveInfo_ne_expired (b64info : Option String) (info : Option RawValue) :
    v.resolveInfo b64info info ≠ .error .expired := by
  unfold resolveInfo
  repeat' split
  all_goals
    intro h
    cases h

/-- Both kinds of tokens are classified by signature and claims, bounds and info, in this
order. -/
theorem verify_classified (uses : v.codec.Uses jwt) (rational : jwt.RationalDates token) :
    Classified (v.Accepts jwt ConnectTokenClaims.parse token) ConnectTokenClaims.exp
        ConnectTokenClaims.nbf (fun claims => v.resolveInfo claims.b64info claims.info)
        (fun claims info => ⟨claims.sub.getD "", info, claims.channels.getD [],
          expireAtSecs claims.exp⟩)
        ConnectToken.expireAt (fun now => v.verifyConnectToken now token) ∧
      Classified (v.Accepts jwt SubscribeTokenClaims.parse token) SubscribeTokenClaims.exp
        SubscribeTokenClaims.nbf (fun claims => v.resolveInfo claims.b64info claims.info)
        (fun claims info => ⟨claims.client.getD "", claims.channel.getD "", info,
          expireAtSecs claims.exp, claims.expireTokenOnly⟩)
        SubscribeToken.expireAt (fun now => v.verifySubscribeToken now token) := by
  constructor
  · exact .of_checks (fun _ => verifyAndDecode_eq_ok uses.header (uses.connect token rational))
      verifyAndDecode_ne_expired (fun _ => resolveInfo_ne_expired _ _) (fun _ _ => rfl)
      fun _ => rfl
  · exact .of_checks (fun _ => verifyAndDecode_eq_ok uses.header (uses.subscribe token rational))
      verifyAndDecode_ne_expired (fun _ => resolveInfo_ne_expired _ _) (fun _ _ => rfl)
      fun _ => rfl

end TokenVerifier

namespace Sample

/-- A token with `{"exp":100,"b64info":"!"}`, signed with the key `secret`. -/
def badInfo : String :=
  "eyJhbGciOiJIUzI1NiJ9.eyJleHAiOjEwMCwiYjY0aW5mbyI6IiEifQ." ++
  "w7TJfVcnBbzPbb5O5i86q7rLouUWtqUTqTjTjlp_AUI"

/-- A token with `{"exp":0.5}`, signed with the same key. -/
def firstSecond : String :=
  "eyJhbGciOiJIUzI1NiJ9.eyJleHAiOjAuNX0." ++
  "4a86vX4tAHydXA9CxMnc-IrN67JC_6U-FJSdA6Lgg40"

def tokenKey : DecodingKey := ⟨[115, 101, 99, 114, 101, 116]⟩

def tokenJwt : Jwt where
  decodeHeader token :=
    if token ∈ [badInfo, firstSecond] then some ⟨.hs256, none⟩ else none
  signed token key alg :=
    token ∈ [badInfo, firstSecond] && key = tokenKey && alg = .hs256
  payload token :=
    if token = badInfo then
      some (.object [("exp", .number 100), ("b64info", .string "!")])
    else if token = firstSecond then
      some (.object [("exp", ⟨"0.5".toList, by decide⟩)])
    else none

def tokenVerifier : TokenVerifier where
  codec := {
    decodeHeader := tokenJwt.decodeHeader
    decodeConnect := tokenJwt.decode ConnectTokenClaims.parse
    decodeSubscribe := tokenJwt.decode SubscribeTokenClaims.parse
    decodeBase64 := fun text => if text.isEmpty then some [] else none }
  hmac := some tokenKey
  rsa := none
  ecdsa := none
  jwks := ∅

theorem rationalDates_badInfo : tokenJwt.RationalDates badInfo := by
  unfold Jwt.RationalDates
  decide +kernel

end Sample

namespace TokenVerifier

open Sample

theorem verify_classified_badInfo :
    tokenVerifier.verifyConnectToken (.ofNat 200 (by decide)) badInfo =
        .error .expired ↔
      ∃ claims, tokenVerifier.Accepts tokenJwt ConnectTokenClaims.parse badInfo claims ∧
        ¬ InBounds (.ofNat 200 (by decide)) claims.exp claims.nbf :=
  (@verify_classified tokenVerifier tokenJwt badInfo
    ⟨rfl, fun _ _ => rfl, fun _ _ => rfl⟩ rationalDates_badInfo).1.expired _

/-- Info that does not decode counts only within the bounds, so the token is invalid before its
end and expired after it; and a token of the first half second has a deadline of zero. -/
theorem not_verify_classified :
    (∃ claims, tokenVerifier.Accepts tokenJwt ConnectTokenClaims.parse badInfo claims ∧
      tokenVerifier.resolveInfo claims.b64info claims.info = .error .invalid) ∧
    tokenVerifier.verifyConnectToken (.ofNat 50 (by decide)) badInfo =
      .error .invalid ∧
    tokenVerifier.verifyConnectToken (.ofNat 200 (by decide)) badInfo =
      .error .expired ∧
    (∃ claims, tokenVerifier.Accepts tokenJwt ConnectTokenClaims.parse firstSecond claims ∧
      claims.exp = some (1 / 2)) ∧
    tokenVerifier.verifyConnectToken (.ofNat 0 (by decide)) firstSecond =
      .ok ⟨"", none, [], 0⟩ := by
  refine ⟨⟨{ exp := some 100, b64info := some "!" }, ?_, ?_⟩, ?_, ?_,
    ⟨{ exp := some (1 / 2) }, ?_, rfl⟩, ?_⟩
  · exact ⟨_, _, _, rfl, rfl, rfl, rfl, by decide +kernel⟩
  · rfl
  · decide +kernel
  · decide +kernel
  · exact ⟨_, _, _, rfl, rfl, rfl, rfl, by decide +kernel⟩
  · decide +kernel

end TokenVerifier

end Centrifugo
