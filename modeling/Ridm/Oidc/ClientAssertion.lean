import Ridm.Core.Jwt
import Ridm.Lib.ExpiringMarks

/-!
# Client assertions

`verify_assertion` of `api/src/oidc/client_auth.rs`: a client authenticates with a JWT it signed
(`private_key_jwt`).  The JWT library accepts the assertion through `exp` and thirty seconds of
leeway; the code limits `exp - iat` to `MAX_ASSERTION_LIFETIME_SECS`, with an `iat` of the client's
choice, and marks the `jti` for what is left until `exp`, at most that limit.

The mark can be over while the assertion is still good: in the leeway after `exp`, and, when `iat`
lies in the future, long before `exp`.  `assertion_accepted_once_iff` is the exact condition.
-/

namespace Ridm.ClientAuth

open Jwt (Library Algorithm Validation)

def MAX_ASSERTION_LIFETIME_SECS : ℤ := 600

/-- `Client`, as far as its assertions are checked against it. -/
structure Client where
  id : Uuid
  clientId : String
  isFapi2 : Bool
  hasJwksUri : Bool

/-- One call of `verify_assertion`: when, and what the tenant and the client's key set are then.  The
keys are asked for once, and once more with a refresh. -/
structure Call where
  now : Instant
  jwks : Bool → Except OAuthError (List Value)
  issuer : String
  tokenEndpoint : String
  mtlsTokenEndpoint : Option String

def invalidClient (desc : String) : OAuthError := ⟨.invalidClient, desc⟩

/-- `fapi::allows_jws`. -/
def allowsJws : Algorithm → Bool
  | .ps256 | .es256 | .edDSA => true
  | _ => false

/-- A symmetric algorithm. -/
def isHmac : Algorithm → Bool
  | .hs256 | .hs384 | .hs512 => true
  | _ => false

/-- The key an assertion names, or the only one. -/
def pick (kid : Option String) (keys : List Value) : Option Value :=
  match kid with
  | some kid => keys.find? fun k => k.member "kid" == some (.string kid)
  | none => if keys.length = 1 then keys.head? else none

/-- The client's key; the set is fetched again, once, when the key is not in it. -/
def clientKey (client : Client) (c : Call) (kid : Option String) : Except OAuthError Value := do
  let keys ← c.jwks false
  match pick kid keys with
  | some jwk => .ok jwk
  | none =>
      if client.hasJwksUri then do
        let keys ← c.jwks true
        orError (invalidClient "no matching client key") (pick kid keys)
      else .error (invalidClient "no matching client key")

/-- How assertions are checked. -/
def validation (client : Client) (c : Call) (alg : Algorithm) : Validation :=
  { alg := alg
    leeway := 30
    validateNbf := true
    audience := some ([c.tokenEndpoint, c.issuer] ++ c.mtlsTokenEndpoint.toList)
    requiredSpecClaims := ["exp", "iss", "sub", "aud", "jti"]
    iss := some [client.clientId] }

/-- A difference of two `i64`, as the machine has it. -/
def wrappingSub (a b : ℤ) : ℤ := (a - b + 2 ^ 63) % 2 ^ 64 - 2 ^ 63

/-- The `exp` of an assertion. -/
def expOf (claims : Members) : ℤ := ((claims.get "exp").bind Value.asI64).getD 0

/-- The claims of an assertion, behind the library's checks: its `jti`. -/
def checkClaims (client : Client) (c : Call) (claims : Members) : Except OAuthError String := do
  require (invalidClient "client_assertion aud must be the issuer identifier (FAPI 2.0)")
    (!client.isFapi2 || claims.get "aud" == some (.string c.issuer))
  require (invalidClient "client_assertion sub must be the client_id")
    (claims.get "sub" == some (.string client.clientId))
  let exp := expOf claims
  let iat := ((claims.get "iat").bind Value.asI64).getD (exp - MAX_ASSERTION_LIFETIME_SECS)
  require (invalidClient "client_assertion lifetime too long")
    (decide (wrappingSub exp iat ≤ MAX_ASSERTION_LIFETIME_SECS))
  let jti := ((claims.get "jti").bind Value.asStr).getD ""
  require (invalidClient "client_assertion jti is required")
    (!jti.isEmpty && decide (jti.utf8ByteSize ≤ 256))
  .ok jti

/-- `verify_assertion` up to the mark: the assertion's claims and its `jti`. -/
def checkAssertion (J : Library) (client : Client) (c : Call) (assertion : String) :
    Except OAuthError (Members × String) := do
  let header ← mapErr (invalidClient "malformed client_assertion") (J.decodeHeader assertion)
  require (invalidClient "client_assertion must use an asymmetric algorithm") (!isHmac header.alg)
  require (invalidClient "the FAPI 2.0 profile allows PS256, ES256 or EdDSA assertions only")
    (!client.isFapi2 || allowsJws header.alg)
  let jwk ← clientKey client c header.kid
  let key ← mapErr (invalidClient "invalid client key") (J.decodingKey jwk)
  let claims ← (Jwt.decode J c.now assertion key (validation client c header.alg)).mapError
    fun e => invalidClient ("client_assertion rejected: " ++ e)
  let jti ← checkClaims client c claims
  .ok (claims, jti)

/-- How long the `jti` of an assertion is remembered, in seconds. -/
def markSecs (exp : ℤ) (now : Instant) : ℤ :=
  max 1 (min (exp - unixTime now) MAX_ASSERTION_LIFETIME_SECS)

/-- The marks of used assertions, by client and `jti`. -/
abbrev UsedAssertions := Marks (Uuid × String) Instant

def verifyAssertion (J : Library) (client : Client) (c : Call) (assertion : String)
    (marks : UsedAssertions) : Except OAuthError Unit × UsedAssertions :=
  match checkAssertion J client c assertion with
  | .error e => (.error e, marks)
  | .ok (claims, jti) =>
      let set := marks.claim (client.id, jti) c.now (c.now + seconds (markSecs (expOf claims) c.now))
      (if set.1 then .ok () else .error (invalidClient "client_assertion replayed"), set.2)

/-! ## Using an assertion twice -/

/-- The assertion authenticates the client in both of two calls. -/
def AcceptedTwice (J : Library) (client : Client) (assertion : String) (c₁ c₂ : Call)
    (marks : UsedAssertions) : Prop :=
  (verifyAssertion J client c₁ assertion marks).1 = .ok () ∧
    (verifyAssertion J client c₂ assertion (verifyAssertion J client c₁ assertion marks).2).1 = .ok ()

/-- Everything but the mark is in order. -/
def Passes (J : Library) (client : Client) (assertion : String) (c : Call) : Prop :=
  ∃ r, checkAssertion J client c assertion = .ok r

def claimsOf (J : Library) (assertion : String) : Members := (J.payload assertion).toOption.getD []

/-- Calls with an assertion as they claim marks. -/
def guardedAssertion (J : Library) (client : Client) (assertion : String) :
    Guarded Call (Uuid × String) Instant where
  time := Call.now
  key c := match checkAssertion J client c assertion with
    | .ok (_, jti) => some (client.id, jti)
    | .error _ => none
  deadline c := c.now + seconds (markSecs (expOf (claimsOf J assertion)) c.now)

section Twice

variable {J : Library} {client : Client} {assertion : String}

lemma checkAssertion_claims {c : Call} {claims : Members} {jti : String}
    (h : checkAssertion J client c assertion = .ok (claims, jti)) :
    claims = claimsOf J assertion ∧ jti = ((claims.get "jti").bind Value.asStr).getD "" := by
  simp only [checkAssertion, bind_eq_ok] at h
  obtain ⟨header, -, -, -, -, -, jwk, -, key, -, claims', hclaims, jti', hjti, h⟩ := h
  cases h
  have hdecode : Jwt.decode J c.now assertion key (validation client c header.alg) = .ok claims := by
    cases hd : Jwt.decode J c.now assertion key (validation client c header.alg) with
    | error e =>
        rw [hd] at hclaims
        cases hclaims
    | ok claims' =>
        rw [hd] at hclaims
        cases hclaims
        rfl
  have hpayload := (Jwt.decode_eq_ok.mp hdecode).2.1
  refine ⟨by rw [claimsOf, hpayload]; rfl, ?_⟩
  simp only [checkClaims, bind_eq_ok] at hjti
  obtain ⟨-, -, -, -, -, -, -, -, hfin⟩ := hjti
  cases hfin
  rfl

lemma guardedAssertion_key {c : Call} {k : Uuid × String} :
    (guardedAssertion J client assertion).key c = some k ↔
      ∃ claims jti, checkAssertion J client c assertion = .ok (claims, jti) ∧ k = (client.id, jti) := by
  rw [guardedAssertion]
  cases hcheck : checkAssertion J client c assertion with
  | error e => simp [hcheck]
  | ok r =>
      obtain ⟨claims, jti⟩ := r
      simp [hcheck, eq_comm]

lemma attempt_guardedAssertion (c : Call) (marks : UsedAssertions) :
    ((verifyAssertion J client c assertion marks).1 = .ok () ↔
        ((guardedAssertion J client assertion).attempt marks c).1 = true) ∧
      (verifyAssertion J client c assertion marks).2 =
        ((guardedAssertion J client assertion).attempt marks c).2 := by
  rw [verifyAssertion, Guarded.attempt]
  cases hcheck : checkAssertion J client c assertion with
  | error e => simp [guardedAssertion, hcheck]
  | ok r =>
      obtain ⟨claims, jti⟩ := r
      rw [guardedAssertion_key.mpr ⟨claims, jti, hcheck, rfl⟩]
      obtain ⟨rfl, -⟩ := checkAssertion_claims hcheck
      refine ⟨?_, rfl⟩
      simp only [guardedAssertion]
      split_ifs with hset
      · simp [hset]
      · simp [hset]

/-- **When an assertion authenticates once.**  For every assertion, client and two calls, the two do
not both succeed, whatever was marked before, exactly unless both pass the checks before the mark and
the second comes when the first one's mark is over, `exp - now` seconds after it or one or
`MAX_ASSERTION_LIFETIME_SECS` when that is less or more. -/
theorem assertion_accepted_once_iff (J : Library) (client : Client) (assertion : String)
    (c₁ c₂ : Call) :
    (∀ marks, ¬ AcceptedTwice J client assertion c₁ c₂ marks) ↔
      ¬ (Passes J client assertion c₁ ∧ Passes J client assertion c₂ ∧
        c₁.now + seconds (markSecs (expOf (claimsOf J assertion)) c₁.now) ≤ c₂.now) := by
  have htwice : ∀ marks, AcceptedTwice J client assertion c₁ c₂ marks ↔
      ((guardedAssertion J client assertion).attempt marks c₁).1 = true ∧
        ((guardedAssertion J client assertion).attempt
          ((guardedAssertion J client assertion).attempt marks c₁).2 c₂).1 = true := by
    intro marks
    rw [AcceptedTwice, (attempt_guardedAssertion c₁ marks).1, (attempt_guardedAssertion c₁ marks).2,
      (attempt_guardedAssertion c₂ _).1]
  have hpasses : ∀ c, (∃ k, (guardedAssertion J client assertion).key c = some k) ↔
      Passes J client assertion c := by
    intro c
    constructor
    · rintro ⟨k, hk⟩
      obtain ⟨claims, jti, hcheck, -⟩ := guardedAssertion_key.mp hk
      exact ⟨_, hcheck⟩
    · rintro ⟨⟨claims, jti⟩, hcheck⟩
      exact ⟨_, guardedAssertion_key.mpr ⟨claims, jti, hcheck, rfl⟩⟩
  have hboth := Guarded.exists_both_accepted_iff (G := guardedAssertion J client assertion)
    (a := c₁) (b := c₂) fun k k' hk hk' => by
      obtain ⟨claims, jti, hcheck, rfl⟩ := guardedAssertion_key.mp hk
      obtain ⟨claims', jti', hcheck', rfl⟩ := guardedAssertion_key.mp hk'
      obtain ⟨rfl, rfl⟩ := checkAssertion_claims hcheck
      obtain ⟨rfl, rfl⟩ := checkAssertion_claims hcheck'
      rfl
  rw [hpasses, hpasses] at hboth
  rw [← not_exists, not_iff_not, exists_congr htwice]
  exact hboth

end Twice

/-! ## An assertion that authenticates twice -/

def sampleLibrary : Library where
  decodeHeader _ := .ok { alg := .es256 }
  decodingKey jwk := .ok jwk
  signature _ _ _ := .ok ()
  payload _ := .ok [("iss", .string "app"), ("sub", .string "app"), ("aud", .string "https://id.example"),
    ("exp", .number "5000"), ("iat", .number "4400"), ("jti", .string "j1")]
  roundedSeconds _ := none
  required _ _ := .ok ()
  parties _ _ := .ok ()

def sampleClient : Client := ⟨1, "app", false, false⟩

def sampleCall (now : Instant) : Call :=
  { now := now
    jwks := fun _ => .ok [.object [("kty", .string "EC")]]
    issuer := "https://id.example"
    tokenEndpoint := "https://id.example/token"
    mtlsTokenEndpoint := none }

/-- **An assertion authenticates twice.**  Both calls come before the assertion even claims to have
been made; the mark of the first is over after ten minutes. -/
theorem assertion_accepted_twice :
    AcceptedTwice sampleLibrary sampleClient "assertion" (sampleCall (seconds 1000))
      (sampleCall (seconds 1600)) Marks.empty :=
  ⟨rfl, rfl⟩

end Ridm.ClientAuth
