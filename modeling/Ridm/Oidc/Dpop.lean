import Ridm.Core.Jwt
import Ridm.Lib.ExpiringMarks

/-!
# DPoP proofs

`verify_proof` of `api/src/oidc/dpop.rs`: a proof is a JWT that names its request and when it was
made.  It is acceptable from `MAX_SKEW_SECS` before its `iat` to `MAX_AGE_SECS` after it, both ends
included and both counted in whole seconds, and its `jti` is marked for the sum of the two.

The window covers a whole second more than the mark: `proof_accepted_once_iff` says exactly when a
proof cannot be used twice, and `proof_accepted_twice` uses one twice.
-/

namespace Ridm.Dpop

/-- The JWT library, and what the proof is compared through. -/
structure Platform extends jwt : Jwt.Library where
  /-- `Url::parse`, without query and fragment, as a text. -/
  urlWithoutQuery : String → Option String
  sha256 : String → String

def MAX_AGE_SECS : ℤ := 300

def MAX_SKEW_SECS : ℤ := 30

/-- `algorithm`: the asymmetric ones. -/
def algorithm : Jwt.Algorithm → Option Jwt.Algorithm
  | .hs256 | .hs384 | .hs512 => none
  | alg => some alg

/-- `keys::thumbprint`, by its error's text. -/
def thumbprint (P : Platform) (jwk : Value) : Except String String := do
  let kty := ((jwk.member "kty").bind Value.asStr).getD ""
  let members ← match kty with
    | "RSA" => .ok ["e", "kty", "n"]
    | "EC" => .ok ["crv", "kty", "x", "y"]
    | "OKP" => .ok ["crv", "kty", "x"]
    | other => .error ("unsupported kty `" ++ other ++ "`")
  let texts ← members.mapM fun m =>
    match (jwk.member m).bind Value.asStr with
    | some v => .ok ("\"" ++ m ++ "\":\"" ++ v ++ "\"")
    | none => .error ("jwk missing `" ++ m ++ "`")
  .ok (P.sha256 ("\x7b" ++ ",".intercalate texts ++ "\x7d"))

/-- The request a proof comes with. -/
structure ProofRequest where
  method : String
  htu : List String
  accessToken : Option String

/-- The marks of used proofs, by tenant and hashed `jti`. -/
abbrev UsedProofs := Marks (Uuid × String) Instant

/-- `iat` lies in the window. -/
def inWindow (iat : ℤ) (now : Instant) : Bool :=
  decide (unixTime now - MAX_AGE_SECS ≤ iat) && decide (iat ≤ unixTime now + MAX_SKEW_SECS)

/-- The `ath` claim, for a proof that comes with an access token. -/
def athMatches (P : Platform) (claims : Members) : Option String → Bool
  | some token => (claims.get "ath").bind Value.asStr == some (P.sha256 token)
  | none => true

/-- How a proof's signature is checked. -/
def validation (alg : Jwt.Algorithm) : Jwt.Validation :=
  { alg := alg, validateExp := false, validateNbf := false, requiredSpecClaims := [] }

/-- The header of a proof: its algorithm and its key. -/
def checkHeader (P : Platform) (proof : String) : Except String (Jwt.Algorithm × Value) := do
  require "DPoP proof is empty or too long" (!proof.isEmpty && decide (proof.utf8ByteSize ≤ 4096))
  let header ← mapErr "DPoP proof is not a JWT" (P.decodeHeader proof)
  require "DPoP proof typ must be dpop+jwt" (header.typ == some "dpop+jwt")
  let alg ← orError "DPoP proof algorithm is not allowed" (algorithm header.alg)
  let jwk ← orError "DPoP proof carries no jwk" header.jwk
  require "DPoP jwk must be a public key" (jwk.member "d").isNone
  .ok (alg, jwk)

/-- The claims of a proof, against the request and the clock: its `jti`. -/
def checkClaims (P : Platform) (req : ProofRequest) (now : Instant) (claims : Members) :
    Except String String := do
  let jti ← orError "DPoP proof needs a jti" (((claims.get "jti").bind Value.asStr).filter fun j =>
    !j.isEmpty && decide (j.utf8ByteSize ≤ 256))
  let htm ← orError "DPoP proof needs htm" ((claims.get "htm").bind Value.asStr)
  require "DPoP htm does not match the request method" (htm == req.method)
  let claimed ← orError "DPoP proof needs htu"
    (((claims.get "htu").bind Value.asStr).bind P.urlWithoutQuery)
  require "DPoP htu does not match the request URL"
    ((req.htu.filterMap P.urlWithoutQuery).any (· == claimed))
  let iat ← orError "DPoP proof needs iat" ((claims.get "iat").bind Value.asI64)
  require "DPoP proof iat is too old or in the future" (inWindow iat now)
  require "DPoP ath does not match the access token" (athMatches P claims req.accessToken)
  .ok jti

/-- `verify_proof` up to the mark: the proof's `jti` and its key. -/
def checkProof (P : Platform) (req : ProofRequest) (now : Instant) (proof : String) :
    Except String (String × Value) := do
  let (alg, jwk) ← checkHeader P proof
  let key ← mapErr "DPoP jwk is not usable" (P.decodingKey jwk)
  let claims ← mapErr "DPoP proof signature is invalid"
    (Jwt.decode P.jwt now proof key (validation alg))
  let jti ← checkClaims P req now claims
  .ok (jti, jwk)

/-- How long a used proof is remembered. -/
def markLife : ℤ := seconds (MAX_AGE_SECS + MAX_SKEW_SECS)

/-- `verify_proof`, by the thumbprint of the proof's key. -/
def verifyProof (P : Platform) (tenant : Uuid) (req : ProofRequest) (now : Instant) (proof : String)
    (marks : UsedProofs) : Except String String × UsedProofs :=
  match checkProof P req now proof with
  | .error e => (.error e, marks)
  | .ok (jti, jwk) =>
      let set := marks.claim (tenant, P.sha256 jti) now (now + markLife)
      (if set.1 then thumbprint P jwk else .error "DPoP proof replayed", set.2)

/-! ## Using a proof twice -/

def accepts {α : Type} (r : Except String α) : Prop := ∃ a, r = .ok a

/-- One proof, presented at two moments, is accepted both times. -/
def AcceptedTwice (P : Platform) (tenant : Uuid) (proof : String) (req₁ req₂ : ProofRequest)
    (t₁ t₂ : Instant) (marks : UsedProofs) : Prop :=
  accepts (verifyProof P tenant req₁ t₁ proof marks).1 ∧
    accepts (verifyProof P tenant req₂ t₂ proof (verifyProof P tenant req₁ t₁ proof marks).2).1

/-- Everything but the mark is in order: the proof passes its checks at the time, and its key has a
thumbprint. -/
def Passes (P : Platform) (proof : String) (req : ProofRequest) (now : Instant) : Prop :=
  ∃ jti jwk, checkProof P req now proof = .ok (jti, jwk) ∧ accepts (thumbprint P jwk)

/-- A proof's request, and its time. -/
abbrev Presented := ProofRequest × Instant

/-- Presentations of a proof as they claim marks. -/
def guardedProof (P : Platform) (tenant : Uuid) (proof : String) :
    Guarded Presented (Uuid × String) Instant where
  time p := p.2
  key p := match checkProof P p.1 p.2 proof with
    | .ok (jti, _) => some (tenant, P.sha256 jti)
    | .error _ => none
  deadline p := p.2 + markLife

section Twice

variable {P : Platform} {tenant : Uuid} {proof : String}

variable {req : ProofRequest} {now : Instant}

lemma checkProof_jti {jti : String} {jwk : Value}
    (h : checkProof P req now proof = .ok (jti, jwk)) :
    ∃ claims, P.payload proof = .ok claims ∧ (claims.get "jti").bind Value.asStr = some jti := by
  simp only [checkProof, bind_eq_ok, mapErr_eq_ok] at h
  obtain ⟨⟨alg, jwk'⟩, -, key, -, claims, hclaims, jti', hjti, h⟩ := h
  cases h
  simp only [checkClaims, bind_eq_ok, orError_eq_ok] at hjti
  obtain ⟨j, hj, -, -, -, -, -, -, -, -, -, -, -, -, -, -, hfin⟩ := hjti
  cases hfin
  exact ⟨claims, (Jwt.decode_eq_ok.mp hclaims).2.1, (Option.filter_eq_some_iff.mp hj).1⟩

variable {req₁ req₂ : ProofRequest} {t₁ t₂ : Instant} {marks : UsedProofs} {claims : Members}
  {iat : ℤ}

lemma same_jti {jti₁ jti₂ : String}
    {jwk₁ jwk₂ : Value} (h₁ : checkProof P req₁ t₁ proof = .ok (jti₁, jwk₁))
    (h₂ : checkProof P req₂ t₂ proof = .ok (jti₂, jwk₂)) : jti₁ = jti₂ := by
  obtain ⟨claims₁, hp₁, hj₁⟩ := checkProof_jti h₁
  obtain ⟨claims₂, hp₂, hj₂⟩ := checkProof_jti h₂
  rw [hp₁] at hp₂
  cases hp₂
  exact Option.some.inj (hj₁.symm.trans hj₂)

lemma guardedProof_key {k : Uuid × String} :
    (guardedProof P tenant proof).key (req, now) = some k ↔
      ∃ jti jwk, checkProof P req now proof = .ok (jti, jwk) ∧ k = (tenant, P.sha256 jti) := by
  rw [guardedProof]
  cases hcheck : checkProof P req now proof with
  | error e => simp [hcheck]
  | ok r =>
      obtain ⟨jti, jwk⟩ := r
      simp [hcheck, eq_comm]

lemma accepts_iff :
    accepts (verifyProof P tenant req now proof marks).1 ↔
      Passes P proof req now ∧ ((guardedProof P tenant proof).attempt marks (req, now)).1 = true := by
  rw [verifyProof, Passes, Guarded.attempt, guardedProof]
  cases hcheck : checkProof P req now proof with
  | error e => simp [accepts]
  | ok r =>
      obtain ⟨jti, jwk⟩ := r
      simp only [hcheck]
      by_cases hfresh : (marks.claim (tenant, P.sha256 jti) now (now + markLife)).1 = true
      · simp [hfresh]
      · simp [hfresh, accepts]

lemma marks_of_passes (h : Passes P proof req now) : (verifyProof P tenant req now proof marks).2 =
      ((guardedProof P tenant proof).attempt marks (req, now)).2 := by
  obtain ⟨jti, jwk, hcheck, -⟩ := h
  rw [verifyProof, Guarded.attempt, guardedProof]
  simp only [hcheck]

/-- **When a proof is accepted once.**  For every proof, any two requests it is presented with and
any two moments, the proof is not accepted both times, whatever was marked before, exactly unless it
passes its checks at both moments and they are at least `MAX_AGE_SECS + MAX_SKEW_SECS` apart. -/
theorem proof_accepted_once_iff (P : Platform) (tenant : Uuid) (proof : String)
    (req₁ req₂ : ProofRequest) (t₁ t₂ : Instant) :
    (∀ marks, ¬ AcceptedTwice P tenant proof req₁ req₂ t₁ t₂ marks) ↔
      ¬ (Passes P proof req₁ t₁ ∧ Passes P proof req₂ t₂ ∧
        t₁ + seconds (MAX_AGE_SECS + MAX_SKEW_SECS) ≤ t₂) := by
  have htwice : ∀ marks, AcceptedTwice P tenant proof req₁ req₂ t₁ t₂ marks ↔
      Passes P proof req₁ t₁ ∧ Passes P proof req₂ t₂ ∧
        ((guardedProof P tenant proof).attempt marks (req₁, t₁)).1 = true ∧
        ((guardedProof P tenant proof).attempt
          ((guardedProof P tenant proof).attempt marks (req₁, t₁)).2 (req₂, t₂)).1 = true := by
    intro marks
    rw [AcceptedTwice, accepts_iff, accepts_iff]
    constructor
    · rintro ⟨⟨hp₁, ha₁⟩, hp₂, ha₂⟩
      rw [marks_of_passes hp₁] at ha₂
      exact ⟨hp₁, hp₂, ha₁, ha₂⟩
    · rintro ⟨hp₁, hp₂, ha₁, ha₂⟩
      rw [marks_of_passes hp₁]
      exact ⟨⟨hp₁, ha₁⟩, hp₂, ha₂⟩
  have hboth := Guarded.exists_both_accepted_iff (G := guardedProof P tenant proof)
    (a := (req₁, t₁)) (b := (req₂, t₂)) fun k k' hk hk' => by
      obtain ⟨jti₁, jwk₁, h₁, rfl⟩ := guardedProof_key.mp hk
      obtain ⟨jti₂, jwk₂, h₂, rfl⟩ := guardedProof_key.mp hk'
      rw [same_jti h₁ h₂]
  have hkey : ∀ {req : ProofRequest} {t : Instant}, Passes P proof req t →
      ∃ k, (guardedProof P tenant proof).key (req, t) = some k := by
    rintro req t ⟨jti, jwk, hcheck, -⟩
    exact ⟨_, guardedProof_key.mpr ⟨jti, jwk, hcheck, rfl⟩⟩
  rw [← not_exists, not_iff_not]
  constructor
  · rintro ⟨marks, h⟩
    obtain ⟨hp₁, hp₂, haccepted⟩ := (htwice marks).mp h
    exact ⟨hp₁, hp₂, (hboth.mp ⟨marks, haccepted⟩).2.2⟩
  · rintro ⟨hp₁, hp₂, hapart⟩
    obtain ⟨marks, haccepted⟩ := hboth.mpr ⟨hkey hp₁, hkey hp₂, hapart⟩
    exact ⟨marks, (htwice marks).mpr ⟨hp₁, hp₂, haccepted⟩⟩

lemma window_of_passes (hclaims : P.payload proof = .ok claims)
    (hiat : (claims.get "iat").bind Value.asI64 = some iat) (h : Passes P proof req now) :
    unixTime now - MAX_AGE_SECS ≤ iat ∧ iat ≤ unixTime now + MAX_SKEW_SECS := by
  obtain ⟨jti, jwk, hcheck, -⟩ := h
  simp only [checkProof, bind_eq_ok, mapErr_eq_ok] at hcheck
  obtain ⟨_, -, key, -, claims', hdecode, jti', hjti, -⟩ := hcheck
  rw [(Jwt.decode_eq_ok.mp hdecode).2.1] at hclaims
  cases hclaims
  simp only [checkClaims, bind_eq_ok, orError_eq_ok, require_eq_ok] at hjti
  obtain ⟨_, -, _, -, -, -, _, -, -, -, iat', hiat', -, hwindow, -⟩ := hjti
  obtain rfl : iat' = iat := Option.some.inj (hiat'.symm.trans hiat)
  simpa [inWindow] using hwindow

/-- **Where a proof can be used twice.**  Presentations that pass and are a mark's life apart are the
first in the first second of the window and the second in its last. -/
theorem passes_apart (hclaims : P.payload proof = .ok claims)
    (hiat : (claims.get "iat").bind Value.asI64 = some iat) (h₁ : Passes P proof req₁ t₁)
    (h₂ : Passes P proof req₂ t₂) (hapart : t₁ + seconds (MAX_AGE_SECS + MAX_SKEW_SECS) ≤ t₂) :
    unixTime t₁ = iat - MAX_SKEW_SECS ∧ unixTime t₂ = iat + MAX_AGE_SECS := by
  obtain ⟨-, hfirst⟩ := window_of_passes hclaims hiat h₁
  obtain ⟨hlast, -⟩ := window_of_passes hclaims hiat h₂
  have hlife := unixTime_mono hapart
  have hshift : unixTime (t₁ + seconds (MAX_AGE_SECS + MAX_SKEW_SECS)) =
      unixTime t₁ + (MAX_AGE_SECS + MAX_SKEW_SECS) := by
    simp only [unixTime, seconds]
    exact Int.add_mul_ediv_right _ _ (by decide)
  omega

end Twice

/-! ## A proof that is used twice -/

def samplePlatform : Platform where
  decodeHeader _ := .ok
    { alg := .es256
      typ := some "dpop+jwt"
      jwk := some (.object [("kty", .string "OKP"), ("crv", .string "Ed25519"), ("x", .string "11qY")]) }
  decodingKey jwk := .ok jwk
  signature _ _ _ := .ok ()
  payload _ := .ok [("jti", .string "j1"), ("htm", .string "POST"),
    ("htu", .string "https://id.example/t/acme/token"), ("iat", .number "1000")]
  roundedSeconds _ := none
  required _ _ := .ok ()
  parties _ _ := .ok ()
  urlWithoutQuery u := some u
  sha256 s := s

def sampleRequest : ProofRequest := ⟨"POST", ["https://id.example/t/acme/token"], none⟩

/-- **A proof is accepted twice.**  Presented half a minute before its `iat`, to the second, and again
in the last second of its window, five and a half minutes later. -/
theorem proof_accepted_twice :
    seconds 970 ≤ seconds 1300 + 500000000 ∧
      AcceptedTwice samplePlatform 1 "proof" sampleRequest sampleRequest (seconds 970)
        (seconds 1300 + 500000000) Marks.empty := by
  exact ⟨by decide, ⟨_, rfl⟩, ⟨_, rfl⟩⟩

end Ridm.Dpop
