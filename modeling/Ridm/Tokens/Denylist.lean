import Ridm.Core.Jwt
import Ridm.Lib.ExpiringMarks

/-!
# Revoked access tokens

`verify` of `api/src/services/tokens.rs` and the `jti` denylist of `api/src/services/denylist.rs`.  A
JWT access token is revoked by a mark under its `jti` that lasts the whole seconds until `exp`, and
none at all when less than one is left; `verify` grants `leeway_secs` after `exp`.

So no revocation lasts: `denied_until_iff` says exactly when a revoked token is refused, and that
there is always a later moment when it is not.
-/

namespace Ridm.Tokens

open Jwt (Library Algorithm Validation)

/-- The signing algorithms. -/
inductive SigningAlg
  | rs256 | rs384 | rs512 | es256 | edDSA
  deriving DecidableEq

namespace SigningAlg

/-- `SigningAlg::ALL`. -/
def all : List SigningAlg := [.rs256, .rs384, .rs512, .es256, .edDSA]

def asStr : SigningAlg → String
  | .rs256 => "RS256"
  | .rs384 => "RS384"
  | .rs512 => "RS512"
  | .es256 => "ES256"
  | .edDSA => "EdDSA"

/-- `from_str`, less the text of its error. -/
def fromStr (s : String) : Option SigningAlg := all.find? fun a => eqIgnoreAsciiCase a.asStr s

end SigningAlg

def jwtAlg : SigningAlg → Algorithm
  | .rs256 => .rs256
  | .rs384 => .rs384
  | .rs512 => .rs512
  | .es256 => .es256
  | .edDSA => .edDSA

/-- `Tenant`, as far as its tokens are checked against it. -/
structure Tenant where
  id : Uuid
  issuer : String

/-- `VerifyOptions`, with its defaults. -/
structure VerifyOptions where
  audience : Option String := none
  typ : Option String := none
  leewaySecs : ℕ := 30
  allowExpired : Bool := false
  checkDenylist : Bool := true

/-- A published key, as `verification_keys` reads it. -/
def verificationKey (J : Library) (jwk : Value) : Option (String × SigningAlg × Value) := do
  let kid ← (jwk.member "kid").bind Value.asStr
  let alg ← ((jwk.member "alg").bind Value.asStr).bind SigningAlg.fromStr
  let decoding ← (J.decodingKey jwk).toOption
  some (kid, alg, decoding)

/-- `verification_keys`, by `kid`: of two keys with one `kid` the later is kept. -/
def verificationKeys (J : Library) (published : List Value) (kid : String) :
    Option (SigningAlg × Value) :=
  ((published.filterMap (verificationKey J)).reverse.find? fun k => k.1 == kid).map Prod.snd

/-- How `verify` checks a token. -/
def validation (tenant : Tenant) (opts : VerifyOptions) (alg : Algorithm) : Validation :=
  { alg := alg
    leeway := opts.leewaySecs
    validateExp := !opts.allowExpired
    validateNbf := true
    audience := opts.audience.map fun a => [a]
    requiredSpecClaims := ["exp", "iss"]
    iss := some [tenant.issuer] }

/-- `verify` up to the denylist, under the keys published at the time. -/
def checkToken (J : Library) (tenant : Tenant) (opts : VerifyOptions) (published : List Value)
    (now : Instant) (token : String) : Except AppError Members := do
  let header ← mapErr .unauthorized (J.decodeHeader token)
  let kid ← orError .unauthorized header.kid
  require .unauthorized (opts.typ.all fun expected => header.typ == some expected)
  let key ← orError .unauthorized (verificationKeys J published kid)
  require .unauthorized (jwtAlg key.1 == header.alg)
  mapErr .unauthorized (Jwt.decode J now token key.2 (validation tenant opts header.alg))

/-- The denylist, by tenant and `jti`. -/
abbrev Denylist := Marks (Uuid × String) Instant

def deny (tenantId : Uuid) (jti : String) (expiresAt now : Instant) (denied : Denylist) : Denylist :=
  let ttl := numSeconds (expiresAt - now)
  if ttl ≤ 0 then denied else denied.put (tenantId, jti) (now + seconds ttl)

def isDenied (tenantId : Uuid) (jti : String) (now : Instant) (denied : Denylist) : Bool :=
  denied.isThere (tenantId, jti) now

/-- The `jti` of a token. -/
def jtiOf (claims : Members) : Option String := (claims.get "jti").bind Value.asStr

def verify (J : Library) (tenant : Tenant) (opts : VerifyOptions) (published : List Value)
    (now : Instant) (token : String) (denied : Denylist) : Except AppError Members := do
  let claims ← checkToken J tenant opts published now token
  require .unauthorized
    (!(opts.checkDenylist && (jtiOf claims).any fun jti => isDenied tenant.id jti now denied))
  .ok claims

/-! ## When a token is accepted -/

section Accepted

variable {J : Library} {tenant : Tenant} {opts : VerifyOptions} {published : List Value}
  {now : Instant} {token : String} {claims : Members}

lemma checkToken_eq_ok : checkToken J tenant opts published now token = .ok claims ↔
    ∃ header kid key, J.decodeHeader token = .ok header ∧ header.kid = some kid ∧
      (opts.typ.all fun expected => header.typ == some expected) = true ∧
      verificationKeys J published kid = some key ∧ (jwtAlg key.1 == header.alg) = true ∧
      Jwt.decode J now token key.2 (validation tenant opts header.alg) = .ok claims := by
  simp only [checkToken, bind_eq_ok, mapErr_eq_ok, orError_eq_ok, require_eq_ok]
  constructor
  · rintro ⟨header, hheader, kid, hkid, ⟨⟩, htyp, key, hkey, ⟨⟩, halg, hdecode⟩
    exact ⟨header, kid, key, hheader, hkid, htyp, hkey, halg, hdecode⟩
  · rintro ⟨header, kid, key, hheader, hkid, htyp, hkey, halg, hdecode⟩
    exact ⟨header, hheader, kid, hkid, (), htyp, key, hkey, (), halg, hdecode⟩

lemma verify_eq_ok {denied : Denylist} :
    verify J tenant opts published now token denied = .ok claims ↔
      checkToken J tenant opts published now token = .ok claims ∧
        (opts.checkDenylist = true →
          ∀ jti ∈ jtiOf claims, isDenied tenant.id jti now denied = false) := by
  simp only [verify, bind_eq_ok, require_eq_ok]
  constructor
  · rintro ⟨claims', hcheck, ⟨⟩, hdenied, h⟩
    cases h
    refine ⟨hcheck, fun hopt jti hjti => ?_⟩
    rw [Option.mem_def] at hjti
    simpa [hopt, hjti] using hdenied
  · rintro ⟨hcheck, hdenied⟩
    refine ⟨claims, hcheck, (), ?_, rfl⟩
    cases hjti : jtiOf claims with
    | none => simp
    | some jti =>
        cases hopt : opts.checkDenylist with
        | false => simp
        | true => simpa using hdenied hopt jti hjti

lemma checkTimes_later {later : Instant} {exp : ℤ} {v : Validation} (hle : now ≤ later)
    (hexp : Jwt.dateClaim J claims "exp" = some exp) (hcheck : v.validateExp = true)
    (hnow : Jwt.checkTimes J v now claims = .ok ()) :
    Jwt.checkTimes J v later claims = .ok () ↔ unixTime later ≤ exp + v.leeway := by
  obtain ⟨-, hnbf⟩ := Jwt.checkTimes_eq_ok.mp hnow
  have hmono := unixTime_mono hle
  rw [Jwt.checkTimes_eq_ok]
  simp only [hexp, hcheck, Option.mem_some_iff, forall_eq', forall_const]
  refine ⟨And.left, fun hlater => ⟨hlater, fun hv nbf hn => ?_⟩⟩
  have := hnbf hv nbf hn
  omega

lemma checkToken_payload (h : checkToken J tenant opts published now token = .ok claims) :
    J.payload token = .ok claims := by
  obtain ⟨_, _, _, _, _, _, _, _, hdecode⟩ := checkToken_eq_ok.mp h
  exact (Jwt.decode_eq_ok.mp hdecode).2.1

lemma checkToken_times (h : checkToken J tenant opts published now token = .ok claims)
    (alg : Algorithm) : Jwt.checkTimes J (validation tenant opts alg) now claims = .ok () := by
  obtain ⟨_, _, _, _, _, _, _, _, hdecode⟩ := checkToken_eq_ok.mp h
  exact (Jwt.decode_eq_ok.mp hdecode).2.2.2.1

lemma checkToken_at {t : Instant} (h : checkToken J tenant opts published now token = .ok claims)
    (htimes : ∀ alg, Jwt.checkTimes J (validation tenant opts alg) t claims = .ok ()) :
    checkToken J tenant opts published t token = .ok claims := by
  obtain ⟨header, kid, key, hheader, hkid, htyp, hkey, halg, hdecode⟩ := checkToken_eq_ok.mp h
  obtain ⟨hsig, hpayload, hreq, -, hparties⟩ := Jwt.decode_eq_ok.mp hdecode
  exact checkToken_eq_ok.mpr ⟨header, kid, key, hheader, hkid, htyp, hkey, halg,
    Jwt.decode_eq_ok.mpr ⟨hsig, hpayload, hreq, htimes _, hparties⟩⟩

/-- **A token later on.**  A token that passes now under some keys passes later under those published
then, exactly when they verify it and the leeway after its `exp` is not over. -/
lemma checkToken_later {later : Instant} {published' : List Value} {exp : ℤ} (hle : now ≤ later)
    (hexp : Jwt.dateClaim J claims "exp" = some exp) (hopt : opts.allowExpired = false)
    (hnow : checkToken J tenant opts published now token = .ok claims) :
    checkToken J tenant opts published' later token = .ok claims ↔
      checkToken J tenant opts published' now token = .ok claims ∧
        unixTime later ≤ exp + opts.leewaySecs := by
  have hlater : ∀ alg, Jwt.checkTimes J (validation tenant opts alg) later claims = .ok () ↔
      unixTime later ≤ exp + opts.leewaySecs := fun alg =>
    checkTimes_later hle hexp (by simp [validation, hopt]) (checkToken_times hnow alg)
  constructor
  · intro h
    exact ⟨checkToken_at h (checkToken_times hnow), (hlater .rs256).mp (checkToken_times h .rs256)⟩
  · rintro ⟨h, hleeway⟩
    exact checkToken_at h fun alg => (hlater alg).mpr hleeway

end Accepted

/-! ## Revoking a token -/

section Revoked

variable {tenantId : Uuid} {jti : String} {expiresAt now later : Instant} {denied : Denylist}

lemma isDenied_deny (hle : now ≤ later) (hfree : isDenied tenantId jti now denied = false) :
    isDenied tenantId jti later (deny tenantId jti expiresAt now denied) =
      decide (later < now + seconds (numSeconds (expiresAt - now))) := by
  simp only [isDenied, deny] at hfree ⊢
  split_ifs with httl
  · rw [Marks.isThere_eq_false_mono hfree hle]
    have hnone : seconds (numSeconds (expiresAt - now)) ≤ 0 := by
      rw [seconds]
      omega
    have hover : now + seconds (numSeconds (expiresAt - now)) ≤ later :=
      (Int.add_le_add_left hnone now).trans (by rwa [Int.add_zero])
    simp [hover]
  · rw [Marks.isThere_put]

lemma dateClaim_of_asI64 {J : Library} {claims : Members} {exp : ℤ}
    (hexp : (claims.get "exp").bind Value.asI64 = some exp) (hpos : 0 ≤ exp) :
    Jwt.dateClaim J claims "exp" = some exp := by
  obtain ⟨v, hv, hval⟩ := Option.bind_eq_some_iff.mp hexp
  rw [Value.asI64, Option.filter_eq_some_iff] at hval
  obtain ⟨hint, hrange⟩ := hval
  have hlt : exp < 2 ^ 64 := by
    simp only [Bool.and_eq_true, decide_eq_true_eq] at hrange
    omega
  simp only [Jwt.dateClaim, hv, Option.bind_some, hint]
  rw [if_pos ⟨hpos, hlt⟩]

variable {J : Library} {tenant : Tenant} {published : List Value} {token : String} {claims : Members}
  {exp : ℤ}

lemma verify_deny_eq_ok {published' : List Value} (hle : now ≤ later)
    (haccepted : verify J tenant {} published now token denied = .ok claims)
    (hjti : jtiOf claims = some jti) (hexp : Jwt.dateClaim J claims "exp" = some exp) :
    verify J tenant {} published' later token (deny tenant.id jti expiresAt now denied) = .ok claims ↔
      checkToken J tenant {} published' now token = .ok claims ∧ unixTime later ≤ exp + 30 ∧
        now + seconds (numSeconds (expiresAt - now)) ≤ later := by
  obtain ⟨hcheck, hfree⟩ := verify_eq_ok.mp haccepted
  rw [verify_eq_ok, checkToken_later hle hexp rfl hcheck, and_assoc]
  refine and_congr_right fun _ => and_congr_right fun _ => ?_
  simp only [hjti, Option.mem_some_iff, forall_eq', forall_const,
    isDenied_deny hle (hfree rfl jti hjti), decide_eq_false_iff_not, not_lt]

/-- **How long a revoked access token is refused.**  For every access token that `verify` accepts at
the time it is revoked, a later `verify` refuses it exactly when it comes within the whole seconds
that were left until `exp`, or when the leeway after `exp` is over, or when the keys published then do
not verify the token.  And under the keys it was revoked with there always is a later moment at which
it is accepted again. -/
theorem denied_until_iff (J : Library) (tenant : Tenant) (published : List Value) (token : String)
    (claims : Members) (jti : String) (exp : ℤ) (revokedAt : Instant) (denied : Denylist)
    (haccepted : verify J tenant {} published revokedAt token denied = .ok claims)
    (hjti : jtiOf claims = some jti) (hexp : (claims.get "exp").bind Value.asI64 = some exp)
    (hpos : 0 ≤ exp) :
    (∀ (later : Instant) (published' : List Value), revokedAt ≤ later →
      ((¬ ∃ claims', verify J tenant {} published' later token
          (deny tenant.id jti (seconds exp) revokedAt denied) = .ok claims') ↔
        later < revokedAt + seconds (numSeconds (seconds exp - revokedAt)) ∨
          exp + 30 < unixTime later ∨
          ¬ ∃ claims', checkToken J tenant {} published' revokedAt token = .ok claims')) ∧
      ∃ later, revokedAt ≤ later ∧ verify J tenant {} published later token
        (deny tenant.id jti (seconds exp) revokedAt denied) = .ok claims := by
  have hdate := dateClaim_of_asI64 (J := J) hexp hpos
  have hclaims : ∀ {published' now' claims'}, checkToken J tenant {} published' now' token = .ok claims' →
      claims' = claims := fun h => Except.ok.inj ((checkToken_payload h).symm.trans
    (checkToken_payload (verify_eq_ok.mp haccepted).1))
  refine ⟨fun later published' hle => ?_, ?_⟩
  · have hverify : (∃ claims', verify J tenant {} published' later token
        (deny tenant.id jti (seconds exp) revokedAt denied) = .ok claims') ↔
        (∃ claims', checkToken J tenant {} published' revokedAt token = .ok claims') ∧
          unixTime later ≤ exp + 30 ∧
          revokedAt + seconds (numSeconds (seconds exp - revokedAt)) ≤ later := by
      constructor
      · rintro ⟨claims', h⟩
        obtain rfl := hclaims (verify_eq_ok.mp h).1
        obtain ⟨hcheck, hrest⟩ := (verify_deny_eq_ok hle haccepted hjti hdate).mp h
        exact ⟨⟨_, hcheck⟩, hrest⟩
      · rintro ⟨⟨claims', h⟩, hrest⟩
        obtain rfl := hclaims h
        exact ⟨_, (verify_deny_eq_ok hle haccepted hjti hdate).mpr ⟨h, hrest⟩⟩
    rw [hverify, not_and_or, not_and_or, not_le, not_le]
    tauto
  · -- at `exp` itself the mark is over; a token revoked later than that never had one
    have hle := le_max_left revokedAt (seconds exp)
    refine ⟨max revokedAt (seconds exp), hle,
      (verify_deny_eq_ok hle haccepted hjti hdate).mpr ⟨(verify_eq_ok.mp haccepted).1, ?_, ?_⟩⟩
    · rcases le_total (seconds exp) revokedAt with h | h
      · rw [max_eq_left h]
        have htimes := checkToken_times (verify_eq_ok.mp haccepted).1 .rs256
        exact (Jwt.checkTimes_eq_ok.mp htimes).1 rfl exp hdate
      · rw [max_eq_right h, unixTime, seconds]
        omega
    · exact add_seconds_numSeconds_le

end Revoked

/-! ## A token that comes back -/

def sampleLibrary : Library where
  decodeHeader _ := .ok { alg := .es256, kid := some "k1", typ := some "at+jwt" }
  decodingKey jwk := .ok jwk
  signature _ _ _ := .ok ()
  payload _ := .ok [("iss", .string "https://id.example"), ("sub", .string "ada"),
    ("exp", .number "5000"), ("jti", .string "j1")]
  roundedSeconds _ := none
  required _ _ := .ok ()
  parties _ _ := .ok ()

def sampleTenant : Tenant := ⟨1, "https://id.example"⟩

def sampleKeys : List Value := [.object [("kid", .string "k1"), ("alg", .string "ES256")]]

def sampleClaims : Members :=
  [("iss", .string "https://id.example"), ("sub", .string "ada"), ("exp", .number "5000"),
    ("jti", .string "j1")]

/-- The token is accepted and revoked a thousand seconds before its `exp`, and so there is a later
moment at which it is accepted. -/
theorem denied_until_iff_sample : ∃ later, seconds 4000 ≤ later ∧
    verify sampleLibrary sampleTenant {} sampleKeys later "token"
      (deny 1 "j1" (seconds 5000) (seconds 4000) Marks.empty) = .ok sampleClaims :=
  (denied_until_iff sampleLibrary sampleTenant sampleKeys "token" sampleClaims "j1" 5000 (seconds 4000)
    Marks.empty (by rfl) (by rfl) (by decide +kernel) (by decide)).2

/-- **A revoked token is accepted again.**  It was accepted when it was revoked, is refused a moment
before its `exp`, and accepted at its `exp` and half a minute after it. -/
theorem denied_then_accepted :
    verify sampleLibrary sampleTenant {} sampleKeys (seconds 4000) "token" Marks.empty
        = .ok sampleClaims ∧
      verify sampleLibrary sampleTenant {} sampleKeys (seconds 5000 - 1) "token"
        (deny 1 "j1" (seconds 5000) (seconds 4000) Marks.empty) = .error .unauthorized ∧
      verify sampleLibrary sampleTenant {} sampleKeys (seconds 5000) "token"
        (deny 1 "j1" (seconds 5000) (seconds 4000) Marks.empty) = .ok sampleClaims ∧
      verify sampleLibrary sampleTenant {} sampleKeys (seconds 5030) "token"
        (deny 1 "j1" (seconds 5000) (seconds 4000) Marks.empty) = .ok sampleClaims :=
  ⟨rfl, rfl, rfl, rfl⟩

end Ridm.Tokens
