import Ridm.Tokens.Access

/-!
# ID tokens

`issue_id_token` of `api/src/services/tokens.rs`, and `scope_claims` of `api/src/services/claims.rs`.
An ID token gets its claims from four places, in this order: the claims of the granted scopes (for a
client that asks for them here), the profile attributes exposed to ID tokens, the mappers, and last
what the token service sets itself.
-/

namespace Ridm.Tokens

open Users (User)

/-! ## Claims of scopes -/

def standardScopeClaims : String → List String
  | "profile" =>
      ["name", "family_name", "given_name", "middle_name", "nickname", "preferred_username", "profile",
        "picture", "website", "gender", "birthdate", "zoneinfo", "locale", "updated_at"]
  | "email" => ["email", "email_verified"]
  | "phone" => ["phone_number", "phone_number_verified"]
  | "address" => ["address"]
  | _ => []

/-- A `Scope` row, as far as claims are released by it. -/
structure ScopeClaims where
  name : String
  claims : List String

def releaseClaim (user : User) (name : String) : Option Value :=
  if !releasable name then none
  else
    match name with
    | "preferred_username" => some (.string user.username)
    | "email" => user.email.map .string
    | "email_verified" => user.email.map fun _ => .bool user.emailVerified
    | "phone_number" => user.phone.map .string
    | "phone_number_verified" => user.phone.map fun _ => .bool user.phoneVerified
    | "locale" => user.locale.map .string
    | "updated_at" => some (intJson (unixTime user.updatedAt))
    | "address" =>
        match user.attributes.member "address" with
        | some (.object m) => some (.object m)
        | _ => none
    | other => userAttribute user other

def scopeNames (defs : List ScopeClaims) (granted : String) : List String :=
  match defs.find? fun d => d.name == granted with
  | some d => d.claims
  | none => standardScopeClaims granted

/-- One named claim, unless it is there. -/
def releaseInto (user : User) (out : Members) (name : String) : Members :=
  if (out.get name).isSome then out
  else
    match releaseClaim user name with
    | some v => out.insert name v
    | none => out

def scopeClaims (user : User) (scopes : List String) (defs : List ScopeClaims) : Members :=
  scopes.foldl (fun out granted => (scopeNames defs granted).foldl (releaseInto user) out) []

lemma releaseClaim_eq_none {name : String} (h : releasable name = false) (user : User) :
    releaseClaim user name = none := by
  unfold releaseClaim
  rw [h]
  rfl

lemma get_releaseInto {name : String} (h : releasable name = false) (user : User) (out : Members)
    (other : String) : (releaseInto user out other).get name = out.get name := by
  rw [releaseInto]
  split_ifs
  · rfl
  · split
    · next v hv =>
        rw [Members.get_insert, if_neg]
        rintro rfl
        rw [releaseClaim_eq_none h] at hv
        cases hv
    · rfl

lemma get_scopeClaims {name : String} (h : releasable name = false) (user : User)
    (scopes : List String) (defs : List ScopeClaims) : (scopeClaims user scopes defs).get name = none := by
  have hnames : ∀ (names : List String) (out : Members),
      (names.foldl (releaseInto user) out).get name = out.get name := by
    intro names
    induction names with
    | nil => exact fun _ => rfl
    | cons other names ih =>
        intro out
        rw [List.foldl_cons, ih, get_releaseInto h]
  have hscopes : ∀ (scopes : List String) (out : Members),
      (scopes.foldl (fun out granted => (scopeNames defs granted).foldl (releaseInto user) out)
        out).get name = out.get name := by
    intro scopes
    induction scopes with
    | nil => exact fun _ => rfl
    | cons granted scopes ih =>
        intro out
        rw [List.foldl_cons, ih, hnames]
  exact hscopes scopes []

/-! ## Issuing -/

/-- `TokenClient`, with what ID tokens read of it. -/
structure IdTokenClient extends TokenClient where
  idTokenTtl : ℕ
  idTokenScopeClaims : Bool
  idTokenAlg : Option SigningAlg
  idTokenEncryption : Option String

/-- What an ID token is issued for. -/
structure IdTokenRequest where
  tenant : Tenant
  client : IdTokenClient
  user : User
  scopes : List String
  roles : List Role
  groups : List Group
  sessionId : Option Uuid
  authTime : Instant
  orgId : Option Uuid
  nonce : Option String
  amr : List String
  acr : Option String
  accessToken : Option String
  code : Option String
  act : Option Value

/-- What issuing an ID token asks other services for. -/
structure IdTokenService extends TokenService where
  /-- `scopes::list`. -/
  scopes : List ScopeClaims
  /-- `keys::ensure_active_alg` and `keys::ensure_active`: the algorithm of the key. -/
  keyAlg : Option SigningAlg → Except AppError SigningAlg
  halfHash : SigningAlg → String → String
  sealToken : SigningAlg → Option String → Members → Except AppError String

section Issuing

variable (S : IdTokenService) (req : IdTokenRequest)

/-- The claims from user data: those of scopes, profile attributes, then the mappers. -/
def idDataClaims : Members :=
  (applyMappers S.formats req.client.mappers
    { tenantId := req.tenant.id, user := some req.user, clientId := req.client.clientId,
      scopes := req.scopes, roles := req.roles, groups := req.groups } .id
    (profileClaims req.user S.schema .idToken
      (if req.client.idTokenScopeClaims then scopeClaims req.user req.scopes S.scopes else []))).2

def idClaims (alg : SigningAlg) (now exp : Instant) : Members :=
  idDataClaims S req
    |>.insert "iss" (.string req.tenant.issuer)
    |>.insert "sub" (.string (subjectFor S.toTokenService req.client.toTokenClient req.user))
    |>.insert "aud" (.string req.client.clientId)
    |>.insert "azp" (.string req.client.clientId)
    |>.insert "iat" (intJson (unixTime now))
    |>.insert "exp" (intJson (unixTime exp))
    |>.insert "auth_time" (intJson (unixTime req.authTime))
    |>.insert "tid" (uuidJson req.tenant.id)
    |>.insertSome "org_id" (req.orgId.map uuidJson)
    |>.insertSome "features" (if req.scopes.any (· == "features") then
        some (textsJson (S.enabledFeatures req.orgId)) else none)
    |>.insertSome "nonce" (req.nonce.map .string)
    |>.insertSome "sid" (req.sessionId.map uuidJson)
    |>.insertSome "amr" (if req.amr.isEmpty then none else some (textsJson req.amr))
    |>.insertSome "acr" (req.acr.map .string)
    |>.insertSome "at_hash" (req.accessToken.map fun t => .string (S.halfHash alg t))
    |>.insertSome "c_hash" (req.code.map fun c => .string (S.halfHash alg c))
    |>.insertSome "act" req.act

def issueIdToken (now : Instant) : Except AppError IssuedToken := do
  let alg ← S.keyAlg req.client.idTokenAlg
  let exp := now + seconds req.client.idTokenTtl
  let claims := idClaims S req alg now exp
  let token ← S.sealToken alg req.client.idTokenEncryption claims
  .ok { token := token, claims := claims, expiresAt := exp }

variable {S req}

lemma issueIdToken_ok {now : Instant} {t : IssuedToken} (h : issueIdToken S req now = .ok t) :
    ∃ alg, S.keyAlg req.client.idTokenAlg = .ok alg ∧
      t.claims = idClaims S req alg now t.expiresAt ∧
      t.expiresAt = now + seconds req.client.idTokenTtl := by
  simp only [issueIdToken, bind_eq_ok] at h
  obtain ⟨alg, halg, token, -, h⟩ := h
  cases h
  exact ⟨alg, halg, rfl, rfl⟩

lemma get_idDataClaims {name : String} (h : Owned name) : (idDataClaims S req).get name = none := by
  rw [idDataClaims, get_applyMappers h, get_profileClaims (releasable_of_owned h)]
  split_ifs
  · exact get_scopeClaims (releasable_of_owned h) ..
  · rfl

end Issuing

end Ridm.Tokens
