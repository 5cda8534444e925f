import Ridm.Tokens.Claims
import Ridm.Tokens.Denylist

/-!
# Access tokens

`issue_access_token` and `verify_access` of `api/src/services/tokens.rs`.  The claims of a token are
what user data and mappers give (`Tokens.Claims`), under what the token service sets itself; so a
claim such as `act` is in the token exactly when the request has it (`get_act_accessClaims`).

A token is a signed JWT or a random text whose claims are kept in Valkey, and `verifyAccess` takes
either.  Both forms look at the denylist last (`verifyAccess_eq_ok`).
-/

namespace Ridm.Members

/-- `if let Some(v) = v { map.insert(k, v) }`. -/
def insertSome (m : Members) (k : String) : Option Value → Members
  | some v => m.insert k v
  | none => m

lemma get_insertSome (m : Members) (k k' : String) (v : Option Value) :
    (m.insertSome k v).get k' = if k = k' then v.or (m.get k') else m.get k' := by
  cases v with
  | none => simp [insertSome]
  | some v => simp [insertSome, get_insert]

end Ridm.Members

namespace Ridm.Tokens

open Jwt (Library)
open Users (User)

/-- The form of access tokens. -/
inductive AccessTokenFormat
  | jwt
  | opaqueToken
  deriving DecidableEq

/-- How clients see a user. -/
inductive SubjectType
  | publicSubject
  | pairwise

/-- `TokenClient`, as far as access tokens are issued for it. -/
structure TokenClient where
  clientId : String
  subjectType : SubjectType
  sectorIdentifier : Option String
  accessTokenTtl : ℕ
  mappers : List ClaimMapper
  accessTokenFormat : AccessTokenFormat
  accessTokenAlg : Option SigningAlg
  permissions : List String
  notAfter : Option Instant

/-- What an access token is issued for. -/
structure AccessTokenRequest where
  tenant : Tenant
  client : TokenClient
  user : Option User
  scopes : List String
  audiences : List String
  roles : List Role
  groups : List Group
  sessionId : Option Uuid
  authTime : Option Instant
  amr : List String
  acr : Option String
  orgId : Option Uuid
  cnfJkt : Option String
  cnfX5t : Option String
  act : Option Value

/-- A token and what it says. -/
structure IssuedToken where
  token : String
  claims : Members
  expiresAt : Instant
  deriving DecidableEq

/-- What issuing a token asks other services for. -/
structure TokenService where
  formats : Formats
  /-- `profile_schema::get`. -/
  schema : List AttributeDef
  /-- `features::enabled_for`. -/
  enabledFeatures : Option Uuid → List String
  pairwiseSubject : String → Uuid → String
  /-- The text that stands for the claims: signed with the tenant's key, or drawn and stored. -/
  mint : AccessTokenFormat → Option SigningAlg → Members → Instant → Except AppError String

/-! ## Issuing -/

section Issuing

variable (S : TokenService) (req : AccessTokenRequest)

def subjectFor (client : TokenClient) (user : User) : String :=
  match client.subjectType with
  | .publicSubject => uuidText user.id.toNat
  | .pairwise => S.pairwiseSubject (client.sectorIdentifier.getD client.clientId) user.id.toNat

/-- The claims from user data: profile attributes first, then the mappers. -/
def dataClaims : List String × Members :=
  applyMappers S.formats req.client.mappers
    { tenantId := req.tenant.id, user := req.user, clientId := req.client.clientId,
      scopes := req.scopes, roles := req.roles, groups := req.groups } .access
    (match req.user with
      | some user => profileClaims user S.schema .accessToken []
      | none => [])

def audienceOf (extra : List String) : List String :=
  let aud := req.audiences ++ extra
  (if aud.isEmpty then [req.client.clientId] else aud).destutter (· ≠ ·)

/-- One text, or the array of all. -/
def audienceJson : List String → Value
  | [a] => .string a
  | aud => textsJson aud

/-- What the token is bound to. -/
def confirmation : Option Value :=
  let cnf := (Members.insertSome [] "jkt" (req.cnfJkt.map .string)).insertSome "x5t#S256"
    (req.cnfX5t.map .string)
  if cnf.isEmpty then none else some (.object cnf)

/-- The names of the user's roles and groups, unless a mapper has shaped them. -/
def memberships (claims : Members) : Members :=
  if req.user.isSome then
    Members.orInsert (claims.orInsert "roles" (textsJson (req.roles.map Role.name))) "groups"
      (textsJson (req.groups.map Group.name))
  else claims

/-- The claims that are always there. -/
def ownClaims (jti : Uuid) (now exp : Instant) : Members :=
  let data := dataClaims S req
  data.2
    |>.insert "iss" (.string req.tenant.issuer)
    |>.insert "sub" (.string (match req.user with
      | some u => subjectFor S req.client u
      | none => req.client.clientId))
    |>.insert "aud" (audienceJson (audienceOf req data.1))
    |>.insert "client_id" (.string req.client.clientId)
    |>.insert "azp" (.string req.client.clientId)
    |>.insert "iat" (intJson (unixTime now))
    |>.insert "nbf" (intJson (unixTime now))
    |>.insert "exp" (intJson (unixTime exp))
    |>.insert "jti" (uuidJson jti)
    |>.insert "tid" (uuidJson req.tenant.id)
    |>.insert "scope" (.string (String.intercalate " " req.scopes))
    |>.insertSome "org_id" (req.orgId.map uuidJson)
    |>.insertSome "features" (if req.scopes.any (· == "features") then
        some (textsJson (S.enabledFeatures req.orgId)) else none)

def accessClaims (jti : Uuid) (now exp : Instant) : Members :=
  memberships req (ownClaims S req jti now exp)
    |>.insertSome "permissions" (if req.client.permissions.isEmpty then none
        else some (textsJson req.client.permissions))
    |>.insertSome "sid" (req.sessionId.map uuidJson)
    |>.insertSome "auth_time" (req.authTime.map fun t => intJson (unixTime t))
    |>.insertSome "amr" (if req.amr.isEmpty then none else some (textsJson req.amr))
    |>.insertSome "acr" (req.acr.map .string)
    |>.insertSome "cnf" (confirmation req)
    |>.insertSome "act" req.act

def accessExpiry (client : TokenClient) (now : Instant) : Instant :=
  let exp := now + seconds client.accessTokenTtl
  client.notAfter.elim exp (min exp)

def issueAccessToken (jti : Uuid) (now : Instant) : Except AppError IssuedToken := do
  let exp := accessExpiry req.client now
  let claims := accessClaims S req jti now exp
  let token ← S.mint req.client.accessTokenFormat req.client.accessTokenAlg claims exp
  .ok { token := token, claims := claims, expiresAt := exp }

variable {S req}

lemma issueAccessToken_ok {jti : Uuid} {now : Instant} {t : IssuedToken}
    (h : issueAccessToken S req jti now = .ok t) :
    t.claims = accessClaims S req jti now t.expiresAt ∧ t.expiresAt = accessExpiry req.client now ∧
      S.mint req.client.accessTokenFormat req.client.accessTokenAlg t.claims t.expiresAt =
        .ok t.token := by
  simp only [issueAccessToken, bind_eq_ok] at h
  obtain ⟨token, hmint, h⟩ := h
  cases h
  exact ⟨rfl, rfl, hmint⟩

lemma get_dataClaims {name : String} (h : Owned name) : (dataClaims S req).2.get name = none := by
  rw [dataClaims, get_applyMappers h]
  cases req.user with
  | none => rfl
  | some user => exact get_profileClaims (releasable_of_owned h) user S.schema .accessToken []

lemma get_memberships {name : String} (hroles : name ≠ "roles") (hgroups : name ≠ "groups")
    (req : AccessTokenRequest) (claims : Members) :
    (memberships req claims).get name = claims.get name := by
  rw [memberships]
  split_ifs
  · simp only [Members.get_orInsert, hroles.symm, hgroups.symm, false_and, if_false]
  · rfl

/-- What the claims of a token say of what was asked for. -/
structure Tells (S : TokenService) (req : AccessTokenRequest) (jti : Uuid) (exp : Instant)
    (claims : Members) : Prop where
  sub : claims.get "sub" =
    some (.string (req.user.elim req.client.clientId (subjectFor S req.client)))
  aud : claims.get "aud" = some (audienceJson (audienceOf req (dataClaims S req).1))
  exp : claims.get "exp" = some (intJson (unixTime exp))
  jti : claims.get "jti" = some (uuidJson jti)
  scope : claims.get "scope" = some (.string (String.intercalate " " req.scopes))
  orgId : claims.get "org_id" = req.orgId.map uuidJson
  sid : claims.get "sid" = req.sessionId.map uuidJson
  cnf : claims.get "cnf" = confirmation req
  act : claims.get "act" = req.act

/-- **The claims of a token are what was asked for**: none of these comes from user data. -/
theorem tells_accessClaims (S : TokenService) (req : AccessTokenRequest) (jti : Uuid)
    (now exp : Instant) : Tells S req jti exp (accessClaims S req jti now exp) := by
  -- each reading skips the insertions of other names, down to what user data has left free
  have hdata : ∀ name ∈ PROTECTED_CLAIMS, (dataClaims S req).2.get name = none :=
    fun _ hname => get_dataClaims (.inl hname)
  refine ⟨?_, ?_, ?_, ?_, ?_, ?_, ?_, ?_, ?_⟩ <;>
    simp only [accessClaims, Members.get_insertSome] <;>
    rw [get_memberships (by decide) (by decide)] <;>
    simp only [ownClaims, Members.get_insertSome, Members.get_insert]
  · cases req.user <;> simp
  · simp
  · simp
  · simp
  · simp
  · simp [hdata "org_id" (by decide)]
  · simp [hdata "sid" (by decide)]
  · simp [hdata "cnf" (by decide)]
  · simp [hdata "act" (by decide)]

/-- **The `act` claim of a token is what was asked for**, and no other. -/
lemma get_act_accessClaims {jti : Uuid} {now exp : Instant} :
    (accessClaims S req jti now exp).get "act" = req.act :=
  (tells_accessClaims S req jti now exp).act

lemma jtiOf_accessClaims {jti : Uuid} {now exp : Instant} :
    jtiOf (accessClaims S req jti now exp) = some (uuidText jti) := by
  rw [jtiOf, (tells_accessClaims S req jti now exp).jti]
  rfl

end Issuing

/-! ## Verifying -/

/-- `opaque_tokens::looks_like`. -/
def looksLike (token : String) : Bool :=
  "at_".toList.isPrefixOf token.toList && decide (token.utf8ByteSize ≤ 128)

/-- What `verify_access` reads. -/
structure Verifier where
  library : Library
  published : List Value
  /-- `opaque_tokens::lookup`. -/
  lookup : String → Instant → Option (Uuid × Members)

section Verifying

variable (V : Verifier) (tenant : Tenant) (opts : VerifyOptions) (now : Instant)

/-- The expected audience is among those of the claims. -/
def audienceMatches (claims : Members) : Bool :=
  opts.audience.all fun expected =>
    match claims.get "aud" with
    | some (.string a) => a == expected
    | some (.array list) => list.any (· == .string expected)
    | _ => false

/-- `check_opaque` up to the denylist. -/
def checkOpaque (claims : Members) : Except AppError Members := do
  let exp := ((claims.get "exp").bind Value.asI64).getD 0
  require .unauthorized (opts.allowExpired || decide (unixTime now < exp + opts.leewaySecs))
  require .unauthorized (audienceMatches opts claims)
  .ok claims

/-- The check of the denylist, the last one of either form. -/
def checkDenied (claims : Members) (denied : Denylist) : Except AppError Members := do
  require .unauthorized
    (!(opts.checkDenylist && (jtiOf claims).any fun jti => isDenied tenant.id jti now denied))
  .ok claims

def verifyAccess (token : String) (denied : Denylist) : Except AppError Members :=
  if !looksLike token then
    verify V.library tenant { opts with typ := some "at+jwt" } V.published now token denied
  else do
    let found ← orError .unauthorized (V.lookup token now)
    require .unauthorized (found.1 == tenant.id)
    let claims ← checkOpaque opts now found.2
    checkDenied tenant opts now claims denied

/-- All `verify_access` checks, less the denylist. -/
def checkAccess (token : String) : Except AppError Members :=
  if !looksLike token then
    checkToken V.library tenant { opts with typ := some "at+jwt" } V.published now token
  else do
    let found ← orError .unauthorized (V.lookup token now)
    require .unauthorized (found.1 == tenant.id)
    checkOpaque opts now found.2

variable {V tenant opts now}

lemma checkDenied_eq_ok {claims claims' : Members} {denied : Denylist} :
    checkDenied tenant opts now claims denied = .ok claims' ↔ claims = claims' ∧
      (opts.checkDenylist = true →
        ∀ jti ∈ jtiOf claims, isDenied tenant.id jti now denied = false) := by
  simp only [checkDenied, bind_eq_ok, require_eq_ok, Except.ok.injEq]
  cases hjti : jtiOf claims with
  | none => simp
  | some jti =>
      cases hopt : opts.checkDenylist with
      | false => simp
      | true => simp [and_comm]

/-- **A token is accepted when it passes and is not denied**, whichever its form. -/
lemma verifyAccess_eq_ok {token : String} {denied : Denylist} {claims : Members} :
    verifyAccess V tenant opts now token denied = .ok claims ↔
      checkAccess V tenant opts now token = .ok claims ∧
        (opts.checkDenylist = true →
          ∀ jti ∈ jtiOf claims, isDenied tenant.id jti now denied = false) := by
  rw [verifyAccess, checkAccess]
  cases hlooks : looksLike token with
  | false => exact verify_eq_ok
  | true =>
      simp only [Bool.not_true, if_false, bind_eq_ok, Bool.false_eq_true]
      constructor
      · rintro ⟨found, hfound, ⟨⟩, htenant, claims', hcheck, hdenied⟩
        obtain ⟨rfl, hfree⟩ := checkDenied_eq_ok.mp hdenied
        exact ⟨⟨found, hfound, (), htenant, hcheck⟩, hfree⟩
      · rintro ⟨⟨found, hfound, ⟨⟩, htenant, hcheck⟩, hfree⟩
        exact ⟨found, hfound, (), htenant, claims, hcheck, checkDenied_eq_ok.mpr ⟨rfl, hfree⟩⟩

end Verifying

end Ridm.Tokens
