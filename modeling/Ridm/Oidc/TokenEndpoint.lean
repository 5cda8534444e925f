import Mathlib.Data.List.Destutter
import Ridm.DeviceCodes.Model
import Ridm.RefreshTokens.Families
import Ridm.Tokens.Access

/-!
# The token endpoint

`api/src/oidc/token.rs`: `issue_tokens` and the grants that lead to it.  A grant checks its request
against a record (an authorization code, an approved device code, a refresh token, a verified
subject token) and fills in an `Issue`; `issue_tokens` turns that into an access token, a refresh
token where the grant starts a family, and the answer.

What the grants read from other services is a `Backend`, at the time of the request.  One request
reads one clock; where it matters that the parts of a request lie apart in time, they are functions
of their own (`issueAccess`, `refreshRequest`, `codeGrant`).
-/

namespace Ridm.TokenEndpoint

open DeviceCodes (Acting Approval DeviceRecord)
open RefreshTokens (Digest IssueRequest Issued SenderProof Table)
open Tokens (AccessTokenFormat AccessTokenRequest ClaimMapper Denylist Group IssuedToken Role
  SigningAlg SubjectType Tenant TokenClient TokenService Verifier)
open Users (User)

/-- An `OAuthError` of a kind. -/
def invalidRequest (description : String) : OAuthError := ⟨.invalidRequest, description⟩

/-- The `?` of a service's answer. -/
def liftApp {α : Type} : Except AppError α → Except OAuthError α
  | .ok a => .ok a
  | .error e => .error (OAuthError.ofAppError e)

@[simp] lemma liftApp_eq_ok {α : Type} {r : Except AppError α} {a : α} :
    liftApp r = .ok a ↔ r = .ok a := by
  cases r <;> simp [liftApp]

/-! ## Parameters of a request -/

/-- The form parameters as sent. -/
abbrev RawParams := List (String × String)

/-- `RawParams::one`. -/
def one (params : RawParams) (name : String) : Except OAuthError (Option String) :=
  match params.filter fun p => p.1 == name with
  | [] => .ok none
  | [p] => .ok ((some (trim p.2)).filter (· ≠ ""))
  | _ => .error (invalidRequest ("parameter `" ++ name ++ "` must not be repeated"))

/-- `RawParams::many`. -/
def many (params : RawParams) (name : String) : List String :=
  (params.filter fun p => p.1 == name).map Prod.snd

/-- `scopes::parse_scope_param`. -/
def parseScopeParam (raw : String) : List String :=
  (((split raw ' ').map trim).filter (· ≠ "")).eraseDups

/-- A scope, as `parse_scope_param` gives it. -/
structure IsScope (s : String) : Prop where
  word : ' ' ∉ s.toList
  trimmed : trim s = s

lemma isScope_of_mem {raw s : String} (h : s ∈ parseScopeParam raw) : IsScope s := by
  rw [parseScopeParam, List.mem_eraseDups, List.mem_filter, List.mem_map] at h
  obtain ⟨⟨piece, hpiece, rfl⟩, -⟩ := h
  obtain ⟨chars, hchars, rfl⟩ := List.mem_map.mp hpiece
  refine ⟨fun hmem => ?_, trim_trim _⟩
  rw [toList_trim, String.toList_ofList] at hmem
  exact notMem_of_mem_splitOn hchars (mem_of_mem_trimChars hmem)

variable {r : Issue × IssuedToken} {jti : Uuid} {claims : Members} {l : List String}

lemma parseScopeParam_intercalate (hl : ∀ s ∈ l, IsScope s) :
    parseScopeParam (String.intercalate " " l) ⊆ l := by
  intro s hs
  rw [parseScopeParam, List.mem_eraseDups, List.mem_filter, List.mem_map] at hs
  obtain ⟨⟨piece, hpiece, rfl⟩, hne⟩ := hs
  cases l with
  | nil =>
      rw [show split (String.intercalate " " []) ' ' = [""] by decide, List.mem_singleton] at hpiece
      rw [hpiece] at hne
      exact absurd hne (by decide)
  | cons a l =>
      have := split_intercalate (c := ' ') (List.cons_ne_nil a l) fun s hs => (hl s hs).word
      rw [show " " = String.singleton ' ' from rfl, this] at hpiece
      rwa [(hl piece hpiece).trimmed]

/-! ## What the grants work with -/

/-- `Client`, as far as tokens are issued to it. -/
structure Client where
  id : Uuid
  clientId : String
  isPublic : Bool := false
  isFapi2 : Bool := false
  allowedGrants : List String
  allowedScopes : List String
  allowedAudiences : List String
  accessTokenTtlSecs : Option ℤ := none
  refreshTokenTtlSecs : Option ℤ := none
  accessTokenFormat : AccessTokenFormat := .jwt
  subjectType : SubjectType := .publicSubject
  sectorIdentifier : Option String := none
  tlsClientCertificateBoundAccessTokens : Bool := false

/-- `Client::may_target`. -/
def Client.mayTarget (client : Client) (identifier : String) (builtIn : Bool) : Bool :=
  client.allowedAudiences.any (· == identifier) || (!builtIn && client.allowedAudiences.isEmpty)

/-- `ResourceServer`, as far as tokens name it. -/
structure ResourceServer where
  id : Uuid
  identifier : String
  tokenTtlSecs : Option ℤ
  signingAlg : Option String
  allowOfflineAccess : Bool
  builtIn : Bool

/-- `Scope`, as far as it decides what a token carries. -/
structure Scope where
  name : String
  resourceServerId : Option Uuid

/-- The settings of a tenant that tokens depend on. -/
structure Settings where
  accessTokenTtlSecs : ℕ
  refreshTokenTtlSecs : ℕ
  defaultAlg : SigningAlg

/-- What the grants read from other services. -/
structure Backend where
  tenant : Tenant
  settings : Settings
  service : TokenService
  hash : String → Digest
  mappers : Client → List ClaimMapper
  scopes : List Scope
  user : Uuid → Option User
  effectiveRoles : Uuid → Option Uuid → List Role
  groupsOfUser : Uuid → List Group
  resourceServer : String → Option ResourceServer
  permissionsForRoles : Uuid → List Uuid → List String
  sessions : RefreshTokens.Sessions
  sessionUser : Uuid → Option Uuid
  /-- `pkce::verify_s256`. -/
  verifyS256 : String → String → Bool
  isResource : String → Bool
  verifier : Verifier
  denied : Denylist

/-- Whom the tokens are about. -/
structure Subject where
  user : User
  roles : List Role
  groups : List Group

def loadSubject (B : Backend) (userId : Uuid) (orgId : Option Uuid) : Except OAuthError Subject := do
  let user ← orError ⟨.invalidGrant, "user no longer exists"⟩ (B.user userId)
  require ⟨.invalidGrant, "user is not active"⟩ (decide (user.status = .active))
  .ok ⟨user, B.effectiveRoles userId orgId, B.groupsOfUser userId⟩

/-- `load_subject` of the user there may be. -/
def loadSubjectOf (B : Backend) (userId orgId : Option Uuid) : Except OAuthError (Option Subject) :=
  match userId with
  | some uid => (loadSubject B uid orgId).map some
  | none => .ok none

/-! ## Audiences -/

/-- What the resources ask of a token. -/
structure Audience where
  audiences : List String := []
  ttlOverride : Option ℤ := none
  permissions : List String := []
  resourceServerIds : List Uuid := []
  offlineAllowed : Bool := true
  signingAlg : Option SigningAlg := none

/-- `agreed_signing_alg`, from what was agreed so far. -/
def agreedSigningAlg : Option (SigningAlg × String) → List (String × Option String) →
    Except OAuthError (Option SigningAlg)
  | agreed, [] => .ok (agreed.map Prod.fst)
  | agreed, (_, none) :: rest => agreedSigningAlg agreed rest
  | agreed, (identifier, some text) :: rest =>
      match SigningAlg.fromStr text, agreed with
      | none, _ => .error ⟨.serverError,
          "resource `" ++ identifier ++ "` has an unsupported signing algorithm"⟩
      | some alg, none => agreedSigningAlg (some (alg, identifier)) rest
      | some alg, some (a, first) =>
          if a ≠ alg then
            .error ⟨.invalidTarget, "resources `" ++ first ++ "` (" ++ a.asStr ++ ") and `" ++
              identifier ++ "` (" ++ alg.asStr ++
              ") need tokens signed with different algorithms; request them separately"⟩
          else agreedSigningAlg agreed rest

/-- One resource server of `resolve_audience`. -/
def addResource (B : Backend) (client : Client) (roleIds : List Uuid)
    (acc : Audience × List (String × Option String)) (identifier : String) :
    Except OAuthError (Audience × List (String × Option String)) := do
  let rs ← orError ⟨.invalidTarget, "unknown resource `" ++ identifier ++ "`"⟩
    (B.resourceServer identifier)
  require ⟨.invalidTarget, "resource `" ++ identifier ++ "` is not allowed for this client"⟩
    (client.mayTarget identifier rs.builtIn)
  let ttl := rs.tokenTtlSecs.map (max 1)
  .ok ({ acc.1 with
      audiences := acc.1.audiences ++ [rs.identifier]
      resourceServerIds := acc.1.resourceServerIds ++ [rs.id]
      offlineAllowed := acc.1.offlineAllowed && rs.allowOfflineAccess
      ttlOverride := match ttl with
        | none => acc.1.ttlOverride
        | some ttl => some (acc.1.ttlOverride.elim ttl fun t => min t ttl)
      permissions := if roleIds.isEmpty then acc.1.permissions
        else (B.permissionsForRoles rs.id roleIds).foldl
          (fun ps p => if ps.contains p then ps else ps ++ [p]) acc.1.permissions },
    acc.2 ++ [(rs.identifier, rs.signingAlg)])

def resolveAudience (B : Backend) (client : Client) (requested : List String)
    (roleIds : List Uuid) : Except OAuthError Audience := do
  let wanted := if requested.isEmpty then client.allowedAudiences else requested
  let found ← wanted.foldlM (addResource B client roleIds) ({}, [])
  let alg ← agreedSigningAlg none found.2
  .ok { found.1 with signingAlg := alg }

/-- What a look-up finds has the key it was looked up by. -/
structure Backend.Keyed (B : Backend) : Prop where
  user : ∀ {id user}, B.user id = some user → user.id.toNat = id
  resourceServer : ∀ {name rs}, B.resourceServer name = some rs → rs.identifier = name

variable {req : AccessTokenRequest} {roleIds : List Uuid} {S : TokenService} {client : Client}
  {exp : Instant} {a : String}

lemma addResource_ok {B : Backend} (hB : B.Keyed)
    {acc acc' : Audience × List (String × Option String)} {identifier : String}
    (h : addResource B client roleIds acc identifier = .ok acc') :
    acc'.1.audiences = acc.1.audiences ++ [identifier] := by
  simp only [addResource, bind_eq_ok, orError_eq_ok] at h
  obtain ⟨rs, hrs, _, _, h⟩ := h
  cases h
  rw [← hB.resourceServer hrs]

/-- **The audiences of a token** are those asked for, or all the client may have. -/
lemma resolveAudience_ok {B : Backend} (hB : B.Keyed) {requested : List String}
    {a : Audience} (h : resolveAudience B client requested roleIds = .ok a) :
    a.audiences = if requested.isEmpty then client.allowedAudiences else requested := by
  have hfold : ∀ (wanted : List String) (acc found : Audience × List (String × Option String)),
      wanted.foldlM (addResource B client roleIds) acc = .ok found →
      found.1.audiences = acc.1.audiences ++ wanted := by
    intro wanted
    induction wanted with
    | nil =>
        intro acc found hfound
        cases hfound
        rw [List.append_nil]
    | cons identifier wanted ih =>
        intro acc found hfound
        rw [List.foldlM_cons] at hfound
        obtain ⟨acc', hacc', hrest⟩ := bind_eq_ok.mp hfound
        rw [ih acc' found hrest, addResource_ok hB hacc', List.append_assoc, List.singleton_append]
  simp only [resolveAudience, bind_eq_ok] at h
  obtain ⟨found, hfound, _, _, h⟩ := h
  cases h
  exact hfold _ _ _ hfound

/-- The loop of `parse_resources`. -/
def addParsed (B : Backend) (out : List String) (raw : String) : Except OAuthError (List String) := do
  let r := trim raw
  require ⟨.invalidTarget, "invalid resource `" ++ r ++ "`"⟩ (r != "" && B.isResource r)
  .ok (if out.contains r then out else out ++ [r])

def parseResources (B : Backend) (params : RawParams) : Except OAuthError (List String) :=
  (many params "resource").foldlM (addParsed B) []

/-! ## Issuing -/

/-- `Issue`, less the nonce of the ID token. -/
structure Issue where
  client : Client
  subject : Option Subject
  scopes : List String
  audience : Audience
  sessionId : Option Uuid
  authTime : Option Instant
  amr : List String
  acr : Option String
  orgId : Option Uuid
  issueRefresh : Bool
  codeForHash : Option Digest
  proof : SenderProof
  act : Option Value
  notAfter : Option Instant

/-- `scopes::filter_for_audience`. -/
def filterForAudience (requested : List String) (defs : List Scope) (resourceServerIds : List Uuid)
    (offlineAllowed : Bool) : List String :=
  requested.filter fun name => (offlineAllowed || name != "offline_access") &&
    ((defs.find? fun d => d.name == name).bind Scope.resourceServerId).all resourceServerIds.contains

/-- `fapi::allows_signing`. -/
def allowsSigning : SigningAlg → Bool
  | .es256 | .edDSA => true
  | _ => false

/-- `fapi::signing_alg`. -/
def fapiSigningAlg (settings : Settings) : SigningAlg :=
  if allowsSigning settings.defaultAlg then settings.defaultAlg else .es256

/-- `TokenClient::from_client`, with what `issue_tokens` sets. -/
def tokenClient (B : Backend) (i : Issue) : TokenClient where
  clientId := i.client.clientId
  subjectType := i.client.subjectType
  sectorIdentifier := i.client.sectorIdentifier
  accessTokenTtl := i.audience.ttlOverride.elim
    (i.client.accessTokenTtlSecs.elim B.settings.accessTokenTtlSecs fun s => (max s 1).toNat) Int.toNat
  mappers := B.mappers i.client
  accessTokenFormat := i.client.accessTokenFormat
  accessTokenAlg := i.audience.signingAlg.or
    (if i.client.isFapi2 then some (fapiSigningAlg B.settings) else none)
  permissions := i.audience.permissions
  notAfter := i.notAfter

def accessRequest (B : Backend) (i : Issue) : AccessTokenRequest where
  tenant := B.tenant
  client := tokenClient B i
  user := i.subject.map Subject.user
  scopes := i.scopes
  audiences := i.audience.audiences
  roles := i.subject.elim [] Subject.roles
  groups := i.subject.elim [] Subject.groups
  sessionId := i.sessionId
  authTime := i.authTime
  amr := i.amr
  acr := i.acr
  orgId := i.orgId
  cnfJkt := i.proof.jkt
  cnfX5t := if i.client.tlsClientCertificateBoundAccessTokens then i.proof.x5t else none
  act := i.act

/-- The first part of `issue_tokens`: the scopes the audience carries, and the access token. -/
def issueAccess (B : Backend) (i : Issue) (jti : Uuid) (now : Instant) :
    Except OAuthError (Issue × IssuedToken) := do
  require ⟨.invalidTarget, "the resource server asks for " ++
      (i.audience.signingAlg.elim "" SigningAlg.asStr) ++
      " tokens, which the FAPI 2.0 profile does not allow"⟩
    (!i.client.isFapi2 || i.audience.signingAlg.all allowsSigning)
  let granted := { i with
    scopes := filterForAudience i.scopes B.scopes i.audience.resourceServerIds
      i.audience.offlineAllowed }
  let token ← liftApp (Tokens.issueAccessToken B.service (accessRequest B granted) jti now)
  .ok (granted, token)

/-- `grants::REFRESH_TOKEN`. -/
def REFRESH_TOKEN : String := "refresh_token"

/-- The request for the refresh token of an issue, when it starts a family. -/
def refreshRequest (B : Backend) (i : Issue) (now : Instant) : Option IssueRequest :=
  if i.issueRefresh && i.client.allowedGrants.contains REFRESH_TOKEN then
    let ttl := seconds (i.client.refreshTokenTtlSecs.elim B.settings.refreshTokenTtlSecs (max · 1))
    some
      { clientId := i.client.clientId
        userId := i.subject.map fun s => s.user.id.toNat
        sessionId := i.sessionId
        scopes := i.scopes
        audiences := i.audience.audiences
        ttl := i.notAfter.elim ttl fun ends => max (min ttl (ends - now)) (seconds 1)
        dpopJkt := if i.client.isPublic then i.proof.jkt else none
        mtlsX5t := if i.client.isPublic && i.client.tlsClientCertificateBoundAccessTokens then
          i.proof.x5t else none
        authTime := i.authTime
        amr := i.amr
        acr := i.acr
        orgId := i.orgId
        act := i.act }
  else none

/-- `CodeGrant`: what one authorization code produced. -/
structure CodeGrant where
  familyId : Option Uuid
  accessJti : Option String
  accessExpiresAt : Instant

/-- The record of what a code produced. -/
def codeGrant (token : IssuedToken) (refresh : Option Issued) : CodeGrant where
  familyId := refresh.map fun r => r.record.familyId
  accessJti := Tokens.jtiOf token.claims
  accessExpiresAt := token.expiresAt

/-- What issuing draws: the `jti`, a family and its first token. -/
structure Draws where
  jti : Uuid
  familyId : Uuid
  refresh : RefreshTokens.Draw

/-- The tokens of an answer.  The texts of `TokenResponse` are read off them. -/
structure Minted where
  access : IssuedToken
  refresh : Option Issued
  scopes : List String

/-- `issue_tokens`, less the ID token and the record of what a code produced. -/
def issueTokens (B : Backend) (i : Issue) (draws : Draws) (now : Instant) (tokens : Table) :
    Except OAuthError (Table × Minted) := do
  let access ← issueAccess B i draws.jti now
  match refreshRequest B access.1 now with
  | none => .ok (tokens, ⟨access.2, none, access.1.scopes⟩)
  | some req => do
      let issued ← liftApp (RefreshTokens.issue B.hash tokens B.tenant.id req draws.familyId
        draws.refresh now)
      .ok (issued.1, ⟨access.2, some issued.2, access.1.scopes⟩)

/-! ## What an issue leads to -/

section Issued

variable {B : Backend} {i : Issue} {draws : Draws} {now : Instant}

lemma issueAccess_ok (h : issueAccess B i jti now = .ok r) :
    r.1 = { i with scopes := r.1.scopes } ∧
      Tokens.issueAccessToken B.service (accessRequest B r.1) jti now = .ok r.2 := by
  simp only [issueAccess, bind_eq_ok, liftApp_eq_ok] at h
  obtain ⟨_, _, token, htoken, h⟩ := h
  cases h
  exact ⟨rfl, htoken⟩

lemma issueAccess_scopes (h : issueAccess B i jti now = .ok r) : r.1.scopes ⊆ i.scopes := by
  simp only [issueAccess, bind_eq_ok, liftApp_eq_ok] at h
  obtain ⟨_, _, token, htoken, h⟩ := h
  cases h
  exact List.filter_subset_self _

/-- **The access token carries the `act` of its issue**, and stands for its claims. -/
lemma issueAccess_act (h : issueAccess B i jti now = .ok r) :
    r.2.claims.get "act" = i.act := by
  obtain ⟨hissue, htoken⟩ := issueAccess_ok h
  rw [(Tokens.issueAccessToken_ok htoken).1, Tokens.get_act_accessClaims, accessRequest, hissue]

lemma refreshRequest_eq_some {req : IssueRequest} (h : refreshRequest B i now = some req) :
    i.issueRefresh = true ∧ req.act = i.act ∧ req.audiences = i.audience.audiences := by
  rw [refreshRequest] at h
  split at h
  · next hrefresh =>
      cases h
      rw [Bool.and_eq_true] at hrefresh
      exact ⟨hrefresh.1, rfl, rfl⟩
  · cases h

/-- What `issue_tokens` leaves: an access token with the `act` of the issue, and of the table what was
there, with a row of that `act` and its audiences where a family is started. -/
lemma issueTokens_ok {tokens : Table} {r : Table × Minted}
    (h : issueTokens B i draws now tokens = .ok r) :
    (∃ access, issueAccess B i draws.jti now = .ok (access, r.2.access)) ∧
      ∀ row ∈ r.1, row ∈ tokens ∨
        (i.issueRefresh = true ∧ row.act = i.act ∧ row.audiences = i.audience.audiences) := by
  simp only [issueTokens, bind_eq_ok] at h
  obtain ⟨access, haccess, h⟩ := h
  cases hreq : refreshRequest B access.1 now with
  | none =>
      rw [hreq] at h
      cases h
      exact ⟨⟨access.1, haccess⟩, fun row hrow => .inl hrow⟩
  | some req =>
      simp only [hreq, bind_eq_ok, liftApp_eq_ok] at h
      obtain ⟨issued, hissued, h⟩ := h
      cases h
      refine ⟨⟨access.1, haccess⟩, fun row hrow => ?_⟩
      rw [RefreshTokens.issue] at hissued
      rw [RefreshTokens.insertIn_ok hissued, List.mem_append, List.mem_singleton] at hrow
      have hcarried := refreshRequest_eq_some hreq
      rw [(issueAccess_ok haccess).1] at hcarried
      refine hrow.imp_right ?_
      rintro rfl
      exact hcarried

/-! ## The audiences of a token -/

def audiencesOf (claims : Members) : List String :=
  match claims.get "aud" with
  | some (.string a) => [a]
  | some (.array l) => l.filterMap Value.asStr
  | _ => []

lemma audiencesOf_audienceJson
    (h : claims.get "aud" = some (Tokens.audienceJson l)) : audiencesOf claims = l := by
  have htexts : (l.map Value.string).filterMap Value.asStr = l := by
    simp [Value.asStr, List.filterMap_map, Function.comp_def]
  match l, h, htexts with
  | [], h, htexts => rw [audiencesOf, h]; exact htexts
  | [a], h, _ => rw [audiencesOf, h]; rfl
  | _ :: _ :: _, h, htexts => rw [audiencesOf, h]; exact htexts

lemma mem_destutter_ne {x : String} : x ∈ l.destutter (· ≠ ·) ↔ x ∈ l := by
  refine ⟨fun h => (List.destutter_sublist _ _).subset h, fun h => ?_⟩
  have hkept : ∀ (l : List String) (a : String), x ∈ a :: l → x ∈ l.destutter' (· ≠ ·) a := by
    intro l
    induction l with
    | nil => exact fun _ hx => hx
    | cons b l ih =>
        intro a hx
        by_cases hab : a = b
        · subst hab
          rw [List.destutter'_cons_neg _ (by simp)]
          exact ih a (by simpa using hx)
        · rw [List.destutter'_cons_pos _ hab]
          rcases List.mem_cons.mp hx with rfl | hx
          · exact List.mem_cons_self
          · exact List.mem_cons_of_mem _ (ih b hx)
  cases l with
  | nil => cases h
  | cons a l => exact hkept l a h

lemma resource_mem_audiencesOf (h : Tokens.Tells S req jti exp claims)
    (ha : a ∈ req.audiences) : a ∈ audiencesOf claims := by
  rw [audiencesOf_audienceJson h.aud, Tokens.audienceOf, mem_destutter_ne, if_neg]
  · exact List.mem_append_left _ ha
  · rw [List.isEmpty_iff, List.append_eq_nil_iff]
    rintro ⟨hnil, -⟩
    rw [hnil] at ha
    cases ha

lemma mem_audiencesOf (h : Tokens.Tells S req jti exp claims)
    (ha : a ∈ audiencesOf claims) : a ∈ req.audiences ∨
      (∃ m ∈ req.client.mappers, m.kind = .audience a) ∨ req.audiences = [] ∧ a = req.client.clientId := by
  rw [audiencesOf_audienceJson h.aud, Tokens.audienceOf] at ha
  have hmem := mem_destutter_ne.mp ha
  split_ifs at hmem with hnil
  · rw [List.isEmpty_iff, List.append_eq_nil_iff] at hnil
    rw [List.mem_singleton] at hmem
    exact .inr (.inr ⟨hnil.1, hmem⟩)
  · rw [List.mem_append] at hmem
    exact hmem.imp_right fun hextra => .inl (Tokens.audience_of_mem_applyMappers hextra)

end Issued

end Ridm.TokenEndpoint
