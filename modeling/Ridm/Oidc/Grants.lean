import Ridm.Ciba.Model
import Ridm.Oidc.TokenEndpoint

/-!
# The grants of the token endpoint

`authorization_code`, `device_code`, `backchannel`, `refresh_token` and `token_exchange` of
`api/src/oidc/token.rs`, each with its checks in the order of the source.  Every one of them ends in
an `Issue`; the lemmas at the end say where its `act` comes from.

`act` of a code, of an approval and of a refresh token is passed on.  A token exchange builds a new
one **out of the actor token**, with that of the subject token inside, and without an actor token
there is none.
-/

namespace Ridm.TokenEndpoint

open DeviceCodes (Acting Approval DeviceRecord)
open RefreshTokens (Issued RedeemRequest SenderProof Table)
open Tokens (IssuedToken)

/-! ## Authorization codes -/

/-- `auth_codes::CODE_TTL_SECS`. -/
def CODE_TTL_SECS : ℕ := 60

/-- `AuthCode`, less what only the ID token repeats. -/
structure AuthCode where
  tenantId : Uuid
  clientId : Uuid
  userId : Uuid
  sessionId : Uuid
  redirectUri : String
  scopes : List String
  audiences : List String
  codeChallenge : Option String
  authTime : Instant
  amr : List String
  acr : Option String
  orgId : Option Uuid
  acting : Option Acting
  issuedAt : Instant

/-- The parameters of a redemption. -/
structure CodeRequest where
  code : String
  redirectUri : Option String
  verifier : Option String

/-- The beginning of `authorization_code`. -/
def codeRequest (params : RawParams) : Except OAuthError CodeRequest := do
  let code ← one params "code"
  let code ← orError (invalidRequest "code is required") code
  let redirectUri ← one params "redirect_uri"
  let verifier ← one params "code_verifier"
  .ok ⟨code, redirectUri, verifier⟩

def checkVerifier (B : Backend) : Option String → Option String → Except OAuthError Unit
  | some challenge, some v =>
      require ⟨.invalidGrant, "code_verifier does not match"⟩ (B.verifyS256 v challenge)
  | some _, none => .error (invalidRequest "code_verifier is required")
  | none, some _ => .error (invalidRequest "code_verifier without a code_challenge")
  | none, none => .ok ()

/-- Resources named at `/authorize` bound the grant. -/
def checkResources (granted extra : List String) : Except OAuthError Unit :=
  match extra.find? fun r => !granted.isEmpty && !granted.contains r with
  | some r => .error ⟨.invalidTarget, "resource `" ++ r ++ "` was not part of the authorization request"⟩
  | none => .ok ()

/-- `authorization_code` from the record of the code on, up to `issue_tokens`. -/
def redeemCode (B : Backend) (client : Client) (params : RawParams) (proof : SenderProof)
    (req : CodeRequest) (record : AuthCode) (now : Instant) : Except OAuthError Issue := do
  require ⟨.invalidGrant, "code was issued to another client"⟩ (record.clientId == client.id)
  require ⟨.invalidGrant, "redirect_uri does not match"⟩ (req.redirectUri == some record.redirectUri)
  checkVerifier B record.codeChallenge req.verifier
  -- `num_seconds() as u64`: a code from the future has expired, too
  require ⟨.invalidGrant, "authorization code expired"⟩
    (decide (numSeconds (now - record.issuedAt) % 2 ^ 64 ≤ CODE_TTL_SECS))
  require ⟨.invalidGrant, "the session this code was issued in has ended"⟩
    (!B.sessions.isRevoked record.sessionId)
  let subject ← loadSubject B record.userId record.orgId
  let extra ← parseResources B params
  checkResources record.audiences extra
  let audience ← resolveAudience B client (if extra.isEmpty then record.audiences else extra)
    (subject.roles.map Tokens.Role.id)
  .ok
    { client := client
      subject := some subject
      scopes := record.scopes
      audience := audience
      sessionId := some record.sessionId
      authTime := some record.authTime
      amr := record.amr
      acr := record.acr
      orgId := record.orgId
      issueRefresh := true
      codeForHash := some (B.hash req.code)
      proof := proof
      act := record.acting.map Acting.act
      notAfter := record.acting.map Acting.until_ }

/-! ## Device codes -/

/-- `device_code` from an approved poll on, up to `issue_tokens`. -/
def redeemDevice (B : Backend) (client : Client) (params : RawParams) (proof : SenderProof)
    (record : DeviceRecord) (approval : Approval) : Except OAuthError Issue := do
  let subject ← loadSubject B approval.userId approval.orgId
  let extra ← parseResources B params
  let audience ← resolveAudience B client (if extra.isEmpty then record.audiences else extra)
    (subject.roles.map Tokens.Role.id)
  .ok
    { client := client
      subject := some subject
      scopes := approval.scopes
      audience := audience
      sessionId := some approval.sessionId
      authTime := some approval.authTime
      amr := approval.amr
      acr := approval.acr
      orgId := approval.orgId
      issueRefresh := true
      codeForHash := none
      proof := proof
      act := approval.acting.map Acting.act
      notAfter := approval.acting.map Acting.until_ }

/-! ## Backchannel requests -/

/-- `backchannel` from an approved poll on, up to `issue_tokens`.  It reads no `resource`. -/
def redeemBackchannel (B : Backend) (client : Client) (proof : SenderProof) (record : Ciba.CibaRecord)
    (approval : Ciba.Approval) : Except OAuthError Issue := do
  let subject ← loadSubject B approval.userId approval.orgId
  let audience ← resolveAudience B client record.audiences (subject.roles.map Tokens.Role.id)
  .ok
    { client := client
      subject := some subject
      scopes := record.scopes
      audience := audience
      sessionId := some approval.sessionId
      authTime := some approval.authTime
      amr := approval.amr
      acr := approval.acr
      orgId := approval.orgId
      issueRefresh := true
      codeForHash := none
      proof := proof
      act := none
      notAfter := none }

/-! ## Refresh tokens -/

/-- `refresh_token` up to the redemption: what it asks `redeem` for. -/
def refreshGrant (B : Backend) (client : Client) (params : RawParams) (proof : SenderProof) :
    Except OAuthError RedeemRequest := do
  let presented ← one params "refresh_token"
  let presented ← orError (invalidRequest "refresh_token is required") presented
  let extra ← parseResources B params
  let scope ← one params "scope"
  .ok
    { tenantId := B.tenant.id
      clientId := client.clientId
      presented := presented
      proof := proof
      resources := extra
      scopes := scope.map parseScopeParam
      rotate := !client.isFapi2 }

/-- `refresh_token` from the redeemed token on, up to `issue_tokens`. -/
def redeemRefresh (B : Backend) (client : Client) (proof : SenderProof) (req : RedeemRequest)
    (rotated : Issued) : Except OAuthError Issue := do
  let subject ← loadSubjectOf B rotated.record.userId rotated.record.orgId
  let audience ← resolveAudience B client
    (if req.resources.isEmpty then rotated.record.audiences else req.resources)
    (subject.elim [] fun s => s.roles.map Tokens.Role.id)
  .ok
    { client := client
      subject := subject
      scopes := req.scopes.getD rotated.record.scopes
      audience := audience
      sessionId := rotated.record.sessionId
      authTime := rotated.record.authTime
      amr := rotated.record.amr
      acr := rotated.record.acr
      orgId := rotated.record.orgId
      issueRefresh := false
      codeForHash := none
      proof := proof
      act := rotated.record.act
      notAfter := rotated.record.act.map fun _ => rotated.record.expiresAt }

/-! ## Token exchange -/

/-- `token_types::ACCESS_TOKEN`. -/
def ACCESS_TOKEN : String := "urn:ietf:params:oauth:token-type:access_token"

/-- `token_types::JWT`. -/
def JWT : String := "urn:ietf:params:oauth:token-type:jwt"

def isAccess (t : String) : Bool := t == ACCESS_TOKEN || t == JWT

def typedRight (token kind : String) : Bool := kind == ACCESS_TOKEN || !Tokens.looksLike token

/-- `value[name]`: `Null` where there is none. -/
def index (claims : Members) (name : String) : Value := (claims.get name).getD .null

/-- The form of the requested token, when one is asked for. -/
def checkRequestedType (client : Client) : Option String → Except OAuthError Unit
  | none => .ok ()
  | some requested => do
      require (invalidRequest "requested_token_type must be an access token or jwt type")
        (isAccess requested)
      require (invalidRequest ("this client receives opaque access tokens; request " ++ ACCESS_TOKEN))
        (!(requested == JWT && client.accessTokenFormat == .opaqueToken))

/-- The subject token may not be traded for a looser one. -/
def checkBinding (client : Client) (proof : SenderProof) (subject : Members) :
    Except OAuthError Unit := do
  let cnf := index subject "cnf"
  let jkt := (cnf.member "jkt").bind Value.asStr
  require ⟨.invalidGrant, "subject_token is bound to a key this request did not prove"⟩
    (jkt.all fun bound => proof.jkt == some bound)
  let x5t := (cnf.member "x5t#S256").bind Value.asStr
  require ⟨.invalidGrant, "subject_token is bound to a client certificate: exchange it over a " ++
      "connection with that certificate, as a client registered for certificate-bound tokens"⟩
    (x5t.all fun bound => proof.x5t == some bound && client.tlsClientCertificateBoundAccessTokens)

/-- The claims of a token this tenant verifies. -/
def verified (B : Backend) (name token : String) (now : Instant) : Except OAuthError Members :=
  mapErr ⟨.invalidGrant, name ++ " is invalid, expired or revoked"⟩
    (Tokens.verifyAccess B.verifier B.tenant {} now token B.denied)

/-- The scopes of an exchange: those of the subject token this client may hold, or fewer. -/
def exchangeScopes (client : Client) (subject : Members) (scope : Option String) :
    Except OAuthError (List String) :=
  let granted := parseScopeParam (((index subject "scope").asStr).getD "")
  match scope with
  | none => .ok (granted.filter client.allowedScopes.contains)
  | some raw =>
      let requested := parseScopeParam raw
      match requested.find? fun s => !granted.contains s,
          requested.find? fun s => !client.allowedScopes.contains s with
      | some extra, _ => .error ⟨.invalidScope, "scope `" ++ extra ++ "` is not held by the subject token"⟩
      | none, some bad => .error ⟨.invalidScope, "scope `" ++ bad ++ "` is not allowed for this client"⟩
      | none, none => .ok requested

def uuidClaim (claims : Members) (name : String) : Option Uuid :=
  (((index claims name).asStr).bind Uuid128.parseStr).map BitVec.toNat

/-- `tokens::subject_user_id`. -/
def subjectUserId (B : Backend) (claims : Members) : Option Uuid :=
  (uuidClaim claims "sub").or ((uuidClaim claims "sid").bind B.sessionUser)

/-- One `audience` parameter of an exchange. -/
def addAudience (wanted : List String) (raw : String) : Except OAuthError (List String) := do
  let a := trim raw
  require (invalidRequest "audience must not be empty") (a != "")
  .ok (if wanted.contains a then wanted else wanted ++ [a])

/-- The audiences of an exchange: each has to be allowed explicitly. -/
def exchangeAudiences (B : Backend) (client : Client) (params : RawParams) :
    Except OAuthError (List String) := do
  let resources ← parseResources B params
  let wanted ← (many params "audience").foldlM addAudience resources
  require ⟨.invalidTarget, "this client has no audiences it may exchange for"⟩
    (!client.allowedAudiences.isEmpty)
  match wanted.find? fun a => !client.allowedAudiences.contains a with
  | some a => .error ⟨.invalidTarget, "resource `" ++ a ++ "` is not allowed for this client"⟩
  | none => .ok wanted

/-- `act` of an exchanged token: the actor, and inside it that of the subject token. -/
def actOf (actor subject : Members) : Value :=
  .object (Members.insertSome [("sub", index actor "sub"), ("client_id", index actor "client_id")]
    "act" (subject.get "act"))

/-- `DateTime::from_timestamp`, in the years `chrono` knows. -/
def fromTimestamp (t : ℤ) : Option Instant :=
  if -8334601228800 ≤ t ∧ t ≤ 8210266876799 then some (seconds t) else none

/-- The subject token of an exchange, its form checked. -/
def subjectToken (client : Client) (params : RawParams) : Except OAuthError String := do
  let token ← one params "subject_token"
  let token ← orError (invalidRequest "subject_token is required") token
  let kind ← one params "subject_token_type"
  let kind ← orError (invalidRequest "subject_token_type is required") kind
  require (invalidRequest "subject_token_type must be an access token or jwt type") (isAccess kind)
  let requested ← one params "requested_token_type"
  checkRequestedType client requested
  require (invalidRequest ("subject_token is not a JWT; use " ++ ACCESS_TOKEN)) (typedRight token kind)
  .ok token

/-- The claims of the actor token, when there is one. -/
def actorClaims (B : Backend) (now : Instant) : Option String → Option String →
    Except OAuthError (Option Members)
  | none, none => .ok none
  | some token, some kind => do
      require (invalidRequest "actor_token_type must be an access token or jwt type") (isAccess kind)
      require (invalidRequest ("actor_token is not a JWT; use " ++ ACCESS_TOKEN)) (typedRight token kind)
      (verified B "actor_token" token now).map some
  | _, _ => .error (invalidRequest "actor_token and actor_token_type go together")

/-- `token_exchange` from the verified tokens on, up to `issue_tokens`. -/
def redeemExchange (B : Backend) (client : Client) (params : RawParams) (proof : SenderProof)
    (scope : Option String) (subject : Members) (actor : Option Members) (now : Instant) :
    Except OAuthError Issue := do
  let scopes ← exchangeScopes client subject scope
  let orgId := uuidClaim subject "org_id"
  let user ← loadSubjectOf B (subjectUserId B subject) orgId
  let wanted ← exchangeAudiences B client params
  let audience ← resolveAudience B client wanted (user.elim [] fun s => s.roles.map Tokens.Role.id)
  .ok
    { client := client
      subject := user
      scopes := scopes
      audience := audience
      sessionId := uuidClaim subject "sid"
      authTime := none
      amr := ((index subject "amr").asArray.getD []).filterMap Value.asStr
      acr := (index subject "acr").asStr
      orgId := orgId
      issueRefresh := false
      codeForHash := none
      proof := proof
      act := actor.map fun a => actOf a subject
      notAfter := some ((((index subject "exp").asI64).bind fromTimestamp).getD now) }

/-- `token_exchange` up to `issue_tokens`. -/
def tokenExchange (B : Backend) (client : Client) (params : RawParams) (proof : SenderProof)
    (now : Instant) : Except OAuthError Issue := do
  let token ← subjectToken client params
  let subject ← verified B "subject_token" token now
  checkBinding client proof subject
  let actorToken ← one params "actor_token"
  let actorType ← one params "actor_token_type"
  let actor ← actorClaims B now actorToken actorType
  let scope ← one params "scope"
  redeemExchange B client params proof scope subject actor now

/-! ## Where `act` comes from -/

section Act

variable {B : Backend} {client : Client} {params : RawParams} {proof : SenderProof} {i : Issue}
  {now : Instant}

lemma redeemCode_act {req : CodeRequest} {record : AuthCode}
    (h : redeemCode B client params proof req record now = .ok i) :
    i.act = record.acting.map Acting.act := by
  simp only [redeemCode, bind_eq_ok] at h
  obtain ⟨_, _, _, _, _, _, _, _, _, _, _, _, _, _, _, _, _, _, h⟩ := h
  cases h
  rfl

lemma redeemDevice_act {record : DeviceRecord} {approval : Approval}
    (h : redeemDevice B client params proof record approval = .ok i) :
    i.act = approval.acting.map Acting.act := by
  simp only [redeemDevice, bind_eq_ok] at h
  obtain ⟨_, _, _, _, _, _, h⟩ := h
  cases h
  rfl

lemma redeemRefresh_act {req : RedeemRequest} {rotated : Issued}
    (h : redeemRefresh B client proof req rotated = .ok i) :
    i.issueRefresh = false ∧ i.act = rotated.record.act := by
  simp only [redeemRefresh, bind_eq_ok] at h
  obtain ⟨_, _, _, _, h⟩ := h
  cases h
  exact ⟨rfl, rfl⟩

lemma redeemExchange_act {scope : Option String} {subject : Members} {actor : Option Members}
    (h : redeemExchange B client params proof scope subject actor now = .ok i) :
    i.issueRefresh = false ∧ i.act = actor.map fun a => actOf a subject := by
  simp only [redeemExchange, bind_eq_ok] at h
  obtain ⟨_, _, _, _, _, _, _, _, h⟩ := h
  cases h
  exact ⟨rfl, rfl⟩

lemma actorClaims_isSome {token kind : Option String} {actor : Option Members}
    (h : actorClaims B now token kind = .ok actor) : actor.isSome = token.isSome := by
  cases token with
  | none =>
      cases kind with
      | none =>
          cases h
          rfl
      | some kind => cases h
  | some token =>
      cases kind with
      | none => cases h
      | some kind =>
          simp only [actorClaims, bind_eq_ok] at h
          obtain ⟨_, _, _, _, h⟩ := h
          cases hverified : verified B "actor_token" token now with
          | error e =>
              rw [hverified] at h
              cases h
          | ok claims =>
              rw [hverified] at h
              cases h
              rfl

/-- **Where the `act` of an exchange comes from.**  It is built out of the actor token and the verified
subject token, and there is one exactly when there is an actor token. -/
lemma tokenExchange_act (h : tokenExchange B client params proof now = .ok i) :
    ∃ (token : String) (subject : Members) (actor : Option Members),
      subjectToken client params = .ok token ∧
      Tokens.verifyAccess B.verifier B.tenant {} now token B.denied = .ok subject ∧
      i.issueRefresh = false ∧ (i.act = actor.map fun a => actOf a subject) ∧
      (actor.isSome = true ↔ ∃ t, one params "actor_token" = .ok (some t)) := by
  simp only [tokenExchange, bind_eq_ok] at h
  obtain ⟨token, htoken, subject, hsubject, _, _, actorToken, hactor, kind, _, actor, hclaims, _, _,
    h⟩ := h
  obtain ⟨hrefresh, hact⟩ := redeemExchange_act h
  refine ⟨token, subject, actor, htoken, mapErr_eq_ok.mp hsubject, hrefresh, hact, ?_⟩
  rw [actorClaims_isSome hclaims, hactor, Option.isSome_iff_exists]
  simp only [Except.ok.injEq]

end Act

/-! ## Requests -/

/-- A request at the token endpoint, with what it reads and draws. -/
structure Request where
  backend : Backend
  client : Client
  params : RawParams
  proof : SenderProof
  draws : Draws
  now : Instant

/-- What a refresh is answered with: the token that stays or follows, and the access token. -/
structure Refreshed where
  rotated : Issued
  issue : Issue
  access : IssuedToken

/-- `refresh_token` from the redeemed token on. -/
def refreshIssue (r : Request) (req : RedeemRequest) (rotated : Issued) :
    Except OAuthError Refreshed := do
  let i ← redeemRefresh r.backend r.client r.proof req rotated
  let issued ← issueAccess r.backend i r.draws.jti r.now
  .ok ⟨rotated, issued.1, issued.2⟩

/-- `refresh_token`, with the table it leaves.  What `redeem` has committed stays, however the request
ends. -/
def refreshToken (r : Request) (tokens : Table) : Table × Except OAuthError Refreshed :=
  match refreshGrant r.backend r.client r.params r.proof with
  | .error e => (tokens, .error e)
  | .ok req =>
      let redeemed := RefreshTokens.redeem r.backend.hash tokens req r.backend.sessions r.draws.refresh
        r.now
      (redeemed.1, redeemed.2.bind (refreshIssue r req))

/-- What a token stands for is what it was issued with: the payload of a JWT, the stored claims of any
other. -/
structure Faithful (claimsOf : String → Members) (r : Request) : Prop where
  issued : ∀ {format alg claims exp token},
    r.backend.service.mint format alg claims exp = .ok token → claimsOf token = claims
  verified : ∀ {token claims}, Tokens.checkAccess r.backend.verifier r.backend.tenant {} r.now token =
    .ok claims → claimsOf token = claims

/-! ## A plain tenant -/

def plainBackend (mint : Members → Except AppError String) (payload : String → Members) : Backend where
  tenant := ⟨3, "https://id.example/t/acme"⟩
  settings := ⟨300, 3600, .es256⟩
  service :=
    { formats := ⟨fun _ _ => none, fun _ => none⟩
      schema := []
      enabledFeatures := fun _ => []
      pairwiseSubject := fun sector _ => sector
      mint := fun _ _ claims _ => mint claims }
  hash _ := []
  mappers _ := []
  scopes := []
  user id := if id = 7 then some { id := 7, username := "ada", createdAt := 0, updatedAt := 0 } else none
  effectiveRoles _ _ := []
  groupsOfUser _ := []
  resourceServer name := some ⟨5, name, none, none, true, false⟩
  permissionsForRoles _ _ := []
  sessions := ⟨fun _ => false, fun _ => true⟩
  sessionUser _ := none
  verifyS256 _ _ := true
  isResource _ := true
  verifier :=
    { library := { Tokens.sampleLibrary with payload := fun token => .ok (payload token) }
      published := Tokens.sampleKeys
      lookup := fun _ _ => none }
  denied := Marks.empty

lemma faithful_plainBackend {claimsOf : String → Members} {next : String} {r : Request}
    (hbackend : r.backend = plainBackend (fun claims => if claimsOf next = claims then .ok next
      else .error (.internal "another token")) claimsOf) : Faithful claimsOf r where
  issued {format alg claims exp token} h := by
    simp only [hbackend, plainBackend] at h
    split at h
    · next hclaims =>
        cases h
        exact hclaims
    · cases h
  verified {token claims} h := by
    rw [hbackend, Tokens.checkAccess] at h
    split at h
    · exact Except.ok.inj (Tokens.checkToken_payload h)
    · obtain ⟨found, hfound, -⟩ := bind_eq_ok.mp h
      cases orError_eq_ok.mp hfound

lemma keyed_plainBackend (mint : Members → Except AppError String) (payload : String → Members) :
    (plainBackend mint payload).Keyed where
  user {id user} h := by
    simp only [plainBackend] at h
    split at h
    · next hid =>
        cases h
        exact hid.symm
    · cases h
  resourceServer h := by
    cases h
    rfl

end Ridm.TokenEndpoint
