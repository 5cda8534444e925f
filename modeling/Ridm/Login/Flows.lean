import Mathlib.Data.List.Destutter
import Ridm.Lib.Interleaving
import Ridm.Login.Model

/-!
# Login flows

The steps of `services/flows.rs`, `decide` of `oidc/authorize.rs`, the device page of
`routes/device.rs` and the end of a flow in `routes/flows.rs`, as one browser takes them: it has one
session cookie and one device cookie, and as many flows as it likes.  A flow is abandoned by not being
continued.  Every request is one step; what is checked of a credential is its outcome.

Requests that CAPTCHA, a lockout or a throttle refuses are no steps.  Sessions and flows end at any time.
Clients are there, joining an organization by one's address is left out, and consent is never revoked.
-/

namespace Ridm.Login

/-- A trusted device, as the browser's cookie names it. -/
structure TrustedDevice where
  userId : Uuid
  expiresAt : Instant

/-- The tenant's state and the browser's. -/
structure Store where
  now : Instant
  users : Uuid → Option User
  attempts : List Attempt
  consents : Uuid → Uuid → List String
  sessions : Uuid → Option SsoSession
  flows : Uuid → Option LoginFlow
  nextSession : Uuid
  nextFlow : Uuid
  cookie : Option Uuid
  device : Option TrustedDevice

namespace Store

variable (g : Store)

/-- `users::get`. -/
def getUser (id : Uuid) : Except AppError User := orError (.notFound "user") (g.users id)

/-- A user's row changes. -/
def mapUser (id : Uuid) (f : User → User) : Store :=
  { g with users := fun i => if i = id then (g.users i).map f else g.users i }

/-- A session changes. -/
def mapSession (id : Uuid) (f : SsoSession → SsoSession) : Store :=
  { g with sessions := fun i => if i = id then (g.sessions i).map f else g.sessions i }

/-- `login_flows::get`. -/
def getFlow (id : Uuid) : Except AppError LoginFlow :=
  orError (.notFound "flow") ((g.flows id).filter fun f => g.now < f.expiresAt)

/-- `login_flows::save`: not in the last second of the flow. -/
def saveFlow (id : Uuid) (f : LoginFlow) : Store :=
  if 0 < numSeconds (f.expiresAt - g.now) then { g with flows := Function.update g.flows id (some f) }
  else g

/-- `login_flows::delete`. -/
def deleteFlow (id : Uuid) : Store := { g with flows := Function.update g.flows id none }

/-- `login_flows::create`. -/
def createFlow (f : LoginFlow) : Store :=
  { g with
    flows := Function.update g.flows g.nextFlow (some { f with expiresAt := g.now + seconds FLOW_TTL_SECS })
    nextFlow := g.nextFlow + 1 }

/-- `sessions::from_request`, with the session's id. -/
def fromRequest : Option (Uuid × SsoSession) := g.cookie.bind fun id => (g.sessions id).map (id, ·)

/-- `is_trusted`: the device cookie stands for a live device of the user. -/
def isTrusted (userId : Uuid) : Bool := g.device.any fun d => d.userId == userId && g.now < d.expiresAt

/-- `login_attempts::record`. -/
def recordAttempt (ip : Option String) (success : Bool) : Store :=
  { g with attempts := g.attempts ++ [⟨ip, success, g.now⟩] }

def missingScopes (userId clientId : Uuid) (requested : List String) : List String :=
  requested.filter fun s => s ∉ g.consents userId clientId

/-- `consents::grant`. -/
def grant (userId clientId : Uuid) (scopes : List String) : Store :=
  let granted := (g.consents userId clientId ++ scopes).dedup
  { g with consents := fun u c => if u = userId ∧ c = clientId then granted else g.consents u c }

end Store

/-! ## The stage of a flow -/

def selectableOrganizations (u : User) : List Organization := u.organizations.filter Organization.active

/-- What `organization_pending` comes to. -/
inductive OrganizationChoice
  | settled
  | adopt (org : Uuid)
  | bind (org : Uuid)
  | ask

/-- `organization_pending`, up to what it records. -/
def organizationChoice (g : Store) (flow : LoginFlow) (u : User) : OrganizationChoice :=
  if flow.orgId.isSome then .settled
  else
    match (flow.sessionId.bind g.sessions).bind SsoSession.orgId with
    | some org => .adopt org
    | none =>
        match selectableOrganizations u with
        | [] => .settled
        | [only] => .bind only.id
        | orgs =>
            match flow.request.organization.bind fun wanted =>
                orgs.find? fun o => o.slug == trim wanted || toString o.id == trim wanted with
            | some org => .bind org.id
            | none => .ask

def bindOrganization (g : Store) (flow : LoginFlow) (org : Uuid) : Store × LoginFlow :=
  (match flow.sessionId with
    | some id => g.mapSession id fun s => { s with orgId := some org }
    | none => g,
    { flow with orgId := some org })

/-- The scopes `advance` asks consent for. -/
def consentPending (g : Store) (flow : LoginFlow) (userId : Uuid) : List String :=
  let force := "consent" ∈ flow.request.prompt
  if flow.request.skipConsent ∧ ¬ force then []
  else if force ∧ flow.pendingScopes.isEmpty ∧ flow.stage ≠ .consent then flow.request.scopes
  else g.missingScopes userId flow.request.clientId flow.request.scopes

/-- The end of `advance`: what is left is consent. -/
def advanceConsent (g : Store) (flow : LoginFlow) (userId : Uuid) : LoginFlow :=
  if consentPending g flow userId ≠ [] ∧ flow.stage ≠ .done then
    { flow with pendingScopes := consentPending g flow userId, stage := .consent }
  else { flow with pendingScopes := [], stage := .done }

def advance (T : Tenant) (g : Store) (flow : LoginFlow) (mustChangePassword : Bool) :
    Except AppError (Store × LoginFlow) :=
  match flow.userId, flow.sessionId with
  | some userId, some _ => do
      let user ← g.getUser userId
      if mustChangePassword then .ok (g, { flow with stage := .passwordChange })
      else if mfaRequired T flow user then .ok (g, { flow with stage := .mfa })
      else if !(missingRequired T user).isEmpty then .ok (g, { flow with stage := .profile })
      else if owesTerms T user then .ok (g, { flow with stage := .terms })
      else
        match organizationChoice g flow user with
        | .ask => .ok (g, { flow with stage := .organization })
        | .settled => .ok (g, advanceConsent g flow userId)
        | .adopt org => .ok (g, advanceConsent g { flow with orgId := some org } userId)
        | .bind org =>
            let r := bindOrganization g flow org
            .ok (r.1, advanceConsent r.1 r.2 userId)
  | _, _ => .ok (g, { flow with stage := .authenticate })

/-! ## First factors -/

/-- How a user is authenticated.  A password of a directory user is checked by the directory. -/
inductive FirstFactor
  | password (directory : Bool)
  | passkey (userVerified : Bool)
  | emailCode
  | magicLink
  | smsCode
  | registered
  | verified
  | broker
  | kerberos
  deriving DecidableEq

namespace FirstFactor

/-- The methods it asserts. -/
def amr : FirstFactor → List String
  | password _ | registered => ["pwd"]
  | passkey false => ["hwk"]
  | passkey true => ["hwk", "user", "mfa"]
  | emailCode | magicLink | verified => ["otp"]
  | smsCode => ["otp", "sms"]
  | broker => ["fed"]
  | kerberos => ["kerberos"]

/-- Whether the password is to be changed first, as each of them asks it. -/
def mustChange (T : Tenant) (u : User) (now : Instant) : FirstFactor → Bool
  | password false => u.mustChangePassword || expired T u now
  | password true => u.mustChangePassword
  | passkey _ | emailCode | magicLink | smsCode => u.mustChangePassword && T.password
  | registered | verified | broker | kerberos => false

/-- What the route it comes in by tells of the request: that of a verification link no more than the
address and the user agent, and a registration reads no cookies. -/
def context (factor : FirstFactor) (o : Origin) (rememberDevice : Bool) : RequestContext where
  ip := o.ip
  location := if factor = .verified then none else o.location
  userAgent := o.userAgent
  cookies := factor != .verified && factor != .registered
  rememberDevice := match factor with
    | verified | registered | broker | kerberos => false
    | _ => rememberDevice

/-- Whether a flow at this stage takes it. -/
def takenAt (flow : LoginFlow) (userId : Uuid) : FirstFactor → Bool
  | registered | broker => flow.stage = .authenticate || flow.stage = .register
  | verified => flow.stage = .verifyEmail && flow.userId = some userId
  | _ => flow.stage = .authenticate

/-- Whether it is one of the tenant's. -/
def enabled (T : Tenant) : FirstFactor → Bool
  | password _ => T.password
  | passkey _ => T.passkey
  | _ => true

/-- Whether the user may sign in with it. -/
def admits (u : User) : FirstFactor → Bool
  | password _ => u.status != .disabled && u.status != .locked
  | _ => u.status = .active || u.status = .pending

end FirstFactor

/-- The risk of a sign-in as it was assessed. -/
structure Assessment where
  trusted : Bool
  newBrowser : Bool
  risk : RiskAssessment

/-- The risk of a sign-in, in its context. -/
def assess (T : Tenant) (g : Store) (userId : Uuid) (u : User) (ctx : RequestContext) : Assessment :=
  let trusted := ctx.cookies && g.isTrusted userId
  let newBrowser := !trusted && isNewBrowser u ctx.userAgent
  ⟨trusted, newBrowser, evaluate T u g.attempts g.now ctx.ip ctx.location newBrowser⟩

def SsoSession.refreshAuth (s : SsoSession) (now : Instant) (amr : List String) (acr : String) :
    SsoSession :=
  { s with
    authTime := now
    amr := amr
    acr := some acr
    passed := s.passed || amr.contains "mfa"
    writes := s.writes + 1 }

/-- `sessions::create`, of a sign-in that the risk policy let pass. -/
def Store.createSession (g : Store) (userId : Uuid) (amr : List String) (acr : String)
    (opening : RiskAction) : Store :=
  { g with
    sessions := Function.update g.sessions g.nextSession (some
      { userId, authTime := g.now, amr, acr := some acr, opening, passed := amr.contains "mfa" })
    nextSession := g.nextSession + 1 }

/-- The browser's session of this user is authenticated again, or a new one is opened: its id, and how
often its `amr` has been written. -/
def Store.openFor (g : Store) (userId : Uuid) (amr : List String) (acr : String) (opening : RiskAction)
    (ctx : RequestContext) : Store × Uuid × ℕ :=
  match g.fromRequest.filter fun s => ctx.cookies && s.2.userId == userId with
  | some (id, s) => (g.mapSession id fun s => s.refreshAuth g.now amr acr, id, s.writes + 1)
  | none =>
      ((g.createSession userId amr acr opening).mapUser userId fun u =>
        { u with userAgents := u.userAgents ++ [ctx.userAgent] }, g.nextSession, 0)

def openSession (T : Tenant) (g : Store) (flow : LoginFlow) (userId : Uuid) (amr : List String)
    (ctx : RequestContext) (a : Assessment) : Store × LoginFlow :=
  let acr := if "mfa" ∈ amr then requestedMfaAcr flow.request else ACR_SINGLE
  let r := g.openFor userId amr acr a.risk.action ctx
  (r.1.mapUser userId fun u => recordLocation T u g.now ctx.location,
    { flow with
      userId := some userId
      sessionId := some r.2.1
      amr := amr
      trustedDevice := a.trusted
      riskStepUp := a.risk.action = .stepUp
      rememberDevice := ctx.rememberDevice && !a.trusted
      copied := some r.2.2 })

/-- `complete_authentication` and the end of `password_step`: a sign-in the risk policy refuses leaves no
session and no flow; any other gets the browser its cookie. -/
def completeAuthentication (T : Tenant) (g : Store) (id : Uuid) (flow : LoginFlow) (userId : Uuid)
    (u : User) (factor : FirstFactor) (ctx : RequestContext) : Except AppError Store :=
  let a := assess T g userId u ctx
  if a.risk.action = .block then .ok ((g.recordAttempt ctx.ip false).deleteFlow id)
  else do
    let mustChange := factor.mustChange T u g.now
    let r := openSession T (g.recordAttempt ctx.ip true) flow userId factor.amr ctx a
    let (g, flow) ← advance T r.1 r.2 mustChange
    .ok { g.saveFlow id flow with cookie := flow.sessionId }

def badRequest {α : Type} (detail : String) : Except AppError α := .error (.badRequest detail)

/-- A first factor has been checked: the steps that `complete_authentication` ends. -/
def authenticate (T : Tenant) (g : Store) (id : Uuid) (flow : LoginFlow) (factor : FirstFactor)
    (userId : Uuid) (o : Origin) (rememberDevice : Bool) : Except AppError Store :=
  if factor.takenAt flow userId = false then badRequest "flow is not at the authenticate step"
  else if factor.enabled T = false then badRequest "this sign-in is disabled for this tenant"
  else do
    let u ← g.getUser userId
    if factor.admits u then
      completeAuthentication T g id flow userId u factor (factor.context o rememberDevice)
    else .error (.forbidden "account is not active")

/-- `register_step`, which has made the account `u`. -/
def registerStep (T : Tenant) (g : Store) (id : Uuid) (flow : LoginFlow) (userId : Uuid) (u : User)
    (pending : Bool) (o : Origin) : Except AppError Store :=
  if flow.stage ≠ .authenticate ∧ flow.stage ≠ .register then
    badRequest "flow does not accept registration at this step"
  else if (g.users userId).isSome then
    .error (.conflict "an account with this email or username already exists")
  else
    let g := { g with users := Function.update g.users userId (some u) }
    if pending then .ok (g.saveFlow id { flow with userId := some userId, stage := .verifyEmail })
    else
      completeAuthentication T g id flow userId u .registered
        (FirstFactor.registered.context o false)

/-! ## The other steps of a flow -/

def LoginFlow.user (flow : LoginFlow) : Except AppError Uuid := orError .unauthorized flow.userId

/-- A step ends: the stage is computed again, and the flow saved. -/
def proceed (T : Tenant) (g : Store) (id : Uuid) (flow : LoginFlow) : Except AppError Store := do
  let (g, flow) ← advance T g flow false
  .ok (g.saveFlow id flow)

/-- What `set_password` does to the row. -/
def setPassword (T : Tenant) (now : Instant) (u : User) : User :=
  { u with
    mustChangePassword := false
    passwordExpiresAt := T.maxAgeDays.map fun days => now + seconds (days * 86400)
    passwordChangedAt := some now }

/-- `password_change_step`, with a password that is accepted. -/
def passwordChangeStep (T : Tenant) (g : Store) (id : Uuid) (flow : LoginFlow) : Except AppError Store := do
  if flow.stage ≠ .passwordChange then badRequest "flow is not at the password change step"
  else
    let userId ← flow.user
    proceed T (g.mapUser userId (setPassword T g.now)) id flow

def profileStep (T : Tenant) (g : Store) (id : Uuid) (flow : LoginFlow) (attributes : Value) :
    Except AppError Store := do
  if flow.stage ≠ .profile then badRequest "flow is not at the profile step"
  else
    let userId ← flow.user
    let u ← g.getUser userId
    let attributes ← Users.validateAttributes T.platform T.schema attributes .user (some u.attributes)
    proceed T (g.mapUser userId fun u => { u with attributes := attributes }) id flow

def termsStep (T : Tenant) (g : Store) (id : Uuid) (flow : LoginFlow) (accepted : Bool) :
    Except AppError Store := do
  if flow.stage ≠ .terms then badRequest "flow is not at the terms step"
  else if accepted = false then .error (.forbidden "terms must be accepted to continue")
  else
    let userId ← flow.user
    proceed T (g.mapUser userId fun u => { u with termsAcceptedAt := some g.now }) id flow

def organizationStep (T : Tenant) (g : Store) (id : Uuid) (flow : LoginFlow) (org : Uuid) :
    Except AppError Store := do
  if flow.stage ≠ .organization then badRequest "flow is not at the organization step"
  else
    let userId ← flow.user
    let organizations := (g.users userId).elim [] selectableOrganizations
    if organizations.any fun o => o.id == org then
      let r := bindOrganization g flow org
      proceed T r.1 id r.2
    else badRequest "not a member of that organization"

/-- `consent_step`: what is granted, of all that was asked for.  A denial goes back to the client and
leaves the flow as it is. -/
def consentStep (T : Tenant) (g : Store) (id : Uuid) (flow : LoginFlow) (approve : Bool)
    (granted : Option (List String)) : Except AppError Store := do
  if flow.stage ≠ .consent then badRequest "flow is not at the consent step"
  else
    let userId ← flow.user
    if approve = false then .ok g
    else if (flow.sessionId.bind g.sessions).any SsoSession.impersonated then
      .error .impersonationForbidden
    else
      let granted := granted.getD flow.pendingScopes
      let effective := (flow.request.scopes.filter fun s =>
        s = "openid" || s ∈ granted || s ∉ flow.pendingScopes).destutter (· ≠ ·)
      proceed T (g.grant userId flow.request.clientId effective) id
        { flow with
          request := { flow.request with scopes := effective }
          pendingScopes := []
          stage := .done }

/-! ## Second factors -/

/-- A second factor, as it is verified or enrolled. -/
inductive SecondFactor
  | totp
  | recoveryCode
  | emailCode
  | smsCode
  | passkey (userVerified : Bool)

/-- The methods it asserts, besides `mfa`. -/
def SecondFactor.methods : SecondFactor → List String
  | .totp | .emailCode => ["otp"]
  | .recoveryCode => []
  | .smsCode => ["otp", "sms"]
  | .passkey false => ["hwk"]
  | .passkey true => ["hwk", "user"]

/-- The `amr` with the methods of a second factor. -/
def addMethods (amr methods : List String) : List String :=
  (methods ++ ["mfa"]).foldl (fun amr m => if m ∈ amr then amr else amr ++ [m]) amr

def mfaUser (g : Store) (flow : LoginFlow) : Except AppError (Uuid × User) := do
  if flow.stage ≠ .mfa then badRequest "flow is not at the second-factor step"
  else
    let userId ← flow.user
    let u ← g.getUser userId
    if u.status = .active ∨ u.status = .pending then .ok (userId, u)
    else .error (.forbidden "account is not active")

def passSecondFactor (T : Tenant) (g : Store) (id : Uuid) (flow : LoginFlow) (userId : Uuid)
    (methods : List String) (rememberDevice : Bool) : Except AppError Store := do
  let sessionId ← orError .unauthorized flow.sessionId
  let session ← orError .unauthorized ((g.sessions sessionId).filter fun s => s.userId == userId)
  let amr := addMethods flow.amr methods
  let acr := requestedMfaAcr flow.request
  proceed T (g.mapSession sessionId fun s => s.refreshAuth g.now amr acr) id
    { flow with
      amr := amr
      rememberDevice := (flow.rememberDevice || rememberDevice) && !flow.trustedDevice
      attempts := 0
      copied := some (session.writes + 1) }

/-- The steps that pass a second factor, which may be one that has just been enrolled. -/
def secondFactorStep (T : Tenant) (g : Store) (id : Uuid) (flow : LoginFlow) (factor : SecondFactor)
    (enrols rememberDevice : Bool) : Except AppError Store := do
  let (userId, _) ← mfaUser g flow
  let g := if enrols then
    g.mapUser userId fun u => { u with secondFactors := u.secondFactors + 1 } else g
  passSecondFactor T g id flow userId factor.methods rememberDevice

def mfaReject (g : Store) (id : Uuid) (flow : LoginFlow) : Except AppError Store := do
  let _ ← mfaUser g flow
  if MFA_MAX_ATTEMPTS ≤ flow.attempts + 1 then .ok (g.deleteFlow id)
  else .ok (g.saveFlow id { flow with attempts := flow.attempts + 1 })

/-- A first factor that is refused; what counts as an attempt is a password. -/
def reject (g : Store) (id : Uuid) (flow : LoginFlow) (o : Origin) (password : Bool) :
    Except AppError Store :=
  if flow.stage ≠ .authenticate then badRequest "flow is not at the authenticate step"
  else
    let g := if password then g.recordAttempt o.ip false else g
    .ok (g.saveFlow id { flow with attempts := flow.attempts + 1 })

/-! ## Sessions that are there already -/

/-- What a flow still owes. -/
inductive Owed
  | nothing
  | step (stage : FlowStage)
  | blocked
  deriving DecidableEq

def unfinishedStage (T : Tenant) (g : Store) (session : SsoSession) (o : Origin) : Owed :=
  match g.users session.userId with
  | none => .step .authenticate
  | some u =>
      if u.status ≠ .active ∧ u.status ≠ .pending then .step .authenticate
      else if session.impersonated then .nothing
      else if u.mustChangePassword && T.password then .step .passwordChange
      else
        let risk := evaluate T u g.attempts g.now o.ip o.location false
        if risk.action = .block then .blocked
        else if risk.action = .stepUp ∧ "mfa" ∉ session.amr then .step .mfa
        else if "mfa" ∈ session.amr ∨ policyRequiresMfa T u = false then .nothing
        else if g.isTrusted session.userId then .nothing
        else .step .mfa

/-- An authentication that is recent enough for `max_age`. -/
def freshEnough (now : Instant) (req : AuthRequest) (s : SsoSession) : Bool :=
  match req.maxAge with
  | some 0 => false
  | some max => (numSeconds (now - s.authTime)).toNat ≤ max
  | none => true

/-- The class the request demands is the session's. -/
def acrOk (req : AuthRequest) (s : SsoSession) : Bool :=
  (requestedMfaClass req.acrValues).isNone || s.acr.any fun acr => req.acrValues.contains acr

/-- What `decide` decides. -/
inductive Decision
  | accessDenied
  | loginRequired
  | consentRequired
  | login (stage : FlowStage)
  | resume (stage : FlowStage) (sessionId : Uuid) (session : SsoSession)
  | consent (pending : List String) (sessionId : Uuid) (session : SsoSession)
  | code (sessionId : Uuid) (session : SsoSession)

/-- The scopes `decide` asks consent for. -/
def pendingScopes (g : Store) (req : AuthRequest) (userId : Uuid) : List String :=
  let force := "consent" ∈ req.prompt
  if req.skipConsent ∧ ¬ force then []
  else if force then req.scopes
  else g.missingScopes userId req.clientId req.scopes

/-- What is left when a session need not be authenticated again. -/
def decideConsent (g : Store) (req : AuthRequest) (id : Uuid) (s : SsoSession) : Decision :=
  let pending := pendingScopes g req s.userId
  if pending = [] then .code id s
  else if "none" ∈ req.prompt then .consentRequired
  else if s.impersonated then .accessDenied
  else .consent pending id s

def decide (T : Tenant) (g : Store) (req : AuthRequest) (o : Origin) : Decision :=
  let create := "create" ∈ req.prompt
  let login := if "none" ∈ req.prompt then .loginRequired
    else Decision.login (if create then .register else .authenticate)
  match g.fromRequest with
  | none => login
  | some (id, s) =>
      if create ∨ "login" ∈ req.prompt ∨ "select_account" ∈ req.prompt ∨ freshEnough g.now req s = false
      then login
      else
        match unfinishedStage T g s o with
        | .blocked => .accessDenied
        | .step .authenticate => login
        | .step stage => if "none" ∈ req.prompt then .loginRequired else .resume stage id s
        | .nothing =>
            if acrOk req s then decideConsent g req id s
            else if "none" ∈ req.prompt then .loginRequired
            else .resume .mfa id s

/-- An authorization code, as far as it comes from the session. -/
structure AuthCode where
  clientId : Uuid
  userId : Uuid
  sessionId : Uuid
  scopes : List String
  authTime : Instant
  amr : List String
  acr : Option String
  orgId : Option Uuid
  deriving DecidableEq

/-- What the browser is answered. -/
inductive Answer
  | code (c : AuthCode)
  | samlResponse
  | approved
  | page (flow : Uuid)
  | error (d : Decision)

def issueCode (req : AuthRequest) (id : Uuid) (s : SsoSession) : Answer :=
  if req.saml then .samlResponse
  else .code ⟨req.clientId, s.userId, id, req.scopes, s.authTime, s.amr, s.acr, s.orgId⟩

/-- The flow `decide` starts. -/
def Decision.flow (req : AuthRequest) : Decision → Option LoginFlow
  | .login stage => some { request := req, stage := stage, expiresAt := 0 }
  | .resume stage id s => some
      { request := req, stage := stage, sessionId := some id, userId := some s.userId, amr := s.amr
        orgId := s.orgId, riskStepUp := stage = .mfa, expiresAt := 0, copied := some s.writes }
  | .consent pending id s => some
      { request := req, stage := .consent, sessionId := some id, userId := some s.userId
        pendingScopes := pending, orgId := s.orgId, expiresAt := 0 }
  | .accessDenied | .loginRequired | .consentRequired | .code _ _ => none

/-- `GET /authorize`, of a validated request. -/
def authorize (T : Tenant) (g : Store) (req : AuthRequest) (o : Origin) : Store × Answer :=
  let d := decide T g req o
  match d.flow req, d with
  | some flow, _ => (g.createFlow flow, .page g.nextFlow)
  | none, .code id s => (g, issueCode req id s)
  | none, d => (g, .error d)

/-- The flow the device page starts: a browser that is signed in goes on with its session. -/
def deviceFlow (T : Tenant) (g : Store) (req : AuthRequest) (o : Origin) :
    Except AppError (Store × LoginFlow) :=
  let fresh : LoginFlow := { request := req, stage := .authenticate, expiresAt := 0 }
  match g.fromRequest with
  | none => .ok (g, fresh)
  | some (id, s) =>
      let owed := unfinishedStage T g s o
      if owed = .blocked then .error (.forbidden "the sign-in was refused")
      else if owed = .step .authenticate then .ok (g, fresh)
      else advance T g
        { fresh with
          sessionId := some id
          userId := some s.userId
          amr := s.amr
          riskStepUp := owed = .step .mfa
          copied := some s.writes } (owed = .step .passwordChange)

def deviceRequest (clientId : Uuid) (scopes : List String) (skipConsent : Bool) (deviceCode : String) :
    AuthRequest :=
  { clientId, scopes, skipConsent, deviceCode := some deviceCode }

/-- `verify` of the device page, of a user code that was found. -/
def verifyUserCode (T : Tenant) (g : Store) (req : AuthRequest) (o : Origin) :
    Except AppError (Store × Answer) :=
  (deviceFlow T g req o).map fun r => (r.1.createFlow r.2, .page g.nextFlow)

def finish (T : Tenant) (g : Store) (id : Uuid) : Except AppError (Store × Answer) := do
  let flow ← g.getFlow id
  if flow.stage ≠ .done then badRequest "flow is not complete"
  else
    let (sessionId, s) ← orError .unauthorized (g.fromRequest.filter fun s =>
      flow.sessionId = some s.1 && flow.userId = some s.2.userId)
    let g := if flow.rememberDevice && !flow.trustedDevice then
      { g with device := some ⟨s.userId, g.now + seconds (max T.rememberDeviceDays 1 * 86400)⟩ } else g
    .ok (g.deleteFlow id,
      if flow.request.deviceCode.isSome then .approved else issueCode flow.request sessionId s)

/-! ## One browser -/

/-- What is done with a flow. -/
inductive Action
  | authenticate (factor : FirstFactor) (userId : Uuid) (rememberDevice : Bool)
  | reject (password : Bool)
  | register (userId : Uuid) (u : User) (pending : Bool)
  | passwordChange
  | profile (attributes : Value)
  | terms (accepted : Bool)
  | organization (org : Uuid)
  | consent (approve : Bool) (granted : Option (List String))
  | secondFactor (factor : SecondFactor) (enrols rememberDevice : Bool)
  | rejectSecond
  | cancel

/-- A step of a flow. -/
def submit (T : Tenant) (g : Store) (id : Uuid) (o : Origin) (a : Action) : Except AppError Store := do
  let flow ← g.getFlow id
  match a with
  | .authenticate factor userId rememberDevice =>
      Login.authenticate T g id flow factor userId o rememberDevice
  | .reject password => Login.reject g id flow o password
  | .register userId u pending => registerStep T g id flow userId u pending o
  | .passwordChange => passwordChangeStep T g id flow
  | .profile attributes => profileStep T g id flow attributes
  | .terms accepted => termsStep T g id flow accepted
  | .organization org => organizationStep T g id flow org
  | .consent approve granted => consentStep T g id flow approve granted
  | .secondFactor factor enrols rememberDevice => secondFactorStep T g id flow factor enrols rememberDevice
  | .rejectSecond => mfaReject g id flow
  | .cancel => .ok (g.deleteFlow id)

/-- What happens. -/
inductive Step
  | tick (d : ℕ)
  | endSession (id : Uuid)
  | dropFlow (id : Uuid)
  | forgetDevice
  | authorize (req : AuthRequest) (o : Origin)
  | verifyUserCode (clientId : Uuid) (scopes : List String) (skipConsent : Bool) (deviceCode : String)
      (o : Origin)
  | submit (flow : Uuid) (o : Origin) (a : Action)
  | finish (flow : Uuid)

/-- One step, and what the browser is answered where that matters here. -/
def Step.run (T : Tenant) (g : Store) : Step → Option (Store × Option Answer)
  | .tick d => some ({ g with now := g.now + d }, none)
  | .endSession id => some ({ g with sessions := Function.update g.sessions id none }, none)
  | .dropFlow id => some (g.deleteFlow id, none)
  | .forgetDevice => some ({ g with device := none }, none)
  | .authorize req o => let r := Login.authorize T g req o; some (r.1, some r.2)
  | .verifyUserCode clientId scopes skipConsent deviceCode o =>
      (Login.verifyUserCode T g (deviceRequest clientId scopes skipConsent deviceCode) o).toOption.map
        fun r => (r.1, some r.2)
  | .submit flow o a => (Login.submit T g flow o a).toOption.map fun g => (g, none)
  | .finish flow => (Login.finish T g flow).toOption.map fun r => (r.1, some r.2)

def browser (T : Tenant) : Machine Store Step := ⟨fun g a => (a.run T g).map Prod.fst⟩

/-- The code a step answers with, if it does. -/
def Step.code (T : Tenant) (g : Store) (a : Step) : Option AuthCode :=
  match a.run T g with
  | some (_, some (.code c)) => some c
  | _ => none

end Ridm.Login
