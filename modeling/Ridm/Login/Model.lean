import Ridm.Users.Model

/-!
# Signing in: what is asked of a user

`api/src/services/flows.rs`, `login_flows.rs`, `risk.rs` and what they read of users, sessions and the
tenant's settings.  A login flow authenticates a user, opens a session, and then walks what is left: a
password change, a second factor, the profile, the terms, an organization, consent.  This module has the
data, and the judgements on one user and one session: what is expired, missing, demanded or risky.

Travel is judged in floating point and is a parameter.  The last three fields of a session and the last of
a flow are history.
-/

namespace Ridm.Login

open Ridm.Users (UserStatus ProfileSchema AttributeDef Platform)

/-! ## Settings -/

/-- Whom a tenant asks for a second factor. -/
inductive MfaPolicy
  | off
  | optional
  | required
  | requiredForAdmins
  | requiredForRoles (roles : List String)

/-- What each signal adds to the score. -/
structure RiskWeights where
  newDevice : ℕ
  newCountry : ℕ
  impossibleTravel : ℕ
  velocity : ℕ

/-- The tenant's thresholds. -/
structure RiskPolicy where
  enabled : Bool := false
  weights : RiskWeights
  stepUpAt : ℕ := 50
  blockAt : ℕ := 100
  impossibleTravelKmh : ℕ := 900
  velocityWindowMinutes : ℕ := 15
  velocityMaxFailures : ℕ := 10

/-- Where a request comes from. -/
structure Location where
  country : String
  latitude : Option Float := none
  longitude : Option Float := none

/-- Where an earlier sign-in came from. -/
structure LoginLocation where
  country : String
  latitude : Option Float
  longitude : Option Float
  lastSeenAt : Instant

/-- What the flows read of a tenant, with its profile schema. -/
structure Tenant where
  password : Bool
  passkey : Bool
  maxAgeDays : Option ℕ
  mfa : MfaPolicy
  requireTerms : Bool
  risk : RiskPolicy
  rememberDeviceDays : ℕ
  schema : ProfileSchema
  platform : Platform
  travelledImpossibly : ℕ → List LoginLocation → Location → Instant → Bool

/-! ## Users and sessions -/

/-- An organization of the tenant. -/
structure Organization where
  id : Uuid
  slug : String
  active : Bool

/-- What the flows read of a user: the row, and the rows of other tables that are the user's. -/
structure User where
  status : UserStatus := .active
  mustChangePassword : Bool := false
  passwordExpiresAt : Option Instant := none
  passwordChangedAt : Option Instant := none
  attributes : Value := .object []
  termsAcceptedAt : Option Instant := none
  roles : List String := []
  adminPermissions : List String := []
  secondFactors : ℕ := 0
  organizations : List Organization := []
  userAgents : List (Option String) := []
  locations : List LoginLocation := []

/-- What a score leads to. -/
inductive RiskAction
  | allow
  | stepUp
  | block
  deriving DecidableEq

/-- A session at the identity provider. -/
structure SsoSession where
  userId : Uuid
  authTime : Instant
  amr : List String
  acr : Option String
  orgId : Option Uuid := none
  impersonated : Bool := false
  opening : RiskAction := .allow
  passed : Bool := false
  writes : ℕ := 0

/-! ## Flows -/

/-- The page a flow stands at. -/
inductive FlowStage
  | authenticate
  | register
  | verifyEmail
  | passwordChange
  | mfa
  | profile
  | terms
  | organization
  | consent
  | done
  deriving DecidableEq

/-- `AuthRequest`, as far as it decides anything here. -/
structure AuthRequest where
  clientId : Uuid
  scopes : List String
  prompt : List String := []
  maxAge : Option ℕ := none
  acrValues : List String := []
  skipConsent : Bool := false
  deviceCode : Option String := none
  organization : Option String := none
  saml : Bool := false
  deriving DecidableEq

/-- A flow as Valkey keeps it. -/
structure LoginFlow where
  request : AuthRequest
  stage : FlowStage
  sessionId : Option Uuid := none
  userId : Option Uuid := none
  pendingScopes : List String := []
  attempts : ℕ := 0
  amr : List String := []
  orgId : Option Uuid := none
  trustedDevice : Bool := false
  riskStepUp : Bool := false
  rememberDevice : Bool := false
  expiresAt : Instant
  /-- Which of the session's `amr` it has taken its own from, if from any. -/
  copied : Option ℕ := none
  deriving DecidableEq

/-- Where a request comes from. -/
structure Origin where
  ip : Option String := none
  location : Option Location := none
  userAgent : Option String := none

/-- `RequestContext`: where a request comes from, whether its route reads the cookies of the session and
the device, and whether the device is to be remembered. -/
structure RequestContext extends Origin where
  cookies : Bool
  rememberDevice : Bool

/-! ## What a user owes -/

section Judgements

variable (T : Tenant) (u : User)

/-- A password is expired (the end of `verify_and_upgrade`). -/
def expired (now : Instant) : Bool :=
  u.passwordExpiresAt.any (· ≤ now) ||
    T.maxAgeDays.any fun days => u.passwordChangedAt.any fun changed =>
      changed + seconds (days * 86400) ≤ now

def filled (name : String) : Bool :=
  (((Users.asObject u.attributes).getD []).get name).any fun v =>
    v != .null && v.asStr.all fun s => !(trim s).isEmpty

def missingRequired : List AttributeDef :=
  T.schema.attributes.filter fun a => a.required && a.editableBy != .none && !filled u a.name

/-- The terms are to be accepted, and are not. -/
def owesTerms : Bool := T.requireTerms && u.termsAcceptedAt.isNone

def policyRequiresMfa : Bool :=
  match T.mfa with
  | .off => false
  | .required => true
  | .optional => 0 < u.secondFactors
  | .requiredForRoles roles => roles.any (· ∈ u.roles) || 0 < u.secondFactors
  | .requiredForAdmins => !u.adminPermissions.isEmpty || 0 < u.secondFactors

end Judgements

def ACR_MFA : String := "urn:ridm:acr:mfa"

def ACR_SINGLE : String := "urn:ridm:acr:single"

def MFA_MAX_ATTEMPTS : ℕ := 5

def FLOW_TTL_SECS : ℕ := 10 * 60

def isMfaAcr (acr : String) : Bool := ":mfa".toList.isSuffixOf acr.toList

def requestedMfaClass (acrValues : List String) : Option String :=
  (acrValues.find? fun a => isMfaAcr a || a == ACR_SINGLE).filter isMfaAcr

def requestedMfaAcr (r : AuthRequest) : String := (requestedMfaClass r.acrValues).getD ACR_MFA

def mfaRequired (T : Tenant) (flow : LoginFlow) (u : User) : Bool :=
  if "mfa" ∈ flow.amr then false
  else if (requestedMfaClass flow.request.acrValues).isSome || flow.riskStepUp then true
  else if flow.trustedDevice then false
  else policyRequiresMfa T u

/-! ## Risk -/

/-- What makes a sign-in unusual. -/
inductive RiskSignal
  | newDevice
  | newCountry
  | impossibleTravel
  | velocity

/-- The score and what it leads to. -/
structure RiskAssessment where
  score : ℕ := 0
  signals : List RiskSignal := []
  action : RiskAction := .allow
  country : Option String := none

/-- A row of `login_attempts`. -/
structure Attempt where
  ip : Option String
  success : Bool
  createdAt : Instant

/-- What a signal contributes. -/
def RiskWeights.of (w : RiskWeights) : RiskSignal → ℕ
  | .newDevice => w.newDevice
  | .newCountry => w.newCountry
  | .impossibleTravel => w.impossibleTravel
  | .velocity => w.velocity

def velocitySince (now : Instant) (windowMinutes : ℕ) : Instant :=
  now - seconds (max windowMinutes 1 * 60)

def failuresFromIp (attempts : List Attempt) (ip : String) (since : Instant) : ℕ :=
  attempts.countP fun a => a.ip == some ip && !a.success && since ≤ a.createdAt

/-- How many of a user's countries are considered. -/
def HISTORY_LIMIT : ℕ := 50

/-- `evaluate`; the failures that the password step has counted itself are the same. -/
def evaluate (T : Tenant) (u : User) (attempts : List Attempt) (now : Instant) (ip : Option String)
    (location : Option Location) (newDevice : Bool) : RiskAssessment :=
  let policy := T.risk
  let country := location.map Location.country
  let history := u.locations.take HISTORY_LIMIT
  if !policy.enabled then { country := country }
  else
    let failures : Option ℕ :=
      if policy.velocityMaxFailures = 0 then none
      else ip.map fun ip => failuresFromIp attempts ip (velocitySince now policy.velocityWindowMinutes)
    let here := location.filter fun _ => !history.isEmpty
    let signals :=
      (if newDevice then [RiskSignal.newDevice] else []) ++
      (if here.any fun l => !history.any fun seen => seen.country == l.country then [.newCountry]
        else []) ++
      (if here.any fun l => T.travelledImpossibly policy.impossibleTravelKmh history l now then
        [.impossibleTravel] else []) ++
      (if failures.any (policy.velocityMaxFailures ≤ ·) then [.velocity] else [])
    let score := (signals.map policy.weights.of).sum
    let action :=
      if 0 < policy.blockAt ∧ policy.blockAt ≤ score then RiskAction.block
      else if 0 < policy.stepUpAt ∧ policy.stepUpAt ≤ score then .stepUp
      else .allow
    { score, signals, action, country }

/-- `user_login_locations::record`: one row a country, the one just seen first. -/
def recordLocation (T : Tenant) (u : User) (now : Instant) : Option Location → User
  | some l =>
      if T.risk.enabled then
        let before := u.locations.find? fun seen => seen.country == l.country
        { u with locations :=
            ⟨l.country, l.latitude.orElse fun _ => before.bind LoginLocation.latitude,
              l.longitude.orElse fun _ => before.bind LoginLocation.longitude, now⟩ ::
              u.locations.filter fun seen => seen.country != l.country }
      else u
  | none => u

def isNewBrowser (u : User) (userAgent : Option String) : Bool :=
  userAgent.any fun ua => !u.userAgents.isEmpty && !(u.userAgents.any (· == some ua))

end Ridm.Login
