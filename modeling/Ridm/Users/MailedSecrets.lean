import Ridm.Core.Jwt
import Ridm.Users.Model

/-!
# Mailed links and codes

What the services send a user to prove an address with, and what they do when it comes back:
verification links (`api/src/services/registration.rs`), password reset links
(`api/src/services/recovery.rs`), passwordless links and codes (`api/src/services/passwordless.rs` and
`passwordless_verify_step` of `api/src/services/flows.rs`).  Each is a record in Valkey that names the
user, and none of them the address.

Whether a password is acceptable and where it is kept is settled by the caller
(`PasswordOutcome`).  A send that is refused or finds nobody does nothing and is not modelled; nor are
flows, sessions and events.
-/

namespace Ridm.Users

/-- `registration::VERIFICATION_TTL_SECS`. -/
def VERIFICATION_TTL_SECS : ℤ := 24 * 60 * 60

/-- `recovery::RESET_TTL_SECS`. -/
def RESET_TTL_SECS : ℤ := 60 * 60

/-- `passwordless::OTP_TTL_SECS`. -/
def OTP_TTL_SECS : ℤ := 10 * 60

/-- `passwordless::MAGIC_LINK_TTL_SECS`. -/
def MAGIC_LINK_TTL_SECS : ℤ := 15 * 60

/-- `passwordless::OTP_MAX_ATTEMPTS`. -/
def OTP_MAX_ATTEMPTS : ℕ := 5

/-- `passwordless::Method`. -/
inductive Method
  | magicLink
  | emailOtp
  | smsOtp

/-- `Method::channel`. -/
inductive Channel
  | email
  | sms
  deriving DecidableEq

/-- `Method::channel`. -/
def Method.channel : Method → Channel
  | .magicLink | .emailOtp => .email
  | .smsOtp => .sms

/-- The keys of what is sent, by the hash of a token or by the login flow. -/
inductive SecretKey
  | emailVerification (hash : String)
  | passwordReset (hash : String)
  | magicLink (hash : String)
  | flowOtp (flowId : Uuid) (channel : Channel)
  deriving DecidableEq

/-- The records: `VerificationRecord`, the user's id, `MagicRecord` and `OtpRecord`. -/
inductive SecretRecord
  | emailVerification (userId : Uuid128) (flowId : Option Uuid)
  | passwordReset (userId : Uuid128)
  | magicLink (flowId : Uuid) (userId : Uuid128) (expiresAt : ℤ)
  | flowOtp (userId : Uuid128) (codeHash : String) (attempts : ℕ) (expiresAt : ℤ)

/-- The user a record names. -/
def SecretRecord.userId : SecretRecord → Uuid128
  | .emailVerification userId _ => userId
  | .passwordReset userId => userId
  | .magicLink _ userId _ => userId
  | .flowOtp userId _ _ _ => userId

/-- A record with its deadline.  Where the message went, `sentTo`, is not part of what is stored: the
services never see it again. -/
structure Secret where
  record : SecretRecord
  ends : Instant
  sentTo : String

/-- The users of a tenant and what was sent to them. -/
structure Mailroom where
  rows : Table
  secrets : List (SecretKey × Secret)

/-- What the services compare secrets by. -/
abbrev Hash := String → String

namespace Mailroom

variable (m : Mailroom) (key : SecretKey)

/-- `GET`. -/
def find (now : Instant) : Option Secret :=
  (m.secrets.find? fun e => e.1 == key && decide (now < e.2.ends)).map Prod.snd

def del : Mailroom := { m with secrets := m.secrets.filter (·.1 != key) }

/-- `SET EX`. -/
def set (s : Secret) : Mailroom := { m with secrets := (key, s) :: m.secrets.filter (·.1 != key) }

end Mailroom

/-! ## Sending -/

/-- A lookup by an identifier may find this user. -/
def foundBy (P : Platform) (m : Mailroom) (identifier : String) (user : User) : Bool :=
  (identified m.rows (P.toLowercase (trim (P.toLowercase (trim identifier))))).contains user

def sendVerification (hash : Hash) (m : Mailroom) (now : Instant) (user : User) (flowId : Option Uuid)
    (token : String) : Except AppError Mailroom :=
  match user.email with
  | none => .error (.badRequest "user has no email address")
  | some email => .ok (m.set (.emailVerification (hash token))
      ⟨.emailVerification user.id flowId, now + seconds VERIFICATION_TTL_SECS, email⟩)

/-- `request_password_reset`, for the user the lookup found. -/
def requestPasswordReset (hash : Hash) (m : Mailroom) (now : Instant) (user : User) (token : String) :
    Mailroom :=
  match user.email with
  | none => m
  | some email =>
      if user.status = .disabled then m
      else m.set (.passwordReset (hash token))
        ⟨.passwordReset user.id, now + seconds RESET_TTL_SECS, email⟩

/-- Where a passwordless secret for a user goes, when there is one (`eligible_user`). -/
def eligibleFor (user : User) (method : Method) : Option String :=
  if user.status = .active ∨ user.status = .pending then
    match method with
    | .magicLink | .emailOtp => user.email
    | .smsOtp => if user.phoneVerified then user.phone else none
  else none

/-- `passwordless::send`, for the user the lookup found. -/
def sendPasswordless (hash : Hash) (m : Mailroom) (now : Instant) (method : Method) (flowId : Uuid)
    (user : User) (secret : String) : Mailroom :=
  match eligibleFor user method, method with
  | none, _ => m
  | some sentTo, .magicLink => m.set (.magicLink (hash secret))
      ⟨.magicLink flowId user.id (unixTime now + MAGIC_LINK_TTL_SECS),
        now + seconds MAGIC_LINK_TTL_SECS, sentTo⟩
  | some sentTo, method => m.set (.flowOtp flowId method.channel)
      ⟨.flowOtp user.id (hash secret) 0 (unixTime now + OTP_TTL_SECS), now + seconds OTP_TTL_SECS, sentTo⟩

/-! ## Redeeming -/

/-- What a redemption did: the user as it left the row, what it marked verified, and where the secret had
been sent. -/
structure Redeemed where
  user : User
  marked : Channel
  sentTo : String

/-- A redemption: how it ended, with nothing for a secret that was refused, and what it left. -/
abbrev Redemption := Except AppError (Option Redeemed) × Mailroom

def lookupToken (token : String) : Bool := !token.isEmpty && decide (token.utf8ByteSize ≤ 128)

/-- `registration::confirm`. -/
def confirm (hash : Hash) (m : Mailroom) (now : Instant) (token : String) : Redemption :=
  if lookupToken token then
    match m.find (.emailVerification (hash token)) now with
    | some ⟨.emailVerification userId _, _, sentTo⟩ =>
        let m := m.del (.emailVerification (hash token))
        match get m.rows userId with
        | .error e => (.error e, m)
        | .ok user =>
            let patch : UserUpdate :=
              { emailVerified := some true
                status := some (if user.status = .pending then .active else user.status) }
            match update m.rows user patch now with
            | .error e => (.error e, m)
            | .ok (rows, user) => (.ok (some ⟨user, .email, sentTo⟩), { m with rows := rows })
    | _ => (.error (.notFound "verification token"), m)
  else (.error (.notFound "verification token"), m)

/-- How `password::set_password` ends: refused, written to the user's directory, or kept here. -/
inductive PasswordOutcome
  | refused (e : AppError)
  | inDirectory
  | kept (hash : String)

/-- `password::set_password`, as far as the row goes. -/
def setPassword (rows : Table) (userId : Uuid128) (now : Instant) :
    PasswordOutcome → Except AppError Table
  | .refused e => .error e
  | .inDirectory => .ok rows
  | .kept hash => (get rows userId).map fun user => replaceRow rows
      { user with passwordHash := some hash, mustChangePassword := false, updatedAt := now }

/-- `repos::users::unlock` of a live row. -/
def unlocked (user : User) (now : Instant) : User :=
  { user with status := if user.status = .locked then .active else user.status, updatedAt := now }

def completePasswordReset (hash : Hash) (m : Mailroom) (now : Instant) (token : String)
    (outcome : PasswordOutcome) : Redemption :=
  if lookupToken token then
    match m.find (.passwordReset (hash token)) now with
    | some ⟨.passwordReset userId, _, sentTo⟩ =>
        match setPassword m.rows userId now outcome with
        | .error e => (.error e, m)
        | .ok rows =>
            let m := { m with rows := rows }.del (.passwordReset (hash token))
            match get m.rows userId with
            | .error e => (.error e, m)
            | .ok user =>
                match update m.rows (unlocked user now) { emailVerified := some true } now with
                | .error e => (.error e, m)
                | .ok (rows, user) => (.ok (some ⟨user, .email, sentTo⟩), { m with rows := rows })
    | _ => (.error (.notFound "reset token"), m)
  else (.error (.notFound "reset token"), m)

/-- `verify_magic_link`: the user it names and where it was sent, if it is good. -/
def verifyMagicLink (hash : Hash) (m : Mailroom) (now : Instant) (flowId : Uuid) (token : String) :
    Option (Uuid128 × String) × Mailroom :=
  if lookupToken token then
    match m.find (.magicLink (hash token)) now with
    | some ⟨.magicLink recFlowId userId expiresAt, _, sentTo⟩ =>
        (if recFlowId ≠ flowId ∨ expiresAt ≤ unixTime now then none else some (userId, sentTo),
          m.del (.magicLink (hash token)))
    | some _ => (none, m.del (.magicLink (hash token)))
    | none => (none, m)
  else (none, m)

/-- `check_code`: the user it names and where it was sent, if it is right; else one attempt less. -/
def checkCode (hash : Hash) (m : Mailroom) (now : Instant) (key : SecretKey) (code : String) :
    Option (Uuid128 × String) × Mailroom :=
  match m.find key now with
  | some ⟨.flowOtp userId codeHash attempts expiresAt, _, sentTo⟩ =>
      if expiresAt ≤ unixTime now then (none, m.del key)
      else if (trim code).utf8ByteSize = 6 ∧ hash (trim code) = codeHash then
        (some (userId, sentTo), m.del key)
      else if OTP_MAX_ATTEMPTS ≤ attempts + 1 then (none, m.del key)
      else (none, m.set key ⟨.flowOtp userId codeHash (attempts + 1) expiresAt,
        now + seconds (max 1 (expiresAt - unixTime now)), sentTo⟩)
  | _ => (none, m)

/-- `verify_magic_link` or `verify_otp`, by the method. -/
def verifySecret (hash : Hash) (m : Mailroom) (now : Instant) (method : Method) (flowId : Uuid)
    (secret : String) : Option (Uuid128 × String) × Mailroom :=
  match method with
  | .magicLink => verifyMagicLink hash m now flowId secret
  | method => checkCode hash m now (.flowOtp flowId method.channel) secret

/-- What `mark_contact_verified` changes. -/
def contactVerified : Channel → UserUpdate
  | .email => { emailVerified := some true }
  | .sms => { phoneVerified := some true }

/-- `passwordless_verify_step`, of a flow at its authenticate step, up to the end of
`mark_contact_verified`. -/
def passwordlessVerifyStep (P : Platform) (hash : Hash) (schema : ProfileSchema)
    (directory : Directory) (m : Mailroom) (now : Instant) (method : Method) (flowId : Uuid)
    (secret : String) : Redemption :=
  let verified := verifySecret hash m now method flowId secret
  match verified.1 with
  | none => (.ok none, verified.2)
  | some (userId, sentTo) =>
      match get verified.2.rows userId with
      | .error e => (.error e, verified.2)
      | .ok user =>
          if user.status = .active ∨ user.status = .pending then
            match updateAs P schema directory verified.2.rows now false .user userId
              (contactVerified method.channel) with
            | .error e => (.error e, verified.2)
            | .ok (rows, user) =>
                (.ok (some ⟨user, method.channel, sentTo⟩), { verified.2 with rows := rows })
          else (.error (.forbidden "account is not active"), verified.2)

end Ridm.Users
