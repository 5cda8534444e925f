import Ridm.Core.Types
import Ridm.Lib.Interleaving

/-!
# Setting a password, and signing in with one

`set_password` and `verify_and_upgrade` of `api/src/services/password.rs`, on one user.

`set_password` reads the user, checks and hashes the new password without a transaction, then locks
the row and goes on only if the hash is still the one it read.  `verify_and_upgrade` is handed the
user as it was read before; when the stored hash is a weaker or an imported one it hashes the
password anew and writes that over whatever hash the row has by then.

The hasher, the directory a user may belong to and the checks of the policy are parameters
(`Backend`); a salt is drawn by the schedule.
-/

namespace Ridm.Passwords

/-- The columns of the `users` row that have to do with the password. -/
structure User where
  passwordHash : Option String
  passwordAlgo : Option String
  mustChangePassword : Bool
  passwordExpiresAt : Option Instant
  passwordChangedAt : Option Instant
  deriving DecidableEq

/-- `PasswordPolicy`, less what only `check_policy` reads. -/
structure PasswordPolicy where
  history : ℕ
  checkBreached : Bool
  maxAgeDays : Option ℕ

/-- `SetPasswordOptions`, less who is told of it. -/
structure SetPasswordOptions where
  mustChange : Bool
  skipPolicy : Bool
  deriving DecidableEq

/-- What comparing with a hash gives. -/
structure PasswordVerification where
  valid : Bool
  needsRehash : Bool

/-- The answer of a sign-in. -/
inductive VerifyOutcome
  | valid (mustChange : Bool)
  | invalid
  deriving DecidableEq

/-- The other code both functions go through. -/
structure Backend where
  hash : String → ℕ → String
  /-- `PasswordHasher::algorithm`. -/
  algorithm : String
  verify : String → String → Except AppError PasswordVerification
  /-- `ldap::set_password`: whether the directory keeps the user's password. -/
  ldapSetPassword : String → Except AppError Bool
  /-- `ldap::verify_password`. -/
  ldapVerifyPassword : String → Except AppError (Option Bool)
  checkPolicy : String → User → List String
  checkBreached : String → Except AppError Unit

section

variable (B : Backend) (policy : PasswordPolicy)

/-- `chrono::Duration::days`. -/
def days (n : ℕ) : ℤ := seconds (n * 86400)

/-! ## What is decided on the way -/

/-- The password is one of the previous ones. -/
def reused (password : String) (previous : List String) : Bool :=
  previous.any fun old => (B.verify password old).toOption.any PasswordVerification.valid

/-- The checks of `set_password`, on what it has read. -/
def checkNew (password : String) (opts : SetPasswordOptions) (user : User) (history : List String) :
    Except AppError Unit :=
  if opts.skipPolicy then .ok ()
  else do
    let problems := B.checkPolicy password user
    require (.validation (problems.map fun message => ⟨"password", message⟩)) problems.isEmpty
    if policy.checkBreached then B.checkBreached password
    require (.validation [⟨"password", s!"must differ from the last {policy.history} passwords"⟩])
      (!(decide (0 < policy.history) && reused B password (history ++ user.passwordHash.toList)))

/-- The password of a user has to be changed. -/
def mustChange (user : User) (now : Instant) : Bool :=
  let expired := (user.passwordExpiresAt.any fun t => decide (t ≤ now)) ||
    policy.maxAgeDays.any fun n =>
      user.passwordChangedAt.any fun changed => decide (changed + days n ≤ now)
  user.mustChangePassword || expired

/-! ## Calls -/

/-- The clock, the user's row and password history, and the password last set. -/
structure Store where
  now : Instant
  user : User
  history : List String
  changedTo : Option String

/-- A call. -/
inductive Op
  | setPassword (password : String) (opts : SetPasswordOptions)
  | signIn (password : String)
  deriving DecidableEq

/-- Where a call stands. -/
inductive Pc
  | idle (op : Op)
  | checking (password : String) (opts : SetPasswordOptions) (user : User) (history : List String)
  | hashed (password : String) (opts : SetPasswordOptions) (user : User) (hash : String)
      (expiresAt : Option Instant)
  | committed (password : String)
  | changed (password : String)
  | inDirectory
  | loaded (password : String) (user : User)
  | verified (password : String) (user : User)
  | upgrading (password : String) (user : User) (hash : String)
  | outcome (o : VerifyOutcome)
  | failed (e : AppError)
  deriving DecidableEq

/-- `password_history::recent`, as far as `set_password` asks for it. -/
def readHistory (opts : SetPasswordOptions) (history : List String) : List String :=
  if !opts.skipPolicy && decide (0 < policy.history) then history.take (policy.history - 1) else []

/-- The transaction at the end of `set_password`. -/
def commitPassword (g : Store) (password : String) (opts : SetPasswordOptions) (user : User)
    (hash : String) (expiresAt : Option Instant) : Except AppError Store := do
  require (.conflict "the password was changed at the same time; try again")
    (g.user.passwordHash = user.passwordHash)
  .ok
    { g with
      user :=
        { passwordHash := some hash
          passwordAlgo := some B.algorithm
          mustChangePassword := opts.mustChange
          passwordExpiresAt := expiresAt
          passwordChangedAt := some g.now }
      history :=
        match user.passwordHash with
        | some old =>
            if 1 < policy.history then (old :: g.history).take (policy.history - 1) else g.history
        | none => g.history
      changedTo := some password }

/-- What a sign-in makes of the user it was handed, as far as no hash is to be replaced. -/
def verifyLoaded (password : String) (user : User) (now : Instant) : Pc :=
  match user.passwordHash with
  | none =>
      match B.ldapVerifyPassword password with
      | .ok (some true) => .outcome (.valid user.mustChangePassword)
      | .ok _ => .outcome .invalid
      | .error e => .failed e
  | some stored =>
      match B.verify password stored with
      | .error .unauthorized => .outcome .invalid
      | .error e => .failed e
      | .ok verification =>
          if !verification.valid then .outcome .invalid
          else if verification.needsRehash then .verified password user
          else .outcome (.valid (mustChange policy user now))

/-- The next step of a call; `salt` is for the hasher. -/
def act (g : Store) (salt : ℕ) : Pc → Option (Store × Pc)
  | .idle (.setPassword password opts) =>
      match B.ldapSetPassword password with
      | .ok true => some (g, .inDirectory)
      | .ok false => some (g, .checking password opts g.user (readHistory policy opts g.history))
      | .error e => some (g, .failed e)
  | .checking password opts user history =>
      match checkNew B policy password opts user history with
      | .ok () =>
          some (g, .hashed password opts user (B.hash password salt)
            (policy.maxAgeDays.map fun n => g.now + days n))
      | .error e => some (g, .failed e)
  | .hashed password opts user hash expiresAt =>
      match commitPassword B policy g password opts user hash expiresAt with
      | .ok g' => some (g', .committed password)
      | .error e => some (g, .failed e)
  | .committed password => some (g, .changed password)
  | .idle (.signIn password) => some (g, .loaded password g.user)
  | .loaded password user => some (g, verifyLoaded B policy password user g.now)
  | .verified password user => some (g, .upgrading password user (B.hash password salt))
  | .upgrading _ user hash =>
      some ({ g with
          user := { g.user with passwordHash := some hash, passwordAlgo := some B.algorithm } },
        .outcome (.valid (mustChange policy user g.now)))
  | .changed _ | .inDirectory | .outcome _ | .failed _ => none

/-- Any number of changes and sign-ins of one user, while time passes. -/
def calls (ι : Type) : Calls ι Store Pc ℕ ℕ where
  act _ g l salt := act B policy g salt l
  env g d := some { g with now := g.now + d }

end

end Ridm.Passwords
