import Ridm.Passwordless.Model

/-!
# Proving an address or a number

`begin_enrolment` and `confirm_enrolment` of `api/src/services/otp_factors.rs`, on one login flow and
channel, and `begin` and `confirm` of `api/src/services/contact_changes.rs`, for one user and kind of
contact.  Both keep the destination that is being proved, the code that proves it and a cooldown under
three keys, and both go through the same commands; what differs is `Service`.

A `begin` is here from where its destination is settled (what is refused before that touches none of the
keys).  Any step may fail: a lost connection, a send limit, a mail that is not sent, an address another
user has.  Where it fails the call ends, and the keys stay as they are.
-/

namespace Ridm.Contacts

open Users (OTP_TTL_SECS Hash)
open Passwordless (OtpRecord Check checkCode storeCode)

def RESEND_COOLDOWN_SECS : ℤ := 20

/-- `otp_factors::ENROLMENT_TTL_SECS`. -/
def ENROLMENT_TTL_SECS : ℤ := OTP_TTL_SECS

/-- Whose codes they are. -/
inductive Service
  | enrolment (channel : String)
  | contactChange (contact : String)

/-- How long the pending destination is held. -/
def Service.pendingTtl : Service → ℤ
  | .enrolment _ => ENROLMENT_TTL_SECS
  | .contactChange _ => OTP_TTL_SECS

/-- There is nothing to confirm. -/
def Service.nothingPending : Service → AppError
  | .enrolment name => .badRequest s!"no {name} enrolment is pending"
  | .contactChange contact => .badRequest s!"no {contact} change is pending; request a code first"

/-- The clock and the three keys. -/
structure Store where
  now : Instant
  pending : Slot String
  code : Slot OtpRecord
  cooldown : Slot Unit

/-- Where a call stands. -/
inductive Pc
  | begin_ (destination : String)
  | comparing (destination : String) (previous : Option String)
  | holding (destination : String)
  | claiming (destination : String)
  | limiting (destination : String)
  | storing (destination : String)
  | delivering (destination code : String)
  | sent
  | confirm (code : String)
  | checking (destination : String) (check : Check)
  | proven (destination : String) (rec : OtpRecord)
  /-- The destination is bound: the factor is stored, or the user is updated. -/
  | bound (destination : String) (rec : OtpRecord)
  | confirmed (destination : String) (rec : OtpRecord)
  /-- A change whose code was refused asks whether the code is still there. -/
  | closing
  | cancelling
  | refused
  | failed (e : AppError)

section

variable (hash : Hash) (service : Service) (user : Uuid)

def cancel (g : Store) : Store :=
  { g with pending := g.pending.del, code := g.code.del, cooldown := g.cooldown.del }

/-- What a confirmation does once `check_code` is done. -/
def settle (destination : String) : Check → Pc
  | .accepted rec => if rec.userId = user then .proven destination rec else refuse
  | .absent | .rejected _ => refuse
  | check => .checking destination check
where
  refuse : Pc :=
    match service with
    | .enrolment _ => .refused
    | .contactChange _ => .closing

def hold (g : Store) (destination : String) : Store :=
  { g with pending := .setUntil destination (g.now + seconds service.pendingTtl) }

/-- The next step of a call; `drawn` is for `store_code`. -/
def act (g : Store) (drawn : String) : Pc → Option (Store × Pc)
  | .begin_ destination => some (g, .comparing destination g.pending.get)
  | .comparing destination previous =>
      if previous.any (· ≠ destination) then
        some ({ g with code := g.code.del, cooldown := g.cooldown.del }, .holding destination)
      else some (hold service g destination, .claiming destination)
  | .holding destination => some (hold service g destination, .claiming destination)
  | .claiming destination =>
      if g.cooldown.isNone then
        some ({ g with cooldown := .setUntil () (g.now + seconds RESEND_COOLDOWN_SECS) },
          .limiting destination)
      else some (g, .sent)
  | .limiting destination => some (g, .storing destination)
  | .storing destination =>
      some ({ g with code := storeCode hash user drawn destination g.now },
        .delivering destination drawn)
  | .delivering _ _ => some (g, .sent)
  | .confirm code =>
      match g.pending.get with
      | none => some (g, .failed service.nothingPending)
      | some destination => some (g, .checking destination (.idle code))
  | .checking destination check =>
      (checkCode hash g.now g.code check).map fun r =>
        ({ g with code := r.1 }, settle service user destination r.2)
  | .proven destination rec => some (g, .bound destination rec)
  | .bound destination rec =>
      match service with
      | .enrolment _ => some ({ g with pending := g.pending.del }, .confirmed destination rec)
      | .contactChange _ => some (cancel g, .confirmed destination rec)
  | .closing => some (g, if g.code.isSome then .refused else .cancelling)
  | .cancelling => some (cancel g, .refused)
  | .sent | .confirmed _ _ | .refused | .failed _ => none

/-- What the schedule settles: what `store_code` draws, or how the step fails. -/
abbrev Outcome := Except AppError String

/-- The keys of one destination. -/
inductive Key
  | pending
  | code
  | cooldown

/-- What happens around the calls: time passes, and the server drops a key at its end. -/
inductive Env
  | tick (d : ℕ)
  | lapse (key : Key)

/-- A step of the surroundings. -/
def env (g : Store) : Env → Option Store
  | .tick d => some { g with now := g.now + d }
  | .lapse .pending => (g.pending.expire g.now).map fun key => { g with pending := key }
  | .lapse .code => (g.code.expire g.now).map fun key => { g with code := key }
  | .lapse .cooldown => (g.cooldown.expire g.now).map fun key => { g with cooldown := key }

/-- Any number of calls of one service on the keys. -/
def calls (ι : Type) : Calls ι Store Pc Outcome Env where
  act _ g l
    | .ok drawn => act hash service user g drawn l
    | .error e => (act hash service user g "" l).map fun _ => (g, .failed e)
  env := env

end

end Ridm.Contacts
