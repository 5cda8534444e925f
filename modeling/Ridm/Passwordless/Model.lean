import Ridm.Core.Valkey
import Ridm.Lib.Interleaving
import Ridm.Users.MailedSecrets

/-!
# Six-digit codes

`store_code` and `check_code` of `api/src/services/passwordless.rs`, on one key.  `checkCode` of
`Ridm.Users.MailedSecrets` is a call that runs alone; here a call is the commands it sends, and between
the `GET` and the `DEL` or `SET` that follows the record may change.

The comparison is a step of its own, for what has been compared and not yet written.
-/

namespace Ridm.Passwordless

open Users (OTP_TTL_SECS OTP_MAX_ATTEMPTS Hash)

/-- `OtpRecord`.  Where the code was sent, `sentTo`, is not part of what is stored: the services never
see it again. -/
structure OtpRecord where
  userId : Uuid
  codeHash : String
  attempts : ℕ
  expiresAt : ℤ
  sentTo : String
  deriving DecidableEq

/-- The record `store_code` stores. -/
def newRecord (hash : Hash) (userId : Uuid) (code sentTo : String) (now : Instant) : OtpRecord where
  userId := userId
  codeHash := hash code
  attempts := 0
  expiresAt := unixTime now + OTP_TTL_SECS
  sentTo := sentTo

/-- `SET EX` of `store_code`. -/
def storeCode (hash : Hash) (userId : Uuid) (code sentTo : String) (now : Instant) : Slot OtpRecord :=
  .setUntil (newRecord hash userId code sentTo now) (now + seconds OTP_TTL_SECS)

/-- What `check_code` makes of the record it has read. -/
inductive Verdict
  | expired
  | right
  | wrong
  deriving DecidableEq

/-- The expiry, then the comparison. -/
def OtpRecord.judge (hash : Hash) (rec : OtpRecord) (now : Instant) (code : String) : Verdict :=
  if rec.expiresAt ≤ unixTime now then .expired
  else if (trim code).utf8ByteSize = 6 ∧ hash (trim code) = rec.codeHash then .right
  else .wrong

/-- Where a call of `check_code` stands. -/
inductive Check
  | idle (code : String)
  | read (code : String) (rec : OtpRecord)
  | dropping
  | accepting (rec : OtpRecord)
  | rejecting (rec : OtpRecord)
  | absent
  | accepted (rec : OtpRecord)
  | rejected (rec : OtpRecord)

/-- A wrong guess of this record is the last one. -/
def OtpRecord.isSpent (rec : OtpRecord) : Bool := decide (OTP_MAX_ATTEMPTS ≤ rec.attempts + 1)

/-- What a wrong guess leaves. -/
def OtpRecord.countDown (rec : OtpRecord) (now : Instant) : Slot OtpRecord :=
  if rec.isSpent then none
  else .setUntil { rec with attempts := rec.attempts + 1 }
    (now + seconds (max 1 (rec.expiresAt - unixTime now)))

/-- The next step of a call of `check_code`. -/
def checkCode (hash : Hash) (now : Instant) (key : Slot OtpRecord) : Check → Option (Slot OtpRecord × Check)
  | .idle code =>
      match key.get with
      | none => some (key, .absent)
      | some rec => some (key, .read code rec)
  | .read code rec =>
      match rec.judge hash now code with
      | .expired => some (key, .dropping)
      | .right => some (key, .accepting rec)
      | .wrong => some (key, .rejecting rec)
  | .dropping => some (key.del, .absent)
  | .accepting rec => some (key.del, .accepted rec)
  | .rejecting rec => some (rec.countDown now, .rejected rec)
  | .absent | .accepted _ | .rejected _ => none

/-- The record a call of `check_code` goes by. -/
def Check.record : Check → Option OtpRecord
  | .read _ rec | .accepting rec | .rejecting rec | .accepted rec | .rejected rec => some rec
  | .idle _ | .dropping | .absent => none

variable {key key' : Slot OtpRecord} {now : Instant} {l l' : Check} {hash : Hash}

/-- **What a step of `check_code` does to the key**: nothing, or it deletes it, or it puts the record that
the call has read back with another count. -/
lemma checkCode_key (h : checkCode hash now key l = some (key', l')) : key' = key ∨ key' = none ∨
      ∃ rec n d, l = .rejecting rec ∧ rec.isSpent = false ∧
        key' = .setUntil { rec with attempts := n } d := by
  cases l with
  | idle code =>
      simp only [checkCode] at h
      split at h <;> cases h <;> exact .inl rfl
  | read code rec =>
      simp only [checkCode] at h
      split at h <;> cases h <;> exact .inl rfl
  | rejecting rec =>
      cases h
      rw [OtpRecord.countDown]
      split_ifs with hspent
      · exact .inr (.inl rfl)
      · exact .inr (.inr ⟨rec, _, _, rfl, by simpa using hspent, rfl⟩)
  | dropping | accepting =>
      cases h
      exact .inr (.inl rfl)
  | _ => cases h

lemma checkCode_record
    {rec : OtpRecord} (h : checkCode hash now key l = some (key', l')) (hrec : l'.record = some rec) :
    l.record = some rec ∨ (∃ code, l = .idle code) ∧ key.get = some rec := by
  cases l with
  | idle code =>
      simp only [checkCode] at h
      split at h <;> cases h
      · cases hrec
      · next hget => exact .inr ⟨⟨code, rfl⟩, hget.trans hrec⟩
  | read code rec' =>
      simp only [checkCode] at h
      split at h <;> cases h
      · cases hrec
      · exact .inl hrec
      · exact .inl hrec
  | accepting | rejecting =>
      cases h
      exact .inl hrec
  | dropping =>
      cases h
      cases hrec
  | _ => cases h

/-- The clock and the key. -/
structure Store where
  now : Instant
  code : Slot OtpRecord

/-- What happens around the calls: time passes, and the server drops the key at its end. -/
inductive Env
  | tick (d : ℕ)
  | lapse

/-- A step of the surroundings. -/
def env (g : Store) : Env → Option Store
  | .tick d => some { g with now := g.now + d }
  | .lapse => (g.code.expire g.now).map fun key => { g with code := key }

/-- Any number of calls of `check_code` on the key. -/
def calls (ι : Type) (hash : Hash) : Calls ι Store Check Unit Env where
  act _ g l _ := (checkCode hash g.now g.code l).map fun r => ({ g with code := r.1 }, r.2)
  env := env

end Ridm.Passwordless
