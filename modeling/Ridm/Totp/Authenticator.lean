import Mathlib.Algebra.Group.Nat.Defs
import Ridm.Lib.ExpiringMarks
import Ridm.Totp.RecoveryCodes

/-!
# Authenticator codes

`api/src/services/totp.rs`: the time-based codes of RFC 6238.  `check` finds the time step a code is
valid for, within `SKEW` steps of drift, and `verify_totp` claims that step for the credential by a
Valkey mark before it accepts the code.

A step is acceptable for three periods, and the mark of a step lasts for three periods from the
moment it is claimed.  So it outlasts the window however early the step is claimed
(`steps_single_use`).

HMAC-SHA-1 is not part of the repository and is a parameter.  Instants are counted from the epoch, in
nanoseconds.
-/

namespace Ridm.Totp

def PERIOD_SECS : ℕ := 30

/-- `SKEW`: steps of clock drift accepted either side. -/
def SKEW : ℕ := 1

/-- Unix seconds (`DateTime::timestamp`) of an instant. -/
def unixSeconds (now : ℕ) : ℕ := now / 1000000000

/-! ## Secrets -/

/-- `BASE32`. -/
def base32Alphabet : List Char := "ABCDEFGHIJKLMNOPQRSTUVWXYZ234567".toList

/-- The loop of `base32_decode`, with its bit buffer. -/
def base32Loop : List Char → UInt32 → ℕ → Option (List UInt8)
  | [], _, _ => some []
  | c :: cs, buffer, bits =>
      match base32Alphabet.idxOf? c.toUpper with
      | none => none
      | some v =>
          let buffer := (buffer <<< 5) ||| UInt32.ofNat v
          if 8 ≤ bits + 5 then
            (base32Loop cs buffer (bits + 5 - 8)).map
              ((buffer >>> UInt32.ofNat (bits + 5 - 8)).toUInt8 :: ·)
          else base32Loop cs buffer (bits + 5)

/-- `base32_decode`: either case, with or without padding. -/
def base32Decode (s : String) : Option (List UInt8) := base32Loop (trimEndMatches s '=').toList 0 0

/-- `build`, by the secret. -/
def build (secret : String) : Except AppError (List UInt8) :=
  match (base32Decode secret).filter fun s => !s.isEmpty with
  | some s => .ok s
  | none => .error (.internal "totp secret: not base32")

/-! ## Codes -/

/-- `u64::to_be_bytes`. -/
def toBeBytes (n : ℕ) : List UInt8 :=
  (List.range 8).map fun i => UInt8.ofNat (n % 2 ^ 64 / 256 ^ (7 - i))

/-- Dynamic truncation (RFC 4226): four bytes from where the last one says, without the sign. -/
def truncatedMac (mac : List UInt8) : ℕ :=
  let offset := (mac.getLastD 0 &&& 0x0f).toNat
  let byte := fun i => (mac.getD (offset + i) 0).toNat
  (byte 0 * 2 ^ 24 + byte 1 * 2 ^ 16 + byte 2 * 2 ^ 8 + byte 3) % 2 ^ 31

/-- HMAC-SHA-1 of a message under a secret. -/
abbrev Hmac := List UInt8 → List UInt8 → List UInt8

/-- `Authenticator::code_at`. -/
def codeAt (hmac : Hmac) (secret : List UInt8) (counter : ℕ) : String :=
  let code := truncatedMac (hmac secret (toBeBytes counter)) % 10 ^ DIGITS
  String.ofList ((toString code).toList.leftpad DIGITS '0')

/-- The steps `check` tries at `now`, in their order. -/
def stepsAround (now : ℕ) : List ℕ :=
  let origin := now / PERIOD_SECS
  List.range' (origin - SKEW) (origin + SKEW + 1 - (origin - SKEW))

/-- `Authenticator::check`. -/
def check (hmac : Hmac) (secret : List UInt8) (code : String) (now : ℕ) : Option ℕ :=
  if isTotpCode code then (stepsAround now).find? fun counter => codeAt hmac secret counter == code
  else none

/-! ## Verification -/

/-- A `credentials` row of type `totp`, with its decrypted secret. -/
structure TotpCredential where
  id : Uuid
  secret : String

/-- The marks of used steps, by credential and step. -/
abbrev UsedSteps := Marks (Uuid × ℕ) ℕ

/-- The loop of `verify_totp` up to the mark: the first credential the code is valid for, and the
step. -/
def resolve (hmac : Hmac) (code : String) (now : ℕ) :
    List TotpCredential → Except AppError (Option (Uuid × ℕ))
  | [] => .ok none
  | row :: rows =>
      match build row.secret with
      | .error e => .error e
      | .ok secret =>
          match check hmac secret code now with
          | some step => .ok (some (row.id, step))
          | none => resolve hmac code now rows

/-- How long a used step is remembered. -/
def markLife : ℕ := PERIOD_SECS * (2 * SKEW + 1) * 1000000000

def markStepUsed (marks : UsedSteps) (id : Uuid) (step now : ℕ) : Bool × UsedSteps :=
  marks.claim (id, step) now (now + markLife)

/-- `verify_totp`: the credential that verified. -/
def verifyTotp (hmac : Hmac) (rows : List TotpCredential) (code : String) (now : ℕ)
    (marks : UsedSteps) : Except AppError (Option Uuid) × UsedSteps :=
  match resolve hmac code (unixSeconds now) rows with
  | .error e => (.error e, marks)
  | .ok none => (.ok none, marks)
  | .ok (some (id, step)) =>
      let (set, marks) := markStepUsed marks id step now
      if set then (.ok (some id), marks) else (.ok none, marks)

/-! ## Histories of attempts -/

/-- One call of `verify_totp`: when, for which credentials of a user, with which code. -/
structure TotpAttempt where
  now : ℕ
  rows : List TotpCredential
  code : String

def TotpAttempt.resolved (hmac : Hmac) (a : TotpAttempt) : Option (Uuid × ℕ) :=
  match resolve hmac a.code (unixSeconds a.now) a.rows with
  | .ok r => r
  | .error _ => none

/-- The attempt is accepted. -/
def TotpAttempt.verifies (hmac : Hmac) (a : TotpAttempt) (marks : UsedSteps) : Bool :=
  match (verifyTotp hmac a.rows a.code a.now marks).1 with
  | .ok (some _) => true
  | _ => false

/-- The attempts of a history that are accepted. -/
def verifiedAttempts (hmac : Hmac) : UsedSteps → List TotpAttempt → List TotpAttempt
  | _, [] => []
  | marks, a :: as =>
      let rest := verifiedAttempts hmac (verifyTotp hmac a.rows a.code a.now marks).2 as
      if a.verifies hmac marks then a :: rest else rest

/-- Attempts as they claim marks. -/
def guardedSteps (hmac : Hmac) : Guarded TotpAttempt (Uuid × ℕ) ℕ where
  time := TotpAttempt.now
  key := TotpAttempt.resolved hmac
  deadline a := a.now + markLife

lemma attempt_guardedSteps (hmac : Hmac) (a : TotpAttempt) (marks : UsedSteps) :
    (guardedSteps hmac).attempt marks a =
      (a.verifies hmac marks, (verifyTotp hmac a.rows a.code a.now marks).2) := by
  simp only [Guarded.attempt, guardedSteps, TotpAttempt.resolved, TotpAttempt.verifies, verifyTotp]
  rcases resolve hmac a.code (unixSeconds a.now) a.rows with e | (_ | ⟨id, step⟩)
  · rfl
  · rfl
  · rcases hclaim : marks.claim (id, step) a.now (a.now + markLife) with ⟨set, marks'⟩
    simp only [markStepUsed, hclaim]
    cases set
    · rfl
    · rfl

lemma verifiedAttempts_eq (hmac : Hmac) (marks : UsedSteps) (as : List TotpAttempt) :
    verifiedAttempts hmac marks as = (guardedSteps hmac).accepted marks as := by
  induction as generalizing marks with
  | nil => rfl
  | cons a as ih =>
      rw [verifiedAttempts, Guarded.accepted, attempt_guardedSteps, ih]

variable {hmac : Hmac} {now step : ℕ} {code : String}

lemma mem_stepsAround (h : step ∈ stepsAround now) :
    now / PERIOD_SECS ≤ step + SKEW ∧ step ≤ now / PERIOD_SECS + SKEW := by
  rw [stepsAround, List.mem_range'_1] at h
  omega

lemma check_window {secret : List UInt8} (h : check hmac secret code now = some step) :
    now / PERIOD_SECS ≤ step + SKEW ∧ step ≤ now / PERIOD_SECS + SKEW := by
  rw [check] at h
  split_ifs at h
  exact mem_stepsAround (List.mem_of_find?_eq_some h)

lemma resolve_window {id : Uuid}
    {rows : List TotpCredential} (h : resolve hmac code now rows = .ok (some (id, step))) :
    now / PERIOD_SECS ≤ step + SKEW ∧ step ≤ now / PERIOD_SECS + SKEW := by
  induction rows with
  | nil => cases h
  | cons row rows ih =>
      rw [resolve] at h
      cases hbuild : build row.secret with
      | error e =>
          rw [hbuild] at h
          cases h
      | ok secret =>
          simp only [hbuild] at h
          cases hcheck : check hmac secret code now with
          | none =>
              rw [hcheck] at h
              exact ih h
          | some s =>
              rw [hcheck] at h
              cases h
              exact check_window hcheck

lemma resolved_window {a : TotpAttempt} {id : Uuid} {step : ℕ}
    (h : a.resolved hmac = some (id, step)) :
    unixSeconds a.now / PERIOD_SECS ≤ step + SKEW ∧
      step ≤ unixSeconds a.now / PERIOD_SECS + SKEW := by
  rw [TotpAttempt.resolved] at h
  cases hres : resolve hmac a.code (unixSeconds a.now) a.rows with
  | error e =>
      rw [hres] at h
      cases h
  | ok r =>
      rw [hres] at h
      exact resolve_window (hres.trans (congrArg Except.ok h))

lemma mark_outlasts {a b : TotpAttempt} {key : Uuid × ℕ}
    (ha : a.resolved hmac = some key) (hb : b.resolved hmac = some key) :
    b.now < a.now + markLife := by
  obtain ⟨id, step⟩ := key
  have hfirst := (resolved_window ha).2
  have hlast := (resolved_window hb).1
  have hlife : markLife = 90000000000 := rfl
  rw [unixSeconds, PERIOD_SECS, SKEW] at hfirst hlast
  omega

/-- **A time step is accepted once.**  In every history of attempts in the order of time, on any
credentials and codes and whatever marks were set before, at most one attempt that resolves to a step
of a credential is accepted. -/
theorem steps_single_use (hmac : Hmac) (marks : UsedSteps) (attempts : List TotpAttempt)
    (hsorted : attempts.Pairwise fun a b => a.now ≤ b.now) (id : Uuid) (step : ℕ) :
    ((verifiedAttempts hmac marks attempts).filter fun a =>
      a.resolved hmac == some (id, step)).length ≤ 1 := by
  have hnodup : ((verifiedAttempts hmac marks attempts).map (TotpAttempt.resolved hmac)).Nodup := by
    rw [verifiedAttempts_eq]
    exact Guarded.accepted_keys_nodup (G := guardedSteps hmac) marks hsorted
      fun a b k ha hb _ => mark_outlasts ha hb
  have hcount := List.nodup_iff_count_le_one.mp hnodup (some (id, step))
  rw [List.count_eq_countP, List.countP_map, List.countP_eq_length_filter] at hcount
  exact hcount

def sampleHmac (_ message : List UInt8) : List UInt8 :=
  match (message.getLastD 0).toNat with
  | 0 => [0xcc, 0x93, 0xcf, 0x18, 0x50, 0x8d, 0x94, 0x93, 0x4c, 0x64,
      0xb6, 0x5d, 0x8b, 0xa7, 0x66, 0x7f, 0xb7, 0xcd, 0xe4, 0xb0]
  | 1 => [0x75, 0xa4, 0x8a, 0x19, 0xd4, 0xcb, 0xe1, 0x00, 0x64, 0x4e,
      0x8a, 0xc1, 0x39, 0x7e, 0xea, 0x74, 0x7a, 0x2d, 0x33, 0xab]
  | 2 => [0x0b, 0xac, 0xb7, 0xfa, 0x08, 0x2f, 0xef, 0x30, 0x78, 0x22,
      0x11, 0x93, 0x8b, 0xc1, 0xc5, 0xe7, 0x04, 0x16, 0xff, 0x44]
  | 3 => [0x66, 0xc2, 0x82, 0x27, 0xd0, 0x3a, 0x2d, 0x55, 0x29, 0x26,
      0x2f, 0xf0, 0x16, 0xa1, 0xe6, 0xef, 0x76, 0x55, 0x7e, 0xce]
  | _ => []

def sampleTotpCredential : TotpCredential := ⟨7, "GEZDGNBVGY3TQOJQGEZDGNBVGY3TQOJQ"⟩

def sampleAttempts : List TotpAttempt :=
  [⟨0, [sampleTotpCredential], "287082"⟩, ⟨89999999999, [sampleTotpCredential], "287082"⟩]

/-- Both attempts resolve to step 1; the second one finds the mark. -/
theorem steps_single_use_boundaries :
    sampleAttempts.map (TotpAttempt.resolved sampleHmac) = [some (7, 1), some (7, 1)] ∧
      ((verifiedAttempts sampleHmac Marks.empty sampleAttempts).filter fun a =>
        a.resolved sampleHmac == some (7, 1)).length ≤ 1 :=
  ⟨by decide +kernel, steps_single_use sampleHmac Marks.empty sampleAttempts (by decide) 7 1⟩

end Ridm.Totp
