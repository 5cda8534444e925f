import Mathlib.Data.Int.Notation
import Mathlib.Tactic.Common

/-!
# Words every service uses

Identifiers, instants and the application's error type (`api/src/error.rs`), as far as the
modelled services look at them.
-/

namespace Ridm

/-- A UUID, by its 128-bit value. -/
abbrev Uuid := ℕ

/-- An instant (`DateTime<Utc>`), in nanoseconds. -/
abbrev Instant := ℤ

/-- `chrono::Duration::seconds`. -/
def seconds (n : ℤ) : ℤ := n * 1000000000

/-- `chrono::Duration::num_seconds`: whole seconds, rounded towards zero. -/
def numSeconds (d : ℤ) : ℤ := d.tdiv 1000000000

lemma numSeconds_eq_ediv {d : ℤ} (h : 0 ≤ d) : numSeconds d = d / 1000000000 :=
  Int.tdiv_eq_ediv_of_nonneg h

lemma numSeconds_nonpos {d : ℤ} (h : d ≤ 0) : numSeconds d ≤ 0 := by
  have := Int.tdiv_nonneg (a := -d) (b := 1000000000) (by omega) (by decide)
  rw [Int.neg_tdiv] at this
  rw [numSeconds]
  omega

lemma add_seconds_numSeconds_le {t t' : ℤ} : t + seconds (numSeconds (t' - t)) ≤ max t t' := by
  rcases Int.le_total t t' with h | h
  · rw [seconds, numSeconds_eq_ediv (by omega)]
    omega
  · have := numSeconds_nonpos (d := t' - t) (by omega)
    rw [seconds]
    omega

/-- `chrono::Duration::num_milliseconds`. -/
def numMilliseconds (d : ℤ) : ℤ := d.tdiv 1000000

lemma add_sub_self (t t' : ℤ) : t + (t' - t) = t' := by omega

lemma add_seconds_sub_self (t n : ℤ) : t + seconds n - t = seconds n := by omega

lemma add_seconds_mono {t n n' : ℤ} (h : n ≤ n') : t + seconds n ≤ t + seconds n' := by
  simp only [seconds]
  omega

lemma numMilliseconds_mul_le {d : ℤ} (h : 0 < numMilliseconds d) : numMilliseconds d * 1000000 ≤ d := by
  rcases Int.le_total 0 d with hd | hd
  · rw [numMilliseconds, Int.tdiv_eq_ediv_of_nonneg hd]
    omega
  · have := Int.tdiv_nonneg (a := -d) (b := 1000000) (by omega) (by decide)
    rw [Int.neg_tdiv] at this
    rw [numMilliseconds] at h
    omega

@[simp] lemma numSeconds_seconds (n : ℤ) : numSeconds (seconds n) = n :=
  Int.mul_tdiv_cancel n (by decide)

/-- A refused field and why. -/
structure FieldError where
  field : String
  message : String
  deriving DecidableEq

/-- The errors of the services. -/
inductive AppError
  | badRequest (detail : String)
  | validation (fields : List FieldError)
  | unauthorized
  | forbidden (detail : String)
  | reauthenticationRequired (mfa : Bool)
  | impersonationForbidden
  | notFound (what : String)
  | conflict (detail : String)
  | rateLimited (retryAfterSecs : ℕ)
  | unavailable (detail : String)
  | database
  | cache (detail : String)
  | internal (detail : String)
  deriving DecidableEq

lemma bind_eq_ok {ε α β : Type} {x : Except ε α} {f : α → Except ε β} {b : β} :
    (x >>= f) = .ok b ↔ ∃ a, x = .ok a ∧ f a = .ok b := by
  cases x with
  | error e => simp [bind, Except.bind]
  | ok a => simp [bind, Except.bind]

lemma toOption_eq_some {ε α : Type} {x : Except ε α} {a : α} : x.toOption = some a ↔ x = .ok a := by
  cases x <;> simp [Except.toOption]

/-- `ok_or`: nothing is an error. -/
def orError {ε α : Type} (e : ε) : Option α → Except ε α
  | some a => .ok a
  | none => .error e

/-- `map_err` to a fixed error. -/
def mapErr {ε ε' α : Type} (e : ε') : Except ε α → Except ε' α
  | .ok a => .ok a
  | .error _ => .error e

/-- A check with its error. -/
def require {ε : Type} (e : ε) (ok : Bool) : Except ε Unit := if ok then .ok () else .error e

@[simp] lemma orError_eq_ok {ε α : Type} {e : ε} {o : Option α} {a : α} :
    orError e o = .ok a ↔ o = some a := by
  cases o <;> simp [orError]

@[simp] lemma mapErr_eq_ok {ε ε' α : Type} {e : ε'} {r : Except ε α} {a : α} :
    mapErr e r = .ok a ↔ r = .ok a := by
  cases r <;> simp [mapErr]

@[simp] lemma require_eq_ok {ε : Type} {e : ε} {ok : Bool} {u : Unit} :
    require e ok = .ok u ↔ ok = true := by
  cases ok <;> simp [require]

/-- `OAuthErrorCode`, as far as the modelled services answer with it. -/
inductive OAuthErrorCode
  | invalidRequest
  | invalidClient
  | invalidGrant
  | invalidScope
  | invalidTarget
  | invalidToken
  | accessDenied
  | slowDown
  | temporarilyUnavailable
  | serverError
  deriving DecidableEq

/-- `OAuthError`: the code and its description, empty where it has none. -/
structure OAuthError where
  error : OAuthErrorCode
  description : String
  deriving DecidableEq

/-- `From<AppError> for OAuthError`. -/
def OAuthError.ofAppError : AppError → OAuthError
  | .badRequest detail => ⟨.invalidRequest, detail⟩
  | .validation _ => ⟨.invalidRequest, "validation failed"⟩
  | .unauthorized => ⟨.invalidToken, ""⟩
  | .forbidden detail => ⟨.accessDenied, detail⟩
  | .reauthenticationRequired mfa =>
      ⟨.accessDenied, "sign in again" ++ (if mfa then " with your second step" else "") ++
        " to change security settings"⟩
  | .impersonationForbidden => ⟨.accessDenied, "this cannot be done while impersonating a user"⟩
  | .notFound what => ⟨.invalidRequest, what ++ " not found"⟩
  | .conflict detail => ⟨.invalidRequest, detail⟩
  | .rateLimited secs =>
      ⟨.slowDown, "too many requests; retry after " ++ toString secs ++ " seconds"⟩
  | .unavailable _ => ⟨.temporarilyUnavailable, ""⟩
  | .database | .cache _ | .internal _ => ⟨.serverError, ""⟩

end Ridm
