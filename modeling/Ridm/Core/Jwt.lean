import Mathlib.Algebra.Group.Int.Defs
import Ridm.Core.Json
import Ridm.Core.Text
import Ridm.Core.Types

/-!
# JSON Web Tokens

`jsonwebtoken`, as the services use it.  What a token's parts and signature say, and the checks of
its parties, are parameters (`Library`); none of them looks at the clock.  The checks that do,
`exp` and `nbf` with a leeway, are written out (`checkTimes`): a token is good through the whole
second `exp + leeway`.
-/

namespace Ridm

/-- Seconds since the epoch (`DateTime::timestamp`, `get_current_timestamp`). -/
def unixTime (t : Instant) : ℤ := t / 1000000000

lemma unixTime_mono {t t' : Instant} (h : t ≤ t') : unixTime t ≤ unixTime t' :=
  Int.ediv_le_ediv (by decide) h

/-- The number some decimal digits stand for. -/
def natOfDigits (cs : List Char) : Option ℕ :=
  if cs.isEmpty || !cs.all Char.isDigit then none
  else some (cs.foldl (fun n c => 10 * n + (c.toNat - 48)) 0)

/-- The integer a number's text stands for, when it is written as one. -/
def Value.integer : Value → Option ℤ
  | .number text =>
      match text.toList with
      | '-' :: cs => (natOfDigits cs).map fun n => -(n : ℤ)
      | cs => (natOfDigits cs).map fun n => (n : ℤ)
  | _ => none

/-- `Value::as_i64`. -/
def Value.asI64 (v : Value) : Option ℤ :=
  v.integer.filter fun n => decide (-2 ^ 63 ≤ n) && decide (n < 2 ^ 63)

lemma natOfDigits_natRepr (n : ℕ) : natOfDigits n.repr.toList = some n := by
  have hall : (Nat.toDigits 10 n).all Char.isDigit = true :=
    List.all_eq_true.mpr fun c hc => Nat.isDigit_of_mem_toDigits (by decide) (by decide) hc
  have hne : (Nat.toDigits 10 n).isEmpty = false := by
    rw [List.isEmpty_eq_false_iff]
    exact Nat.toDigits_ne_nil
  have hvalue := Nat.ofDigitChars_ten_toDigits (n := n)
  rw [natRepr_toList, natOfDigits, hall, hne]
  simpa [Nat.ofDigitChars] using hvalue

lemma integer_toString (n : ℤ) : Value.integer (.number (toString n)) = some n := by
  simp only [Value.integer, intText_toList]
  split_ifs with hn
  · split
    · next cs hcs =>
        have hminus : '-' ∈ n.toNat.repr.toList := by
          rw [hcs]
          exact List.mem_cons_self
        exact absurd (isDigit_natRepr hminus) (by decide)
    · rw [natOfDigits_natRepr]
      simp [Int.toNat_of_nonneg hn]
  · simp only [natOfDigits_natRepr]
    simp
    omega

namespace Jwt

/-- `jsonwebtoken::Algorithm`. -/
inductive Algorithm
  | hs256 | hs384 | hs512
  | es256 | es384
  | rs256 | rs384 | rs512
  | ps256 | ps384 | ps512
  | edDSA
  deriving DecidableEq

/-- `jsonwebtoken::Header`, as far as it is looked at. -/
structure Header where
  alg : Algorithm
  kid : Option String := none
  typ : Option String := none
  jwk : Option Value := none

/-- `jsonwebtoken::Validation`; without an audience none is checked. -/
structure Validation where
  alg : Algorithm
  leeway : ℕ := 60
  validateExp : Bool := true
  validateNbf : Bool := false
  audience : Option (List String) := none
  requiredSpecClaims : List String := ["exp"]
  iss : Option (List String) := none

/-- The library, less its clock.  Errors are the texts they are printed as. -/
structure Library where
  decodeHeader : String → Except String Header
  /-- `Jwk` out of a JSON value and `DecodingKey::from_jwk`; a key is named by its JWK. -/
  decodingKey : Value → Except String Value
  signature : String → Value → Algorithm → Except String Unit
  payload : String → Except String Members
  roundedSeconds : Value → Option ℤ
  required : Validation → Members → Except String Unit
  parties : Validation → Members → Except String Unit

variable (J : Library)

/-- A date claim, when it is a date. -/
def dateClaim (claims : Members) (name : String) : Option ℤ :=
  (claims.get name).bind fun v =>
    match v.integer with
    | some n => if 0 ≤ n ∧ n < 2 ^ 64 then some n else none
    | none => J.roundedSeconds v

/-- The checks of `exp` and `nbf`. -/
def checkTimes (v : Validation) (now : Instant) (claims : Members) : Except String Unit :=
  if v.validateExp = true ∧ (dateClaim J claims "exp").any (· < unixTime now - v.leeway) then
    .error "ExpiredSignature"
  else if v.validateNbf = true ∧ (dateClaim J claims "nbf").any (unixTime now + v.leeway < ·) then
    .error "ImmatureSignature"
  else .ok ()

/-- `decode::<Map<String, Value>>` at a time. -/
def decode (now : Instant) (token : String) (key : Value) (v : Validation) :
    Except String Members := do
  J.signature token key v.alg
  let claims ← J.payload token
  J.required v claims
  checkTimes J v now claims
  J.parties v claims
  .ok claims

variable {J}

lemma checkTimes_eq_ok {v : Validation} {now : Instant} {claims : Members} :
    checkTimes J v now claims = .ok () ↔
      (v.validateExp = true → ∀ exp ∈ dateClaim J claims "exp", unixTime now ≤ exp + v.leeway) ∧
      (v.validateNbf = true → ∀ nbf ∈ dateClaim J claims "nbf", nbf ≤ unixTime now + v.leeway) := by
  have hexp : (v.validateExp = true ∧
      (dateClaim J claims "exp").any (· < unixTime now - v.leeway) = true) ↔
      ¬ (v.validateExp = true → ∀ exp ∈ dateClaim J claims "exp", unixTime now ≤ exp + v.leeway) := by
    rw [Classical.not_imp]
    cases dateClaim J claims "exp" with
    | none => simp
    | some exp =>
        simp only [Option.any_some, decide_eq_true_eq, Option.mem_some_iff, forall_eq']
        refine and_congr_right fun _ => ?_
        omega
  have hnbf : (v.validateNbf = true ∧
      (dateClaim J claims "nbf").any (unixTime now + v.leeway < ·) = true) ↔
      ¬ (v.validateNbf = true → ∀ nbf ∈ dateClaim J claims "nbf", nbf ≤ unixTime now + v.leeway) := by
    rw [Classical.not_imp]
    cases dateClaim J claims "nbf" with
    | none => simp
    | some nbf =>
        simp only [Option.any_some, decide_eq_true_eq, Option.mem_some_iff, forall_eq']
        refine and_congr_right fun _ => ?_
        omega
  rw [checkTimes]
  split_ifs with h₁ h₂
  · exact iff_of_false (by simp) fun h => hexp.mp h₁ h.1
  · exact iff_of_false (by simp) fun h => hnbf.mp h₂ h.2
  · exact iff_of_true rfl ⟨not_not.mp fun h => h₁ (hexp.mpr h), not_not.mp fun h => h₂ (hnbf.mpr h)⟩

lemma decode_eq_ok {now : Instant} {token : String} {key : Value} {v : Validation}
    {claims : Members} :
    decode J now token key v = .ok claims ↔
      J.signature token key v.alg = .ok () ∧ J.payload token = .ok claims ∧
        J.required v claims = .ok () ∧ checkTimes J v now claims = .ok () ∧
        J.parties v claims = .ok () := by
  simp only [decode, bind_eq_ok]
  constructor
  · rintro ⟨⟨⟩, hsig, claims', hpayload, ⟨⟩, hreq, ⟨⟩, htimes, ⟨⟩, hparties, h⟩
    cases h
    exact ⟨hsig, hpayload, hreq, htimes, hparties⟩
  · rintro ⟨hsig, hpayload, hreq, htimes, hparties⟩
    exact ⟨(), hsig, claims, hpayload, (), hreq, (), htimes, (), hparties, rfl⟩

end Jwt

end Ridm
