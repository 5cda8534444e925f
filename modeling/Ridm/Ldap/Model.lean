import Ridm.Users.Model

/-!
# What a directory says about a user

`refresh` of `api/src/services/ldap.rs`: how a linked user is brought up to date with an entry, by the
address and the name the provider's mappers find in it.  A name another account holds, and an address
that is refused, are kept out of the way by the callers of this file; here is what gets written when
nothing stands in the way.
-/

namespace Ridm.Ldap

open Users (Platform User UserUpdate normalizeEmail normalizeUsername normalizePatch)

/-- What the mappers find in an entry: the email and the username attribute, where the entry has one
value of it. -/
structure Profile where
  mail : Option String
  name : Option String

namespace Profile

/-- `identity_from_claims`, the email. -/
def email (P : Platform) (p : Profile) : Option String :=
  p.mail.bind fun raw => (normalizeEmail P raw).toOption

/-- `identity_from_claims`, the username. -/
def username (p : Profile) : Option String := p.name.filter fun raw => !(trim raw).isEmpty

def accountName (P : Platform) (p : Profile) : Option String :=
  p.username.bind fun raw => (normalizeUsername P raw).toOption

end Profile

/-- The patch of `refresh`: the email and the username, where the entry has others. -/
def refreshPatch (P : Platform) (trustEmail : Bool) (user : User) (p : Profile) : UserUpdate :=
  let email := p.email P
  let changed := email.isSome && email != user.email
  { email := if changed then some email else none
    emailVerified := if changed then some trustEmail else none
    username := (p.accountName P).filter (· != user.username) }

/-! ## What is normalised once is normal -/

variable {P : Platform} {raw x : String}

lemma normalizeEmail_normal (hlower : LowerLaws P.toLowercase) (h : normalizeEmail P raw = .ok x) :
    normalizeEmail P x = .ok x := by
  rw [normalizeEmail] at h
  split_ifs at h with hbad
  cases h
  rw [normalizeEmail, hlower.trim_lower, hlower.idem, if_neg hbad]

lemma normalizeUsername_normal (hlower : LowerLaws P.toLowercase)
    (h : normalizeUsername P raw = .ok x) : normalizeUsername P x = .ok x := by
  rw [normalizeUsername] at h
  split_ifs at h with hlength hspace
  cases h
  rw [normalizeUsername, hlower.trim_lower, hlower.idem, if_neg hlength, if_neg hspace]

lemma toOption_eq_some {f : Except AppError String} : f.toOption = some x ↔ f = .ok x := by
  cases f <;> simp [Except.toOption]

lemma Profile.normalizeEmail_email {p : Profile} (hlower : LowerLaws P.toLowercase)
    (h : p.email P = some x) : normalizeEmail P x = .ok x := by
  obtain ⟨raw, -, hraw⟩ := Option.bind_eq_some_iff.mp h
  exact normalizeEmail_normal hlower (toOption_eq_some.mp hraw)

lemma Profile.normalizeUsername_accountName {p : Profile} (hlower : LowerLaws P.toLowercase)
    (h : p.accountName P = some x) : normalizeUsername P x = .ok x := by
  obtain ⟨raw, -, hraw⟩ := Option.bind_eq_some_iff.mp h
  exact normalizeUsername_normal hlower (toOption_eq_some.mp hraw)

/-- **The patch is normal already**: writing it refuses nothing for what it is. -/
lemma normalizePatch_refreshPatch (hlower : LowerLaws P.toLowercase) (trustEmail : Bool) (user : User)
    (p : Profile) :
    normalizePatch P (refreshPatch P trustEmail user p) = .ok (refreshPatch P trustEmail user p) := by
  have husername : Users.normalizeOpt (normalizeUsername P)
      ((p.accountName P).filter (· != user.username)) =
        .ok ((p.accountName P).filter (· != user.username)) := by
    cases hname : (p.accountName P).filter (· != user.username) with
    | none => rfl
    | some n =>
        have hn := Profile.normalizeUsername_accountName hlower (Option.filter_eq_some_iff.mp hname).1
        rw [Users.normalizeOpt_some]
        exact ⟨n, hn, rfl⟩
  have hemail : ∀ b : Bool, b = ((p.email P).isSome && p.email P != user.email) →
      Users.normalizeField (normalizeEmail P) (if b then some (p.email P) else none) =
        .ok (if b then some (p.email P) else none) := by
    intro b hb
    cases b with
    | false => rfl
    | true =>
        obtain ⟨hsome, -⟩ := Bool.and_eq_true_iff.mp hb.symm
        obtain ⟨e, he⟩ := Option.isSome_iff_exists.mp hsome
        rw [if_pos rfl, he, Users.normalizeField_some]
        exact ⟨some e, Users.normalizeOpt_some.mpr ⟨e, Profile.normalizeEmail_email hlower he, rfl⟩, rfl⟩
  rw [normalizePatch, refreshPatch]
  dsimp only
  rw [husername, hemail _ rfl]
  rfl

/-! ## What the patch makes of a user -/

lemma email_refreshPatch (trustEmail : Bool) (user : User) (p : Profile) (he : p.email P = some x) :
    (refreshPatch P trustEmail user p).email.getD user.email = some x := by
  rw [refreshPatch]
  dsimp only
  rw [he, Option.isSome_some, Bool.true_and]
  by_cases hsame : some x = user.email
  · simp [hsame.symm]
  · simp [hsame]

lemma username_refreshPatch (trustEmail : Bool) (user : User) (p : Profile)
    (hn : p.accountName P = some x) :
    (refreshPatch P trustEmail user p).username.getD user.username = x := by
  rw [refreshPatch]
  dsimp only
  rw [hn, Option.filter_some]
  by_cases hsame : x = user.username
  · simp [hsame]
  · simp [hsame]

end Ridm.Ldap
