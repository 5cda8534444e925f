import Mathlib.Algebra.Order.BigOperators.Group.List
import Ridm.Roles.Directory

/-!
# Personal access tokens

`api/src/services/personal_access_tokens.rs`: a user mints a token with scopes that the user holds, and at
every use the token is narrowed to what the user still holds.  The permissions of a user are those of
`admin_access.rs` (`PermissionSet`, `permissionMatches`).

What names stand for is the set of concrete permissions they allow (`reach`).  A token's should be the part
of its scopes' that the user still has.  Narrowing asks whether the user's permissions allow each scope, as
if it were a permission that some request needs, and there a wildcard is never allowed: a token permits what
is itself one of its scopes (`mem_reach_narrowed`).  So a wildcard scope permits nothing
(`wildcard_scope_idle`), and `token_permits_iff` says when that makes no difference.
-/

namespace Ridm.Tokens.Personal

open Roles (PermissionSet permissionMatches stripSuffix)
open Users (UserStatus)

def PAT_SCOPE_ACCOUNT : String := "account"

def PREFIX : String := "rpat_"

/-- The part of the tenant's account settings that is about tokens. -/
structure AccountSettings where
  personalTokens : Bool
  personalTokenMaxDays : ℕ

/-- A personal access token to be created. -/
structure NewPersonalAccessToken where
  name : String
  scopes : List String
  expiresInDays : Option ℕ

/-- A row of `personal_access_tokens`. -/
structure PersonalAccessToken where
  id : Uuid
  tenantId : Uuid
  userId : Uuid
  name : String
  tokenHash : List UInt8
  scopes : List String
  expiresAt : Option Instant
  revokedAt : Option Instant

def PersonalAccessToken.isUsable (t : PersonalAccessToken) (now : Instant) : Bool :=
  t.revokedAt.isNone && t.expiresAt.all (now < ·)

/-! ## Minting -/

def fieldError (field message : String) : AppError := .validation [⟨field, message⟩]

/-- `available_scopes`, of a user who holds these permissions. -/
def availableScopes (held : PermissionSet) : List String := PAT_SCOPE_ACCOUNT :: held.names

/-- The loop of `create` over the scopes asked for. -/
def checkScopes (allowed : List String) : List String → List String → Except AppError (List String)
  | scopes, [] => .ok scopes
  | scopes, s :: rest =>
      let s := trim s
      if allowed.contains s then checkScopes allowed (if scopes.contains s then scopes else scopes ++ [s]) rest
      else .error (fieldError "scopes" ("\x60" ++ s ++ "\x60 is not a scope you hold"))

def expiryDays (asked : Option ℕ) (max : ℕ) : Except AppError (Option ℕ) :=
  match asked with
  | some 0 => .error (fieldError "expires_in_days" "must be at least 1")
  | some d =>
      if max = 0 ∨ d ≤ max then .ok (some d)
      else .error (fieldError "expires_in_days" ("must be at most " ++ toString max))
  | none => .ok (if max = 0 then none else some max)

/-- `create`: the permissions are the user's, and what is drawn is given. -/
def create (policy : AccountSettings) (held : Except AppError PermissionSet) (now : Instant)
    (id tenantId userId : Uuid) (tokenHash : List UInt8) (input : NewPersonalAccessToken) :
    Except AppError PersonalAccessToken := do
  require (.forbidden "this organisation does not allow personal access tokens") policy.personalTokens
  let name := trim input.name
  require (fieldError "name" "must be 1-100 characters") (name ≠ "" && decide (name.utf8ByteSize ≤ 100))
  let perms ← held
  let scopes ← checkScopes (availableScopes perms) [] input.scopes
  require (fieldError "scopes" "at least one scope is required") (!scopes.isEmpty)
  let days ← expiryDays input.expiresInDays policy.personalTokenMaxDays
  .ok ⟨id, tenantId, userId, name, tokenHash, scopes, days.map fun d => now + seconds (86400 * d), none⟩

/-! ## Use -/

/-- What a user is looked up for. -/
structure Account where
  status : UserStatus
  lockedUntil : Option Instant

def Account.isLockedNow (a : Account) (now : Instant) : Bool :=
  a.status == .locked || a.lockedUntil.any (now < ·)

/-- What a use finds. -/
structure Surroundings where
  sha256 : String → List UInt8
  now : Instant
  record : List UInt8 → Option PersonalAccessToken
  /-- `tenants::get_cached`, and whether the tenant is active. -/
  tenantActive : Uuid → Option Bool
  /-- `users::get`. -/
  user : Uuid → Uuid → Option Account
  permissions : Uuid → Uuid → Except AppError PermissionSet

/-- What a presented token permits. -/
structure Authenticated where
  token : PersonalAccessToken
  user : Account
  permissions : PermissionSet

/-- The scopes that `authenticate` keeps. -/
def narrowed (scopes : List String) (held : PermissionSet) : PermissionSet :=
  .new (scopes.filter fun s => s != PAT_SCOPE_ACCOUNT && held.allows s)

def authenticate (x : Surroundings) (token : String) : Except AppError (Option Authenticated) :=
  if (stripPrefix token PREFIX).isNone ∨ 128 < token.utf8ByteSize then .ok none
  else
    match x.record (x.sha256 token) with
    | none => .ok none
    | some rec =>
        if !rec.isUsable x.now then .ok none
        else if x.tenantActive rec.tenantId != some true then .ok none
        else
          match x.user rec.tenantId rec.userId with
          | none => .ok none
          | some user =>
              if user.status != .active || user.isLockedNow x.now then .ok none
              else do
                let held ← x.permissions rec.tenantId rec.userId
                .ok (some ⟨rec, user, narrowed rec.scopes held⟩)

/-! ## What names stand for -/

/-- The concrete permissions that names allow. -/
def reach (names : List String) : Set String :=
  {p | '*' ∉ p.toList ∧ ∃ g ∈ names, permissionMatches g p = true}

variable {s g p a b : String} {scopes : List String} {held : PermissionSet}

lemma stripSuffix_eq_some {ending : String} :
    stripSuffix s ending = some a ↔ s.toList = a.toList ++ ending.toList := by
  rw [stripSuffix]
  constructor
  · intro h
    split_ifs at h with hsuffix
    obtain ⟨start, hstart⟩ := List.isSuffixOf_iff_suffix.mp hsuffix
    rw [← Option.some.inj h, String.toList_ofList, ← hstart, List.length_append, Nat.add_sub_cancel,
      List.take_left]
  · intro h
    have hsuffix : ending.toList.isSuffixOf s.toList = true :=
      List.isSuffixOf_iff_suffix.mpr ⟨a.toList, h.symm⟩
    rw [if_pos hsuffix, h, List.length_append, Nat.add_sub_cancel, List.take_left, String.ofList_toList]

lemma stripPrefix_eq_some {start rest : String} :
    stripPrefix s start = some rest ↔ s.toList = start.toList ++ rest.toList := by
  rw [stripPrefix]
  constructor
  · intro h
    split_ifs at h with hstart
    obtain ⟨r, hr⟩ := List.isPrefixOf_iff_prefix.mp hstart
    rw [← Option.some.inj h, String.toList_ofList, ← hr, List.drop_left]
  · intro h
    have hstart : start.toList.isPrefixOf s.toList = true :=
      List.isPrefixOf_iff_prefix.mpr ⟨rest.toList, h.symm⟩
    rw [if_pos hstart, h, List.drop_left, String.ofList_toList]

lemma mem_of_wildcard (h : stripSuffix g ":*" = some a) : '*' ∈ g.toList := by
  rw [stripSuffix_eq_some.mp h]
  exact List.mem_append_right _ (by decide)

lemma segment_iff {rest : String} :
    (decide (1 < rest.utf8ByteSize) && rest.toList.head? == some ':' && !rest.toList.contains '*') = true ↔
      ∃ r, rest.toList = ':' :: r ∧ r ≠ [] ∧ '*' ∉ rest.toList := by
  have hsize : ∀ r, rest.toList = ':' :: r → (1 < rest.utf8ByteSize ↔ r ≠ []) := by
    intro r hr
    have hrest : rest = ":" ++ String.ofList r := by
      rw [← String.toList_inj, hr, String.toList_append, String.toList_ofList, String.toList_ofList]
      rfl
    have hone : ":".utf8ByteSize = 1 := by decide
    have hzero : (String.ofList r).utf8ByteSize = 0 ↔ r = [] := by
      rw [String.utf8ByteSize_eq_zero_iff, ← String.toList_inj, String.toList_ofList]
      rfl
    rw [hrest, String.utf8ByteSize_append, hone]
    have hpos : 1 < 1 + (String.ofList r).utf8ByteSize ↔ (String.ofList r).utf8ByteSize ≠ 0 := by omega
    rw [hpos, Ne, hzero]
  constructor
  · intro h
    simp only [Bool.and_eq_true, decide_eq_true_eq, beq_iff_eq, Bool.not_eq_true'] at h
    obtain ⟨⟨hlong, hhead⟩, hstar⟩ := h
    cases hrest : rest.toList with
    | nil => simp [hrest] at hhead
    | cons c r =>
        have hc : c = ':' := by simpa [hrest] using hhead
        subst hc
        exact ⟨r, rfl, (hsize r hrest).mp hlong, by simpa [hrest] using hstar⟩
  · rintro ⟨r, hrest, hne, hstar⟩
    simp only [Bool.and_eq_true, decide_eq_true_eq, beq_iff_eq, Bool.not_eq_true']
    exact ⟨⟨(hsize r hrest).mpr hne, by rw [hrest]; rfl⟩, by simpa using hstar⟩

lemma permissionMatches_iff :
    permissionMatches g p = true ↔ '*' ∉ p.toList ∧
      (g = p ∨ ∃ a rest, stripSuffix g ":*" = some a ∧ p.toList = a.toList ++ ':' :: rest ∧ rest ≠ []) := by
  rw [permissionMatches]
  by_cases hstar : '*' ∈ p.toList
  · simp [hstar]
  · rw [if_neg (by simpa using hstar)]
    by_cases hsame : g = p
    · simp [hsame, hstar]
    · rw [if_neg hsame, or_iff_right hsame, and_iff_right hstar]
      cases hwild : stripSuffix g ":*" with
      | none => simp
      | some a =>
          dsimp only
          rw [Option.any_eq_true]
          constructor
          · rintro ⟨rest, hrest, hsegment⟩
            obtain ⟨r, hr, hne, -⟩ := segment_iff.mp hsegment
            exact ⟨a, r, rfl, by rw [stripPrefix_eq_some.mp hrest, hr], hne⟩
          · rintro ⟨b, r, hb, hp, hne⟩
            rw [← Option.some.inj hb] at hp
            refine ⟨String.ofList (':' :: r), stripPrefix_eq_some.mpr (by rw [hp, String.toList_ofList]),
              segment_iff.mpr ⟨r, String.toList_ofList, hne, ?_⟩⟩
            rw [String.toList_ofList]
            intro hmem
            exact hstar (hp ▸ List.mem_append_right _ hmem)

lemma permissionMatches_self (h : '*' ∉ p.toList) : permissionMatches p p = true :=
  permissionMatches_iff.mpr ⟨h, .inl rfl⟩

lemma concrete_of_allows (h : held.allows p = true) : '*' ∉ p.toList := by
  obtain ⟨g, -, hg⟩ := List.any_eq_true.mp h
  exact (permissionMatches_iff.mp hg).1

lemma mem_reach_names : p ∈ reach held.names ↔ held.allows p = true := by
  constructor
  · rintro ⟨-, g, hg, hmatch⟩
    exact List.any_eq_true.mpr ⟨g, hg, hmatch⟩
  · intro h
    obtain ⟨g, hg, hmatch⟩ := List.any_eq_true.mp h
    exact ⟨concrete_of_allows h, g, hg, hmatch⟩

/-! ## What a token permits -/

/-- **A token permits what is itself one of its scopes** and what the user still holds. -/
theorem mem_reach_narrowed :
    p ∈ reach (narrowed scopes held).names ↔ p ∈ scopes ∧ p ≠ PAT_SCOPE_ACCOUNT ∧ p ∈ reach held.names := by
  rw [mem_reach_names, mem_reach_names]
  have hkept : ∀ s, s ∈ (narrowed scopes held).names ↔
      s ∈ scopes ∧ s ≠ PAT_SCOPE_ACCOUNT ∧ held.allows s = true := by
    intro s
    rw [narrowed, PermissionSet.mem_new, List.mem_filter, Bool.and_eq_true, bne_iff_ne]
  constructor
  · intro h
    obtain ⟨s, hs, hmatch⟩ := List.any_eq_true.mp h
    obtain ⟨hscope, hother, hallowed⟩ := (hkept s).mp hs
    obtain ⟨-, hsame | ⟨a, -, hwild, -, -⟩⟩ := permissionMatches_iff.mp hmatch
    · subst hsame
      exact ⟨hscope, hother, hallowed⟩
    · exact absurd (mem_of_wildcard hwild) (concrete_of_allows hallowed)
  · rintro ⟨hscope, hother, hallowed⟩
    exact List.any_eq_true.mpr ⟨p, (hkept p).mpr ⟨hscope, hother, hallowed⟩,
      permissionMatches_self (concrete_of_allows hallowed)⟩

/-- Two wildcards, by what they begin with, that cover a permission in common: one begins with the other. -/
def Meet (a b : String) : Prop :=
  ((a.toList ++ [':']) <+: (b.toList ++ [':']) ∧ '*' ∉ b.toList) ∨
    ((b.toList ++ [':']) <+: (a.toList ++ [':']) ∧ '*' ∉ a.toList)

/-- The token's wildcards make no difference: what they cover of what is held is among the scopes anyway,
and no wildcard that is held meets one of them.  And `account` is not held as a permission. -/
structure Explicit (scopes : List String) (held : PermissionSet) : Prop where
  account : PAT_SCOPE_ACCOUNT ∈ scopes → PAT_SCOPE_ACCOUNT ∉ held.names
  names : ∀ s ∈ scopes, ∀ g ∈ held.names, (stripSuffix s ":*").isSome → permissionMatches s g = true → g ∈ scopes
  wildcards : ∀ s ∈ scopes, ∀ g ∈ held.names, ∀ a b, stripSuffix s ":*" = some a →
    stripSuffix g ":*" = some b → ¬ Meet a b

lemma exists_covered_of_prefix (n : ℕ) (hs : stripSuffix s ":*" = some a) (hg : stripSuffix g ":*" = some b)
    (h : (a.toList ++ [':']) <+: (b.toList ++ [':'])) (hstar : '*' ∉ b.toList) :
    ∃ p, n < p.toList.length ∧ permissionMatches s p = true ∧ permissionMatches g p = true := by
  obtain ⟨t, ht⟩ := h
  have hne : ∀ l : List Char, l ++ List.replicate (n + 1) 'x' ≠ [] := by simp
  have hconcrete : '*' ∉ (b.toList ++ ':' :: List.replicate (n + 1) 'x') := by simp [hstar]
  have hagain : b.toList ++ ':' :: List.replicate (n + 1) 'x' =
      a.toList ++ ':' :: (t ++ List.replicate (n + 1) 'x') := by
    have happend := congrArg (· ++ List.replicate (n + 1) 'x') ht
    simpa using happend.symm
  refine ⟨String.ofList (b.toList ++ ':' :: List.replicate (n + 1) 'x'), ?_, ?_, ?_⟩
  · rw [String.toList_ofList]
    simp
    omega
  · refine permissionMatches_iff.mpr ⟨by rw [String.toList_ofList]; exact hconcrete, .inr ⟨a, _, hs, ?_, hne t⟩⟩
    rw [String.toList_ofList, hagain]
  · refine permissionMatches_iff.mpr ⟨by rw [String.toList_ofList]; exact hconcrete, .inr ⟨b, _, hg, ?_, hne []⟩⟩
    rw [String.toList_ofList]
    rfl

lemma exists_covered (n : ℕ) (hs : stripSuffix s ":*" = some a) (hg : stripSuffix g ":*" = some b)
    (h : Meet a b) :
    ∃ p, n < p.toList.length ∧ permissionMatches s p = true ∧ permissionMatches g p = true := by
  rcases h with ⟨hstart, hstar⟩ | ⟨hstart, hstar⟩
  · exact exists_covered_of_prefix n hs hg hstart hstar
  · obtain ⟨p, hlong, hcovered, hcovered'⟩ := exists_covered_of_prefix n hg hs hstart hstar
    exact ⟨p, hlong, hcovered', hcovered⟩

lemma meet_of_covered {r r' : List Char} (hstar : '*' ∉ p.toList) (ha : p.toList = a.toList ++ ':' :: r)
    (hb : p.toList = b.toList ++ ':' :: r') : Meet a b := by
  have hpa : (a.toList ++ [':']) <+: p.toList := ⟨r, by rw [ha]; simp⟩
  have hpb : (b.toList ++ [':']) <+: p.toList := ⟨r', by rw [hb]; simp⟩
  rcases List.prefix_or_prefix_of_prefix hpa hpb with h | h
  · exact .inl ⟨h, fun hmem => hstar (hb ▸ List.mem_append_left _ hmem)⟩
  · exact .inr ⟨h, fun hmem => hstar (ha ▸ List.mem_append_left _ hmem)⟩

lemma reach_narrowed_subset : reach (narrowed scopes held).names ⊆ reach scopes ∩ reach held.names := by
  intro p hp
  obtain ⟨hscope, -, hheld⟩ := mem_reach_narrowed.mp hp
  exact ⟨⟨hheld.1, p, hscope, permissionMatches_self hheld.1⟩, hheld⟩

lemma Explicit.reach_subset (h : Explicit scopes held) :
    reach scopes ∩ reach held.names ⊆ reach (narrowed scopes held).names := by
  rintro p ⟨⟨hconcrete, s, hs, hcovers⟩, hheld⟩
  refine mem_reach_narrowed.mpr ⟨?_, ?_, hheld⟩
  · obtain ⟨-, g, hg, hgrants⟩ := hheld
    obtain ⟨-, rfl | ⟨a, r, ha, hp, hr⟩⟩ := permissionMatches_iff.mp hcovers
    · exact hs
    · obtain ⟨-, rfl | ⟨b, r', hb, hp', hr'⟩⟩ := permissionMatches_iff.mp hgrants
      · exact h.names s hs g hg (by rw [ha]; rfl) hcovers
      · exact absurd (meet_of_covered hconcrete hp hp') (h.wildcards s hs g hg a b ha hb)
  · rintro rfl
    have hno : ∀ g, permissionMatches g PAT_SCOPE_ACCOUNT = true → g = PAT_SCOPE_ACCOUNT := by
      intro g hg
      obtain ⟨-, hsame | ⟨a, r, -, hp, -⟩⟩ := permissionMatches_iff.mp hg
      · exact hsame
      · have hcolon : ':' ∈ PAT_SCOPE_ACCOUNT.toList := hp ▸ List.mem_append_right _ List.mem_cons_self
        exact absurd hcolon (by decide)
    obtain ⟨-, g, hg, hgrants⟩ := hheld
    exact h.account (hno s hcovers ▸ hs) (hno g hgrants ▸ hg)

/-- **When a token permits exactly what its scopes cover and its user still holds.** -/
theorem narrowed_iff :
    reach (narrowed scopes held).names = reach scopes ∩ reach held.names ↔ Explicit scopes held := by
  constructor
  · intro h
    refine ⟨?_, ?_, ?_⟩
    · intro hscope hheld
      have hconcrete : '*' ∉ PAT_SCOPE_ACCOUNT.toList := by decide
      have hmem : PAT_SCOPE_ACCOUNT ∈ reach (narrowed scopes held).names := h ▸
        ⟨⟨hconcrete, _, hscope, permissionMatches_self hconcrete⟩, hconcrete, _, hheld,
          permissionMatches_self hconcrete⟩
      exact (mem_reach_narrowed.mp hmem).2.1 rfl
    · intro s hs g hg _ hcovers
      have hconcrete := (permissionMatches_iff.mp hcovers).1
      have hmem : g ∈ reach (narrowed scopes held).names := h ▸
        ⟨⟨hconcrete, s, hs, hcovers⟩, hconcrete, g, hg, permissionMatches_self hconcrete⟩
      exact (mem_reach_narrowed.mp hmem).1
    · intro s hs g hg a b ha hb hmeet
      -- one longer than every scope is not a scope
      obtain ⟨n, hn⟩ : ∃ n, ∀ t ∈ scopes, t.toList.length ≤ n :=
        ⟨(scopes.map fun t => t.toList.length).sum, fun t ht =>
          List.single_le_sum (fun _ _ => Nat.zero_le _) _ (List.mem_map_of_mem ht)⟩
      obtain ⟨p, hlong, hcovers, hgrants⟩ := exists_covered n ha hb hmeet
      have hconcrete := (permissionMatches_iff.mp hcovers).1
      have hmem : p ∈ reach (narrowed scopes held).names := h ▸
        ⟨⟨hconcrete, s, hs, hcovers⟩, hconcrete, g, hg, hgrants⟩
      have hle := hn p (mem_reach_narrowed.mp hmem).1
      omega
  · intro h
    exact Set.Subset.antisymm reach_narrowed_subset h.reach_subset

/-! ## From minting to use -/

variable {policy : AccountSettings} {held₀ : PermissionSet} {now : Instant} {tokenId tenantId userId : Uuid}
  {tokenHash : List UInt8} {input : NewPersonalAccessToken} {rec : PersonalAccessToken} {x : Surroundings}
  {token : String} {auth : Authenticated}

lemma checkScopes_allowed {allowed acc asked out : List String} (h : checkScopes allowed acc asked = .ok out)
    (hacc : ∀ s ∈ acc, s ∈ allowed) : ∀ s ∈ out, s ∈ allowed := by
  induction asked generalizing acc with
  | nil =>
      rw [checkScopes] at h
      exact Except.ok.inj h ▸ hacc
  | cons s asked ih =>
      rw [checkScopes] at h
      split_ifs at h with hallowed hknown
      · exact ih h hacc
      · refine ih h fun t ht => ?_
        rcases List.mem_append.mp ht with ht | ht
        · exact hacc t ht
        · rw [List.mem_singleton.mp ht]
          exact List.contains_iff_mem.mp hallowed

lemma create_spec {held : Except AppError PermissionSet}
    (h : create policy held now tokenId tenantId userId tokenHash input = .ok rec) :
    rec.tenantId = tenantId ∧ rec.userId = userId ∧ rec.tokenHash = tokenHash ∧
      ∃ perms, held = .ok perms ∧ ∀ s ∈ rec.scopes, s = PAT_SCOPE_ACCOUNT ∨ s ∈ perms.names := by
  simp only [create, bind_eq_ok] at h
  obtain ⟨_, -, _, -, perms, hperms, scopes, hscopes, _, -, days, -, hrec⟩ := h
  rw [← Except.ok.inj hrec]
  exact ⟨rfl, rfl, rfl, perms, hperms, fun s hs =>
    List.mem_cons.mp (checkScopes_allowed hscopes (fun _ h => absurd h List.not_mem_nil) s hs)⟩

lemma authenticate_spec (h : authenticate x token = .ok (some auth)) :
    x.record (x.sha256 token) = some auth.token ∧ ∃ held,
      x.permissions auth.token.tenantId auth.token.userId = .ok held ∧
        auth.permissions = narrowed auth.token.scopes held := by
  rw [authenticate] at h
  split_ifs at h
  · cases h
  · split at h
    · cases h
    · rename_i rec hrec
      split_ifs at h
      · cases h
      · cases h
      · split at h
        · cases h
        · rename_i user huser
          split_ifs at h
          · cases h
          · obtain ⟨held, hheld, hauth⟩ := bind_eq_ok.mp h
            rw [← Option.some.inj (Except.ok.inj hauth)]
            exact ⟨hrec, held, hheld, rfl⟩

/-- **When a token permits exactly what it names and its user still holds**: for whatever the user held when
the token was minted and holds when it is used. -/
theorem token_permits_iff
    (hcreate : create policy (.ok held₀) now tokenId tenantId userId (x.sha256 token) input = .ok rec)
    (hrec : x.record (x.sha256 token) = some rec) (hheld : x.permissions tenantId userId = .ok held)
    (hauth : authenticate x token = .ok (some auth)) :
    (∀ p, '*' ∉ p.toList → (auth.permissions.allows p = true ↔
        (∃ s ∈ rec.scopes, permissionMatches s p = true) ∧ held.allows p = true)) ↔
      Explicit rec.scopes held := by
  obtain ⟨htenant, huser, -, -⟩ := create_spec hcreate
  obtain ⟨hfound, held', hheld', hpermissions⟩ := authenticate_spec hauth
  have hsame : auth.token = rec := Option.some.inj (hfound.symm.trans hrec)
  rw [hsame, htenant, huser, hheld] at hheld'
  rw [hsame, ← Except.ok.inj hheld'] at hpermissions
  rw [hpermissions, ← narrowed_iff, Set.ext_iff]
  constructor
  · intro h p
    rw [Set.mem_inter_iff, mem_reach_names, mem_reach_names]
    constructor
    · intro hp
      exact reach_narrowed_subset (mem_reach_names.mpr hp) |>.imp id mem_reach_names.mp
    · rintro ⟨⟨hconcrete, hcovers⟩, hallowed⟩
      exact (h p hconcrete).mpr ⟨hcovers, hallowed⟩
  · intro h p hconcrete
    rw [← mem_reach_names, h p, Set.mem_inter_iff, mem_reach_names]
    exact and_congr_left fun _ => and_iff_right hconcrete

/-- A token of concrete permissions is narrowed as it should be. -/
theorem explicit_of_concrete
    (hcreate : create policy (.ok held₀) now tokenId tenantId userId tokenHash input = .ok rec)
    (hconcrete : ∀ g ∈ held₀.names, '*' ∉ g.toList) (haccount : PAT_SCOPE_ACCOUNT ∉ held.names) :
    Explicit rec.scopes held := by
  obtain ⟨-, -, -, perms, hperms, hscopes⟩ := create_spec hcreate
  have hno : ∀ s ∈ rec.scopes, stripSuffix s ":*" = none := by
    intro s hs
    cases hwild : stripSuffix s ":*" with
    | none => rfl
    | some a =>
        rcases hscopes s hs with rfl | hheld
        · exact absurd (mem_of_wildcard hwild) (by decide)
        · exact absurd (mem_of_wildcard hwild) (hconcrete s (Except.ok.inj hperms ▸ hheld))
  refine ⟨fun _ => haccount, fun s hs g _ hwild => ?_, fun s hs g _ a b ha => ?_⟩
  · rw [hno s hs] at hwild
    exact nomatch hwild
  · rw [hno s hs] at ha
    exact nomatch ha

/-! ## A wildcard scope -/

def sampleToken (scopes : List String) : PersonalAccessToken := ⟨1, 2, 3, "ci", [], scopes, none, none⟩

def sampleUse (scopes held : List String) : Surroundings where
  sha256 := fun _ => []
  now := 0
  record := fun _ => some (sampleToken scopes)
  tenantActive := fun _ => some true
  user := fun _ _ => some ⟨.active, none⟩
  permissions := fun _ _ => .ok (.new held)

lemma create_sample (hempty : scopes.isEmpty = false) (hscopes : ∀ allowed, (∀ s ∈ scopes, s ∈ allowed) →
    checkScopes allowed [] scopes = .ok scopes) :
    create ⟨true, 0⟩ (.ok (.new scopes)) 0 1 2 3 [] ⟨"ci", scopes, none⟩ = .ok (sampleToken scopes) := by
  have hname : (trim "ci" ≠ "" && decide ((trim "ci").utf8ByteSize ≤ 100)) = true := by decide
  rw [create]
  dsimp only
  rw [hname]
  show (checkScopes (availableScopes (.new scopes)) [] scopes >>= _) = _
  rw [hscopes (availableScopes (.new scopes)) fun s hs =>
    List.mem_cons_of_mem _ (PermissionSet.mem_new.mpr hs)]
  show (require _ (!scopes.isEmpty) >>= _) = _
  rw [hempty]
  rfl

lemma authenticate_sample (scopes held : List String) :
    authenticate (sampleUse scopes held) "rpat_x" =
      .ok (some ⟨sampleToken scopes, ⟨.active, none⟩, narrowed scopes (.new held)⟩) := by
  have hstart : ¬ ((stripPrefix "rpat_x" PREFIX).isNone ∨ 128 < "rpat_x".utf8ByteSize) := by decide
  rw [authenticate, if_neg hstart]
  rfl

lemma allows_sample (h : permissionMatches s p = true) : (PermissionSet.new [s]).allows p = true :=
  List.any_eq_true.mpr ⟨s, PermissionSet.mem_new.mpr List.mem_cons_self, h⟩

def minted : List String := ["ridm:users:read", "ridm:users:write"]

/-- Of a token for two permissions, of which one is held no more. -/
theorem token_permits_iff_users_read :
    ∃ auth, authenticate (sampleUse minted ["ridm:users:read"]) "rpat_x" = .ok (some auth) ∧
      ∀ p, '*' ∉ p.toList → (auth.permissions.allows p = true ↔
        (∃ s ∈ minted, permissionMatches s p = true) ∧
          (PermissionSet.new ["ridm:users:read"]).allows p = true) := by
  have hcreate : create ⟨true, 0⟩ (.ok (.new minted)) 0 1 2 3 [] ⟨"ci", minted, none⟩ =
      .ok (sampleToken minted) := by
    refine create_sample rfl fun allowed hall => ?_
    have hread : trim "ridm:users:read" = "ridm:users:read" := by decide
    have hwrite : trim "ridm:users:write" = "ridm:users:write" := by decide
    simp [minted, checkScopes, hread, hwrite, hall _ List.mem_cons_self,
      hall _ (List.mem_cons_of_mem _ List.mem_cons_self)]
  have hconcrete : ∀ g ∈ minted, '*' ∉ g.toList := by decide
  have hexplicit : Explicit minted (.new ["ridm:users:read"]) := explicit_of_concrete hcreate
    (fun g hg => hconcrete g (PermissionSet.mem_new.mp hg))
    fun h => absurd (PermissionSet.mem_new.mp h) (by decide)
  exact ⟨_, authenticate_sample _ _,
    (token_permits_iff hcreate rfl rfl (authenticate_sample _ _)).mpr hexplicit⟩

/-- **A wildcard scope permits nothing**: minted and used by a user who holds `ridm:users:*` all along, the
token does not permit what both cover. -/
theorem wildcard_scope_idle :
    create ⟨true, 0⟩ (.ok (.new ["ridm:users:*"])) 0 1 2 3 [] ⟨"ci", ["ridm:users:*"], none⟩ =
        .ok (sampleToken ["ridm:users:*"]) ∧
      ∃ auth, authenticate (sampleUse ["ridm:users:*"] ["ridm:users:*"]) "rpat_x" = .ok (some auth) ∧
        auth.token = sampleToken ["ridm:users:*"] ∧
        permissionMatches "ridm:users:*" "ridm:users:read" = true ∧
        (PermissionSet.new ["ridm:users:*"]).allows "ridm:users:read" = true ∧
        auth.permissions.allows "ridm:users:read" = false := by
  have hcovers : permissionMatches "ridm:users:*" "ridm:users:read" = true := by decide
  refine ⟨create_sample rfl fun allowed hall => ?_, _, authenticate_sample _ _, rfl, hcovers, allows_sample hcovers, ?_⟩
  · rw [checkScopes, show trim "ridm:users:*" = "ridm:users:*" by decide,
      if_pos (List.contains_iff_mem.mpr (hall _ List.mem_cons_self))]
    rfl
  rw [← Bool.not_eq_true, ← mem_reach_names, mem_reach_narrowed]
  rintro ⟨hscope, -, -⟩
  exact absurd hscope (by decide)

end Ridm.Tokens.Personal
