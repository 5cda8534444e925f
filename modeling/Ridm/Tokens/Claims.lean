import Ridm.Core.Jwt
import Ridm.Users.Model

/-!
# Claims out of user data

`profile_claims` and `apply_mappers` of `api/src/services/claims.rs`: the claims of a token that come
from a user's profile and from the tenant's and client's mappers.  Names the token service owns
(`PROTECTED_CLAIMS`) are out of their reach, which is what `get_profileClaims` and
`get_applyMappers` say.

Rendering a template and reading a number out of a text are parameters (`Formats`).
-/

namespace Ridm.Tokens

open Users (User)

def uuidText (u : Uuid) : String := String.ofList (Uuid128.text (BitVec.ofNat 128 u))

/-- `json!` of a UUID. -/
def uuidJson (u : Uuid) : Value := .string (uuidText u)

/-- `json!` of an integer. -/
def intJson (n : ℤ) : Value := .number (toString n)

/-- `json!` of some texts. -/
def textsJson (l : List String) : Value := .array (l.map .string)

def PROTECTED_CLAIMS : List String :=
  ["iss", "org_id", "features", "sub", "aud", "exp", "iat", "nbf", "jti", "azp", "at_hash", "c_hash",
    "nonce", "auth_time", "amr", "acr", "sid", "tid", "client_id", "scope", "typ", "cnf", "act"]

def BUILDER_CLAIMS : List String := ["roles", "groups", "permissions"]

def releasable (name : String) : Bool :=
  !PROTECTED_CLAIMS.contains name && !BUILDER_CLAIMS.contains name

/-- A name nothing but the token service writes: protected, or `permissions`. -/
def Owned (name : String) : Prop := name ∈ PROTECTED_CLAIMS ∨ name = "permissions"

variable {name : String}

lemma releasable_of_owned (h : Owned name) : releasable name = false := by
  rcases h with h | rfl
  · simp [releasable, h]
  · decide

/-! ## Profile attributes -/

/-- Where an attribute may be seen. -/
inductive Exposure
  | idToken
  | userinfo
  | accessToken
  deriving DecidableEq

/-- `AttributeDef`, as far as claims are released by it. -/
structure AttributeDef where
  name : String
  visibleIn : List Exposure

/-- The claim of one attribute. -/
def profileClaim (user : User) (claims : Members) (d : AttributeDef) : Members :=
  if !releasable d.name || (claims.get d.name).isSome then claims
  else
    match (user.attributes.member d.name).filter (· ≠ .null) with
    | some v => claims.insert d.name v
    | none => claims

def profileClaims (user : User) (schema : List AttributeDef) (exposure : Exposure)
    (claims : Members) : Members :=
  (schema.filter fun a => a.visibleIn.contains exposure).foldl (profileClaim user) claims

lemma get_profileClaim (h : releasable name = false) (user : User) (claims : Members)
    (d : AttributeDef) : (profileClaim user claims d).get name = claims.get name := by
  rw [profileClaim]
  split_ifs with hskip
  · rfl
  · split
    · rw [Members.get_insert, if_neg]
      rintro rfl
      simp [h] at hskip
    · rfl

lemma get_profileClaims (h : releasable name = false) (user : User)
    (schema : List AttributeDef) (exposure : Exposure) (claims : Members) :
    (profileClaims user schema exposure claims).get name = claims.get name := by
  rw [profileClaims]
  induction schema.filter (fun a => a.visibleIn.contains exposure) generalizing claims with
  | nil => rfl
  | cons d ds ih => rw [List.foldl_cons, ih, get_profileClaim h]

/-! ## Mappers -/

/-- Where a mapper's claim may go. -/
inductive TokenKind
  | access
  | id
  | userinfo
  deriving DecidableEq

/-- The type a claim is written in. -/
inductive JsonType
  | string
  | number
  | boolean
  | json

/-- What a mapper takes its claim from. -/
inductive MapperKind
  | userAttribute (userField claim : String) (jsonType : JsonType)
  | groups (claim : String) (fullPath : Bool)
  | roles (claim : String) (clientId : Option String)
  | hardcoded (claim : String) (value : Value)
  | template (claim source : String)
  | audience (audience : String)

/-- A claim mapper. -/
structure ClaimMapper where
  name : String
  kind : MapperKind
  includeIn : List TokenKind

/-- `ClaimMapper::claim_name`. -/
def ClaimMapper.claimName (m : ClaimMapper) : Option String :=
  match m.kind with
  | .userAttribute _ claim _ | .groups claim _ | .roles claim _ | .hardcoded claim _
  | .template claim _ => some claim
  | .audience _ => none

/-- `Role`, as far as tokens name it. -/
structure Role where
  id : Uuid
  clientId : Option Uuid
  name : String

/-- `Group`, as far as tokens name it. -/
structure Group where
  id : Uuid
  parentId : Option Uuid
  name : String

/-- What the mappers read. -/
structure ClaimContext where
  tenantId : Uuid
  user : Option User
  clientId : String
  scopes : List String
  roles : List Role
  groups : List Group

/-- What mappers ask other code for. -/
structure Formats where
  /-- `util::templating::render` over the context; `none` where it fails. -/
  render : String → ClaimContext → Option String
  /-- `parse::<f64>()`, as the JSON number it is written as. -/
  parseNumber : String → Option Value

/-- `mapper_claim_refusal`, less its text: the mapper may not write its claim. -/
def mapperClaimRefused (m : ClaimMapper) : Bool :=
  match m.claimName with
  | none => false
  | some name =>
      PROTECTED_CLAIMS.contains name ||
        (BUILDER_CLAIMS.contains name &&
          !(match m.kind with
            | .roles _ _ => name == "roles"
            | .groups _ _ => name == "groups"
            | _ => false))

def userField (user : User) : String → Option Value
  | "id" => some (uuidJson user.id.toNat)
  | "username" => some (.string user.username)
  | "email" => user.email.map .string
  | "email_verified" => some (.bool user.emailVerified)
  | "phone" => user.phone.map .string
  | "phone_verified" => some (.bool user.phoneVerified)
  | "locale" => user.locale.map .string
  | "org_id" => user.orgId.map fun o => uuidJson o.toNat
  | "created_at" => some (intJson (unixTime user.createdAt))
  | "updated_at" => some (intJson (unixTime user.updatedAt))
  | _ => none

def userAttribute (user : User) (name : String) : Option Value :=
  match stripPrefix name "attributes." with
  | some rest => (user.attributes.member rest).filter (· ≠ .null)
  | none => (userField user name).or ((user.attributes.member name).filter (· ≠ .null))

def coerce (F : Formats) (v : Value) : JsonType → Option Value
  | .json => some v
  | .string =>
      match v with
      | .string s => some (.string s)
      | .null => none
      | other => some (.string (String.ofList other.text))
  | .number =>
      match v with
      | .number n => some (.number n)
      | .string s => F.parseNumber s
      | _ => none
  | .boolean =>
      match v with
      | .bool b => some (.bool b)
      | .string "true" => some (.bool true)
      | .string "false" => some (.bool false)
      | _ => none

/-- The loop of `group_path`: the names above a group, the nearest first. -/
def pathAbove (all : List Group) : ℕ → Option Uuid → List String
  | 0, _ => []
  | _, none => []
  | fuel + 1, some pid =>
      match all.find? fun x => x.id == pid with
      | some p => p.name :: pathAbove all fuel p.parentId
      | none => []

def groupPath (g : Group) (all : List Group) : String :=
  String.intercalate "/" (g.name :: pathAbove all 64 g.parentId).reverse

/-- Into a set of texts in order. -/
def insertText (s : String) : List String → List String
  | [] => [s]
  | t :: ts => if s < t then s :: t :: ts else if s = t then t :: ts else t :: insertText s ts

/-- Collected into a `BTreeSet`. -/
def sortedSet (names : List String) : List String := names.foldr insertText []

/-- What a mapper writes, when it writes anything. -/
def mapperValue (F : Formats) (ctx : ClaimContext) : MapperKind → Option Value
  | .userAttribute field _ jsonType => do coerce F (← userAttribute (← ctx.user) field) jsonType
  | .groups _ fullPath => do
      let _ ← ctx.user
      some (textsJson (sortedSet (ctx.groups.map fun g =>
        if fullPath then groupPath g ctx.groups else g.name)))
  | .roles _ clientId =>
      some (textsJson (sortedSet ((ctx.roles.filter fun r =>
        match clientId with
        | none => r.clientId.isNone
        | some c => r.clientId.any fun id => uuidText id == c).map Role.name)))
  | .hardcoded _ value => some value
  | .template _ source => ((F.render source ctx).filter (· ≠ "")).map .string
  | .audience _ => none

/-- One mapper: the audiences so far and the claims. -/
def applyMapper (F : Formats) (ctx : ClaimContext) (kind : TokenKind)
    (acc : List String × Members) (m : ClaimMapper) : List String × Members :=
  if mapperClaimRefused m then acc
  else
    match m.kind, m.claimName, mapperValue F ctx m.kind with
    | .audience a, _, _ => if kind = .access then (acc.1 ++ [a], acc.2) else acc
    | _, some claim, some v => (acc.1, acc.2.insert claim v)
    | _, _, _ => acc

/-- `apply_mappers`: the extra audiences, and the claims. -/
def applyMappers (F : Formats) (mappers : List ClaimMapper) (ctx : ClaimContext) (kind : TokenKind)
    (claims : Members) : List String × Members :=
  (mappers.filter fun m => m.includeIn.contains kind).foldl (applyMapper F ctx kind) ([], claims)

lemma mapperClaimRefused_of_owned {m : ClaimMapper} (hname : m.claimName = some name)
    (h : Owned name) : mapperClaimRefused m = true := by
  rcases h with h | rfl
  · simp [mapperClaimRefused, hname, h]
  · cases hkind : m.kind <;> simp [mapperClaimRefused, hname, hkind, BUILDER_CLAIMS]

lemma get_applyMapper (h : Owned name) (F : Formats)
    (ctx : ClaimContext) (kind : TokenKind) (acc : List String × Members) (m : ClaimMapper) :
    (applyMapper F ctx kind acc m).2.get name = acc.2.get name := by
  rw [applyMapper]
  by_cases hrefused : mapperClaimRefused m = true
  · rw [if_pos hrefused]
  · rw [if_neg hrefused]
    split
    · split <;> rfl
    · next claim v hclaim _ _ =>
        rw [Members.get_insert, if_neg]
        rintro rfl
        exact hrefused (mapperClaimRefused_of_owned hclaim h)
    · rfl

lemma get_applyMappers (h : Owned name) (F : Formats)
    (mappers : List ClaimMapper) (ctx : ClaimContext) (kind : TokenKind) (claims : Members) :
    (applyMappers F mappers ctx kind claims).2.get name = claims.get name := by
  have hfold : ∀ (ms : List ClaimMapper) (acc : List String × Members),
      (ms.foldl (applyMapper F ctx kind) acc).2.get name = acc.2.get name := by
    intro ms
    induction ms with
    | nil => exact fun _ => rfl
    | cons m ms ih =>
        intro acc
        rw [List.foldl_cons, ih, get_applyMapper h]
  exact hfold _ _

lemma audience_of_mem_applyMappers {a : String} {F : Formats} {mappers : List ClaimMapper}
    {ctx : ClaimContext} {kind : TokenKind} {claims : Members}
    (h : a ∈ (applyMappers F mappers ctx kind claims).1) : ∃ m ∈ mappers, m.kind = .audience a := by
  have hfold : ∀ (ms : List ClaimMapper) (acc : List String × Members),
      a ∈ (ms.foldl (applyMapper F ctx kind) acc).1 → a ∈ acc.1 ∨ ∃ m ∈ ms, m.kind = .audience a := by
    intro ms
    induction ms with
    | nil => exact fun _ => .inl
    | cons m ms ih =>
        intro acc hmem
        rw [List.foldl_cons] at hmem
        rcases ih _ hmem with hnow | ⟨m', hm', hkind⟩
        · rw [applyMapper] at hnow
          split at hnow
          · exact .inl hnow
          · split at hnow
            · next b hkind =>
                split at hnow
                · rw [List.mem_append, List.mem_singleton] at hnow
                  rcases hnow with hnow | rfl
                  · exact .inl hnow
                  · exact .inr ⟨m, List.mem_cons_self, hkind⟩
                · exact .inl hnow
            · exact .inl hnow
            · exact .inl hnow
        · exact .inr ⟨m', List.mem_cons_of_mem _ hm', hkind⟩
  rcases hfold _ _ h with h | ⟨m, hm, hkind⟩
  · cases h
  · exact ⟨m, List.mem_of_mem_filter hm, hkind⟩

end Ridm.Tokens
