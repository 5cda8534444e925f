import Mathlib.Data.Option.Basic
import Ridm.Core.Json
import Ridm.Core.Text
import Ridm.Core.Types

/-!
# Signing in through an upstream provider

`api/src/services/broker.rs`, from the callback's code to the local account: `prove` redeems the
code and establishes an `Identity` out of the claims it collects, and `resolve_user` finds the
account that identity stands for.

Three sources feed one map of claims: the `user` parameter that the browser sends next to the code,
the ID token, and the userinfo document.  Everything another party answers during one sign-in is an
`Exchange`; code outside the repository (JWTs, JSON texts, Unicode, address validation) is a
`Platform`.
-/

namespace Ridm.Broker

/-! ## Providers -/

/-- The protocol a provider speaks. -/
inductive IdpKind
  | oidc
  | oauth2
  | saml
  | ldap
  | kerberos
  deriving DecidableEq

/-- How an external identity finds its account. -/
inductive LinkPolicy
  | verifiedEmail
  | explicit
  | alwaysNew

/-- How the provider knows this client. -/
inductive IdpAuthMethod
  | clientSecretBasic
  | clientSecretPost
  | none

/-- `IdpMappers`, without the profile attributes. -/
structure IdpMappers where
  subject : Option String := none
  username : Option String := none
  email : Option String := none
  emailVerified : Option String := none

namespace IdpMappers

def subjectClaim (m : IdpMappers) : String := m.subject.getD "sub"

def usernameClaim (m : IdpMappers) : String := m.username.getD "preferred_username"

def emailClaim (m : IdpMappers) : String := m.email.getD "email"

def emailVerifiedClaim (m : IdpMappers) : String := m.emailVerified.getD "email_verified"

end IdpMappers

/-- `IdentityProvider`, as far as a brokered sign-in reads it. -/
structure IdentityProvider where
  id : Uuid
  aliasName : String
  kind : IdpKind
  preset : Option String := none
  issuer : Option String := none
  tokenEndpoint : Option String := none
  userinfoEndpoint : Option String := none
  jwksUri : Option String := none
  clientId : String
  clientSecretSet : Bool := false
  tokenEndpointAuthMethod : IdpAuthMethod := .none
  linkPolicy : LinkPolicy := .verifiedEmail
  trustEmail : Bool := false
  mappers : IdpMappers := {}

/-- `StateRecord`, as far as `prove` reads it. -/
structure StateRecord where
  nonce : String
  verifier : Option String

/-- `Identity`: what upstream said about the person. -/
structure Identity where
  subject : String
  email : Option String
  emailVerified : Bool
  username : Option String
  claims : Members

/-! ## Everything around a sign-in -/

/-- `jsonwebtoken::Algorithm`. -/
inductive Algorithm
  | hs256 | hs384 | hs512
  | es256 | es384
  | rs256 | rs384 | rs512
  | ps256 | ps384 | ps512
  | edDSA
  deriving DecidableEq

/-- A JWT's header, as far as it is looked at. -/
structure Header where
  alg : Algorithm
  kid : Option String

/-- `jsonwebtoken::Validation`. -/
structure Validation where
  alg : Algorithm
  leeway : ℕ
  validateNbf : Bool
  audience : List String
  requiredSpecClaims : List String
  iss : Option (List String)

/-- Code outside the repository.  Errors are the texts they are printed as. -/
structure Platform where
  /-- `str::to_lowercase`. -/
  toLowercase : String → String
  /-- `validator::ValidateEmail::validate_email`. -/
  validateEmail : String → Bool
  /-- `Uuid::parse_str`. -/
  parseUuid : String → Option Uuid
  /-- `serde_json::from_str::<Value>`. -/
  fromStr : String → Option Value
  /-- `jsonwebtoken::decode_header`. -/
  decodeHeader : String → Except String Header
  /-- `Jwk` out of a JSON value and `DecodingKey::from_jwk`; a key is named by its JWK. -/
  decodingKey : Value → Except String Value
  /-- `jsonwebtoken::decode::<Map<String, Value>>`, at a time. -/
  decode : Instant → String → Value → Validation → Except String Members

/-- What the other parties answer during one sign-in: the key store, the provider's endpoints (by
what is asked for, the address and the bearer token) and the cache of JWK sets, which is read and
refreshed by `refresh`. -/
structure Exchange where
  now : Instant
  decryptSecret : Except AppError String
  postForm : String → String → List (String × String) → Option (String × String) →
    Except AppError Value
  getJson : String → String → Option String → Except AppError Value
  cachedJwks : Bool → Except AppError (Option Value)
  refreshAllowed : Except AppError Bool
  storeJwks : Value → Except AppError Unit

/-! ## Claims -/

/-- `claim`: by name; a dot descends into an object. -/
def claim (claims : Members) (path : String) : Option Value :=
  match split path '.' with
  | [] => none
  | first :: parts => do
      let cur ← claims.get first
      parts.foldlM Value.member cur

def scalarText : Value → Option String
  | .string s => some s
  | .number n => some n
  | _ => none

/-- `users::normalize_email`. -/
def normalizeEmail (p : Platform) (raw : String) : Except AppError String :=
  let e := p.toLowercase (trim raw)
  if e.utf8ByteSize > 320 ∨ p.validateEmail e = false then
    .error (.badRequest "invalid email address")
  else .ok e

/-- The subject of an identity: `verified_subject` wins over the subject mapper. -/
def subjectOf (idp : IdentityProvider) (claims : Members) (verifiedSubject : Option String) :
    Option String :=
  match verifiedSubject with
  | some s => some s
  | none => (claim claims idp.mappers.subjectClaim).bind scalarText

def emailOf (p : Platform) (idp : IdentityProvider) (claims : Members) : Option String :=
  ((claim claims idp.mappers.emailClaim).bind Value.asStr).bind fun e =>
    (normalizeEmail p e).toOption

def emailVerifiedOf (idp : IdentityProvider) (claims : Members) : Bool :=
  ((claim claims idp.mappers.emailVerifiedClaim).map fun v =>
    v.asBool == some true || v.asStr == some "true").getD false

def usernameOf (idp : IdentityProvider) (claims : Members) : Option String :=
  ((claim claims idp.mappers.usernameClaim).bind scalarText).filter fun u => !(trim u).isEmpty

/-- `identity_from_claims`: `none` when there is no usable subject. -/
def identityFromClaims (p : Platform) (idp : IdentityProvider) (claims : Members)
    (verifiedSubject : Option String) : Option Identity :=
  match subjectOf idp claims verifiedSubject with
  | none => none
  | some subject =>
      if subject.isEmpty = true ∨ subject.utf8ByteSize > 512 then none
      else some
        { subject
          email := emailOf p idp claims
          emailVerified := emailVerifiedOf idp claims
          username := usernameOf idp claims
          claims }

/-! ## The ID token -/

/-- `identity_providers::issuer_matches`: exact, or Microsoft's multi-tenant form. -/
def issuerMatches (p : Platform) (configured found : String) : Bool :=
  let configured := trimEndMatches configured '/'
  let found := trimEndMatches found '/'
  let ms := "https://login.microsoftonline.com/"
  if configured = found then true
  else
    match (stripPrefix configured ms).bind (splitOnce · '/'),
      (stripPrefix found ms).bind (splitOnce · '/') with
    | some (segment, tail), some (foundSegment, foundTail) =>
        (segment == "common" || segment == "organizations" || segment == "consumers") &&
          (tail == foundTail &&
            (foundSegment == "\x7btenantid\x7d" || (p.parseUuid foundSegment).isSome))
    | _, _ => false

def keysOf (doc : Value) : List Value := ((doc.member "keys").bind Value.asArray).getD []

/-- `identity_providers::jwks`: the provider's JWK set, cached; `refresh` fetches it again unless
that is throttled. -/
def jwks (x : Exchange) (idp : IdentityProvider) (refresh : Bool) :
    Except AppError (List Value) :=
  match idp.jwksUri with
  | none => .error (.badRequest "the provider has no jwks_uri")
  | some uri => do
      let fetch := do
        let doc ← x.getJson "jwks" uri none
        x.storeJwks doc
        pure (keysOf doc)
      match refresh, ← x.cachedJwks refresh with
      | false, some v => pure (keysOf v)
      | true, some v => if ← x.refreshAllowed then fetch else pure (keysOf v)
      | _, none => fetch

/-- The key a token was signed with: by `kid`, or the set's only one. -/
def findJwk (kid : Option String) (set : List Value) : Option Value :=
  match kid with
  | some kid => set.find? fun j => (j.member "kid").bind Value.asStr == some kid
  | none => if set.length = 1 then set.head? else none

/-- The key of `verify_id_token`: the set is fetched again, once, when the key is not in it. -/
def signingJwk (x : Exchange) (idp : IdentityProvider) (kid : Option String) :
    Except AppError Value := do
  let set ← jwks x idp false
  match findJwk kid set with
  | some jwk => .ok jwk
  | none => do
      let set ← jwks x idp true
      match findJwk kid set with
      | some jwk => .ok jwk
      | none => .error (.unavailable "id_token signed with an unknown key")

/-- How ID tokens for a client are checked.  The issuer is checked by hand. -/
def validation (alg : Algorithm) (clientId : String) : Validation :=
  { alg
    leeway := 60
    validateNbf := true
    audience := [clientId]
    requiredSpecClaims := ["exp", "iss", "sub", "aud"]
    iss := none }

def strClaim (claims : Members) (name : String) : Option String :=
  (claims.get name).bind Value.asStr

/-- `verify_id_token`, after the signature: issuer, nonce and authorized party. -/
def checkIdClaims (p : Platform) (idp : IdentityProvider) (nonce : String) (claims : Members) :
    Except AppError Unit :=
  let iss := (strClaim claims "iss").getD ""
  if issuerMatches p (idp.issuer.getD "") iss = false then
    .error (.unavailable ("id_token issuer `" ++ iss ++ "` is not the provider's"))
  else if strClaim claims "nonce" ≠ some nonce then
    .error (.unavailable "id_token nonce mismatch")
  else if (((claims.get "aud").bind Value.asArray).any fun aud => aud.length > 1) = true ∧
      strClaim claims "azp" ≠ some idp.clientId then
    .error (.unavailable "id_token azp mismatch")
  else .ok ()

/-- An error of outside code, as the provider's fault. -/
def unavailable {α : Type} (what : String) : Except String α → Except AppError α
  | .ok a => .ok a
  | .error e => .error (.unavailable (what ++ e))

/-- `verify_id_token`: the signature against the provider's JWK set, then issuer, audience, expiry
and nonce. -/
def verifyIdToken (p : Platform) (x : Exchange) (idp : IdentityProvider) (token nonce : String) :
    Except AppError Members := do
  let header ← unavailable "id_token header: " (p.decodeHeader token)
  if header.alg = .hs256 ∨ header.alg = .hs384 ∨ header.alg = .hs512 then
    .error (.unavailable "id_token uses a symmetric algorithm")
  else do
    let jwk ← signingJwk x idp header.kid
    let key ← unavailable "provider jwk: " (p.decodingKey jwk)
    let claims ← unavailable "id_token: "
      (p.decode x.now token key (validation header.alg idp.clientId))
    checkIdClaims p idp nonce claims
    pure claims

/-! ## Proving the identity -/

/-- `identity_providers::client_secret`. -/
def clientSecret (x : Exchange) (idp : IdentityProvider) : Except AppError (Option String) :=
  if idp.clientSecretSet = false then .ok none else x.decryptSecret.map some

/-- The token request: its form and its basic credentials. -/
def tokenRequest (redirectUri : String) (idp : IdentityProvider) (code : String)
    (record : StateRecord) (secret : Option String) :
    List (String × String) × Option (String × String) :=
  let form := [("grant_type", "authorization_code"), ("code", code),
    ("redirect_uri", redirectUri), ("client_id", idp.clientId)] ++
    (record.verifier.map fun v => ("code_verifier", v)).toList
  match idp.tokenEndpointAuthMethod, secret with
  | .clientSecretBasic, some s => (form, some (idp.clientId, s))
  | .clientSecretPost, some s => (form ++ [("client_secret", s)], none)
  | _, _ => (form, none)

/-- `callback_url`; `issuer` is the tenant's. -/
def callbackUrl (issuer : String) (idp : IdentityProvider) : String :=
  issuer ++ "/broker/" ++ idp.aliasName ++ "/callback"

/-- The claims before any of the provider's: what the browser sent as `user`, when that is a JSON
object. -/
def browserClaims (p : Platform) (appleUser : Option String) : Members :=
  match appleUser.bind p.fromStr with
  | some (.object m) => Members.insert [] "user" (.object m)
  | _ => []

/-- `for (k, v) in m { claims.insert(k, v); }`. -/
def insertAll (claims m : Members) : Members := m.foldl (fun c e => c.insert e.1 e.2) claims

/-- The claims of an OIDC provider's ID token; other providers have none. -/
def idTokenClaims (p : Platform) (x : Exchange) (idp : IdentityProvider) (nonce : String)
    (tokens : Value) : Except AppError (Option Members) :=
  if idp.kind = .oidc then
    match (tokens.member "id_token").bind Value.asStr with
    | none => .error (.unavailable "the token endpoint returned no id_token")
    | some idToken => (verifyIdToken p x idp idToken nonce).map some
  else .ok none

/-- Userinfo fills in what the ID token left out; a verified `sub` is not looked at. -/
def fillFrom (verifiedSubject : Option String) (claims m : Members) : Members :=
  m.foldl (fun c e => if verifiedSubject.isSome = true ∧ e.1 = "sub" then c
    else c.orInsert e.1 e.2) claims

/-- The entry of `/user/emails` to use: the primary verified one, else any verified one. -/
def pickEmail (list : List Value) : Option Value :=
  (list.find? fun e => e.member "primary" == some (.bool true) &&
    e.member "verified" == some (.bool true)).or
    (list.find? fun e => e.member "verified" == some (.bool true))

/-- `github_primary_email`: a failed lookup changes nothing. -/
def githubPrimaryEmail (x : Exchange) (endpoint accessToken : String) (claims : Members) :
    Members :=
  match x.getJson "userinfo emails" (trimEndMatches endpoint '/' ++ "/emails") (some accessToken)
    with
  | .ok (.array list) =>
      match (pickEmail list).bind fun e => (e.member "email").bind Value.asStr with
      | some addr => (claims.insert "email" (.string addr)).insert "email_verified" (.bool true)
      | none => claims
  | _ => claims

/-- The claims with a userinfo document's, and GitHub's email when that left it out. -/
def mergeUserinfo (x : Exchange) (idp : IdentityProvider) (endpoint accessToken : String)
    (verifiedSubject : Option String) (claims : Members) (info : Value) : Members :=
  let claims := match info with
    | .object m => fillFrom verifiedSubject claims m
    | _ => claims
  if idp.preset = some "github" ∧ (claim claims "email").bind Value.asStr = none then
    githubPrimaryEmail x endpoint accessToken claims
  else claims

/-- The claims after userinfo, which is asked for when it is all there is or the email is
missing. -/
def withUserinfo (x : Exchange) (idp : IdentityProvider) (accessToken : Option String)
    (verifiedSubject : Option String) (claims : Members) : Except AppError Members :=
  match idp.userinfoEndpoint, accessToken with
  | some endpoint, some accessToken =>
      if idp.kind = .oauth2 ∨ claim claims idp.mappers.emailClaim = none then
        (x.getJson "userinfo" endpoint (some accessToken)).map
          (mergeUserinfo x idp endpoint accessToken verifiedSubject claims)
      else .ok claims
  | _, _ => .ok claims

/-- The token endpoint's answer to the code. -/
def redeem (x : Exchange) (issuer : String) (idp : IdentityProvider) (code : String)
    (record : StateRecord) : Except AppError Value :=
  match idp.tokenEndpoint with
  | none => .error (.badRequest "the provider has no token endpoint")
  | some endpoint => do
      let secret ← clientSecret x idp
      let request := tokenRequest (callbackUrl issuer idp) idp code record secret
      x.postForm "token endpoint" endpoint request.1 request.2

/-- The end of `prove`: the identity in the collected claims. -/
def establish (p : Platform) (idp : IdentityProvider) (verifiedSubject : Option String)
    (claims : Members) : Except AppError Identity :=
  match identityFromClaims p idp claims verifiedSubject with
  | some identity => .ok identity
  | none => .error (.unavailable "no usable subject claim")

/-- `prove`: exchange the code and establish who signed in.  The ID token's claims win over what
the browser sent, and its `sub` is the verified subject. -/
def prove (p : Platform) (x : Exchange) (issuer : String) (idp : IdentityProvider) (code : String)
    (record : StateRecord) (appleUser : Option String) : Except AppError Identity := do
  let tokens ← redeem x issuer idp code record
  let accessToken := (tokens.member "access_token").bind Value.asStr
  let idClaims ← idTokenClaims p x idp record.nonce tokens
  let claims := insertAll (browserClaims p appleUser) (idClaims.getD [])
  let verifiedSubject := idClaims.bind (strClaim · "sub")
  let claims ← withUserinfo x idp accessToken verifiedSubject claims
  establish p idp verifiedSubject claims

/-! ## Resolving the account -/

/-- The status of an account. -/
inductive UserStatus
  | active
  | disabled
  | locked
  | pending
  | deleted
  deriving DecidableEq

/-- A user, as far as `resolve_user` reads one. -/
structure User where
  id : Uuid
  email : Option String
  emailVerified : Bool
  status : UserStatus
  lockedUntil : Option Instant
  deletedAt : Option Instant

/-- `User::is_locked_now`. -/
def User.isLockedNow (u : User) (now : Instant) : Bool :=
  u.status == .locked || u.lockedUntil.any (now < ·)

/-- The account may sign in. -/
def User.usable (u : User) (now : Instant) : Bool := u.status == .active && !u.isLockedNow now

/-- `FederatedIdentity`: a user's identity at a provider. -/
structure FederatedIdentity where
  userId : Uuid
  idpId : Uuid
  externalSubject : String

/-- A tenant's users and their identities. -/
structure Directory where
  users : List User
  links : List FederatedIdentity

/-- `BrokerError`, as far as `resolve_user` answers with it. -/
inductive BrokerError
  | emailInUse
  | accountDisabled

/-- The account `resolve_user` settles on. -/
inductive Account
  | signsIn (u : User)
  | links (u : User)
  /-- An account is created, with the identity's email or without, and linked. -/
  | creates (withEmail emailVerified : Bool)
  | refused (e : BrokerError)

namespace Directory

/-- `repos::federated_identities::find`. -/
def findLink (dir : Directory) (idpId : Uuid) (subject : String) : Option FederatedIdentity :=
  dir.links.find? fun l => l.idpId == idpId && l.externalSubject == subject

/-- `repos::users::find_by_id`, without deleted users. -/
def findUser (dir : Directory) (id : Uuid) : Option User :=
  dir.users.find? fun u => u.id == id && u.deletedAt.isNone

/-- `repos::users::find_by_email`. -/
def findByEmail (dir : Directory) (email : String) : Option User :=
  dir.users.find? fun u => u.email == some email && u.deletedAt.isNone

end Directory

/-- By the link policy, when no user is linked to the identity. -/
def byPolicy (now : Instant) (dir : Directory) (idp : IdentityProvider) (identity : Identity) :
    Account :=
  let upstreamVerified := identity.emailVerified || idp.trustEmail
  match idp.linkPolicy, identity.email.bind dir.findByEmail with
  | .verifiedEmail, some u =>
      if (upstreamVerified && u.emailVerified) = false then .refused .emailInUse
      else if u.usable now = false then .refused .accountDisabled
      else .links u
  | .explicit, some _ => .refused .emailInUse
  | .alwaysNew, some _ => .creates false upstreamVerified
  | _, none => .creates true upstreamVerified

/-- What `resolve_user` reads: the account, and the link to delete first because its user is
gone. -/
def chooseAccount (now : Instant) (dir : Directory) (idp : IdentityProvider)
    (identity : Identity) : Account × Option FederatedIdentity :=
  match dir.findLink idp.id identity.subject with
  | none => (byPolicy now dir idp identity, none)
  | some l =>
      match dir.findUser l.userId with
      | some u =>
          if u.usable now then (.signsIn u, none) else (.refused .accountDisabled, none)
      | none => (byPolicy now dir idp identity, some l)

end Ridm.Broker
