import Ridm.Core.Json
import Ridm.Core.Types

/-!
# Refresh tokens

`api/src/services/refresh_tokens.rs` with its queries (`repos/refresh_tokens.rs`): opaque tokens
with rotation and reuse detection.  The client receives `rt_<random>`; only the hash is stored.
All tokens descending from one grant share a family.

Every operation here is one transaction, as a function of the table: `issue`, `redeem`, `revoke`,
`revokeForUser` and `revokeForSession`.  What a transaction draws (ids, tokens), reads from the
clock or asks another service (has the session ended?) is an argument.  A transaction that fails
leaves the table as it was; two of `redeem`'s refusals commit a revocation first.
-/

namespace Ridm.RefreshTokens

/-- What every token starts with. -/
def PREFIX : String := "rt_"

/-- The digest of a token. -/
abbrev Digest := List UInt8

/-- `RefreshToken`, a row of `refresh_tokens`. -/
structure RefreshToken where
  id : Uuid
  tenantId : Uuid
  familyId : Uuid
  clientId : String
  userId : Option Uuid
  sessionId : Option Uuid
  tokenHash : Digest
  scopes : List String
  audiences : List String
  authTime : Option Instant
  amr : List String
  acr : Option String
  orgId : Option Uuid
  act : Option Value
  expiresAt : Instant
  dpopJkt : Option String
  mtlsX5t : Option String
  consumedAt : Option Instant
  revokedAt : Option Instant
  createdAt : Instant
  deriving DecidableEq

/-- `RefreshToken::is_offline`. -/
def RefreshToken.isOffline (t : RefreshToken) : Bool := t.scopes.any (· == "offline_access")

/-- Neither consumed nor revoked. -/
def RefreshToken.isLive (t : RefreshToken) : Bool := t.consumedAt.isNone && t.revokedAt.isNone

/-- The rows of `refresh_tokens`. -/
abbrev Table := List RefreshToken

/-- What a new family is issued for. -/
structure IssueRequest where
  clientId : String
  userId : Option Uuid
  sessionId : Option Uuid
  scopes : List String
  audiences : List String
  ttl : ℤ
  dpopJkt : Option String
  mtlsX5t : Option String
  authTime : Option Instant
  amr : List String
  acr : Option String
  orgId : Option Uuid
  act : Option Value

/-- A freshly minted token and its row. -/
structure Issued where
  token : String
  record : RefreshToken
  deriving DecidableEq

/-- What inserting a row draws: its id (`Uuid::now_v7`) and the token (`random_token`). -/
structure Draw where
  id : Uuid
  token : String

/-- `SenderProof`: the keys the request proved possession of. -/
structure SenderProof where
  jkt : Option String
  x5t : Option String

/-- What other services say about a session: was it signed out, and is it still alive? -/
structure Sessions where
  isRevoked : Uuid → Bool
  isAlive : Uuid → Bool

/-! ## Queries -/

/-- `find_by_hash_for_update`. -/
def findByHash (tokens : Table) (tenantId : Uuid) (tokenHash : Digest) : Option RefreshToken :=
  tokens.find? fun t => t.tenantId == tenantId && t.tokenHash == tokenHash

/-- The unique keys of the table: `id`, and `(tenant_id, token_hash)`. -/
def violatesUnique (tokens : Table) (new : RefreshToken) : Bool :=
  tokens.any fun t => t.id == new.id || (t.tenantId == new.tenantId && t.tokenHash == new.tokenHash)

/-- A row under `SET revoked_at = now() WHERE … AND revoked_at IS NULL`. -/
def revokeIf (p : RefreshToken → Bool) (now : Instant) (t : RefreshToken) : RefreshToken :=
  if p t && t.revokedAt.isNone then { t with revokedAt := some now } else t

/-- `UPDATE refresh_tokens SET revoked_at = now() WHERE … AND revoked_at IS NULL`. -/
def revokeWhere (p : RefreshToken → Bool) (now : Instant) (tokens : Table) : Table :=
  tokens.map (revokeIf p now)

/-- How many rows that `UPDATE` touches. -/
def countWhere (p : RefreshToken → Bool) (tokens : Table) : ℕ :=
  tokens.countP fun t => p t && t.revokedAt.isNone

def inFamily (tenantId familyId : Uuid) (t : RefreshToken) : Bool :=
  t.tenantId == tenantId && t.familyId == familyId

/-- The rows of a user, of one client or of all. -/
def ofUser (tenantId userId : Uuid) (clientId : Option String) (t : RefreshToken) : Bool :=
  t.tenantId == tenantId && t.userId == some userId &&
    (clientId.isNone || clientId == some t.clientId)

def ofSession (tenantId sessionId : Uuid) (t : RefreshToken) : Bool :=
  t.tenantId == tenantId && t.sessionId == some sessionId

/-- `repos::refresh_tokens::revoke_family`. -/
def revokeFamily (tenantId familyId : Uuid) : Instant → Table → Table :=
  revokeWhere (inFamily tenantId familyId)

/-- A row under `SET consumed_at = now() WHERE tenant_id = … AND id = …`. -/
def consumeIf (tenantId id : Uuid) (now : Instant) (t : RefreshToken) : RefreshToken :=
  if t.tenantId == tenantId && t.id == id then { t with consumedAt := some now } else t

def markConsumed (tenantId id : Uuid) (now : Instant) (tokens : Table) : Table :=
  tokens.map (consumeIf tenantId id now)

/-! ## Issuing -/

/-- The row `insert_in` assembles. -/
def newRow (hash : String → Digest) (tenantId familyId : Uuid) (req : IssueRequest)
    (expiresAt : Instant) (draw : Draw) (now : Instant) : RefreshToken where
  id := draw.id
  tenantId := tenantId
  familyId := familyId
  clientId := req.clientId
  userId := req.userId
  sessionId := req.sessionId
  tokenHash := hash draw.token
  scopes := req.scopes
  audiences := req.audiences
  authTime := req.authTime
  amr := req.amr
  acr := req.acr
  orgId := req.orgId
  act := req.act
  expiresAt := expiresAt
  dpopJkt := req.dpopJkt
  mtlsX5t := req.mtlsX5t
  consumedAt := none
  revokedAt := none
  createdAt := now

/-- `insert_in`; a row the unique keys refuse is `AppError::Conflict`. -/
def insertIn (hash : String → Digest) (tokens : Table) (tenantId familyId : Uuid)
    (req : IssueRequest) (expiresAt : Instant) (draw : Draw) (now : Instant) :
    Except AppError (Table × Issued) :=
  let row := newRow hash tenantId familyId req expiresAt draw now
  if violatesUnique tokens row then .error (.conflict "already exists")
  else .ok (tokens ++ [row], ⟨draw.token, row⟩)

/-- `issue`: start a new family. -/
def issue (hash : String → Digest) (tokens : Table) (tenantId : Uuid) (req : IssueRequest)
    (familyId : Uuid) (draw : Draw) (now : Instant) : Except AppError (Table × Issued) :=
  insertIn hash tokens tenantId familyId req (now + req.ttl) draw now

/-! ## Redeeming -/

/-- A request with a refresh token. -/
structure RedeemRequest where
  tenantId : Uuid
  clientId : String
  presented : String
  proof : SenderProof
  resources : List String
  scopes : Option (List String)
  rotate : Bool

def refuse (error : OAuthErrorCode) (description : String) : Except OAuthError Issued :=
  .error ⟨error, description⟩

/-- Has the sign-in the token was issued in ended?  An `offline_access` family outlives an expired
session, though not an explicit sign-out. -/
def sessionEnded (sessions : Sessions) (t : RefreshToken) : Bool :=
  match t.sessionId with
  | none => false
  | some sid => if t.isOffline then sessions.isRevoked sid else !sessions.isAlive sid

/-- The request `redeem` copies the successor from. -/
def successorRequest (clientId : String) (t : RefreshToken) : IssueRequest where
  clientId := clientId
  userId := t.userId
  sessionId := t.sessionId
  scopes := t.scopes
  audiences := t.audiences
  ttl := 0
  dpopJkt := t.dpopJkt
  mtlsX5t := t.mtlsX5t
  authTime := t.authTime
  amr := t.amr
  acr := t.acr
  orgId := t.orgId
  act := t.act

/-- The end of `redeem`, all checks passed: the token stays as it is, or is consumed and followed
by its successor, which keeps the family's absolute expiry. -/
def exchange (hash : String → Digest) (tokens : Table) (req : RedeemRequest)
    (current : RefreshToken) (draw : Draw) (now : Instant) : Table × Except OAuthError Issued :=
  if !req.rotate then (tokens, .ok ⟨req.presented, current⟩)
  else
    match insertIn hash (markConsumed req.tenantId current.id now tokens) req.tenantId
        current.familyId (successorRequest req.clientId current) current.expiresAt draw now with
    | .ok (tokens', issued) => (tokens', .ok issued)
    -- rolled back: `mark_consumed` too
    | .error _ => (tokens, refuse .invalidRequest "already exists")

/-- The checks of `redeem` on a live token that leave it unspent. -/
def checkRequest (req : RedeemRequest) (current : RefreshToken) (now : Instant) :
    Option OAuthError :=
  if current.expiresAt ≤ now then some ⟨.invalidGrant, "refresh token expired"⟩
  else if current.dpopJkt.isSome ∧ req.proof.jkt ≠ current.dpopJkt then
    some ⟨.invalidGrant, "refresh token is bound to another DPoP key"⟩
  else if current.mtlsX5t.isSome ∧ req.proof.x5t ≠ current.mtlsX5t then
    some ⟨.invalidGrant, "refresh token is bound to another client certificate"⟩
  else
    match req.resources.find? fun r => !current.audiences.contains r with
    | some extra =>
        some ⟨.invalidTarget, "resource `" ++ extra ++ "` was not part of the original grant"⟩
    | none =>
        match (req.scopes.getD []).find? fun s => !current.scopes.contains s with
        | some extra => some ⟨.invalidScope, "scope `" ++ extra ++ "` was not granted"⟩
        | none => none

/-- `redeem` from the row it found and locked on. -/
def redeemFound (hash : String → Digest) (tokens : Table) (req : RedeemRequest)
    (sessions : Sessions) (draw : Draw) (now : Instant) (current : RefreshToken) :
    Table × Except OAuthError Issued :=
  if current.clientId ≠ req.clientId then
    (tokens, refuse .invalidGrant "refresh token was not issued to this client")
  else if current.consumedAt.isSome then
    -- reuse: everything descending from the same grant goes
    (revokeFamily req.tenantId current.familyId now tokens,
      refuse .invalidGrant "refresh token reuse detected")
  else if current.revokedAt.isSome then
    (tokens, refuse .invalidGrant "refresh token revoked")
  else
    match checkRequest req current now with
    | some e => (tokens, .error e)
    | none =>
        if sessionEnded sessions current then
          (revokeFamily req.tenantId current.familyId now tokens,
            refuse .invalidGrant "the session this token was issued in has ended")
        else exchange hash tokens req current draw now

def redeem (hash : String → Digest) (tokens : Table) (req : RedeemRequest) (sessions : Sessions)
    (draw : Draw) (now : Instant) : Table × Except OAuthError Issued :=
  if !PREFIX.toList.isPrefixOf req.presented.toList || req.presented.utf8ByteSize > 256 then
    (tokens, refuse .invalidGrant "invalid refresh token")
  else
    match findByHash tokens req.tenantId (hash req.presented) with
    | none => (tokens, refuse .invalidGrant "invalid refresh token")
    | some current => redeemFound hash tokens req sessions draw now current

/-! ## Revoking -/

/-- `revoke`: the family of one token, by its secret; an unknown token is not an error. -/
def revoke (hash : String → Digest) (tokens : Table) (tenantId : Uuid) (clientId presented : String)
    (now : Instant) : Table :=
  match findByHash tokens tenantId (hash presented) with
  | none => tokens
  | some t => if t.clientId = clientId then revokeFamily tenantId t.familyId now tokens else tokens

/-- `revoke_for_user`, with how many rows it revoked. -/
def revokeForUser (tokens : Table) (tenantId userId : Uuid) (clientId : Option String)
    (now : Instant) : Table × ℕ :=
  (revokeWhere (ofUser tenantId userId clientId) now tokens,
    countWhere (ofUser tenantId userId clientId) tokens)

/-- `revoke_for_session`, with how many rows it revoked. -/
def revokeForSession (tokens : Table) (tenantId sessionId : Uuid) (now : Instant) : Table × ℕ :=
  (revokeWhere (ofSession tenantId sessionId) now tokens,
    countWhere (ofSession tenantId sessionId) tokens)

end Ridm.RefreshTokens
