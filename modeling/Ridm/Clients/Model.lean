import Mathlib.Data.List.Sort
import Ridm.Core.Text
import Ridm.Core.Types

/-!
# Clients and their secrets

`api/src/services/clients.rs`.  A client's secrets are one JSON list in its row, newest first, and
every operation on them computes a new list and writes the whole of it.  The four operations go
about it differently: `rotate_secret` keeps the newest secret that is still *active* and gives it an
end, `revoke_secret` drops one by its id, `revoke_old_secrets` keeps the newest of *all*, and
`update_metadata` keeps the list, drops it or starts a new one as the authentication method says.

What an operation draws (ids, random texts) and the clock it reads are its arguments.
-/

namespace Ridm.Clients

/-- What kind of application a client is. -/
inductive ClientType
  | spa
  | web
  | native
  | machine
  | device
  | saml
  deriving DecidableEq

/-- How a client proves itself at the token endpoint. -/
inductive TokenEndpointAuthMethod
  | none
  | clientSecretBasic
  | clientSecretPost
  | privateKeyJwt
  | tlsClientAuth
  | selfSignedTlsClientAuth

/-- `TokenEndpointAuthMethod::uses_secret`. -/
def TokenEndpointAuthMethod.usesSecret : TokenEndpointAuthMethod → Bool
  | .clientSecretBasic | .clientSecretPost => true
  | _ => false

/-- One secret of a client, hashed. -/
structure ClientSecretHash where
  id : Uuid
  hash : String
  createdAt : Instant
  expiresAt : Option Instant

/-- `ClientSecretHash::is_active`. -/
def ClientSecretHash.isActive (now : Instant) (s : ClientSecretHash) : Bool :=
  s.expiresAt.all fun t => decide (now < t)

/-- `Client`, as far as its secrets are concerned. -/
structure Client where
  id : Uuid
  clientId : String
  clientType : ClientType
  tokenEndpointAuthMethod : TokenEndpointAuthMethod
  secretHashes : List ClientSecretHash

/-- `uses_secret` of the client's method. -/
def Client.usesSecret (c : Client) : Bool := c.tokenEndpointAuthMethod.usesSecret

/-- `Client::active_secrets`. -/
def Client.activeSecrets (c : Client) (now : Instant) : List ClientSecretHash :=
  c.secretHashes.filter (·.isActive now)

/-- `NewClient`.  `metadata` is every field no secret and no id depends on. -/
structure NewClient where
  clientId : Option String
  name : String
  clientType : Option ClientType
  tokenEndpointAuthMethod : Option TokenEndpointAuthMethod
  metadata : String

/-- What an operation draws: ids and random texts. -/
structure Draws where
  id : Uuid
  clientId : String
  secretId : Uuid
  secret : String

/-- The code `resolve` goes through whose outcome is only that it refuses. -/
structure Backend where
  hashSecret : String → String
  /-- The checks of grants, keys, certificates, URIs, the security profile and encryption. -/
  checkMetadata : NewClient → TokenEndpointAuthMethod → Except AppError Unit

def lenient : Backend where
  hashSecret := id
  checkMetadata _ _ := .ok ()

/-! ## Creating a client -/

def isClientIdChar (c : Char) : Bool :=
  isAsciiAlphanumeric c || c == '.' || c == '_' || c == ':' || c == '-'

def isValidClientId (s : String) : Bool :=
  decide (s.utf8ByteSize ≤ 128) && s.toList.head?.any isAsciiAlphanumeric &&
    s.toList.all isClientIdChar

def SAML_ELSEWHERE : String := "SAML service providers are managed under /saml/service-providers"

/-- The `client_id` of a new client. -/
def resolveClientId (given : Option String) (drawn : String) : Except AppError String :=
  match (given.map trim).filter (· ≠ "") with
  | some id => do
      require (.badRequest
        "client_id must be 1-128 characters of [A-Za-z0-9._:-] starting alphanumeric")
        (isValidClientId id)
      .ok id
  | none => .ok drawn

/-- The authentication method a type of client has by default. -/
def ClientType.defaultAuth : ClientType → TokenEndpointAuthMethod
  | .web | .machine => .clientSecretBasic
  | _ => .none

/-- A new secret: it does not expire. -/
def freshSecret (B : Backend) (now : Instant) (drawn : Draws) : ClientSecretHash :=
  { id := drawn.secretId, hash := B.hashSecret drawn.secret, createdAt := now, expiresAt := none }

/-- `resolve`, up to the secret: the id, type and method of the client. -/
def resolveMetadata (B : Backend) (input : NewClient) (drawn : String) :
    Except AppError (String × ClientType × TokenEndpointAuthMethod) := do
  let name := trim input.name
  require (.badRequest "name must be 1-255 characters")
    (name ≠ "" && decide (name.utf8ByteSize ≤ 255))
  let clientType := input.clientType.getD .web
  require (.badRequest SAML_ELSEWHERE) (clientType ≠ .saml)
  let clientId ← resolveClientId input.clientId drawn
  let method := input.tokenEndpointAuthMethod.getD clientType.defaultAuth
  B.checkMetadata input method
  .ok (clientId, clientType, method)

def resolve (B : Backend) (input : NewClient) (now : Instant) (drawn : Draws) :
    Except AppError Client := do
  let (clientId, clientType, method) ← resolveMetadata B input drawn.clientId
  .ok
    { id := drawn.id
      clientId := clientId
      clientType := clientType
      tokenEndpointAuthMethod := method
      secretHashes := if method.usesSecret then [freshSecret B now drawn] else [] }

/-! ## The operations on its secrets

Each gives the row after the operation, from the row it read. -/

def SECRET_ROTATION_GRACE : ℤ := seconds (24 * 60 * 60)

/-- `sort_by_key` on `Reverse(created_at)`, then `truncate(1)`. -/
def newestOf (hashes : List ClientSecretHash) : List ClientSecretHash :=
  (hashes.insertionSort fun a b => b.createdAt ≤ a.createdAt).take 1

/-- What `rotate_secret` keeps of the list, each with its end. -/
def graced (hashes : List ClientSecretHash) (grace : ℤ) (now : Instant) : List ClientSecretHash :=
  let newest := newestOf (hashes.filter (·.isActive now))
  (if grace = 0 then [] else newest).map fun h => { h with expiresAt := some (now + grace) }

def rotateSecret (B : Backend) (grace : Option ℤ) (now : Instant) (drawn : Draws) (client : Client) :
    Except AppError Client := do
  let grace := grace.getD SECRET_ROTATION_GRACE
  require (.badRequest "grace must be between 0 and 30 days")
    (decide (0 ≤ grace ∧ grace ≤ seconds (30 * 24 * 60 * 60)))
  require (.badRequest "this client does not use a secret") client.usesSecret
  .ok { client with
    secretHashes := freshSecret B now drawn :: graced client.secretHashes grace now }

def revokeOldSecrets (client : Client) : Client :=
  { client with secretHashes := newestOf client.secretHashes }

def revokeSecret (secretId : Uuid) (client : Client) : Except AppError Client := do
  require (.notFound "client secret") (client.secretHashes.any (·.id == secretId))
  let hashes := client.secretHashes.filter (·.id != secretId)
  require (.badRequest "the last secret cannot be revoked; rotate it instead")
    !(client.usesSecret && hashes.isEmpty)
  .ok { client with secretHashes := hashes }

/-- The operations on a client's secrets. -/
inductive SecretOp
  | rotateSecret (grace : Option ℤ) (drawn : Draws)
  | revokeSecret (secretId : Uuid)
  | revokeOldSecrets

/-- The row after the operation. -/
def SecretOp.apply (B : Backend) (now : Instant) (client : Client) :
    SecretOp → Except AppError Client
  | .rotateSecret grace drawn => Clients.rotateSecret B grace now drawn client
  | .revokeSecret secretId => Clients.revokeSecret secretId client
  | .revokeOldSecrets => .ok (Clients.revokeOldSecrets client)

/-- What `update_metadata` makes of the client, up to its secrets. -/
def updatedMetadata (B : Backend) (input : NewClient) (drawn : String) (current : Client) :
    Except AppError (String × ClientType × TokenEndpointAuthMethod) := do
  require (.conflict SAML_ELSEWHERE) (current.clientType ≠ .saml)
  resolveMetadata B { input with clientId := some current.clientId } drawn

def updateMetadata (B : Backend) (input : NewClient) (now : Instant) (drawn : Draws)
    (current : Client) : Except AppError Client := do
  let (_, clientType, method) ← updatedMetadata B input drawn.clientId current
  .ok
    { current with
      clientType := clientType
      tokenEndpointAuthMethod := method
      secretHashes :=
        if !method.usesSecret then []
        else if (current.activeSecrets now).isEmpty then [freshSecret B now drawn]
        else current.secretHashes }

/-! ## What the operations do to the list -/

variable {B : Backend} {client client' : Client} {now : Instant} {drawn : Draws}

/-- **What a rotation does**: the new secret, then what has its grace. -/
lemma rotateSecret_eq_ok {grace : Option ℤ} :
    rotateSecret B grace now drawn client = .ok client' ↔
      (0 ≤ grace.getD SECRET_ROTATION_GRACE ∧
        grace.getD SECRET_ROTATION_GRACE ≤ seconds (30 * 24 * 60 * 60)) ∧
      client.usesSecret = true ∧
      { client with
        secretHashes := freshSecret B now drawn ::
          graced client.secretHashes (grace.getD SECRET_ROTATION_GRACE) now } = client' := by
  simp only [rotateSecret, bind_eq_ok, require_eq_ok, decide_eq_true_eq, Except.ok.injEq,
    exists_const]

/-- **What a revocation does**: it is there, it goes, and a client that uses secrets keeps one. -/
lemma revokeSecret_eq_ok {secretId : Uuid} :
    revokeSecret secretId client = .ok client' ↔
      (∃ h ∈ client.secretHashes, h.id = secretId) ∧
      (client.usesSecret = true → client.secretHashes.filter (·.id != secretId) ≠ []) ∧
      { client with secretHashes := client.secretHashes.filter (·.id != secretId) } = client' := by
  simp only [revokeSecret, bind_eq_ok, require_eq_ok, Except.ok.injEq, exists_const,
    List.any_eq_true, beq_iff_eq, Bool.not_eq_true', Bool.and_eq_false_imp,
    List.isEmpty_eq_false_iff]

lemma updateMetadata_eq_ok {input : NewClient} :
    updateMetadata B input now drawn client = .ok client' ↔
      ∃ clientId clientType method,
        updatedMetadata B input drawn.clientId client = .ok (clientId, clientType, method) ∧
        { client with
          clientType := clientType
          tokenEndpointAuthMethod := method
          secretHashes :=
            if !method.usesSecret then []
            else if (client.activeSecrets now).isEmpty then [freshSecret B now drawn]
            else client.secretHashes } = client' := by
  simp only [updateMetadata, bind_eq_ok, Except.ok.injEq, Prod.exists]

lemma resolve_eq_ok {input : NewClient} :
    resolve B input now drawn = .ok client ↔
      ∃ clientId clientType method,
        resolveMetadata B input drawn.clientId = .ok (clientId, clientType, method) ∧
        { id := drawn.id, clientId := clientId, clientType := clientType,
          tokenEndpointAuthMethod := method,
          secretHashes := if method.usesSecret then [freshSecret B now drawn] else [] } = client := by
  simp only [resolve, bind_eq_ok, Except.ok.injEq, Prod.exists]

lemma SecretOp.apply_usesSecret {op : SecretOp} (h : op.apply B now client = .ok client') :
    client'.usesSecret = client.usesSecret := by
  cases op with
  | rotateSecret grace drawn =>
      obtain ⟨-, -, rfl⟩ := rotateSecret_eq_ok.mp h
      rfl
  | revokeSecret secretId =>
      obtain ⟨-, -, rfl⟩ := revokeSecret_eq_ok.mp h
      rfl
  | revokeOldSecrets =>
      cases h
      rfl

lemma mem_newestOf {h : ClientSecretHash} {hashes : List ClientSecretHash}
    (hmem : h ∈ newestOf hashes) : h ∈ hashes :=
  (List.mem_insertionSort _).mp (List.mem_of_mem_take hmem)

lemma mem_graced {h : ClientSecretHash} {hashes : List ClientSecretHash} {grace : ℤ}
    (hmem : h ∈ graced hashes grace now) :
    h.expiresAt = some (now + grace) ∧ ∃ old ∈ hashes, old.id = h.id ∧ old.createdAt = h.createdAt := by
  simp only [graced, List.mem_map] at hmem
  obtain ⟨old, hold, rfl⟩ := hmem
  split_ifs at hold
  · cases hold
  · exact ⟨rfl, old, List.mem_of_mem_filter (mem_newestOf hold), rfl, rfl⟩

end Ridm.Clients
