import Mathlib.Data.List.Sort
import Ridm.Lib.Interleaving
import Ridm.Tokens.Denylist

/-!
# Signing keys

`api/src/services/keys.rs` over `repos/signing_keys.rs`, for one tenant.  A key is pending, active,
retiring and revoked in turn: an administrator activates and retires, and a periodic job, `maintain`,
revokes the retiring keys that are past their overlap and rotates the active ones that are due.

A call is what it does between two moments at which others may come in: it reads the clock, it reads
the committed table, or it commits.  `set_status` is an `UPDATE` by id that looks at nothing else of the
row.  `list` runs on `read_tx`, which may be a replica, so it reads any table that was ever committed.

Beside the table the store has two histories: the tokens that were signed, and the keys that `maintain`
has revoked, each as its row was at that moment.
-/

namespace Ridm.Keys

open Tokens (SigningAlg)

/-- The life of a signing key. -/
inductive KeyStatus
  | pending | active | retiring | revoked
  deriving DecidableEq

/-- `is_published`, and the statuses of `list_published`. -/
def KeyStatus.isPublished : KeyStatus → Bool
  | .pending | .active | .retiring => true
  | .revoked => false

/-- `SigningKey`, less the key material, which only its `kid` stands for here. -/
structure SigningKey where
  id : Uuid
  kid : String
  alg : SigningAlg
  status : KeyStatus
  notBefore : Instant
  expiresAt : Option Instant
  createdAt : Instant

/-- `KeyPolicy`, as far as keys go by it. -/
structure KeyPolicy where
  defaultAlg : SigningAlg
  rotationIntervalDays : ℕ
  retireOverlapHours : ℕ

/-- `chrono::Duration::hours`. -/
def hours (n : ℕ) : ℤ := seconds (n * 3600)

/-- `chrono::Duration::days`. -/
def days (n : ℕ) : ℤ := hours (n * 24)

/-- How long a key that is retired stays published. -/
def KeyPolicy.retireOverlap (policy : KeyPolicy) : ℤ := hours policy.retireOverlapHours

/-! ## The table -/

/-- The unique constraints of `signing_keys`, and its index `signing_keys_one_active_per_alg`. -/
structure Constraints (rows : List SigningKey) : Prop where
  ids : (rows.map SigningKey.id).Nodup
  kids : (rows.map SigningKey.kid).Nodup
  oneActivePerAlg : rows.Pairwise fun a b =>
    ¬ (a.status = .active ∧ b.status = .active ∧ a.alg = b.alg)

instance (rows : List SigningKey) : Decidable (Constraints rows) :=
  decidable_of_iff ((rows.map SigningKey.id).Nodup ∧ (rows.map SigningKey.kid).Nodup ∧
      rows.Pairwise fun a b => ¬ (a.status = .active ∧ b.status = .active ∧ a.alg = b.alg))
    ⟨fun h => ⟨h.1, h.2.1, h.2.2⟩, fun h => ⟨h.ids, h.kids, h.oneActivePerAlg⟩⟩

/-- The rows of a tenant in `signing_keys`. -/
structure KeyTable where
  rows : List SigningKey
  constraints : Constraints rows

namespace KeyTable

/-- A statement leaves these rows, unless a constraint refuses it. -/
def check (rows : List SigningKey) : Option KeyTable :=
  if h : Constraints rows then some ⟨rows, h⟩ else none

variable (t : KeyTable)

def insert (key : SigningKey) : Option KeyTable := check (key :: t.rows)

def findById (id : Uuid) : Option SigningKey := t.rows.find? fun k => k.id == id

/-- `ORDER BY created_at DESC, id DESC`. -/
def newestFirst (a b : SigningKey) : Bool :=
  decide (b.createdAt < a.createdAt ∨ b.createdAt = a.createdAt ∧ b.id ≤ a.id)

def list (status : Option KeyStatus) : List SigningKey :=
  (t.rows.filter fun k => status.all fun s => k.status == s).mergeSort newestFirst

def listPublished : List SigningKey :=
  (t.rows.filter fun k => k.status.isPublished).mergeSort newestFirst

/-- `ORDER BY not_before DESC, id DESC`. -/
def latestFirst (a b : SigningKey) : Bool :=
  decide (b.notBefore < a.notBefore ∨ b.notBefore = a.notBefore ∧ b.id ≤ a.id)

def findActive (alg : SigningAlg) (now : Instant) : Option SigningKey :=
  ((t.rows.filter fun k => k.alg == alg && k.status == .active && k.notBefore ≤ now).mergeSort
    latestFirst).head?

end KeyTable

/-- The arguments of `set_status`. -/
structure Change where
  id : Uuid
  status : KeyStatus
  expiresAt : Option Instant

/-- What `set_status` makes of a row; `expires_at` is only written where there is one. -/
def Change.apply (c : Change) (k : SigningKey) : SigningKey :=
  if k.id = c.id then { k with status := c.status, expiresAt := c.expiresAt <|> k.expiresAt } else k

def KeyTable.setStatus (t : KeyTable) (c : Change) : Option KeyTable :=
  KeyTable.check (t.rows.map c.apply)

/-- The updates of one transaction. -/
def KeyTable.setAll (t : KeyTable) (changes : List Change) : Option KeyTable :=
  changes.foldlM KeyTable.setStatus t

/-- The updates of `activate`: the other active keys of the algorithm, then the key itself. -/
def activation (key : SigningKey) (overlap : Instant) (active : List SigningKey) : List Change :=
  ((active.filter fun other => other.id != key.id && other.alg == key.alg).map fun other =>
    ⟨other.id, .retiring, some overlap⟩) ++ [⟨key.id, .active, none⟩]

/-- `key.expires_at.is_some_and(|t| t <= now)`. -/
def SigningKey.isExpired (k : SigningKey) (now : Instant) : Bool := k.expiresAt.any (· ≤ now)

/-- What `maintain` means to revoke: retiring, and past its overlap. -/
def SigningKey.PastOverlap (k : SigningKey) (now : Instant) : Prop :=
  k.status = .retiring ∧ k.isExpired now = true

instance (k : SigningKey) (now : Instant) : Decidable (k.PastOverlap now) := instDecidableAnd

def KeyPolicy.isDue (policy : KeyPolicy) (k : SigningKey) (now : Instant) : Bool :=
  k.notBefore + days policy.rotationIntervalDays ≤ now

/-! ## Calls -/

/-- Where a call stands.  `rest` are the algorithms that `maintain` has still to rotate. -/
inductive Task
  /-- `create`, followed by `activate` where the request asks for it. -/
  | create (alg : SigningAlg) (status : KeyStatus) (notBefore : Option Instant) (andActivate : Bool)
  | activate (id : Uuid)
  | retire (id : Uuid)
  | rotateAlg (alg : SigningAlg)
  | maintain
  /-- A new key is generated; without `rest` it is not to be activated. -/
  | inserting (alg : SigningAlg) (status : KeyStatus) (notBefore now : Instant)
      (rest : Option (List SigningAlg))
  | finding (id : Uuid) (rest : List SigningAlg)
  | found (key : SigningKey) (rest : List SigningAlg)
  | listing (key : SigningKey) (overlap : Instant) (rest : List SigningAlg)
  | activating (key : SigningKey) (overlap : Instant) (active : List SigningKey)
      (rest : List SigningAlg)
  | retireFinding (id : Uuid) (overlap : Instant)
  | retiring (id : Uuid) (overlap : Instant)
  | sweeping (now : Instant)
  | revoking (now : Instant) (ids : List Uuid)
  | revokingAt (now at' : Instant) (id : Uuid) (ids : List Uuid)
  | rotating (rest : List SigningAlg)
  | done
  | failed (e : AppError)

/-- What a step leaves open. -/
inductive Choice
  | go
  /-- The table that a replica answers from, counted back from the newest. -/
  | reads (behind : ℕ)
  | draws (id : Uuid) (kid : String)
  | fails

/-- A token, by the key that signed it. -/
structure Token where
  kid : String
  signedAt : Instant
  exp : Instant

/-- A key as `maintain` revoked it. -/
structure Revocation where
  key : SigningKey
  at' : Instant

/-- The clock, the committed table with those before it, and the histories. -/
structure Store where
  now : Instant
  table : KeyTable
  older : List KeyTable
  tokens : List Token
  revocations : List Revocation

/-- What a read behind by so many commits finds. -/
def Store.snapshot (g : Store) (behind : ℕ) : Option KeyTable := (g.table :: g.older)[behind]?

/-- The keys that a transaction revokes, as it finds them. -/
def Store.revoked (g : Store) (changes : List Change) : List Revocation :=
  changes.filterMap fun c =>
    if c.status = .revoked then (g.table.findById c.id).map fun k => ⟨k, g.now⟩ else none

def Store.commit (g : Store) (changes : List Change) (t : KeyTable) : Store :=
  { g with
    table := t
    older := g.table :: g.older
    revocations := g.revoked changes ++ g.revocations }

/-- The answer to `UPDATE … RETURNING` of no row, and to a `SELECT` that finds none. -/
def noKey : AppError := .notFound "signing key"

/-- A transaction that ends with an update of `id`. -/
def Store.update (g : Store) (id : Uuid) (changes : List Change) (next : Task) : Store × Task :=
  match g.table.setAll changes with
  | none => (g, .failed .database)
  | some t =>
      if (g.table.findById id).isSome then (g.commit changes t, next) else (g, .failed noKey)

/-- The first half of `activate` and of `retire`. -/
def Store.find (g : Store) (id : Uuid) (revoked : String) (next : SigningKey → Task) : Store × Task :=
  match g.table.findById id with
  | none => (g, .failed noKey)
  | some key => (g, if key.status = .revoked then .failed (.badRequest revoked) else next key)

/-- The end of a call, or of a turn of the loop of `maintain`. -/
def Task.resume : List SigningAlg → Task
  | [] => .done
  | rest => .rotating rest

/-- The first half of `create`. -/
def creating (now : Instant) (alg : SigningAlg) (status : KeyStatus) (notBefore : Option Instant)
    (rest : Option (List SigningAlg)) : Task :=
  .inserting alg status (notBefore.getD now) now rest

/-- The second half of `create`. -/
def Store.create (g : Store) (key : SigningKey) (rest : Option (List SigningAlg)) : Store × Task :=
  match g.table.insert key with
  | none => (g, .failed (.conflict "already exists"))
  | some t => (g.commit [] t, rest.elim .done (.finding key.id))

/-- The next step of a call. -/
def act (policy : KeyPolicy) (g : Store) : Task → Choice → Option (Store × Task)
  | .done, _ | .failed _, _ => none
  | _, .fails => some (g, .failed .database)
  | .create alg status notBefore andActivate, .go =>
      some (g, creating g.now alg status notBefore (if andActivate then some [] else none))
  | .rotateAlg alg, .go => some (g, creating g.now alg .pending none (some []))
  | .rotating (alg :: rest), .go => some (g, creating g.now alg .pending none (some rest))
  | .inserting alg status notBefore now rest, .draws id kid =>
      some (g.create ⟨id, kid, alg, status, notBefore, none, now⟩ rest)
  | .activate id, .go =>
      some (g.find id "a revoked key cannot be activated" fun key => .found key [])
  | .finding id rest, .go =>
      some (g.find id "a revoked key cannot be activated" fun key => .found key rest)
  | .found key rest, .go => some (g, .listing key (g.now + policy.retireOverlap) rest)
  | .listing key overlap rest, .go =>
      some (g, .activating key overlap (g.table.list (some .active)) rest)
  | .activating key overlap active rest, .go =>
      some (g.update key.id (activation key overlap active) (.resume rest))
  | .retire id, .go => some (g, .retireFinding id (g.now + policy.retireOverlap))
  | .retireFinding id overlap, .go =>
      some (g.find id "key is already revoked" fun _ => .retiring id overlap)
  | .retiring id overlap, .go => some (g.update id [⟨id, .retiring, some overlap⟩] .done)
  | .maintain, .go => some (g, .sweeping g.now)
  | .sweeping now, .reads behind => do
      let t ← g.snapshot behind
      let past := (t.list (some .retiring)).filter fun k => k.isExpired now
      some (g, .revoking now (past.map SigningKey.id))
  | .revoking now (id :: ids), .go => some (g, .revokingAt now g.now id ids)
  | .revokingAt now at' id ids, .go =>
      some (g.update id [⟨id, .revoked, some at'⟩] (.revoking now ids))
  | .revoking now [], .reads behind => do
      let t ← g.snapshot behind
      let due := (t.list (some .active)).filter fun k => policy.isDue k now
      some (g, .resume (if 0 < policy.rotationIntervalDays then due.map SigningKey.alg else []))
  | _, _ => none

/-- No call has begun. -/
def Task.isStart : Task → Bool
  | .create .. | .activate _ | .retire _ | .rotateAlg _ | .maintain => true
  | _ => false

/-- A call has begun, and has not ended. -/
def Task.inProgress : Task → Bool
  | .create .. | .activate _ | .retire _ | .rotateAlg _ | .maintain | .done | .failed _ => false
  | _ => true

/-- The keys a call of `maintain` is about to revoke. -/
def Task.pending : Task → List Uuid
  | .revoking _ ids => ids
  | .revokingAt _ _ id ids => id :: ids
  | _ => []

/-- The updates a call is about to commit. -/
def Task.writes : Task → List Change
  | .activating key overlap active _ => activation key overlap active
  | .retiring id overlap => [⟨id, .retiring, some overlap⟩]
  | .revokingAt _ at' id _ => [⟨id, .revoked, some at'⟩]
  | _ => []

/-- What goes on besides the calls. -/
inductive Env
  | tick (d : ℕ)
  | sign (alg : SigningAlg) (exp : Instant)

/-- Time passes, and tokens are signed. -/
def env (g : Store) : Env → Option Store
  | .tick d => some { g with now := g.now + d }
  | .sign alg exp => do
      let key ← g.table.findActive alg g.now
      some { g with tokens := ⟨key.kid, g.now, exp⟩ :: g.tokens }

/-- Any number of calls on the keys of one tenant, under one policy. -/
def calls (ι : Type) (policy : KeyPolicy) : Calls ι Store Task Choice Env where
  act _ g l k := act policy g l k
  env := env

end Ridm.Keys
