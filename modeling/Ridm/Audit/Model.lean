import Ridm.Audit.Chain
import Mathlib.Data.List.Sort

/-!
# The audit log of one chain

`api/src/services/audit.rs` and its two repositories (`repos/audit.rs`, `repos/audit_chains.rs`)
over one chain: the rows of `audit_events` with that `chain_id` and the chain's entry of
`audit_chains`.  No statement of the modelled functions touches another chain.  Each function is a
transaction, or a sequence of them that is given here by its single ones (`chainPage`,
`purgePrefix`), so that `Walks` can interleave them.

* `recordChain` appends a batch behind the head kept in `audit_chains`.
* `walk` reads the rows in pages of `exportPage` and checks them; `verify` and `verifyOne` report
  what it finds, the latter from the last checkpoint on and with the outcome recorded.
* `purge` deletes the expired prefix in batches.

`walk` and `purge` loop, and take fuel here: the number of rows is enough
(`walk_eq` in `Verification`).
-/

namespace Ridm.Audit

/-! ## Events and rows -/

/-- Who did what an event records. -/
inductive Actor
  | user (id : Uuid128)
  | client (id : Uuid128)
  | admin (id : Uuid128)
  | system
  deriving DecidableEq

/-- `Event`; its kind by its name and its JSON. -/
structure Event where
  id : Uuid128
  tenantId : Option Uuid128
  occurredAt : Instant
  actor : Actor
  ip : Option String
  userAgent : Option String
  impersonator : Option Uuid128
  name : String
  payload : JsonValue
  deriving DecidableEq

def actorParts : Actor → String × Option Uuid128
  | .user id => ("user", some id)
  | .client id => ("client", some id)
  | .admin id => ("admin", some id)
  | .system => ("system", none)

/-- `SUBJECT_KEYS`: payload keys that name the entity an event is about, in priority order. -/
def subjectKeys : List String :=
  ["user_id", "client_id", "role_id", "group_id", "org_id", "invitation_id", "key_id", "mapper_id",
    "resource_server_id", "scope_id", "session_id"]

def subjectOf (payload : Value) : Option Uuid128 :=
  match payload with
  | .object members =>
      (subjectKeys.findSome? fun k => (Members.get members k).bind Value.asStr).bind
        Uuid128.parseStr
  | _ => none

/-- `chain_row`: the row `event` becomes once appended after `prev` (the chain's head). -/
def chainRow (P : Primitives) (event : Event) (prev : Option (ℤ × Bytes)) : AuditEvent :=
  let row : CanonicalRow :=
    { id := event.id
      tenantId := event.tenantId
      seq := match prev with
        | some (seq, _) => seq + 1
        | none => 1
      occurredAt := event.occurredAt
      name := event.name
      actorType := (actorParts event.actor).1
      actorId := (actorParts event.actor).2
      subjectId := subjectOf event.payload.value
      impersonatorId := event.impersonator
      ip := event.ip
      userAgent := event.userAgent
      payload := event.payload }
  { row with prevHash := prev.map (·.2), hash := hash P (prev.map (·.2)) row }

def sampleEvent (n : ℕ) : Event where
  id := BitVec.ofNat 128 n
  tenantId := none
  occurredAt := 1700000000000000000
  actor := .system
  ip := some "10.0.0.1"
  userAgent := some "curl/8.5"
  impersonator := none
  name := "user.created"
  payload := ⟨.object [], by decide⟩

/-! ## The stored chain -/

/-- `Oldest`: where a chain's oldest row stands, for retention. -/
inductive Oldest
  | unknown
  | empty
  | at (t : Instant)
  deriving DecidableEq

/-- The chain's entry of `audit_chains`. -/
structure ChainEntry where
  headSeq : ℤ
  headHash : Bytes
  oldestAt : Oldest
  verifiedSeq : Option ℤ
  verifiedHash : Option Bytes
  brokenAtSeq : Option ℤ
  brokenReason : Option String

/-- The rows of one chain and its head. -/
structure ChainStore where
  rows : List AuditEvent
  entry : Option ChainEntry

/-- A chain nothing was recorded on. -/
def ChainStore.empty : ChainStore := ⟨[], none⟩

/-- `ORDER BY seq`. -/
def orderBySeq (rows : List AuditEvent) : List AuditEvent :=
  rows.insertionSort fun r r' => r.seq ≤ r'.seq

/-- `repos::audit::chain_head`. -/
def chainHead (s : ChainStore) : Option (ℤ × Bytes) :=
  (orderBySeq s.rows).getLast?.map fun r => (r.seq, r.hash)

/-- `repos::audit::chain_page`, without a filter. -/
def chainPage (s : ChainStore) (afterSeq : Option ℤ) (limit : ℕ) : List AuditEvent :=
  (orderBySeq (s.rows.filter fun r => afterSeq.all (· < r.seq))).take limit

/-- `repos::audit_chains::advance_head`. -/
def advanceHead (s : ChainStore) (seq : ℤ) (hash : Bytes) (appendedFrom : Instant)
    (newChain : Bool) : ChainStore :=
  match s.entry with
  | none =>
      { s with
        entry := some
          { headSeq := seq
            headHash := hash
            oldestAt := if newChain then .at appendedFrom else .unknown
            verifiedSeq := none
            verifiedHash := none
            brokenAtSeq := none
            brokenReason := none } }
  | some e =>
      if e.headSeq < seq then
        { s with
          entry := some
            { e with
              headSeq := seq
              headHash := hash
              oldestAt := if e.oldestAt = .empty then .at appendedFrom else e.oldestAt } }
      else s

/-- The loop of `record_chain`: each event becomes the row after the head before it. -/
def chainRows (P : Primitives) : Option (ℤ × Bytes) → List Event → List AuditEvent
  | _, [] => []
  | head, event :: events =>
      let row := chainRow P event head
      row :: chainRows P (some (row.seq, row.hash)) events

/-- The head an append starts from: the one kept in `audit_chains`, or that of the rows. -/
def currentHead (s : ChainStore) : Option (ℤ × Bytes) :=
  match s.entry with
  | some e => some (e.headSeq, e.headHash)
  | none => chainHead s

/-- `record_chain`: append `events`, all of one chain, in one transaction. -/
def recordChain (P : Primitives) (s : ChainStore) (events : List Event) : ChainStore :=
  let head := currentHead s
  let rows := chainRows P head events
  let inserted := { s with rows := s.rows ++ rows }
  match rows.head?, rows.getLast? with
  | some first, some last =>
      advanceHead inserted last.seq last.hash first.occurredAt head.isNone
  | _, _ => inserted

/-! ## Verification -/

def exportPage : ℕ := 500

/-- `Walk`: where a walk ended. -/
structure Walk where
  verifier : Verifier
  broken : Option Break
  deriving DecidableEq

/-- A walk between two of its pages. -/
structure WalkState where
  verifier : Verifier
  after : Option ℤ

/-- Where `walk` starts: after a row already known good, or at the oldest retained row. -/
def WalkState.start (chain : Uuid128) (start : Option (ℤ × Bytes)) : WalkState :=
  match start with
  | some (seq, hash) => ⟨Verifier.after chain seq hash, some seq⟩
  | none => ⟨Verifier.new, none⟩

/-- One turn of `walk`'s loop on the page that was read: go on, or end. -/
def walkPage (P : Primitives) (w : WalkState) (rows : List AuditEvent) : WalkState ⊕ Walk :=
  match checkRows P w.verifier rows with
  | (v, some b) => .inr ⟨v, some b⟩
  | (v, none) =>
      if rows.length < exportPage then .inr ⟨v, none⟩
      else .inl ⟨v, rows.getLast?.map (·.seq)⟩

/-- The loop of `walk` over rows that do not change meanwhile. -/
def walkLoop (P : Primitives) (s : ChainStore) : ℕ → WalkState → Option Walk
  | 0, _ => none
  | fuel + 1, w =>
      match walkPage P w (chainPage s w.after exportPage) with
      | .inl w' => walkLoop P s fuel w'
      | .inr done => some done

def walk (P : Primitives) (s : ChainStore) (chain : Uuid128) (start : Option (ℤ × Bytes)) :
    Option Walk :=
  walkLoop P s (s.rows.length + 1) (WalkState.start chain start)

/-- `ScheduledVerification`, without its times. -/
structure ScheduledVerification where
  verifiedSeq : Option ℤ
  brokenAtSeq : Option ℤ
  brokenReason : Option String

/-- The answer of a verification. -/
structure Verification where
  checked : ℕ
  valid : Bool
  firstSeq : Option ℤ
  lastSeq : Option ℤ
  lastHash : Option Bytes
  brokenAtSeq : Option ℤ
  reason : Option String
  scheduled : Option ScheduledVerification

/-- `verify`: walk the chain from the oldest retained row and recompute every hash. -/
def verify (P : Primitives) (s : ChainStore) (tenantId : Option Uuid128) : Option Verification :=
  (walk P s (chainId tenantId) none).map fun w =>
    { checked := w.verifier.checked
      valid := w.broken.isNone
      firstSeq := w.verifier.firstSeq.or (w.broken.map (·.seq))
      lastSeq := w.verifier.lastSeq
      lastHash := w.verifier.lastHash
      brokenAtSeq := w.broken.map (·.seq)
      reason := w.broken.map (·.reason)
      scheduled := s.entry.map fun k => ⟨k.verifiedSeq, k.brokenAtSeq, k.brokenReason⟩ }

/-- What `checkpoint_intact` answers. -/
inductive Checkpoint
  | purged
  | changed (b : Break)
  | intact (seq : ℤ) (hash : Bytes)

/-- `checkpoint_intact`: whether the checkpoint row is retained and still hashes to what was
recorded for it. -/
def checkpointIntact (P : Primitives) (s : ChainStore) (seq : ℤ) (hash : Bytes) : Checkpoint :=
  match (chainPage s (some (seq - 1)) 1).head?.filter (·.seq = seq) with
  | none => .purged
  | some row =>
      if row.hash ≠ hash ∨ Audit.hash P row.prevHash row.toCanonicalRow ≠ row.hash then
        .changed ⟨seq, "the last verified row has changed since it was verified"⟩
      else .intact seq row.hash

/-- `ChainCheck`: what one scheduled check of a chain found. -/
structure ChainCheck where
  checked : ℕ
  brokenAtSeq : Option ℤ

/-- `repos::audit_chains::set_verified`. -/
def setVerified (s : ChainStore) (seq : ℤ) (hash : Bytes) : ChainStore :=
  { s with
    entry := s.entry.map fun e =>
      { e with
        verifiedSeq := some seq
        verifiedHash := some hash
        brokenAtSeq := none
        brokenReason := none } }

/-- `repos::audit_chains::set_broken`; a break already known there changes nothing. -/
def setBroken (s : ChainStore) (seq : ℤ) (reason : String) : ChainStore :=
  { s with
    entry := s.entry.map fun e =>
      if e.brokenAtSeq = some seq then e
      else { e with brokenAtSeq := some seq, brokenReason := some reason } }

/-- The walk of `verify_one`: from the checkpoint when it is intact, from the oldest row when
there is none or retention has purged it, and none at all when it has changed. -/
def scheduledWalk (P : Primitives) (s : ChainStore) (chain : Uuid128) (c : ChainEntry) :
    Option Walk :=
  match c.verifiedSeq, c.verifiedHash, c.brokenAtSeq with
  | some seq, some hash, none =>
      match checkpointIntact P s seq hash with
      | .changed b => some ⟨Verifier.new, some b⟩
      | .intact seq hash => walk P s chain (some (seq, hash))
      | .purged => walk P s chain none
  | _, _, _ => walk P s chain none

/-- `verify_one`: the scheduled check, with its outcome recorded on the chain. -/
def verifyOne (P : Primitives) (s : ChainStore) (chain : Uuid128) (c : ChainEntry) :
    Option (ChainStore × ChainCheck) :=
  (scheduledWalk P s chain c).map fun w =>
    match w.broken with
    | none =>
        match w.verifier.lastSeq, w.verifier.lastHash with
        | some seq, some hash => (setVerified s seq hash, ⟨w.verifier.checked, none⟩)
        | _, _ => (s, ⟨w.verifier.checked, none⟩)
    | some b => (setBroken s b.seq b.reason, ⟨w.verifier.checked, some b.seq⟩)

/-- `verify_chain`: one chain's pass, whether or not it has anything new. -/
def verifyChain (P : Primitives) (s : ChainStore) (tenantId : Option Uuid128) :
    Option (ChainStore × ChainCheck) :=
  match s.entry with
  | some c => verifyOne P s (chainId tenantId) c
  | none => some (s, ⟨0, none⟩)

/-- The chain's part in `verify_pending`: it is walked when its head is past its verified
checkpoint, or when it was found broken. -/
def verifyPending (P : Primitives) (s : ChainStore) (tenantId : Option Uuid128) :
    Option (ChainStore × ChainCheck) :=
  match s.entry with
  | some c =>
      if c.verifiedSeq ≠ some c.headSeq ∨ c.brokenAtSeq ≠ none then
        verifyOne P s (chainId tenantId) c
      else some (s, ⟨0, none⟩)
  | none => some (s, ⟨0, none⟩)

/-! ## Retention -/

def purgeBatch : ℕ := 5000

/-- `repos::audit::expired_head`: the newest row older than `cutoff`. -/
def expiredHead (s : ChainStore) (cutoff : Instant) : Option ℤ :=
  ((s.rows.filter (·.occurredAt < cutoff)).map (·.seq)).max?

/-- The rows `repos::audit::purge_prefix` deletes: up to `batch` at or below `upTo`, the lowest
first. -/
def expiredRows (s : ChainStore) (upTo : ℤ) (batch : ℕ) : List AuditEvent :=
  (orderBySeq (s.rows.filter (·.seq ≤ upTo))).take batch

/-- `repos::audit::purge_prefix`. -/
def purgePrefix (s : ChainStore) (upTo : ℤ) (batch : ℕ) : ChainStore :=
  { s with rows := s.rows.filter (· ∉ expiredRows s upTo batch) }

/-- The loop of `purge`: batches until one was not full. -/
def purgeLoop (upTo : ℤ) : ℕ → ChainStore → ChainStore
  | 0, s => s
  | fuel + 1, s =>
      if (expiredRows s upTo purgeBatch).length < purgeBatch then purgePrefix s upTo purgeBatch
      else purgeLoop upTo fuel (purgePrefix s upTo purgeBatch)

/-- `repos::audit_chains::set_oldest`. -/
def setOldest (s : ChainStore) (oldest : Option Instant) : ChainStore :=
  { s with
    entry := s.entry.map fun e =>
      { e with oldestAt := match oldest with
          | some t => .at t
          | none => .empty } }

/-- `repos::audit::first_row_at`. -/
def firstRowAt (s : ChainStore) : Option Instant := (orderBySeq s.rows).head?.map (·.occurredAt)

/-- `purge`: drop the expired prefix of a chain (0 days keep everything). -/
def purge (s : ChainStore) (now : Instant) (retentionDays : ℕ) : ChainStore :=
  if retentionDays = 0 then s
  else
    let cutoff := now - seconds (86400 * retentionDays)
    let purged := match expiredHead s cutoff with
      | some upTo => purgeLoop upTo (s.rows.length + 1) s
      | none => s
    setOldest purged (firstRowAt purged)

end Ridm.Audit
