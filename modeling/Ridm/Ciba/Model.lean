import Ridm.Core.Valkey
import Ridm.Lib.Interleaving

/-!
# Backchannel authentication requests

`api/src/services/ciba.rs`: a request is one Valkey record, which the client's token requests
(`poll`) read, rewrite and finally take, and one `ciba_requests` row, which `decide` locks.  This
module is the model of what concurrent calls of `poll` and `decide` do to **one** request.

`decide` is a transaction: `SELECT … FOR UPDATE` on the pending row, then the Valkey record, then
the row's `UPDATE`, then `SET … KEEPTTL`, then the commit.  Until the commit nobody sees the
`UPDATE`, and nobody else gets the lock; `poll` never asks for it.  The transaction may be rolled
back before any of its steps (an error, a crash); what it wrote to Valkey then stays.

Events and the ping of a `ping` client follow the commit, touch neither store and are left out.
-/

namespace Ridm.Ciba

def DEFAULT_EXPIRY_SECS : ℕ := 10 * 60

def INTERVAL_SECS : ℕ := 5

/-- Added to the interval on every `slow_down`. -/
def SLOW_DOWN_STEP_SECS : ℕ := 5

/-- How the client hears of a decision. -/
inductive BackchannelDeliveryMode
  | poll
  | ping
  deriving DecidableEq

/-- The user said yes, from the sign-in session behind their account token. -/
structure Approval where
  userId : Uuid
  sessionId : Uuid
  authTime : Instant
  amr : List String
  acr : Option String
  orgId : Option Uuid
  deriving DecidableEq

/-- The decision, once there is one. -/
inductive Status
  | pending
  | approved (a : Approval)
  | denied
  deriving DecidableEq

/-- Still waiting for the user's decision. -/
def Status.isPending : Status → Bool
  | .pending => true
  | _ => false

/-- A backchannel request as Valkey keeps it. -/
structure CibaRecord where
  id : Uuid
  tenantId : Uuid
  clientId : Uuid
  userId : Uuid
  scopes : List String
  audiences : List String
  mode : BackchannelDeliveryMode
  authReqId : Option String
  notificationToken : Option String
  intervalSecs : ℕ
  issuedAt : Instant
  expiresAt : Instant
  status : Status
  lastPollAt : Option Instant
  deriving DecidableEq

/-- `CibaRecord::is_expired`. -/
def CibaRecord.isExpired (r : CibaRecord) (now : Instant) : Bool := decide (r.expiresAt ≤ now)

def startRecord (id tenantId clientId userId : Uuid) (scopes audiences : List String)
    (mode : BackchannelDeliveryMode) (authReqId : String) (notificationToken : Option String)
    (expirySecs : ℕ) (now : Instant) : CibaRecord where
  id := id
  tenantId := tenantId
  clientId := clientId
  userId := userId
  scopes := scopes
  audiences := audiences
  mode := mode
  authReqId := if mode = .ping then some authReqId else none
  notificationToken := if mode = .ping then notificationToken else none
  intervalSecs := INTERVAL_SECS
  issuedAt := now
  expiresAt := now + seconds expirySecs
  status := .pending
  lastPollAt := none

/-! ## Polling -/

/-- What the token endpoint tells the client (`Poll`). -/
inductive Poll
  | approved (r : CibaRecord) (a : Approval)
  | pending
  | slowDown
  | denied
  | expired
  deriving DecidableEq

/-- What a poll does next, once it has read the record and the clock. -/
inductive PollCmd
  | expire
  | refuse
  /-- Write the record back; `SlowDown` if the client asked too soon, else `Pending`. -/
  | keep (r : CibaRecord) (tooSoon : Bool)
  | take (r : CibaRecord) (a : Approval)
  deriving DecidableEq

/-- The client asked before the interval passed. -/
def CibaRecord.tooSoon (r : CibaRecord) (now : Instant) : Bool :=
  r.lastPollAt.elim false fun last => decide (numSeconds (now - last) < (r.intervalSecs : ℤ))

/-- What `poll` decides for the record it read.  Only an undecided request can be asked too
often. -/
def pollDecide (r : CibaRecord) (now : Instant) : PollCmd :=
  if r.isExpired now then .expire
  else match r.status with
    | .pending =>
        let soon := r.tooSoon now
        .keep { r with
          intervalSecs := if soon then r.intervalSecs + SLOW_DOWN_STEP_SECS else r.intervalSecs
          lastPollAt := some now } soon
    | .denied => .refuse
    | .approved a => .take r a

/-! ## Deciding -/

/-- The record as `decide` writes it back: `some` approves it, `none` denies it. -/
def CibaRecord.decided (r : CibaRecord) : Option Approval → CibaRecord
  | some a => { r with status := .approved a }
  | none => { r with status := .denied }

/-- The status of the `ciba_requests` row. -/
inductive RowStatus
  | pending
  | approved
  | denied
  | consumed
  deriving DecidableEq

/-- The `ciba_requests` row, as far as the calls look at it. -/
structure Row where
  userId : Uuid
  expiresAt : Instant
  status : RowStatus

/-- `repos::ciba_requests::pending_hash_for_update` finds the row (`now`: when the transaction
began). -/
def Row.isPendingFor (row : Row) (userId : Uuid) (now : Instant) : Bool :=
  decide (row.userId = userId) && decide (row.status = .pending) && decide (now < row.expiresAt)

/-- `repos::ciba_requests::decide`: only a pending row is decided. -/
def Row.decide (row : Row) (approval : Option Approval) : Row :=
  match row.status with
  | .pending => { row with status := if approval.isSome then .approved else .denied }
  | _ => row

/-- `repos::ciba_requests::consume`: only an approved row is consumed. -/
def Row.consume (row : Row) : Row :=
  match row.status with
  | .approved => { row with status := .consumed }
  | _ => row

/-! ## Calls -/

/-- Everything the calls share: the clock, the record's key, and the row as it is committed, with
whether some transaction has it locked. -/
structure Store where
  now : Instant
  request : Slot CibaRecord
  row : Row
  locked : Bool

/-- What is called on the request. -/
inductive Call
  | poll (clientId : Uuid)
  | decide (userId : Uuid) (approval : Option Approval)
  deriving DecidableEq

/-- What a call returned. -/
inductive Answer
  | poll (p : Option Poll)
  | decide (r : Except AppError (Option (Uuid × List String)))
  deriving DecidableEq

/-- `decide` found nothing to answer. -/
def Answer.noRequest : Answer := .decide (.error (.notFound "backchannel request"))

/-- Where a call stands. -/
inductive Pc
  | idle (c : Call)
  | polled (r : CibaRecord)
  | polling (c : PollCmd)
  | consuming (r : CibaRecord) (a : Approval)
  | begun (userId : Uuid) (approval : Option Approval) (startedAt : Instant)
  | rowLocked (userId : Uuid) (approval : Option Approval)
  | loaded (r : CibaRecord) (approval : Option Approval)
  /-- `decide` has updated the row (uncommitted); the record is next. -/
  | deciding (r : CibaRecord) (approval : Option Approval)
  | committing (r : CibaRecord) (approval : Option Approval)
  | returned (a : Answer)
  | rolledBack
  deriving DecidableEq

/-- The call's transaction has the row locked. -/
def Pc.holdsRow : Pc → Bool
  | .rowLocked .. | .loaded .. | .deciding .. | .committing .. => true
  | _ => false

/-- The call's next atomic step. -/
def go (g : Store) : Pc → Option (Store × Pc)
  | .idle (.poll clientId) =>
      match g.request.get with
      | none => some (g, .returned (.poll none))
      | some r =>
          if r.clientId ≠ clientId then some (g, .returned (.poll none))
          else some (g, .polled r)
  | .polled r => some (g, .polling (pollDecide r g.now))
  | .polling .expire =>
      some ({ g with request := g.request.del }, .returned (.poll (some .expired)))
  | .polling .refuse =>
      some ({ g with request := g.request.del }, .returned (.poll (some .denied)))
  | .polling (.keep r soon) =>
      some ({ g with request := g.request.setKeepTtl r },
        .returned (.poll (some (if soon then .slowDown else .pending))))
  | .polling (.take r a) =>
      -- `GETDEL`: only whether there was a record counts, not which
      match g.request.get with
      | none => some (g, .returned (.poll none))
      | some _ => some ({ g with request := g.request.del }, .consuming r a)
  | .consuming r a =>
      -- a row that is being decided still reads as pending and is passed over, not waited for
      some ({ g with row := g.row.consume }, .returned (.poll (some (.approved r a))))
  | .idle (.decide userId approval) => some (g, .begun userId approval g.now)
  | .begun userId approval startedAt =>
      if g.locked then none
      else if g.row.isPendingFor userId startedAt then
        some ({ g with locked := true }, .rowLocked userId approval)
      else some (g, .returned .noRequest)
  | .rowLocked userId approval =>
      match g.request.get with
      | none => some ({ g with locked := false }, .returned .noRequest)
      | some r =>
          if r.userId = userId ∧ r.status.isPending = true then some (g, .loaded r approval)
          else some ({ g with locked := false }, .returned .noRequest)
  | .loaded r approval =>
      if r.isExpired g.now then some ({ g with locked := false }, .returned .noRequest)
      else some (g, .deciding r approval)
  | .deciding r approval =>
      some ({ g with request := g.request.setKeepTtl (r.decided approval) },
        .committing r approval)
  | .committing r approval =>
      some ({ g with row := g.row.decide approval, locked := false },
        .returned (.decide (.ok (approval.map fun _ => (r.clientId, r.scopes)))))
  | .returned _ | .rolledBack => none

/-- How a call goes on: with its next step, or not at all. -/
inductive Choice
  | go
  | rollBack

/-- One step of a call, or the end of its transaction, which lets the row go. -/
def act (g : Store) (l : Pc) : Choice → Option (Store × Pc)
  | .go => go g l
  | .rollBack => if l.holdsRow then some ({ g with locked := false }, .rolledBack) else none

/-- What the surroundings do: time passes, and Valkey drops a key whose lifetime is over. -/
inductive Env
  | tick (d : ℕ)
  | expire

/-- The steps of the surroundings. -/
def env (g : Store) : Env → Option Store
  | .tick d => some { g with now := g.now + d }
  | .expire => (g.request.expire g.now).map fun k => { g with request := k }

def calls (ι : Type) : Calls ι Store Pc Choice Env where
  act _ := act
  env := env

end Ridm.Ciba
