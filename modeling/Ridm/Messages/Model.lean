import Ridm.Core.Types
import Ridm.Lib.Interleaving

/-!
# The outbound message queue

`api/src/messaging/queue.rs`, `api/src/repos/messages.rs` and `api/src/jobs/message_delivery.rs`, for
**one** row of `outbound_messages`.

A delivery claims the row (`deliver_one` right after it was queued, `deliver_due` from the job),
hands it to the tenant's sender and records what came of it.  The claim is one statement that takes
only a row that is `queued` and due; what is recorded, `mark_sent` or `mark_failed`, overwrites the
row whatever its status.  The job puts rows back that have been `sending` for longer than
`STALE_AFTER`.  `redeliver`, an administrator's, reads the row and, if it is dead, puts it back in
the queue in a second statement that does not look at the status again.

A call is a `Pc`; `act` is its next atomic step, one statement or one reading of the clock.  Besides
the row the state keeps two facts of the past: how often the message was handed to a sender since it
was queued or redelivered last, and whether it was ever marked sent.
-/

namespace Ridm.Messages

/-- The life of a message. -/
inductive MessageStatus
  | queued
  | sending
  | sent
  | dead
  deriving DecidableEq

/-- The columns of `outbound_messages` that change. -/
structure OutboundMessage where
  status : MessageStatus
  attempts : ℕ
  maxAttempts : ℕ
  nextAttemptAt : Instant
  lastError : Option String
  sentAt : Option Instant
  deriving DecidableEq

/-- Why a provider did not take it. -/
inductive ProviderError
  | configuration (detail : String)
  | unavailable (detail : String)
  | rejected (detail : String)
  deriving DecidableEq

/-- `ProviderError::is_retryable`. -/
def ProviderError.isRetryable : ProviderError → Bool
  | .unavailable _ => true
  | _ => false

/-- The text of a `ProviderError`. -/
def ProviderError.text : ProviderError → String
  | .configuration detail => "provider configuration error: " ++ detail
  | .unavailable detail => "provider unavailable: " ++ detail
  | .rejected detail => "provider rejected request: " ++ detail

def staleAfter : ℤ := seconds 600

def backoff : ℕ → ℤ
  | 0 | 1 => seconds 60
  | 2 => seconds 300
  | 3 => seconds 1800
  | 4 => seconds 7200
  | 5 => seconds 21600
  | _ => seconds 43200

/-! ## The statements -/

namespace OutboundMessage

variable (m : OutboundMessage) (now : Instant)

/-- `enqueue`. -/
def enqueued (maxAttempts : ℕ) : OutboundMessage where
  status := .queued
  attempts := 0
  maxAttempts := maxAttempts
  nextAttemptAt := now
  lastError := none
  sentAt := none

/-- What `claim_one` and `claim_due` select. -/
def isDue : Bool := m.status = .queued && decide (m.nextAttemptAt ≤ now)

/-- The update of `claim_one` and `claim_due`. -/
def claim : OutboundMessage := { m with status := .sending, nextAttemptAt := now }

/-- `requeue_stale_all`. -/
def requeueStale (staleBefore : Instant) : OutboundMessage :=
  if m.status = .sending ∧ m.nextAttemptAt < staleBefore then { m with status := .queued } else m

def markSent : OutboundMessage :=
  { m with status := .sent, sentAt := some now, attempts := m.attempts + 1, lastError := none }

def markFailed (error : String) (nextAttemptAt : Instant) (dead : Bool) : OutboundMessage :=
  { m with
    status := if dead then .dead else .queued
    attempts := m.attempts + 1
    lastError := some error
    nextAttemptAt := nextAttemptAt }

/-- The update of `redeliver`. -/
def redelivered : OutboundMessage :=
  { m with status := .queued, attempts := 0, nextAttemptAt := now, lastError := none }

/-- `deliver_claimed` gives the message up: the error is final, or the attempts are used. -/
def givesUp (err : ProviderError) : Bool := !err.isRetryable || decide (m.maxAttempts ≤ m.attempts + 1)

end OutboundMessage

/-! ## Calls -/

/-- The clock, the row, and what is known of its past. -/
structure Queue where
  now : Instant
  row : OutboundMessage
  /-- How often it was handed to a sender since it was queued, or redelivered last. -/
  sends : ℕ
  delivered : Bool

/-- A call that may touch the message. -/
inductive Call
  | deliverOne
  | deliverDue
  | redeliver
  | requeueStale
  deriving DecidableEq

/-- Where a call stands. -/
inductive Pc
  | idle (c : Call)
  | claimed (msg : OutboundMessage)
  | answered (msg : OutboundMessage) (error : Option ProviderError)
  | redelivering
  | requeueing (staleBefore : Instant)
  | refused
  | done
  deriving DecidableEq

/-- What a step leaves open. -/
inductive Choice
  | go
  /-- `claim_due` takes other rows: its limit is reached, or this one is locked. -/
  | passOver
  | answer (error : Option ProviderError)
  /-- The delivery ends before anything is sent: no sender could be set up, or its node stops. -/
  | stop

/-- The message a delivery holds. -/
def Pc.held : Pc → Option OutboundMessage
  | .claimed msg => some msg
  | .answered msg _ => some msg
  | _ => none

/-- A claim, which finds the row due or ends the call. -/
def claimStep (g : Queue) : Queue × Pc :=
  if g.row.isDue g.now then ({ g with row := g.row.claim g.now }, .claimed (g.row.claim g.now))
  else (g, .done)

/-- The end of `deliver_claimed`: the outcome is recorded. -/
def record (g : Queue) (msg : OutboundMessage) : Option ProviderError → Queue
  | none => { g with row := g.row.markSent g.now, delivered := true }
  | some err =>
      { g with
        row := g.row.markFailed err.text (g.now + backoff (msg.attempts + 1)) (msg.givesUp err) }

/-- The second statement of `redeliver`. -/
def Queue.redeliver (g : Queue) : Queue := { g with row := g.row.redelivered g.now, sends := 0 }

/-- The next atomic step of a call. -/
def act (g : Queue) : Pc → Choice → Option (Queue × Pc)
  | .idle .deliverOne, .go => some (claimStep g)
  | .idle .deliverDue, .go => some (claimStep g)
  | .idle .deliverDue, .passOver => some (g, .done)
  | .claimed msg, .answer error => some ({ g with sends := g.sends + 1 }, .answered msg error)
  | .claimed _, .stop => some (g, .done)
  | .answered msg error, .go => some (record g msg error, .done)
  | .idle .redeliver, .go => some (g, if g.row.status = .dead then .redelivering else .refused)
  | .redelivering, .go => some (g.redeliver, .done)
  | .idle .requeueStale, .go => some (g, .requeueing (g.now - staleAfter))
  | .requeueing staleBefore, .go => some ({ g with row := g.row.requeueStale staleBefore }, .done)
  | _, _ => none

/-- Time passes. -/
def env (g : Queue) (d : ℕ) : Option Queue := some { g with now := g.now + d }

def calls (ι : Type) : Calls ι Queue Pc Choice ℕ where
  act _ := act
  env := env

/-- A message that was just queued, and the calls that will touch it. -/
def queuedMessage {ι : Type} (now : Instant) (maxAttempts : ℕ) (start : ι → Call) : Pool ι Queue Pc :=
  ⟨{ now := now, row := .enqueued now maxAttempts, sends := 0, delivered := false },
    fun i => .idle (start i)⟩

end Ridm.Messages
