import Ridm.Core.Json
import Ridm.Sessions.Model

/-!
# Device authorization codes

`api/src/services/device_codes.rs`: a pending code is one Valkey record, which the user's
approval or denial rewrites in place and the device's polling reads, rewrites and finally takes.
This module is the model of what concurrent calls of `poll`, `approve` and `deny` do to **one**
code: its record, the key that leads from the user code to it, and its audit row.

`pollDecide` is everything `poll` decides between reading the record and touching Valkey again;
`act` splits the calls into their atomic steps.  `approve`, `deny` and `poll` all read the whole
record, change a field and write the whole record back with `SET … KEEPTTL`; the `GETDEL` of an
approved poll only asks whether there was anything to take.

The checks of the presented code itself (its length, its hash) lead to the record's key; the
calls here are those that reached it.
-/

namespace Ridm.DeviceCodes

open Sessions (SsoSession)

/-- Added to the interval on every `slow_down`. -/
def SLOW_DOWN_STEP_SECS : ℕ := 5

def INTERVAL_SECS : ℕ := 5

def DEVICE_CODE_TTL_SECS : ℕ := 10 * 60

/-- `impersonation::Acting`: what tokens minted from an impersonated session carry. -/
structure Acting where
  act : Value
  until_ : Instant

/-- The user said yes: the session that did, and the scopes they granted. -/
structure Approval where
  userId : Uuid
  sessionId : Uuid
  authTime : Instant
  amr : List String
  acr : Option String
  orgId : Option Uuid
  acting : Option Acting
  scopes : List String

/-- The decision, once there is one. -/
inductive Status
  | pending
  | approved (a : Approval)
  | denied

/-- Still waiting for the user's decision. -/
def Status.isPending : Status → Bool
  | .pending => true
  | _ => false

/-- A device code as Valkey keeps it. -/
structure DeviceRecord where
  id : Uuid
  tenantId : Uuid
  clientId : Uuid
  clientPublicId : String
  scopes : List String
  audiences : List String
  userCode : String
  intervalSecs : ℕ
  issuedAt : Instant
  expiresAt : Instant
  status : Status
  lastPollAt : Option Instant

/-- `DeviceRecord::is_expired`. -/
def DeviceRecord.isExpired (r : DeviceRecord) (now : Instant) : Bool := decide (r.expiresAt ≤ now)

def issueRecord (id tenantId clientId : Uuid) (clientPublicId : String)
    (scopes audiences : List String) (userCode : String) (now : Instant) : DeviceRecord where
  id := id
  tenantId := tenantId
  clientId := clientId
  clientPublicId := clientPublicId
  scopes := scopes
  audiences := audiences
  userCode := userCode
  intervalSecs := INTERVAL_SECS
  issuedAt := now
  expiresAt := now + seconds DEVICE_CODE_TTL_SECS
  status := .pending
  lastPollAt := none

/-- The approval `approve` records for `session`. -/
def approvalOf (session : SsoSession) (acting : Option Acting) (scopes : List String) :
    Approval where
  userId := session.userId
  sessionId := session.id
  authTime := session.authTime
  amr := session.amr
  acr := session.acr
  orgId := session.orgId
  acting := acting
  scopes := scopes

/-! ## Polling -/

/-- What the token endpoint tells the device (`Poll`). -/
inductive Poll
  | approved (r : DeviceRecord) (a : Approval)
  | pending
  | slowDown
  | denied
  | expired

/-- What a poll does next, once it has read the record and the clock. -/
inductive PollCmd
  | expire
  | refuse
  | slowDown (r : DeviceRecord)
  | wait (r : DeviceRecord)
  | take (r : DeviceRecord) (a : Approval)

/-- The device polled before the interval passed. -/
def DeviceRecord.tooSoon (r : DeviceRecord) (now : Instant) : Bool :=
  r.lastPollAt.elim false fun last => decide (numSeconds (now - last) < (r.intervalSecs : ℤ))

/-- What `poll` decides for the record it read: expired, too soon (**whatever the status**), and
only then by status. -/
def pollDecide (r : DeviceRecord) (now : Instant) : PollCmd :=
  if r.isExpired now then .expire
  else if r.tooSoon now then
    .slowDown { r with
      intervalSecs := r.intervalSecs + SLOW_DOWN_STEP_SECS
      lastPollAt := some now }
  else match r.status with
    | .pending => .wait { r with lastPollAt := some now }
    | .denied => .refuse
    | .approved a => .take r a

/-! ## Calls -/

/-- The user's decision. -/
inductive Verdict
  | approve (a : Approval)
  | deny

/-- The record as `approve` or `deny` writes it back. -/
def DeviceRecord.decided (r : DeviceRecord) : Verdict → DeviceRecord
  | .approve a => { r with status := .approved a }
  | .deny => { r with status := .denied }

/-- The status of the `device_codes` audit row. -/
inductive RowStatus
  | pending
  | approved
  | denied
  | consumed

/-- `repos::device_codes::decide`: only a pending row is decided. -/
def RowStatus.decide (row : RowStatus) (v : Verdict) : RowStatus :=
  match row, v with
  | .pending, .approve _ => .approved
  | .pending, .deny => .denied
  | row, _ => row

/-- `repos::device_codes::consume`: only an approved row is consumed. -/
def RowStatus.consume : RowStatus → RowStatus
  | .approved => .consumed
  | row => row

/-- Everything the calls share: the clock, the record's key, whether the user code still leads to
it, and the audit row. -/
structure Store where
  now : Instant
  code : Slot DeviceRecord
  userKey : Bool
  row : RowStatus

/-- What is called on the device code. -/
inductive Call
  | poll (clientId : Uuid)
  | approve (session : SsoSession) (acting : Option Acting) (scopes : List String)
  | deny

/-- What a call returned. -/
inductive Answer
  | poll (p : Option Poll)
  | approve (r : Except AppError DeviceRecord)
  | deny

/-- What `approve` or `deny` returns once the decision is recorded. -/
def Verdict.answer (r : DeviceRecord) : Verdict → Answer
  | .approve a => .approve (.ok (r.decided (.approve a)))
  | .deny => .deny

/-- Where a call stands. -/
inductive Pc
  | idle (c : Call)
  | polled (r : DeviceRecord)
  | polling (c : PollCmd)
  | taken (r : DeviceRecord) (a : Approval)
  | consuming (r : DeviceRecord) (a : Approval)
  | approving (r : DeviceRecord) (a : Approval)
  | deciding (r : DeviceRecord) (v : Verdict)
  /-- `approve` or `deny` has written the record; the audit row is next. -/
  | recording (r : DeviceRecord) (v : Verdict)
  | returned (a : Answer)

/-- The next atomic step of a call. -/
def act (g : Store) : Pc → Option (Store × Pc)
  | .idle (.poll clientId) =>
      match g.code.get with
      | none => some (g, .returned (.poll none))
      | some r =>
          if r.clientId ≠ clientId then some (g, .returned (.poll none))
          else some (g, .polled r)
  | .polled r => some (g, .polling (pollDecide r g.now))
  | .polling .expire =>
      some ({ g with code := g.code.del, userKey := false }, .returned (.poll (some .expired)))
  | .polling .refuse =>
      some ({ g with code := g.code.del, userKey := false }, .returned (.poll (some .denied)))
  | .polling (.slowDown r) =>
      some ({ g with code := g.code.setKeepTtl r }, .returned (.poll (some .slowDown)))
  | .polling (.wait r) =>
      some ({ g with code := g.code.setKeepTtl r }, .returned (.poll (some .pending)))
  | .polling (.take r a) =>
      -- `GETDEL`: only whether there was a record counts, not which
      match g.code.get with
      | none => some (g, .returned (.poll none))
      | some _ => some ({ g with code := g.code.del }, .taken r a)
  | .taken r a => some ({ g with userKey := false }, .consuming r a)
  | .consuming r a =>
      some ({ g with row := g.row.consume }, .returned (.poll (some (.approved r a))))
  | .idle (.approve session acting scopes) =>
      match g.code.get with
      | none => some (g, .returned (.approve (.error (.notFound "device code"))))
      | some r =>
          if r.status.isPending then some (g, .approving r (approvalOf session acting scopes))
          else some (g, .returned (.approve (.error (.notFound "device code"))))
  | .approving r a =>
      if r.isExpired g.now then some (g, .returned (.approve (.error (.notFound "device code"))))
      else some (g, .deciding r (.approve a))
  | .idle .deny =>
      -- nothing pending to deny is a success too
      match g.code.get with
      | none => some (g, .returned .deny)
      | some r =>
          if r.status.isPending then some (g, .deciding r .deny) else some (g, .returned .deny)
  | .deciding r v => some ({ g with code := g.code.setKeepTtl (r.decided v) }, .recording r v)
  | .recording r v => some ({ g with row := g.row.decide v }, .returned (v.answer r))
  | .returned _ => none

/-- What the surroundings do: time passes, and Valkey drops a key whose lifetime is over. -/
inductive Env
  | tick (d : ℕ)
  | expire
  deriving DecidableEq

/-- The steps of the surroundings. -/
def env (g : Store) : Env → Option Store
  | .tick d => some { g with now := g.now + d }
  | .expire => (g.code.expire g.now).map fun k => { g with code := k }

def calls (ι : Type) : Calls ι Store Pc Unit Env where
  act _ g l _ := act g l
  env := env

end Ridm.DeviceCodes
