import Ridm.Core.Valkey
import Ridm.Lib.Interleaving

/-!
# Browser SSO sessions

`api/src/services/sessions.rs`: a session lives in Valkey as one JSON value and is mirrored to
one Postgres row.  This module is the model of what concurrent requests do to **one** session.

`get` loads the value and, once a minute, slides the idle window and writes the whole value
back; `refreshAuth`, `bindOrganization` and `bindDevice` change the value a request already
holds and write it back whole.  `revoke` removes the key with `GETDEL`, marks the mirror row and
goes on to the refresh tokens.  No operation compares what it overwrites with what it read, and
`get` never looks at the mirror row.

A call is a `Pc`, the place it has reached; `act` is its next atomic step (one Valkey command,
one transaction, or one reading of the clock).  A call that fails or is cancelled somewhere is a
call the schedule stops picking.
-/

namespace Ridm.Sessions

/-- The administrator behind a session. -/
structure Impersonator where
  userId : Uuid
  tenantId : Uuid
  username : String
  deriving DecidableEq

/-- A session as Valkey keeps it. -/
structure SsoSession where
  id : Uuid
  tenantId : Uuid
  userId : Uuid
  authTime : Instant
  amr : List String
  acr : Option String
  ip : Option String
  userAgent : Option String
  deviceId : Option Uuid
  orgId : Option Uuid
  impersonator : Option Impersonator
  createdAt : Instant
  lastSeenAt : Instant
  expiresAt : Instant
  idleExpiresAt : Instant
  deriving DecidableEq

/-- `SsoSession::is_live`. -/
def SsoSession.isLive (s : SsoSession) (now : Instant) : Bool :=
  decide (now < s.expiresAt) && decide (now < s.idleExpiresAt)

/-- What `get` reads of the tenant's `SessionPolicy`. -/
structure SessionPolicy where
  idleTimeoutSecs : ℕ
  deriving DecidableEq

/-- How often, at most, the sliding window is written to the mirror row, in seconds: a quarter
of the idle timeout, at most 15 minutes and at least one. -/
def mirrorInterval (policy : SessionPolicy) : ℤ :=
  max 60 (min ((policy.idleTimeoutSecs / 4 : ℕ) : ℤ) (15 * 60))

/-- Seconds since the epoch (`DateTime::timestamp`). -/
def timestamp (t : Instant) : ℤ := t / 1000000000

/-- The mirror row follows this slide of the window: `before` and `now` fall in different mirror
intervals. -/
def mirrorDue (policy : SessionPolicy) (before now : Instant) : Bool :=
  timestamp before / mirrorInterval policy != timestamp now / mirrorInterval policy

/-- The slid session `get` writes back. -/
def slide (policy : SessionPolicy) (now : Instant) (s : SsoSession) : SsoSession :=
  { s with
    lastSeenAt := now
    idleExpiresAt := min (now + seconds policy.idleTimeoutSecs) s.expiresAt }

/-! ## The mirror row -/

/-- The columns of the `sso_sessions` row the operations below write. -/
structure SessionRow where
  authTime : Instant
  amr : List String
  acr : Option String
  deviceId : Option Uuid
  orgId : Option Uuid
  lastSeenAt : Instant
  idleExpiresAt : Instant
  revokedAt : Option Instant

/-- An update of the mirror row. -/
inductive MirrorWrite
  | touch
  | organization (org : Uuid)
  | device (device : Uuid)
  deriving DecidableEq

/-- `repos::sessions::touch`, `set_organization` and `set_device`. -/
def MirrorWrite.apply (m : MirrorWrite) (s : SsoSession) (row : SessionRow) : SessionRow :=
  match m with
  | .touch =>
      { row with
        lastSeenAt := s.lastSeenAt
        idleExpiresAt := s.idleExpiresAt
        authTime := s.authTime
        amr := s.amr
        acr := s.acr }
  | .organization org => { row with orgId := some org }
  | .device d => { row with deviceId := some d }

/-- `repos::sessions::mark_revoked`: only the first revocation is dated. -/
def markRevoked (now : Instant) (row : SessionRow) : SessionRow :=
  { row with revokedAt := row.revokedAt.orElse fun _ => some now }

/-! ## Calls -/

/-- What a request does with a session it holds. -/
inductive Op
  | refreshAuth (amr : List String) (acr : Option String)
  | bindOrganization (org : Uuid)
  | bindDevice (device : Uuid)
  deriving DecidableEq

/-- What is called on the session. -/
inductive Call
  | request (policy : SessionPolicy) (ops : List Op)
  /-- The request that opened the session, going on with the value it holds. -/
  | opened (s : SsoSession) (ops : List Op)
  | revoke
  deriving DecidableEq

/-- What follows a `store`: the rest of `get`, or the mirror update of an operation. -/
inductive Then
  | slid (mirror : Bool) (ops : List Op)
  | touched (m : MirrorWrite) (ops : List Op)
  deriving DecidableEq

/-- Where a call stands. -/
inductive Pc
  | idle (c : Call)
  | got (policy : SessionPolicy) (s : SsoSession) (ops : List Op)
  | storing (s : SsoSession) (t : Then)
  | writing (s : SsoSession) (ttlMs : ℤ) (t : Then)
  | mirroring (s : SsoSession) (m : MirrorWrite) (served : Bool) (ops : List Op)
  /-- `get` has returned the session (or the request opened it); operations are left. -/
  | holding (s : SsoSession) (ops : List Op)
  | absent
  | ending (raw : Option SsoSession)
  | marked (raw : Option SsoSession)
  | untracked (live : Bool)
  | revoked (live : Bool)
  deriving DecidableEq

/-- Everything the calls share: the clock, the session's key, its mirror row, whether the user's
live-session set names it, and whether its refresh tokens were revoked. -/
structure Store where
  now : Instant
  key : Slot SsoSession
  row : SessionRow
  tracked : Bool
  tokensRevoked : Bool

/-- Where a call goes on after `store`. -/
def afterStore (s : SsoSession) : Then → Pc
  | .slid true ops => .mirroring s .touch false ops
  | .slid false ops => .holding s ops
  | .touched m ops => .mirroring s m true ops

/-- Start an operation on the held session. -/
def beginOp (now : Instant) (s : SsoSession) (ops : List Op) : Op → Pc
  | .refreshAuth amr acr =>
      .storing { s with authTime := now, amr := amr, acr := acr } (.touched .touch ops)
  | .bindOrganization org =>
      if s.orgId = some org then .holding s ops
      else .storing { s with orgId := some org } (.touched (.organization org) ops)
  | .bindDevice d => .storing { s with deviceId := some d } (.touched (.device d) ops)

/-- The next atomic step of a call. -/
def act (g : Store) : Pc → Option (Store × Pc)
  | .idle (.request policy ops) =>
      match g.key.get with
      | none => some (g, .absent)
      | some s => some (g, .got policy s ops)
  | .idle (.opened s ops) => some (g, .holding s ops)
  | .idle .revoke => some ({ g with key := g.key.del }, .ending g.key.get)
  | .got policy s ops =>
      if !s.isLive g.now then some (g, .absent)
      -- the window slides at most once a minute
      else if 60 ≤ numSeconds (g.now - s.lastSeenAt) then
        some (g, .storing (slide policy g.now s) (.slid (mirrorDue policy s.lastSeenAt g.now) ops))
      else some (g, .holding s ops)
  | .storing s t =>
      let ttlMs := numMilliseconds (min s.expiresAt s.idleExpiresAt - g.now)
      if ttlMs ≤ 0 then some (g, afterStore s t) else some (g, .writing s ttlMs t)
  | .writing s ttlMs t =>
      some ({ g with key := Slot.setUntil s (g.now + ttlMs * 1000000) }, afterStore s t)
  | .mirroring s m _ ops => some ({ g with row := m.apply s g.row }, .holding s ops)
  | .holding s (op :: ops) => some (g, beginOp g.now s ops op)
  | .holding _ [] => none
  | .absent => none
  | .ending raw => some ({ g with row := markRevoked g.now g.row }, .marked raw)
  | .marked raw =>
      some ({ g with tracked := g.tracked && raw.isNone }, .untracked raw.isSome)
  | .untracked live => some ({ g with tokensRevoked := true }, .revoked live)
  | .revoked _ => none

/-- What the surroundings do: time passes, and Valkey drops a key whose lifetime is over. -/
inductive Env
  | tick (d : ℕ)
  | expire

/-- The steps of the surroundings. -/
def env (g : Store) : Env → Option Store
  | .tick d => some { g with now := g.now + d }
  | .expire => (g.key.expire g.now).map fun k => { g with key := k }

def calls (ι : Type) : Calls ι Store Pc Unit Env where
  act _ g l _ := act g l
  env := env

end Ridm.Sessions
