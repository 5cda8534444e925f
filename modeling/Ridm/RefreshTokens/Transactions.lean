import Ridm.RefreshTokens.Model
import Ridm.Lib.Interleaving

/-!
# Concurrent redemptions

Each call of `redeem` is a Postgres transaction at READ COMMITTED.  This module is the model of any
number of them over one table, at the granularity at which they see each other:

* `SELECT … FOR UPDATE` waits for the lock on the presented row, reads the row as it is committed
  then, and keeps the lock until the transaction ends.
* The `UPDATE` of a whole family picks its candidates in a snapshot taken when it starts.  It then
  comes to them one by one, in any order: it waits for the row's lock, and if the row as committed
  *then* is still unrevoked, it takes the lock and revokes it.  A row that was committed after the
  snapshot is not among the candidates.
* What a transaction wrote becomes visible when it commits; locks go when it ends either way.

`redeemFound` of the sequential model is split at the points where it touches the table; the
exchange itself is that model's `exchange` at the commit, since the row it consumes is locked all
along and nobody sees the successor before.  Two inserts of one key would wait for each other: the
one that commits second fails.
-/

namespace Ridm.RefreshTokens

/-- The clock, the committed rows, and which transaction holds the lock on which row. -/
structure Db (ι : Type) where
  now : Instant
  rows : Table
  lock : Uuid → Option ι

namespace Db

variable {ι : Type}

/-- Transaction `i` takes the lock on a row. -/
def lockRow (db : Db ι) (i : ι) (id : Uuid) : Db ι :=
  { db with lock := fun id' => if id' = id then some i else db.lock id' }

variable [DecidableEq ι]

/-- Transaction `i` ends, and its locks with it. -/
def release (db : Db ι) (i : ι) : Db ι :=
  { db with lock := fun id => if db.lock id = some i then none else db.lock id }

/-- Transaction `i` need not wait for the row. -/
def canLock (db : Db ι) (i : ι) (id : Uuid) : Bool := db.lock id = none || db.lock id = some i

/-- Transaction `i` commits: its rows are the table now, and its locks are gone. -/
def commit (db : Db ι) (i : ι) (rows : Table) : Db ι := { db.release i with rows := rows }

variable {db : Db ι} {i j : ι} {id id' : Uuid}

lemma release_lock (h : db.lock id = some j) (hji : j ≠ i) :
    (db.release i).lock id = some j := by
  simp [release, h, hji]

lemma lockRow_lock (hcan : db.canLock i id = true) (h : db.lock id' = some j) (hji : j ≠ i) :
    (db.lockRow i id).lock id' = some j := by
  have hne : id' ≠ id := by
    rintro rfl
    simp [canLock, h, hji] at hcan
  simp [lockRow, hne, h]

omit [DecidableEq ι] in
@[simp] lemma lockRow_lock_self : (db.lockRow i id).lock id = some i := by
  simp [lockRow]

omit [DecidableEq ι] in
lemma lockRow_lock_mine (h : db.lock id' = some i) : (db.lockRow i id).lock id' = some i := by
  simp only [lockRow]
  split_ifs
  · rfl
  · exact h

end Db

/-- Where a transaction stands. -/
inductive Pc
  | idle (req : RedeemRequest) (sessions : Sessions) (draw : Draw)
  | begun (req : RedeemRequest) (sessions : Sessions) (draw : Draw) (now : Instant)
  | locked (req : RedeemRequest) (sessions : Sessions) (draw : Draw) (now : Instant)
      (current : RefreshToken)
  /-- The family's `UPDATE` has its candidates `todo` (as the snapshot has them) still to come to;
  the rows of `done` are revoked, uncommitted. -/
  | revoking (current : RefreshToken) (todo : List RefreshToken) (done : List Uuid) (now : Instant)
      (answer : OAuthError)
  | exchanging (req : RedeemRequest) (draw : Draw) (now : Instant) (current : RefreshToken)
  | returned (found : Option RefreshToken) (answer : Except OAuthError Issued)
  | rolledBack

/-- The refusal of a consumed token. -/
def reuseDetected : OAuthError := ⟨.invalidGrant, "refresh token reuse detected"⟩

def sessionOver : OAuthError := ⟨.invalidGrant, "the session this token was issued in has ended"⟩

/-- How a transaction goes on: with its next statement, with a candidate row of its `UPDATE`, or
not at all. -/
inductive Choice
  | go
  | row (id : Uuid)
  | rollBack

/-- The candidates of the family's `UPDATE`. -/
def candidates (rows : Table) (tenantId familyId : Uuid) : List RefreshToken :=
  rows.filter fun t => inFamily tenantId familyId t && t.revokedAt.isNone

section

variable {ι : Type} [DecidableEq ι]

/-- The first statement of the transaction: `SELECT … FOR UPDATE`. -/
def selectForUpdate (hash : String → Digest) (i : ι) (db : Db ι) (req : RedeemRequest)
    (sessions : Sessions) (draw : Draw) (now : Instant) : Option (Db ι × Pc) :=
  match findByHash db.rows req.tenantId (hash req.presented) with
  | none => some (db, .returned none (refuse .invalidGrant "invalid refresh token"))
  | some current =>
      if db.canLock i current.id then
        some (db.lockRow i current.id, .locked req sessions draw now current)
      else none

/-- What `redeem` does once the row is locked and read. -/
def decideFound (i : ι) (db : Db ι) (req : RedeemRequest) (sessions : Sessions) (draw : Draw)
    (now : Instant) (current : RefreshToken) : Db ι × Pc :=
  if current.clientId ≠ req.clientId then
    (db.release i, .returned (some current)
      (refuse .invalidGrant "refresh token was not issued to this client"))
  else if current.consumedAt.isSome then
    (db, .revoking current (candidates db.rows req.tenantId current.familyId) [] now
      reuseDetected)
  else if current.revokedAt.isSome then
    (db.release i, .returned (some current) (refuse .invalidGrant "refresh token revoked"))
  else
    match checkRequest req current now with
    | some e => (db.release i, .returned (some current) (.error e))
    | none =>
        if sessionEnded sessions current then
          (db, .revoking current (candidates db.rows req.tenantId current.familyId) [] now
            sessionOver)
        else (db, .exchanging req draw now current)

/-- The family's `UPDATE` comes to the row `id`. -/
def revokeRow (i : ι) (db : Db ι) (current : RefreshToken) (todo : List RefreshToken)
    (done : List Uuid) (now : Instant) (answer : OAuthError) (id : Uuid) : Option (Db ι × Pc) :=
  if todo.any (·.id == id) && db.canLock i id then
    if db.rows.any fun t => t.id == id && t.revokedAt.isNone then
      some (db.lockRow i id,
        .revoking current (todo.filter (·.id != id)) (id :: done) now answer)
    else some (db, .revoking current (todo.filter (·.id != id)) done now answer)
  else none

/-- The next atomic step of transaction `i`. -/
def act (hash : String → Digest) (i : ι) (db : Db ι) : Pc → Choice → Option (Db ι × Pc)
  | .idle req sessions draw, .go =>
      if !PREFIX.toList.isPrefixOf req.presented.toList || req.presented.utf8ByteSize > 256 then
        some (db, .returned none (refuse .invalidGrant "invalid refresh token"))
      else some (db, .begun req sessions draw db.now)
  | .begun req sessions draw now, .go => selectForUpdate hash i db req sessions draw now
  | .locked req sessions draw now current, .go =>
      some (decideFound i db req sessions draw now current)
  | .revoking current todo done now answer, .row id =>
      revokeRow i db current todo done now answer id
  | .revoking current todo done now answer, .go =>
      if todo.isEmpty then
        some (db.commit i (revokeWhere (fun t => done.contains t.id) now db.rows),
          .returned (some current) (.error answer))
      else none
  | .exchanging req draw now current, .go =>
      let result := exchange hash db.rows req current draw now
      some (db.commit i result.1, .returned (some current) result.2)
  | .begun .., .rollBack | .locked .., .rollBack | .revoking .., .rollBack
  | .exchanging .., .rollBack => some (db.release i, .rolledBack)
  | _, _ => none

/-- Time passes. -/
inductive Env
  | tick (d : ℕ)

/-- The steps of the surroundings. -/
def env (db : Db ι) : Env → Option (Db ι)
  | .tick d => some { db with now := db.now + d }

def redemptions (ι : Type) [DecidableEq ι] (hash : String → Digest) :
    Calls ι (Db ι) Pc Choice Env where
  act := act hash
  env := env

end

end Ridm.RefreshTokens
