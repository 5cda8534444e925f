import Ridm.Core.Text
import Ridm.Core.Types
import Ridm.Lib.Interleaving

/-!
# Recovery codes

`api/src/services/totp.rs`: the recovery codes of a user share one encrypted `credentials` row of
type `recovery_code`.  `verify_recovery` reads the rows in one transaction, finds and marks the
code in memory, and writes the whole row back in another.  This module is the model of what
concurrent calls of `verify` do to **one** user's rows, while the set may be regenerated beside
them.

A row's data is modelled decrypted: `encrypt` and `decrypt` are inverse to each other under the
row's own id.  What the code is hashed with, and the Unicode tables behind `to_lowercase`, are
parameters.
-/

namespace Ridm.Totp

def DIGITS : ℕ := 6

/-- Characters of a recovery code, without the dash. -/
def RECOVERY_CODE_LEN : ℕ := 10

/-- A recovery code, hashed. -/
structure RecoveryCode where
  hash : String
  usedAt : Option Instant
  deriving DecidableEq

/-- A `credentials` row of type `recovery_code`, with its decrypted `RecoveryData`. -/
structure Row where
  id : Uuid
  codes : List RecoveryCode
  deriving DecidableEq

/-- Normalise a typed recovery code: case, separators and whitespace are free. -/
def normaliseRecovery (lowercase : String → String) (code : String) : String :=
  String.ofList ((lowercase (trim code)).toList.filter isAsciiAlphanumeric)

/-- `verify` tries six digits against the user's authenticator apps, not as a recovery code. -/
def isTotpCode (trimmed : String) : Bool :=
  trimmed.utf8ByteSize == DIGITS && trimmed.toList.all isAsciiDigit

/-! ## Finding the code -/

/-- The loop over a row's codes: every one is compared, the **last** unused match wins.  `i` is
the index of the first of `codes`. -/
def hitFrom (wanted : String) : ℕ → List RecoveryCode → Option ℕ → Option ℕ
  | _, [], hit => hit
  | i, c :: codes, hit =>
      hitFrom wanted (i + 1) codes
        (if c.hash = wanted ∧ c.usedAt.isNone = true then some i else hit)

/-- The loop over the rows: the first one with a match wins. -/
def findCode (wanted : String) : List Row → Option (Row × ℕ)
  | [] => none
  | row :: rows =>
      match hitFrom wanted 0 row.codes none with
      | some i => some (row, i)
      | none => findCode wanted rows

/-- `data.codes[i].used_at = Some(now)`. -/
def markUsed (codes : List RecoveryCode) (i : ℕ) (now : Instant) : List RecoveryCode :=
  codes.modify i fun c => { c with usedAt := some now }

/-- How many codes are left. -/
def remaining (codes : List RecoveryCode) : ℕ := (codes.filter fun c => c.usedAt.isNone).length

/-! ## Calls -/

/-- Everything the calls share: the clock, the user's rows in the order they are listed in, and
the id the next inserted row gets (`Uuid::now_v7`: never one that was given before). -/
structure Store where
  now : Instant
  rows : List Row
  nextId : Uuid

/-- `repos::credentials::update_data`: the row with this id, if it is still there. -/
def updateData (rows : List Row) (id : Uuid) (codes : List RecoveryCode) : List Row :=
  rows.map fun row => if row.id = id then { row with codes := codes } else row

/-- Where a call of `verify` stands. -/
inductive Pc
  | idle (code : String)
  | totp
  | read (wanted : String) (rows : List Row)
  /-- The code `i` of `row` matched and is marked in memory; the row is next. -/
  | marking (row : Row) (i : ℕ) (at_ : Instant)
  | refused
  /-- `Verified::RecoveryCode { remaining }`, for code `i` of the row `id`. -/
  | accepted (id : Uuid) (i : ℕ) (remaining : ℕ)

/-- The next atomic step of a call. -/
def act (lowercase hash : String → String) (g : Store) : Pc → Option (Store × Pc)
  | .idle code =>
      let trimmed := trim code
      if isTotpCode trimmed then some (g, .totp)
      else
        let normalised := normaliseRecovery lowercase trimmed
        if normalised.utf8ByteSize ≠ RECOVERY_CODE_LEN then some (g, .refused)
        else some (g, .read (hash normalised) g.rows)
  | .read wanted rows =>
      match findCode wanted rows with
      | none => some (g, .refused)
      | some (row, i) => some (g, .marking row i g.now)
  | .marking row i at_ =>
      let codes := markUsed row.codes i at_
      some ({ g with rows := updateData g.rows row.id codes },
        .accepted row.id i (remaining codes))
  | .totp | .refused | .accepted .. => none

/-- What the surroundings do: time passes, the set is regenerated (hashes of the new codes), or it
goes with the user's last second factor. -/
inductive Env
  | tick (d : ℕ)
  | regenerate (hashes : List String)
  | remove

/-- The steps of the surroundings. -/
def env (g : Store) : Env → Option Store
  | .tick d => some { g with now := g.now + d }
  | .regenerate hashes =>
      some { g with rows := [⟨g.nextId, hashes.map fun h => ⟨h, none⟩⟩], nextId := g.nextId + 1 }
  | .remove => some { g with rows := [] }

/-- Any number of calls on the user's recovery codes. -/
def calls (ι : Type) (lowercase hash : String → String) : Calls ι Store Pc Unit Env where
  act _ g l _ := act lowercase hash g l
  env := env

end Ridm.Totp
