import Ridm.Core.Types
import Ridm.Lib.Interleaving

/-!
# Moving a tenant between databases

`api/src/services/relocation.rs`: the registry (in the home database) says which database a tenant
lives in; `move_tenant` copies the tenant's rows to another database, points the registry there and
deletes the source's copy.  This module is the model of any number of moves of **one** tenant, from
any number of processes, each of which may fail or stop at any step.

The atomic steps are the ones the code makes: a read or write of the registry, the advisory lock,
the copy (one transaction on the target, from one snapshot of the source), a purge.  `fails` says
where an error at each step leads; a process that stops lets the lock go, since the lock belongs to
its connection.  While the tenant is marked `relocating` nobody else writes its rows.

Left out is what touches no row: cached registry entries, the copied Valkey keys, events.  That the
copied audit chain verifies, and that the schemas agree, are outcomes the steps may have or not.
-/

namespace Ridm.Relocation

/-- The name of the home database, which holds the registry. -/
def HOME_REGION : String := "home"

/-- A tenant's entry in the registry, as far as a move looks at it. -/
structure Tenant where
  isMaster : Bool
  dataRegion : Option String
  relocating : Bool

def Tenant.database (t : Tenant) : String := t.dataRegion.getD HOME_REGION

/-- `Database::region`: what `tenants.data_region` says for a database. -/
def regionOf (name : String) : Option String := if name = HOME_REGION then none else some name

/-- What a database holds of the tenant: its copy of the `tenants` row, and the rows of each
table. -/
structure Copy (R : Type) where
  tenantRow : Bool
  rows : String → List R

/-- What a move carried and cleaned. -/
structure MoveReport where
  from_ : String
  to_ : String
  rows : List (String × ℕ)
  cleaned : List String

section

variable {R : Type}

/-! ## The transactions -/

/-- `delete_rows`: the rows of every table, and with `withTenantRow` the `tenants` row. -/
def deleteRows (tables : List String) (withTenantRow : Bool) (c : Copy R) : Copy R where
  tenantRow := c.tenantRow && !withTenantRow
  rows t := if t ∈ tables then [] else c.rows t

/-- `purge`: everything of the tenant; the home database keeps its `tenants` row, the registry. -/
def purge (tables : List String) (name : String) (c : Copy R) : Copy R :=
  deleteRows tables (name ≠ HOME_REGION) c

def holdsAny (tables : List String) (name : String) (c : Copy R) : Bool :=
  (decide (name ≠ HOME_REGION) && c.tenantRow) || tables.any fun t => !(c.rows t).isEmpty

/-- The loop of `copy_everything`: table by table, with the row counts of both sides compared. -/
def copyTables (src : Copy R) : List String → Copy R → List (String × ℕ) →
    Except AppError (Copy R × List (String × ℕ))
  | [], dst, counts => .ok (dst, counts)
  | t :: ts, dst, counts =>
      let n := (src.rows t).length
      let dst' : Copy R := { dst with rows := Function.update dst.rows t (dst.rows t ++ src.rows t) }
      let landed := (dst'.rows t).length
      if landed ≠ n then
        .error (.internal (t ++ ": " ++ toString n ++ " rows in the source, " ++ toString n ++
          " copied, " ++ toString landed ++ " in the target"))
      else copyTables src ts dst' (counts ++ [(t, n)])

/-- `copy_everything`: a stale copy in the target is replaced. -/
def copyEverything (tables : List String) (target : String) (src dst : Copy R) :
    Except AppError (Copy R × List (String × ℕ)) :=
  let cleared := deleteRows tables (target ≠ HOME_REGION) dst
  let started := if target = HOME_REGION then cleared else { cleared with tenantRow := true }
  copyTables src tables started []

/-! ## Moves -/

/-- A call of `move_tenant`: the databases its process is configured with, home first, and the
target region. -/
structure Move where
  databases : List String
  target : Option String

/-- `target.filter(|t| *t != HOME_REGION)`, as a database's name. -/
def Move.targetName (m : Move) : String := m.target.getD HOME_REGION

/-- `state.db.get`. -/
def Move.get (m : Move) (name : String) : Option String := m.databases.find? (· == name)

/-- The registry, the advisory lock, and the databases. -/
structure World (ι R : Type) where
  registry : Tenant
  lock : Option ι
  db : String → Copy R

/-- Where a move stands. -/
inductive Pc
  | idle (m : Move)
  | read (m : Move) (tenant : Tenant)
  | clearing (target : String) (others : List String)
  | cleaning (target : String) (todo cleaned : List String)
  | cleaningOne (target d : String) (todo cleaned : List String)
  | checking (source target : String)
  | marking (source target : String)
  | copying (source target : String)
  | verifying (source target : String) (rows : List (String × ℕ))
  | undoing (source target : String) (e : AppError)
  | unmarking (e : AppError)
  | placing (source target : String) (rows : List (String × ℕ))
  | purging (source target : String) (rows : List (String × ℕ))
  | leaving (outcome : Except AppError MoveReport)
  | returned (outcome : Except AppError MoveReport)
  | stopped

/-- The move has the lock. -/
def Pc.isInside : Pc → Bool
  | .idle _ | .read .. | .returned _ | .stopped => false
  | _ => true

/-- Where an error at the next step leads. -/
def fails (e : AppError) : Pc → Option Pc
  | .idle _ | .read .. => some (.returned (.error e))
  | .clearing .. | .cleaning .. | .cleaningOne .. | .checking .. | .marking .. | .placing .. =>
      some (.leaving (.error e))
  | .copying source target | .verifying source target _ => some (.undoing source target e)
  -- logged, and on with it
  | .undoing _ _ e' => some (.unmarking e')
  | .unmarking _ => some (.leaving (.error e))
  | .purging source target rows => some (.leaving (.ok ⟨source, target, rows, []⟩))
  | .leaving _ | .returned _ | .stopped => none

end

section

variable {ι R : Type} (tables : List String)

/-- One database changes. -/
def World.setDb (w : World ι R) (name : String) (c : Copy R) : World ι R :=
  { w with db := Function.update w.db name c }

/-- The first step: the registry is read, and the regions are looked up. -/
def readRegistry (w : World ι R) (m : Move) : Pc :=
  match m.get m.targetName with
  | none =>
      .returned (.error (.badRequest ("unknown data region `" ++ m.targetName ++
        "`; configured: " ++ ", ".intercalate m.databases)))
  | some _ =>
      if w.registry.isMaster then
        .returned (.error (.badRequest "the master tenant always lives in the home database"))
      else
        match m.get w.registry.database with
        | none =>
            .returned (.error (.unavailable ("the tenant's region `" ++
              w.registry.dataRegion.getD "" ++ "` is not configured here")))
        | some _ => .read m w.registry

/-- What a move that has the lock does first, by what it **read before** it had the lock. -/
def enter (m : Move) (tenant : Tenant) : Pc :=
  if tenant.database = m.targetName then
    let others := m.databases.filter (· ≠ m.targetName)
    if tenant.relocating then .clearing m.targetName others else .cleaning m.targetName others []
  else .checking tenant.database m.targetName

/-- The next atomic step of move `i`. -/
def go (i : ι) (w : World ι R) : Pc → Option (World ι R × Pc)
  | .idle m => some (w, readRegistry w m)
  | .read m tenant =>
      if w.lock.isSome then
        some (w, .returned (.error (.conflict "another move of this tenant is running")))
      else some ({ w with lock := some i }, enter m tenant)
  | .clearing target others =>
      some ({ w with registry := { w.registry with relocating := false } },
        .cleaning target others [])
  | .cleaning target [] cleaned => some (w, .leaving (.ok ⟨target, target, [], cleaned⟩))
  | .cleaning target (d :: todo) cleaned =>
      if holdsAny tables d (w.db d) then some (w, .cleaningOne target d todo cleaned)
      else some (w, .cleaning target todo cleaned)
  | .cleaningOne target d todo cleaned =>
      some (w.setDb d (purge tables d (w.db d)), .cleaning target todo (cleaned ++ [d]))
  | .checking source target => some (w, .marking source target)
  | .marking source target =>
      some ({ w with registry := { w.registry with relocating := true } }, .copying source target)
  | .copying source target =>
      match copyEverything tables target (w.db source) (w.db target) with
      | .ok (c, counts) => some (w.setDb target c, .verifying source target counts)
      | .error e => some (w, .undoing source target e)
  | .verifying source target rows => some (w, .placing source target rows)
  | .undoing _ target e => some (w.setDb target (purge tables target (w.db target)), .unmarking e)
  | .unmarking e =>
      some ({ w with registry := { w.registry with relocating := false } }, .leaving (.error e))
  | .placing source target rows =>
      some ({ w with registry :=
        { w.registry with dataRegion := regionOf target, relocating := false } },
        .purging source target rows)
  | .purging source target rows =>
      some (w.setDb source (purge tables source (w.db source)),
        .leaving (.ok ⟨source, target, rows, [source]⟩))
  | .leaving outcome => some ({ w with lock := none }, .returned outcome)
  | .returned _ | .stopped => none

/-- How a move goes on: its next step succeeds, fails, or the process stops. -/
inductive Choice
  | go
  | fail (e : AppError)
  | stop

/-- One step of move `i`. -/
def act (i : ι) (w : World ι R) (l : Pc) : Choice → Option (World ι R × Pc)
  | .go => go tables i w l
  | .fail e => (fails e l).map fun l' => (w, l')
  | .stop =>
      match l with
      | .returned _ | .stopped => none
      | l => some (if l.isInside then { w with lock := none } else w, .stopped)

/-- A node inserts a row for the tenant, where the registry says; not while it is relocating. -/
def env (w : World ι R) : String × R → Option (World ι R)
  | (t, r) =>
      if w.registry.relocating then none
      else
        let c := w.db w.registry.database
        some (w.setDb w.registry.database
          { c with rows := Function.update c.rows t (c.rows t ++ [r]) })

def moves (ι R : Type) : Calls ι (World ι R) Pc Choice (String × R) where
  act := act tables
  env := env

end

end Ridm.Relocation
