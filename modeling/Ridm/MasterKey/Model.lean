import Mathlib.Data.List.Sort
import Ridm.Core.Types
import Ridm.Lib.Interleaving

/-!
# Master keys

`api/src/key_custody/envelope.rs` and `services/master_key.rs`.  Secrets are stored encrypted under the
current generation of the master key, with the number of the generation both in the blob and in a
column of the row.  A node holds the generations from its environment and those a key custody backend
has unwrapped for it; it encrypts under the one that is current **at the moment**, which any task of
the node may move: a lazy load while something is decrypted, a refresh, a new generation.

`rotate_all` moves all rows onto the generation that was current when it began.  A batch is read, each
of its rows is decrypted and encrypted again, and the batch is updated where the column still says what
it said: three transactions or more, with writers and other passes in between.

Encryption is symbolic: a blob is what it was sealed from, and is opened by a node that holds its
generation.  Columns and blobs carry the same 32 bits, signed and unsigned; here they are numbers.  The
last two fields of a row and of a job are history: what a writer has last put there, and when.
-/

namespace Ridm.MasterKey

/-- How many rows a batch has at most. -/
def BATCH : ℕ := 200

/-- The ciphers of stored values. -/
inductive Cipher
  | aes256GcmHkdf
  | xChaCha20Poly1305
  deriving DecidableEq

/-- The name of a master key's backend. -/
abbrev Backend := String

/-- A row of `master_key_generations`. -/
structure GenerationRow where
  version : ℕ
  backend : Backend

/-- `EnvelopeEncryptor`, with what is fixed by the build and the configuration of the node. -/
structure Node where
  current : ℕ
  keys : List ℕ
  envVersions : List ℕ
  wrappers : List Backend
  primary : Option Backend
  writeCipher : Cipher
  staleCipher : Option Cipher
  legacyReads : Bool
  created : List ℕ

variable (N T K P : Type)

/-- A sealed value and its binding. -/
structure Encrypted where
  cipher : Cipher
  keyVersion : ℕ
  aad : T × K
  plaintext : P

/-- A row of a table with an encrypted column; `K` is its tenant and id, in the order of the index. -/
structure Row where
  key : K
  keyVersion : ℕ
  blob : Encrypted T K P
  written : P
  writtenAt : ℕ

/-- What all nodes share, and the nodes. -/
structure Store where
  nodes : N → Node
  generations : List GenerationRow
  tables : T → List (Row T K P)
  writes : ℕ

variable {N T K P}

/-! ## Custody -/

section Custody

variable [DecidableEq N] (g : Store N T K P) (n : N)

/-- A node changes. -/
def Store.setNode (x : Node) : Store N T K P := { g with nodes := Function.update g.nodes n x }

def Node.unwrapRow (x : Node) (row : GenerationRow) : Option Node :=
  if row.backend ∈ x.wrappers then
    some { x with
      keys := row.version :: x.keys
      current := if x.primary = some row.backend then max x.current row.version else x.current }
  else none

/-- `key`: the generation is in memory, or is loaded from the table. -/
def Store.key (version : ℕ) : Option (Store N T K P) :=
  if version ∈ (g.nodes n).keys then some g
  else do
    let row ← g.generations.find? fun row => row.version == version
    let x ← (g.nodes n).unwrapRow row
    some (g.setNode n x)

/-- `encrypt`, under the generation that is current now. -/
def Node.encrypt (x : Node) (aad : T × K) (plaintext : P) : Option (Encrypted T K P) :=
  if x.current ∈ x.keys then some ⟨x.writeCipher, x.current, aad, plaintext⟩ else none

/-- `decrypt`, which may load the generation. -/
def Store.decrypt [DecidableEq T] [DecidableEq K] (aad : T × K) (blob : Encrypted T K P) :
    Option (Store N T K P × P) :=
  if blob.cipher = .xChaCha20Poly1305 ∧ (g.nodes n).legacyReads = false then none
  else do
    let g' ← g.key n blob.keyVersion
    if blob.aad = aad then some (g', blob.plaintext) else none

def highest (versions : List ℕ) : ℕ := versions.foldl max 0

def Store.highestVersionInUse (tables : List T) : ℕ :=
  highest (tables.flatMap fun t => (g.tables t).map Row.keyVersion)

/-- `ensure_generation`, when a new one is asked for: above all others, of any kind. -/
def Store.createGeneration (tables : List T) : Option (Store N T K P) := do
  let primary ← (g.nodes n).primary
  let version := max (max (highest (g.generations.map GenerationRow.version))
    (highest (g.nodes n).envVersions)) (g.highestVersionInUse tables) + 1
  if primary ∈ (g.nodes n).wrappers then
    some { (g.setNode n { g.nodes n with
        keys := version :: (g.nodes n).keys
        created := (g.nodes n).created ++ [version] }) with
      generations := g.generations ++ [⟨version, primary⟩] }
  else none

/-- The end of `new_generation`: it is made current. -/
def Store.adopt : Option (Store N T K P) :=
  match (g.nodes n).created with
  | [] => none
  | version :: rest => some (g.setNode n { g.nodes n with
      current := max (g.nodes n).current version, created := rest })

/-- `StatusReport::pending`: rows under another generation, and, where there is a stale cipher, rows
under this one sealed with it. -/
def Store.pending (tables : List T) : ℕ :=
  (tables.flatMap g.tables).countP fun row =>
    row.keyVersion ≠ (g.nodes n).current ||
      ((g.nodes n).staleCipher = some .xChaCha20Poly1305 && row.blob.cipher = .xChaCha20Poly1305)

end Custody

/-! ## A rotation pass -/

/-- How far a row of a batch is. -/
inductive JobState (T K P : Type)
  | read
  | opened (plaintext : P)
  | sealed (blob : Encrypted T K P)
  | failed

/-- A row of a batch. -/
structure Job (T K P : Type) where
  key : K
  blob : Encrypted T K P
  state : JobState T K P
  writtenAt : ℕ

/-- What a call of `rotate_table` is about, and the calls of `rotate_rows` it still has to make. -/
structure Plan (T : Type) where
  target : ℕ
  todo : List T
  table : T
  ranges : List (ℕ × Bool)

/-- The arguments of `rotate_rows`: a generation, and whether it is about the stale cipher only. -/
structure Range (T : Type) where
  plan : Plan T
  version : ℕ
  legacyOnly : Bool

/-- Where a rotation stands. -/
inductive Pass (T K P : Type)
  | idle
  | refreshing (versions : List ℕ)
  | tables (target : ℕ) (todo : List T)
  | ranges (plan : Plan T)
  | reading (range : Range T) (after : Option K)
  | sealing (range : Range T) (after : K) (full : Bool) (jobs : List (Job T K P))
  | done

/-- What a step leaves open: whether a backend answers, and which row of a batch is next. -/
inductive Choice
  | go (answers : Bool)
  | job (i : ℕ) (answers : Bool)

section Rotating

variable [DecidableEq N] [DecidableEq T] [LinearOrder K]

/-- A table changes. -/
def Store.setTable (g : Store N T K P) (t : T) (f : List (Row T K P) → List (Row T K P)) :
    Store N T K P :=
  { g with tables := Function.update g.tables t (f (g.tables t)) }

def legacyFilter (x : Node) (legacyOnly : Bool) (row : Row T K P) : Bool :=
  !legacyOnly || x.staleCipher.all fun stale => row.blob.cipher == stale

/-- The rows a call of `rotate_rows` is about. -/
def Range.selects (x : Node) (r : Range T) (row : Row T K P) : Bool :=
  row.keyVersion == r.version && legacyFilter x r.legacyOnly row

/-- The rows of a batch: after the cursor, in order, and not too many. -/
def Range.batch (x : Node) (r : Range T) (after : Option K) (rows : List (Row T K P)) :
    List (Row T K P) :=
  ((rows.filter fun row => r.selects x row && after.all (· < row.key)).mergeSort
    fun a b => decide (a.key ≤ b.key)).take BATCH

/-- The generations a table's rows are under besides the target, each once and in order. -/
def otherVersions (target : ℕ) (rows : List (Row T K P)) : List ℕ :=
  (((rows.map Row.keyVersion).filter (· ≠ target)).dedup).mergeSort (· ≤ ·)

/-- What was made of a row of the batch. -/
def Job.sealedBlob (j : Job T K P) : Option (Encrypted T K P) :=
  match j.state with
  | .sealed blob => some blob
  | _ => none

/-- The row of the batch under a key, if it was re-encrypted. -/
def sealedJob (jobs : List (Job T K P)) (key : K) : Option (Job T K P) :=
  jobs.find? fun j => j.key == key && j.sealedBlob.isSome

/-- The `UPDATE` of a batch: rows still on the generation they were read under. -/
def Range.update (x : Node) (r : Range T) (jobs : List (Job T K P)) (row : Row T K P) : Row T K P :=
  match (sealedJob jobs row.key).bind Job.sealedBlob with
  | some blob => if r.selects x row then { row with blob := blob, keyVersion := r.plan.target } else row
  | none => row

/-- One row of the batch goes on: `reencrypt`, first to decrypt and then to encrypt. -/
def Store.advance (g : Store N T K P) (n : N) (t : T) (j : Job T K P) (answers : Bool) :
    Option (Store N T K P × Job T K P) :=
  match j.state, answers with
  | .read, true =>
      match g.decrypt n (t, j.key) j.blob with
      | some (g', plaintext) => some (g', { j with state := .opened plaintext })
      | none => some (g, { j with state := .failed })
  | .opened plaintext, true =>
      match (g.nodes n).encrypt (t, j.key) plaintext with
      | some blob => some (g, { j with state := .sealed blob })
      | none => some (g, { j with state := .failed })
  | .read, false | .opened _, false => some (g, { j with state := .failed })
  | .sealed _, _ | .failed, _ => none

/-- The row of the batch is finished. -/
def JobState.isOver : JobState T K P → Bool
  | .sealed _ | .failed => true
  | _ => false

/-- One step of `rotate_all` on node `n`, over the tables of all databases. -/
def Pass.step (all : List T) (n : N) (g : Store N T K P) :
    Pass T K P → Choice → Option (Store N T K P × Pass T K P)
  | .idle, _ =>
      let seen := highest (g.nodes n).keys
      some (g, .refreshing
        (((g.generations.map GenerationRow.version).filter (seen < ·)).mergeSort (· ≤ ·)))
  | .refreshing (version :: rest), .go true => some ((g.key n version).getD g, .refreshing rest)
  | .refreshing (_ :: rest), _ => some (g, .refreshing rest)
  | .refreshing [], _ => some (g, .tables (g.nodes n).current all)
  | .tables _ [], _ => some (g, .done)
  | .tables target (t :: todo), _ =>
      let older := (otherVersions target (g.tables t)).map (·, false)
      some (g, .ranges ⟨target, todo, t,
        if (g.nodes n).staleCipher.isSome then older ++ [(target, true)] else older⟩)
  | .ranges ⟨target, todo, _, []⟩, _ => some (g, .tables target todo)
  | .ranges ⟨target, todo, t, (version, legacyOnly) :: rest⟩, _ =>
      some (g, .reading ⟨⟨target, todo, t, rest⟩, version, legacyOnly⟩ none)
  | .reading r after, _ =>
      let rows := r.batch (g.nodes n) after (g.tables r.plan.table)
      match rows.getLast? with
      | none => some (g, .ranges r.plan)
      | some last => some (g, .sealing r last.key (rows.length == BATCH)
          (rows.map fun row => ⟨row.key, row.blob, .read, row.writtenAt⟩))
  | .sealing r after full jobs, .job i answers =>
      (jobs[i]?).bind fun j => (g.advance n r.plan.table j answers).map fun a =>
        (a.1, .sealing r after full (jobs.set i a.2))
  | .sealing r after full jobs, .go _ =>
      if jobs.all fun j => j.state.isOver then
        some (g.setTable r.plan.table fun rows => rows.map (r.update (g.nodes n) jobs),
          if full then .reading r (some after) else .ranges r.plan)
      else none
  | .done, _ => none

/-! ## Writers -/

/-- Where a write of a value stands. -/
inductive Writer (T K P : Type)
  | idle
  | sealed (blob : Encrypted T K P)
  | done

/-- What writers do with a row (`update_data`, `upsert` and their like): the blob goes there, with the
generation it says it is under.  A row that is not there is inserted, or it stays so. -/
def writeRow (inserts : Bool) (key : K) (blob : Encrypted T K P) (written : P) (writtenAt : ℕ)
    (rows : List (Row T K P)) : List (Row T K P) :=
  let row : Row T K P := ⟨key, blob.keyVersion, blob, written, writtenAt⟩
  if rows.any fun r => r.key == key then rows.map fun r => if r.key = key then row else r
  else if inserts then rows ++ [row] else rows

/-- One step of a writer on node `n`: it encrypts, and later writes. -/
def Writer.step (n : N) (t : T) (inserts : Bool) (key : K) (plaintext : P) (g : Store N T K P) :
    Writer T K P → Option (Store N T K P × Writer T K P)
  | .idle => ((g.nodes n).encrypt (t, key) plaintext).map fun blob => (g, .sealed blob)
  | .sealed blob => some (
      { g.setTable t (writeRow inserts key blob plaintext g.writes) with writes := g.writes + 1 }, .done)
  | .done => none

/-! ## All together -/

/-- Rotations and writers, by node. -/
inductive Task (N T K P : Type)
  | pass (n : N) (p : Pass T K P)
  | writer (n : N) (t : T) (inserts : Bool) (key : K) (plaintext : P) (w : Writer T K P)

/-- One step of a task. -/
def act (all : List T) (g : Store N T K P) (l : Task N T K P) (k : Choice) :
    Option (Store N T K P × Task N T K P) :=
  match l with
  | .pass n p => (p.step all n g k).map fun r => (r.1, .pass n r.2)
  | .writer n t inserts key plaintext w =>
      (w.step n t inserts key plaintext g).map fun r => (r.1, .writer n t inserts key plaintext r.2)

/-- What else happens. -/
inductive Event (N T K : Type)
  /-- A generation is loaded: something is decrypted, or the node refreshes. -/
  | load (n : N) (version : ℕ)
  | create (n : N)
  | adopt (n : N)
  | delete (t : T) (key : K)

/-- One event. -/
def env (all : List T) (g : Store N T K P) : Event N T K → Option (Store N T K P)
  | .load n version => g.key n version
  | .create n => g.createGeneration n all
  | .adopt n => g.adopt n
  | .delete t key => some (g.setTable t fun rows => rows.filter fun r => !(r.key == key))

/-- Any number of writers and passes on any nodes. -/
def rotating (ι : Type) [DecidableEq ι] (all : List T) :
    Calls ι (Store N T K P) (Task N T K P) Choice (Event N T K) :=
  ⟨fun _ g l k => act all g l k, env all⟩

end Rotating

end Ridm.MasterKey
