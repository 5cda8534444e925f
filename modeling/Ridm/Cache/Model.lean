import Ridm.Core.Valkey
import Ridm.Lib.Interleaving

/-!
# The two-tier cache

`api/src/cache/layer.rs` and `l1.rs`: an in-process map on every node (L1), one Valkey behind them,
and the source.  This module is the model of what concurrent calls of `get_or_load` for **one** key do
while a writer replaces the value in the source and calls `invalidate`.  Every access to a map, to
Valkey or to the source is a step of its own, and so are the three parts of an eviction (`remove`) and
of `insert_fresh`: check, insert, check again.

A call's Valkey commands and its load may fail; `get_or_load` then goes on without Valkey, and a
failed load is also the answer to those who wait for it at the gate.  Maps and Valkey drop an entry
when its lifetime is over, not before.  Of an eviction only the generation counts, which other keys
advance, too.

Three fields of a call are its history: whether it started after the invalidation was over on its
node, and whether its ticket and the first check of its insert came before the eviction.
-/

namespace Ridm.Cache

/-- `INVALIDATION_HOLD`, in seconds. -/
def INVALIDATION_HOLD : ℤ := 5

/-- `EVICTION_MEMORY`, in seconds. -/
def EVICTION_MEMORY : ℤ := 120

variable (N ι V : Type)

/-- What Valkey holds under the key: a value or `NEGATIVE` (the value that nothing is there), or the
mark of an invalidation. -/
inductive Stored
  | value (v : Option V)
  | invalidated
  deriving DecidableEq

/-- `L1Cache` of one node, as far as it concerns the key, with the gate of its loads. -/
structure L1 where
  /-- `none`: no entry; `some none`: the marker that nothing is there. -/
  entry : Slot (Option V)
  evicted : Slot ℕ
  generation : ℕ
  cleared : ℕ
  gate : Option ι

/-- How far a node is with the eviction, which has drawn a generation. -/
inductive Evicting
  | waiting
  | drawn (generation : ℕ)
  | marked (generation : ℕ)
  | evicted (generation : ℕ)
  deriving DecidableEq

/-- How far the writer is. -/
inductive Phase
  | before
  | committed
  | held
  | returned
  deriving DecidableEq

/-- All that calls share. -/
structure Store where
  now : Instant
  source : Option V
  valkey : Slot (Stored V)
  phase : Phase
  evicting : N → Evicting
  l1 : N → L1 ι V

/-- The generations a load started from. -/
structure Ticket where
  evicted : Option ℕ
  cleared : ℕ
  deriving DecidableEq

/-- Where a call of `get_or_load` stands: what it does next. -/
inductive Pc
  | start
  | negative
  | ticket
  | ticketCleared (evicted : Option ℕ)
  | fetch (t : Ticket)
  | wait (t : Ticket)
  | again (t : Ticket)
  | againNegative (t : Ticket)
  | load (t : Ticket)
  | store (t : Ticket) (v : Option V)
  | check (t : Ticket) (v : Option V)
  | checkCleared (t : Ticket) (v : Option V)
  | insert (t : Ticket) (v : Option V)
  | recheck (t : Ticket) (v : Option V)
  | recheckCleared (t : Ticket) (v : Option V)
  | undo (v : Option V)
  | returned (v : Option V)
  | failed
  deriving DecidableEq

/-- A call on a node, and its history. -/
structure Call where
  node : N
  pc : Pc V
  ticketAt : Instant := 0
  readAt : Instant := 0
  late : Bool := false
  early : Bool := false
  unevicted : Bool := false

variable {N ι V}

/-- How a step comes out that may fail; what is stored lives for `ttl` seconds. -/
inductive Outcome
  | done (ttl : ℕ)
  | fails

/-- The eviction has reached the map of evictions. -/
def Evicting.isMarked : Evicting → Bool
  | .marked _ | .evicted _ => true
  | _ => false

def Evicting.isOver : Evicting → Bool
  | .evicted _ => true
  | _ => false

/-- `invalidate` has returned, and the node has processed the message. -/
def Store.settled (g : Store N ι V) (n : N) : Bool :=
  decide (g.phase = .returned) && (g.evicting n).isOver

section Steps

variable [DecidableEq N] [DecidableEq ι]

/-- The L1 of a node is replaced. -/
def Store.setL1 (g : Store N ι V) (n : N) (x : L1 ι V) : Store N ι V :=
  { g with l1 := Function.update g.l1 n x }

/-- The gate is opened by the one who holds it. -/
def L1.release (x : L1 ι V) (i : ι) : L1 ι V :=
  { x with gate := if x.gate = some i then none else x.gate }

/-- The call is over. -/
def finish (i : ι) (g : Store N ι V) (l : Call N V) (pc : Pc V) : Option (Store N ι V × Call N V) :=
  some (g.setL1 l.node ((g.l1 l.node).release i), { l with pc := pc })

/-- One step of `get_or_load`. -/
def act (i : ι) (g : Store N ι V) (l : Call N V) (k : Outcome) : Option (Store N ι V × Call N V) :=
  let x := g.l1 l.node
  match l.pc with
  | .start =>
      let l := { l with late := g.settled l.node }
      match x.entry.get with
      | some (some v) => some (g, { l with pc := .returned (some v) })
      | _ => some (g, { l with pc := .negative })
  | .negative =>
      match x.entry.get with
      | some none => some (g, { l with pc := .returned none })
      | _ => some (g, { l with pc := .ticket })
  | .ticket => some (g, { l with
      pc := .ticketCleared x.evicted.get
      ticketAt := g.now
      early := !(g.evicting l.node).isMarked })
  | .ticketCleared evicted => some (g, { l with pc := .fetch ⟨evicted, x.cleared⟩ })
  | .fetch t =>
      match k, g.valkey.get with
      | .done _, some (.value v) => some (g, { l with pc := .check t v })
      | _, _ => some (g, { l with pc := .wait t })
  | .wait t =>
      if x.gate ≠ none then none
      else match k with
        | .done _ => some (g.setL1 l.node { x with gate := some i }, { l with pc := .again t })
        | .fails => some (g, { l with pc := .failed })
  | .again t =>
      match x.entry.get with
      | some (some v) => finish i g l (.returned (some v))
      | _ => some (g, { l with pc := .againNegative t })
  | .againNegative t =>
      match x.entry.get with
      | some none => finish i g l (.returned none)
      | _ => some (g, { l with pc := .load t })
  | .load t =>
      match k with
      | .done _ => some (g, { l with pc := .store t g.source, readAt := g.now })
      | .fails => finish i g l .failed
  | .store t v =>
      match k, g.valkey.get with
      | .fails, _ | .done _, some .invalidated => some (g, { l with pc := .check t v })
      | .done ttl, _ => some ({ g with valkey := Slot.setUntil (.value v) (g.now + seconds ttl) },
          { l with pc := .check t v })
  | .check t v =>
      if x.evicted.get ≠ t.evicted then finish i g l (.returned v)
      else some (g, { l with pc := .checkCleared t v, unevicted := !(g.evicting l.node).isMarked })
  | .checkCleared t v =>
      if x.cleared ≠ t.cleared then finish i g l (.returned v)
      else some (g, { l with pc := .insert t v })
  | .insert t v =>
      match k with
      | .done ttl => some (g.setL1 l.node { x with entry := Slot.setUntil v (g.now + seconds ttl) },
          { l with pc := .recheck t v })
      | .fails => none
  | .recheck t v =>
      if x.evicted.get ≠ t.evicted then some (g, { l with pc := .undo v })
      else some (g, { l with pc := .recheckCleared t v })
  | .recheckCleared t v =>
      if x.cleared ≠ t.cleared then some (g, { l with pc := .undo v })
      else finish i g l (.returned v)
  | .undo v => finish i (g.setL1 l.node { x with entry := none }) l (.returned v)
  | .returned _ => none
  | .failed => none

/-! ## The writer and the surroundings -/

/-- What else happens. -/
inductive Event (N : Type)
  | tick (d : ℕ)
  | commit
  /-- The next part of the eviction: on the writer's node as part of `invalidate`, on any other when the
  message has come. -/
  | evict (n : N)
  | hold
  | publish
  | evictOther (n : N)
  /-- The listener reconnects: `clear`, whose entries are dropped as by `dropEntry`. -/
  | clear (n : N)
  /-- An entry is gone: its lifetime is over, it had to make room, or the map was cleared. -/
  | dropEntry (n : N)
  | forget (n : N)
  | expire

/-- `remove`, one part after the other. -/
def Store.evict (g : Store N ι V) (n : N) : Option (Store N ι V) :=
  let x := g.l1 n
  match g.evicting n with
  | .waiting => some { (g.setL1 n { x with generation := x.generation + 1 }) with
      evicting := Function.update g.evicting n (.drawn (x.generation + 1)) }
  | .drawn e => some { (g.setL1 n { x with
        evicted := Slot.setUntil e (g.now + seconds EVICTION_MEMORY) }) with
      evicting := Function.update g.evicting n (.marked e) }
  | .marked e => some { (g.setL1 n { x with entry := none }) with
      evicting := Function.update g.evicting n (.evicted e) }
  | .evicted _ => none

/-- One event.  The writer is on node `writer` and writes `new`. -/
def env (writer : N) (new : Option V) (g : Store N ι V) : Event N → Option (Store N ι V)
  | .tick d => some { g with now := g.now + d }
  | .commit => if g.phase = .before then some { g with source := new, phase := .committed } else none
  | .evict n =>
      if (if n = writer then g.phase = .committed else g.phase = .returned) then g.evict n else none
  | .hold =>
      if g.phase = .committed ∧ (g.evicting writer).isOver then
        some { g with
          valkey := Slot.setUntil .invalidated (g.now + seconds INVALIDATION_HOLD)
          phase := .held }
      else none
  | .publish => if g.phase = .held then some { g with phase := .returned } else none
  | .evictOther n => some (g.setL1 n { g.l1 n with generation := (g.l1 n).generation + 1 })
  | .clear n => some (g.setL1 n { g.l1 n with
      generation := (g.l1 n).generation + 1, cleared := (g.l1 n).generation + 1 })
  | .dropEntry n => some (g.setL1 n { g.l1 n with entry := none })
  | .forget n => ((g.l1 n).evicted.expire g.now).map fun e => g.setL1 n { g.l1 n with evicted := e }
  | .expire => (g.valkey.expire g.now).map fun k => { g with valkey := k }

/-- Any number of calls on any nodes, and one writer. -/
def caching (writer : N) (new : Option V) : Calls ι (Store N ι V) (Call N V) Outcome (Event N) :=
  ⟨act, env writer new⟩

end Steps

end Ridm.Cache
