import Ridm.Cache.Model
import Ridm.Lib.Drawn

/-!
# Tickets of the in-process cache

`api/src/cache/l1.rs`, for all keys: any number of loaders (`ticket`, a read of the source, `insert_fresh`)
with any number of `remove` and `clear`.  Every operation on a map or a counter is a step of its own.

What matters of a generation is that it is new when it is stored: nobody holds it, be it in a map or in a
ticket, before (`Drawn`), in whatever order removals that drew their generations store them.
A record that was stored since a ticket was taken therefore differs from the ticket for good, and `Past`
follows one loader and one eviction from there: an entry of the loader that the eviction has not dropped
is one that the loader is about to take back.
-/

namespace Ridm.Cache.Tickets

variable (K ι V : Type)

/-- `Entry`, with the loader whose value it is. -/
structure Entry where
  value : V
  loader : ι
  deriving DecidableEq

/-- The first level: entries and generations. -/
structure L1Cache where
  entries : K → Option (Entry ι V)
  evicted : K → Option ℕ
  /-- An `AtomicU64`, which does not come round while evictions are remembered. -/
  generation : ℕ
  cleared : ℕ

/-- Where a loader stands: what it does next. -/
inductive Loading
  | start
  | ticketCleared (evicted : Option ℕ)
  | read (t : Ticket)
  | check (t : Ticket) (v : V) (ttl : ℕ)
  | checkCleared (t : Ticket) (v : V) (ttl : ℕ)
  | insert (t : Ticket) (v : V) (ttl : ℕ)
  | recheck (t : Ticket)
  | recheckCleared (t : Ticket)
  | undo
  | returned (inserted : Bool)
  deriving DecidableEq

/-- A call under way. -/
inductive Call
  | load (k : K) (pc : Loading V)
  | remove (k : K) (pc : Evicting)
  | clear (pc : Evicting)
  deriving DecidableEq

variable {K ι V}

/-- `L1Cache::with_capacity`. -/
def L1Cache.new : L1Cache K ι V := ⟨fun _ => none, fun _ => none, 0, 0⟩

section Steps

variable [DecidableEq K]

/-- `entries.insert`. -/
def L1Cache.insertEntry (g : L1Cache K ι V) (k : K) (e : Entry ι V) : L1Cache K ι V :=
  { g with entries := Function.update g.entries k (some e) }

/-- `entries.invalidate`. -/
def L1Cache.invalidate (g : L1Cache K ι V) (k : K) : L1Cache K ι V :=
  { g with entries := Function.update g.entries k none }

/-- `L1Cache::insert`, one access to the map. -/
def L1Cache.insert (g : L1Cache K ι V) (k : K) (e : Entry ι V) (ttl : ℕ) : L1Cache K ι V :=
  if ttl = 0 then g.invalidate k else g.insertEntry k e

/-- One step of a loader.  The source gives a value, which is to live for a time, or nothing to cache. -/
def loadStep (i : ι) (k : K) (g : L1Cache K ι V) (source : Option (V × ℕ)) :
    Loading V → Option (L1Cache K ι V × Loading V)
  | .start => some (g, .ticketCleared (g.evicted k))
  | .ticketCleared evicted => some (g, .read ⟨evicted, g.cleared⟩)
  | .read t =>
      match source with
      | none => some (g, .returned false)
      | some (v, ttl) => some (g, .check t v ttl)
  | .check t v ttl =>
      if g.evicted k ≠ t.evicted then some (g, .returned false) else some (g, .checkCleared t v ttl)
  | .checkCleared t v ttl =>
      if g.cleared ≠ t.cleared then some (g, .returned false) else some (g, .insert t v ttl)
  | .insert t v ttl => some (g.insert k ⟨v, i⟩ ttl, .recheck t)
  | .recheck t => if g.evicted k ≠ t.evicted then some (g, .undo) else some (g, .recheckCleared t)
  | .recheckCleared t => if g.cleared ≠ t.cleared then some (g, .undo) else some (g, .returned true)
  | .undo => some (g.invalidate k, .returned false)
  | .returned _ => none

/-- One step of `remove`. -/
def removeStep (k : K) (g : L1Cache K ι V) : Evicting → Option (L1Cache K ι V × Evicting)
  | .waiting => some ({ g with generation := g.generation + 1 }, .drawn (g.generation + 1))
  | .drawn n => some ({ g with evicted := Function.update g.evicted k (some n) }, .marked n)
  | .marked n => some (g.invalidate k, .evicted n)
  | .evicted _ => none

/-- One step of `clear`. -/
def clearStep (g : L1Cache K ι V) : Evicting → Option (L1Cache K ι V × Evicting)
  | .waiting => some ({ g with generation := g.generation + 1 }, .drawn (g.generation + 1))
  | .drawn n => some ({ g with cleared := n }, .marked n)
  | .marked n => some ({ g with entries := fun _ => none }, .evicted n)
  | .evicted _ => none

/-- One step of a call. -/
def act (i : ι) (g : L1Cache K ι V) (l : Call K V) (source : Option (V × ℕ)) :
    Option (L1Cache K ι V × Call K V) :=
  match l with
  | .load k pc => (loadStep i k g source pc).map fun r => (r.1, .load k r.2)
  | .remove k pc => (removeStep k g pc).map fun r => (r.1, .remove k r.2)
  | .clear pc => (clearStep g pc).map fun r => (r.1, .clear r.2)

/-- What the maps do by themselves. -/
inductive Event (K : Type)
  | dropEntry (k : K)
  | forget (k : K)

/-- One such event. -/
def env (g : L1Cache K ι V) : Event K → Option (L1Cache K ι V)
  | .dropEntry k => some (g.invalidate k)
  | .forget k => some { g with evicted := Function.update g.evicted k none }

/-- Any number of calls. -/
def calling : Calls ι (L1Cache K ι V) (Call K V) (Option (V × ℕ)) (Event K) := ⟨act, env⟩

/-! ## Generations -/

def L1Cache.Records (g : L1Cache K ι V) (n : ℕ) : Prop := (∃ k, g.evicted k = some n) ∨ g.cleared = n

/-- What a loader has seen of its key's evictions. -/
def Loading.seen : Loading V → Option (Option ℕ)
  | .ticketCleared evicted => some evicted
  | .read t | .check t _ _ | .checkCleared t _ _ | .insert t _ _ | .recheck t | .recheckCleared t =>
      some t.evicted
  | .start | .undo | .returned _ => none

def Loading.ticket? : Loading V → Option Ticket
  | .read t | .check t _ _ | .checkCleared t _ _ | .insert t _ _ | .recheck t | .recheckCleared t => some t
  | .start | .ticketCleared _ | .undo | .returned _ => none

/-- A generation is in a loader's ticket. -/
def Loading.Knows (pc : Loading V) (n : ℕ) : Prop :=
  pc.seen = some (some n) ∨ pc.ticket?.map Ticket.cleared = some n

/-- A generation is in the ticket of a call. -/
def Call.Knows : Call K V → ℕ → Prop
  | .load _ pc, n => pc.Knows n
  | .remove _ _, _ | .clear _, _ => False

/-- A generation is drawn, and not stored yet. -/
def Evicting.inHand : Evicting → Option ℕ
  | .drawn n => some n
  | .waiting | .marked _ | .evicted _ => none

def Call.inHand : Call K V → Option ℕ
  | .load _ _ => none
  | .remove _ pc | .clear pc => Evicting.inHand pc

/-- A generation is recorded, or in somebody's ticket. -/
def Used (w : Pool ι (L1Cache K ι V) (Call K V)) (n : ℕ) : Prop :=
  w.shared.Records n ∨ ∃ i, (w.calls i).Knows n

/-- A generation in hand is nobody else's, and was not used before. -/
def Sound (w : Pool ι (L1Cache K ι V) (Call K V)) : Prop :=
  Drawn (· ≤ w.shared.generation) (Used w) fun r => (w.calls r).inHand

/-- What one step may do to generations: use one that is used already, draw a new one, or record the one in
hand. -/
inductive Draws (g : L1Cache K ι V) (l : Call K V) (g' : L1Cache K ι V) (l' : Call K V) : Prop
  | uses (hgeneration : g'.generation = g.generation) (hrecords : ∀ n, g'.Records n → g.Records n)
      (hdrawn : l'.inHand = none) (hknows : ∀ n, l'.Knows n → l.Knows n ∨ g.Records n)
  | draws (hgeneration : g'.generation = g.generation + 1) (hrecords : ∀ n, g'.Records n → g.Records n)
      (hdrawn : l'.inHand = some (g.generation + 1)) (hknows : ∀ n, ¬ l'.Knows n)
  | records (m : ℕ) (hm : l.inHand = some m) (hgeneration : g'.generation = g.generation)
      (hrecords : ∀ n, g'.Records n → g.Records n ∨ n = m) (hdrawn : l'.inHand = none)
      (hknows : ∀ n, ¬ l'.Knows n)

/-- What a loader's step does to the store: at most its own entry comes or goes. -/
structure LoadActs (i : ι) (k : K) (g : L1Cache K ι V) (pc : Loading V) (g' : L1Cache K ι V)
    (pc' : Loading V) : Prop where
  evicted : g'.evicted = g.evicted
  generation : g'.generation = g.generation
  cleared : g'.cleared = g.cleared
  knows : ∀ n, pc'.Knows n → pc.Knows n ∨ g.Records n
  entries : g'.entries = g.entries ∨ g'.entries = Function.update g.entries k none ∨
    ∃ v, g'.entries = Function.update g.entries k (some ⟨v, i⟩)

section

variable {i : ι} {k : K} {g g' : L1Cache K ι V} {l l' : Call K V} {pc pc' : Loading V}
  {source : Option (V × ℕ)}

lemma LoadActs.of_same (hknows : ∀ n, pc'.Knows n → pc.Knows n ∨ g.Records n) : LoadActs i k g pc g pc' :=
  ⟨rfl, rfl, rfl, hknows, .inl rfl⟩

lemma loadActs_insert {e : Entry ι V} {ttl : ℕ} (he : e.loader = i)
    (hknows : ∀ n, pc'.Knows n → pc.Knows n ∨ g.Records n) : LoadActs i k g pc (g.insert k e ttl) pc' := by
  subst he
  rw [L1Cache.insert]
  split_ifs with httl
  · exact ⟨rfl, rfl, rfl, hknows, .inr (.inl rfl)⟩
  · exact ⟨rfl, rfl, rfl, hknows, .inr (.inr ⟨e.value, rfl⟩)⟩

lemma loadStep_acts (h : loadStep i k g source pc = some (g', pc')) : LoadActs i k g pc g' pc' := by
  -- a loader that has its ticket keeps it or drops it
  have hkeep : ∀ {pc' : Loading V}, pc'.seen = pc.seen ∧ pc'.ticket? = pc.ticket? ∨
      pc'.seen = none ∧ pc'.ticket? = none → ∀ n, pc'.Knows n → pc.Knows n ∨ g.Records n := by
    rintro pc' (⟨hseen, hticket⟩ | ⟨hseen, hticket⟩) n hn
    · rw [Loading.Knows, hseen, hticket] at hn
      exact .inl hn
    · rw [Loading.Knows, hseen, hticket] at hn
      rcases hn with hn | hn
      · cases hn
      · cases hn
  cases pc with
  | start =>
      cases h
      refine .of_same fun n hn => ?_
      rcases hn with hn | hn
      · exact .inr (.inl ⟨k, Option.some.inj hn⟩)
      · cases hn
  | ticketCleared evicted =>
      cases h
      refine .of_same fun n hn => ?_
      rcases hn with hn | hn
      · exact .inl (.inl hn)
      · exact .inr (.inr (Option.some.inj hn))
  | read t =>
      cases source with
      | none =>
          cases h
          exact .of_same (hkeep (.inr ⟨rfl, rfl⟩))
      | some r =>
          cases h
          exact .of_same (hkeep (.inl ⟨rfl, rfl⟩))
  | check t v ttl =>
      rw [loadStep] at h
      split_ifs at h with hold
      · cases h
        exact .of_same (hkeep (.inr ⟨rfl, rfl⟩))
      · cases h
        exact .of_same (hkeep (.inl ⟨rfl, rfl⟩))
  | checkCleared t v ttl =>
      rw [loadStep] at h
      split_ifs at h with hold
      · cases h
        exact .of_same (hkeep (.inr ⟨rfl, rfl⟩))
      · cases h
        exact .of_same (hkeep (.inl ⟨rfl, rfl⟩))
  | insert t v ttl =>
      cases h
      exact loadActs_insert rfl (hkeep (.inl ⟨rfl, rfl⟩))
  | recheck t =>
      rw [loadStep] at h
      split_ifs at h with hold
      · cases h
        exact .of_same (hkeep (.inr ⟨rfl, rfl⟩))
      · cases h
        exact .of_same (hkeep (.inl ⟨rfl, rfl⟩))
  | recheckCleared t =>
      rw [loadStep] at h
      split_ifs at h with hold
      · cases h
        exact .of_same (hkeep (.inr ⟨rfl, rfl⟩))
      · cases h
        exact .of_same (hkeep (.inr ⟨rfl, rfl⟩))
  | undo =>
      cases h
      exact ⟨rfl, rfl, rfl, hkeep (.inr ⟨rfl, rfl⟩), .inr (.inl rfl)⟩
  | returned inserted => cases h

lemma act_draws (h : act i g l source = some (g', l')) : Draws g l g' l' := by
  cases l with
  | load k pc =>
      obtain ⟨⟨g₁, pc'⟩, hstep, heq⟩ := Option.map_eq_some_iff.mp h
      cases heq
      have hacts := loadStep_acts hstep
      refine .uses hacts.generation (fun n hn => ?_) rfl hacts.knows
      rwa [L1Cache.Records, hacts.evicted, hacts.cleared] at hn
  | remove k pc =>
      obtain ⟨⟨g₁, pc'⟩, hstep, heq⟩ := Option.map_eq_some_iff.mp h
      cases heq
      cases pc with
      | waiting =>
          cases hstep
          exact .draws rfl (fun _ hn => hn) rfl fun _ hn => hn
      | drawn m =>
          cases hstep
          refine .records m rfl rfl (fun n hn => ?_) rfl fun _ hn => hn
          rcases hn with ⟨k', hk'⟩ | hn
          · have hupdate : Function.update g.evicted k (some m) k' = some n := hk'
            by_cases hk : k' = k
            · rw [hk, Function.update_self] at hupdate
              exact .inr (Option.some.inj hupdate).symm
            · rw [Function.update_of_ne hk] at hupdate
              exact .inl (.inl ⟨k', hupdate⟩)
          · exact .inl (.inr hn)
      | marked m =>
          cases hstep
          exact .uses rfl (fun _ hn => hn) rfl fun _ hn => hn.elim
      | evicted m => cases hstep
  | clear pc =>
      obtain ⟨⟨g₁, pc'⟩, hstep, heq⟩ := Option.map_eq_some_iff.mp h
      cases heq
      cases pc with
      | waiting =>
          cases hstep
          exact .draws rfl (fun _ hn => hn) rfl fun _ hn => hn
      | drawn m =>
          cases hstep
          refine .records m rfl rfl (fun n hn => ?_) rfl fun _ hn => hn
          rcases hn with hn | hn
          · exact .inl (.inl hn)
          · exact .inr hn.symm
      | marked m =>
          cases hstep
          exact .uses rfl (fun _ hn => hn) rfl fun _ hn => hn.elim
      | evicted m => cases hstep

end

section

variable [DecidableEq ι] {w w' : Pool ι (L1Cache K ι V) (Call K V)} {i : ι} {g : L1Cache K ι V} {l : Call K V}
  {source : Option (V × ℕ)} {e : Event K}

omit [DecidableEq K] in
lemma used_next {n : ℕ} (h : Used (w.next i g l) n) : g.Records n ∨ l.Knows n ∨ Used w n := by
  rcases h with hrecords | ⟨j, hj⟩
  · exact .inl hrecords
  · by_cases hji : j = i
    · rw [hji, Pool.next_self] at hj
      exact .inr (.inl hj)
    · rw [Pool.next_of_ne w hji] at hj
      exact .inr (.inr (.inr ⟨j, hj⟩))

omit [DecidableEq K] in
/-- **What a step does to generations** keeps the ones in hand unused. -/
lemma Sound.draws (hw : Sound w) (h : Draws w.shared (w.calls i) g l) : Sound (w.next i g l) := by
  cases h with
  | uses hgeneration hrecords hdrawn hknows =>
      refine hw.mono (fun ha => Nat.le_trans ha (Nat.le_of_eq hgeneration.symm)) (fun {n} hn => ?_) fun {r n} hr => ?_
      · rcases used_next hn with hn | hn | hn
        · exact .inl (hrecords n hn)
        · rcases hknows n hn with hn | hn
          · exact .inr ⟨i, hn⟩
          · exact .inl hn
        · exact hn
      · rcases Pool.next_read hr with ⟨-, hr⟩ | hr
        · rw [hdrawn] at hr
          cases hr
        · exact hr
  | draws hgeneration hrecords hdrawn hknows =>
      have hlater : ∀ {n}, n ≤ w.shared.generation → n ≤ g.generation := by omega
      refine Drawn.draw hw (i := i) (Nat.not_succ_le_self _) (Nat.le_of_eq hgeneration.symm) hlater (fun {n} hn => ?_)
        fun {r n} hr => ?_
      · rcases used_next hn with hn | hn | hn
        · exact .inl (hrecords n hn)
        · exact absurd hn (hknows n)
        · exact hn
      · rcases Pool.next_read hr with ⟨hri, hr⟩ | hr
        · rw [hdrawn] at hr
          exact .inl ⟨hri, (Option.some.inj hr).symm⟩
        · exact .inr hr
  | records m hm hgeneration hrecords hdrawn hknows =>
      refine Drawn.use hw (i := i) hm (fun ha => Nat.le_trans ha (Nat.le_of_eq hgeneration.symm)) (fun {n} hn => ?_)
        fun {r n} hr => ?_
      · rcases used_next hn with hn | hn | hn
        · rcases hrecords n hn with hn | hn
          · exact .inl (.inl hn)
          · exact .inr hn
        · exact absurd hn (hknows n)
        · exact .inl hn
      · by_cases hri : r = i
        · rw [hri, Pool.next_self, hdrawn] at hr
          cases hr
        · rw [Pool.next_of_ne w hri] at hr
          exact ⟨hri, hr⟩

omit [DecidableEq ι] in
lemma records_env (h : env w.shared e = some g) :
    g.generation = w.shared.generation ∧ ∀ n, g.Records n → w.shared.Records n := by
  cases e with
  | dropEntry k =>
      cases h
      exact ⟨rfl, fun _ hn => hn⟩
  | forget k =>
      cases h
      refine ⟨rfl, fun n hn => ?_⟩
      rcases hn with ⟨k', hk'⟩ | hn
      · have hupdate : Function.update w.shared.evicted k none k' = some n := hk'
        by_cases hk : k' = k
        · rw [hk, Function.update_self] at hupdate
          cases hupdate
        · rw [Function.update_of_ne hk] at hupdate
          exact .inl ⟨k', hupdate⟩
      · exact .inr hn

omit [DecidableEq ι] in
lemma Sound.env (hw : Sound w) (h : env w.shared e = some g) : Sound ⟨g, w.calls⟩ := by
  obtain ⟨hgeneration, hrecords⟩ := records_env h
  refine hw.mono (fun ha => Nat.le_trans ha (Nat.le_of_eq hgeneration.symm)) (fun {n} hn => ?_) id
  rcases hn with hn | hn
  · exact .inl (hrecords n hn)
  · exact .inr hn

/-- Before anything is called. -/
structure Started (w : Pool ι (L1Cache K ι V) (Call K V)) : Prop where
  shared : w.shared = .new
  calls : ∀ i, (∃ k, w.calls i = .load k .start) ∨ (∃ k, w.calls i = .remove k .waiting) ∨
    w.calls i = .clear .waiting

omit [DecidableEq K] [DecidableEq ι] in
lemma Started.sound (hw : Started w) : Sound w := by
  have hused : ∀ n, Used w n → n = 0 := by
    rintro n ((⟨k, hk⟩ | hcleared) | ⟨i, hi⟩)
    · rw [hw.shared] at hk
      cases hk
    · rw [hw.shared] at hcleared
      exact hcleared.symm
    · rcases hw.calls i with ⟨k, hl⟩ | ⟨k, hl⟩ | hl
      · rw [hl] at hi
        rcases hi with hi | hi
        · cases hi
        · cases hi
      · rw [hl] at hi
        exact hi.elim
      · rw [hl] at hi
        exact hi.elim
  have hhand : ∀ r, (w.calls r).inHand = none := by
    intro r
    rcases hw.calls r with ⟨k, hl⟩ | ⟨k, hl⟩ | hl
    · rw [hl]
      rfl
    · rw [hl]
      rfl
    · rw [hl]
      rfl
  exact .of_none (fun {n} hn => hused n hn ▸ Nat.zero_le _) hhand

end

/-! ## One loader and one eviction -/

/-- An eviction of `k`: `remove`, or `clear`. -/
def evictor (all : Bool) (k : K) (pc : Evicting) : Call K V := if all then .clear pc else .remove k pc

/-- A ticket is outdated by what `remove` or `clear` records. -/
def Outdated (all : Bool) (k : K) (g : L1Cache K ι V) (t : Ticket) : Prop :=
  if all then g.cleared ≠ t.cleared else g.evicted k ≠ t.evicted

/-- A loader has its ticket, or had it. -/
def Loading.ticketed : Loading V → Bool
  | .start | .ticketCleared _ => false
  | _ => true

/-- A loader with an outdated ticket is about to take its entry back. -/
def Loading.undoing (all : Bool) : Loading V → Bool
  | .recheck _ | .undo => true
  | .recheckCleared _ => all
  | _ => false

/-- A loader took its ticket before an eviction began: the ticket is outdated once the eviction is recorded,
and an entry of the loader does not outlive both. -/
structure Past (all : Bool) (k : K) (i : ι) (g : L1Cache K ι V) (pc : Loading V) (pc' : Evicting) : Prop where
  ticketed : pc.ticketed = true
  outdated : pc'.isMarked = true → ∀ {t}, pc.ticket? = some t → Outdated all k g t
  dropped : pc'.isOver = true → ∀ {e}, g.entries k = some e → e.loader = i → pc.undoing all = true

/-- What others may do: entries of the loader do not come, and its ticket stays outdated. -/
structure Spares (all : Bool) (k : K) (i : ι) (pc : Loading V) (g g' : L1Cache K ι V) : Prop where
  entries : ∀ {e}, g'.entries k = some e → e.loader = i → g.entries k = some e
  outdated : ∀ {t}, pc.ticket? = some t → Outdated all k g t → Outdated all k g' t

section

variable {all : Bool} {k k' : K} {i j : ι} {g g' : L1Cache K ι V} {pc pc₁ : Loading V} {pc' : Evicting}
  {l l' : Call K V} {source : Option (V × ℕ)} {t : Ticket} {n : ℕ}

omit [DecidableEq K] in
lemma Past.spares (h : Past all k i g pc pc') (hspares : Spares all k i pc g g') : Past all k i g' pc pc' where
  ticketed := h.ticketed
  outdated hmarked _ ht := hspares.outdated ht (h.outdated hmarked ht)
  dropped hover _ he hloader := h.dropped hover (hspares.entries he hloader) hloader

lemma seen_of_ticket (h : pc.ticket? = some t) : pc.seen = some t.evicted := by
  cases pc with
  | start => cases h
  | ticketCleared evicted => cases h
  | read t' | check t' v ttl | checkCleared t' v ttl | insert t' v ttl | recheck t' | recheckCleared t' =>
      cases h
      rfl
  | undo => cases h
  | returned inserted => cases h

lemma ticket_ne (hunknown : ¬ pc.Knows n) (ht : pc.ticket? = some t) : some n ≠ t.evicted ∧ n ≠ t.cleared := by
  constructor
  · intro h
    exact hunknown (.inl (h ▸ seen_of_ticket ht))
  · intro h
    refine hunknown (.inr ?_)
    rw [ht, h]
    rfl

omit [DecidableEq K] in
lemma update_none_eq_some [DecidableEq K] {f : K → Option (Entry ι V)} {e : Entry ι V}
    (h : Function.update f k' none k = some e) : f k = some e := by
  by_cases hk : k = k'
  · rw [hk, Function.update_self] at h
    cases h
  · rwa [Function.update_of_ne hk] at h

lemma Spares.of_loadActs (hji : j ≠ i) {l l' : Loading V} (h : LoadActs j k' g l g' l') :
    Spares all k i pc g g' := by
  refine ⟨fun {e} he hloader => ?_, fun _ hold => ?_⟩
  · rcases h.entries with hsame | hnone | ⟨v, hown⟩
    · rwa [hsame] at he
    · rw [hnone] at he
      exact update_none_eq_some he
    · rw [hown] at he
      by_cases hk : k = k'
      · rw [hk, Function.update_self] at he
        cases he
        exact absurd hloader hji
      · rwa [Function.update_of_ne hk] at he
  · rwa [Outdated, h.cleared, h.evicted]

lemma act_spares (hji : j ≠ i) (hunknown : ∀ n, l.inHand = some n → ¬ pc.Knows n)
    (h : act j g l source = some (g', l')) : Spares all k i pc g g' := by
  cases l with
  | load k' pc' =>
      obtain ⟨⟨g₁, pc₁⟩, hstep, heq⟩ := Option.map_eq_some_iff.mp h
      cases heq
      exact .of_loadActs hji (loadStep_acts hstep)
  | remove k' pc' =>
      obtain ⟨⟨g₁, pc₁⟩, hstep, heq⟩ := Option.map_eq_some_iff.mp h
      cases heq
      cases pc' with
      | waiting =>
          cases hstep
          exact ⟨fun he _ => he, fun _ hold => hold⟩
      | drawn n =>
          cases hstep
          refine ⟨fun he _ => he, fun ht hold => ?_⟩
          cases all with
          | true => exact hold
          | false =>
              show Function.update g.evicted k' (some n) k ≠ _
              by_cases hk : k = k'
              · rw [hk, Function.update_self]
                exact (ticket_ne (hunknown n rfl) ht).1
              · rw [Function.update_of_ne hk]
                exact hold
      | marked n =>
          cases hstep
          exact ⟨fun he _ => update_none_eq_some he, fun _ hold => hold⟩
      | evicted n => cases hstep
  | clear pc' =>
      obtain ⟨⟨g₁, pc₁⟩, hstep, heq⟩ := Option.map_eq_some_iff.mp h
      cases heq
      cases pc' with
      | waiting =>
          cases hstep
          exact ⟨fun he _ => he, fun _ hold => hold⟩
      | drawn n =>
          cases hstep
          refine ⟨fun he _ => he, fun ht hold => ?_⟩
          cases all with
          | true => exact (ticket_ne (hunknown n rfl) ht).2
          | false => exact hold
      | marked n =>
          cases hstep
          exact ⟨fun he _ => (by cases he), fun _ hold => hold⟩
      | evicted n => cases hstep

lemma Past.evict (h : Past all k i g pc pc') (hunknown : ∀ n, Evicting.inHand pc' = some n → ¬ pc.Knows n)
    (hji : j ≠ i) (hact : act j g (evictor all k pc') source = some (g', l')) :
    ∃ pc₁, l' = evictor all k pc₁ ∧ Past all k i g' pc pc₁ := by
  have hspares : Spares all k i pc g g' := by
    refine act_spares hji (fun n hn => hunknown n ?_) hact
    cases all with
    | true => exact hn
    | false => exact hn
  have hpast := h.spares hspares
  cases all with
  | true =>
      obtain ⟨⟨g₁, pc₁⟩, hstep, heq⟩ := Option.map_eq_some_iff.mp hact
      cases heq
      refine ⟨pc₁, rfl, ?_⟩
      cases pc' with
      | waiting =>
          cases hstep
          exact ⟨h.ticketed, fun hmarked => (by cases hmarked), fun hover => (by cases hover)⟩
      | drawn n =>
          cases hstep
          exact ⟨h.ticketed, fun _ _ ht => (ticket_ne (hunknown n rfl) ht).2, fun hover => by cases hover⟩
      | marked n =>
          cases hstep
          exact ⟨h.ticketed, hpast.outdated, fun _ _ he => by cases he⟩
      | evicted n => cases hstep
  | false =>
      obtain ⟨⟨g₁, pc₁⟩, hstep, heq⟩ := Option.map_eq_some_iff.mp hact
      cases heq
      refine ⟨pc₁, rfl, ?_⟩
      cases pc' with
      | waiting =>
          cases hstep
          exact ⟨h.ticketed, fun hmarked => (by cases hmarked), fun hover => (by cases hover)⟩
      | drawn n =>
          cases hstep
          refine ⟨h.ticketed, fun _ t ht => ?_, fun hover => by cases hover⟩
          show Function.update g.evicted k (some n) k ≠ t.evicted
          rw [Function.update_self]
          exact (ticket_ne (hunknown n rfl) ht).1
      | marked n =>
          cases hstep
          refine ⟨h.ticketed, hpast.outdated, fun _ e he => ?_⟩
          have hnone : Function.update g.entries k none k = some e := he
          rw [Function.update_self] at hnone
          cases hnone
      | evicted n => cases hstep

omit [DecidableEq K] in
lemma Past.move (h : Past all k i g pc pc') (hticketed : pc₁.ticketed = true)
    (hticket : ∀ {t}, pc₁.ticket? = some t → pc.ticket? = some t)
    (hundoing : pc'.isOver = true → pc.undoing all = true → pc₁.undoing all = true) :
    Past all k i g pc₁ pc' where
  ticketed := hticketed
  outdated hmarked _ ht := h.outdated hmarked (hticket ht)
  dropped hover _ he hloader := hundoing hover (h.dropped hover he hloader)

lemma isMarked_of_isOver (h : pc'.isOver = true) : pc'.isMarked = true := by
  cases pc' with
  | waiting | drawn n | marked n => cases h
  | evicted n => rfl

lemma Past.load (h : Past all k i g pc pc') (hstep : loadStep i k g source pc = some (g', pc₁)) :
    Past all k i g' pc₁ pc' := by
  have hnot : ∀ {b : Prop}, false = true → b := fun hf => by cases hf
  cases pc with
  | start => exact hnot h.ticketed
  | ticketCleared evicted => exact hnot h.ticketed
  | read t =>
      cases source with
      | none =>
          cases hstep
          exact h.move rfl (fun ht => by cases ht) fun _ => hnot
      | some r =>
          cases hstep
          exact h.move rfl id fun _ => hnot
  | check t v ttl =>
      rw [loadStep] at hstep
      split_ifs at hstep with hold
      · cases hstep
        exact h.move rfl (fun ht => by cases ht) fun _ => hnot
      · cases hstep
        exact h.move rfl id fun _ => hnot
  | checkCleared t v ttl =>
      rw [loadStep] at hstep
      split_ifs at hstep with hold
      · cases hstep
        exact h.move rfl (fun ht => by cases ht) fun _ => hnot
      · cases hstep
        exact h.move rfl id fun _ => hnot
  | insert t v ttl =>
      cases hstep
      refine ⟨rfl, fun hmarked t' ht => ?_, fun _ _ _ _ => rfl⟩
      have hacts : LoadActs i k g (.insert t v ttl : Loading V) (g.insert k ⟨v, i⟩ ttl) (.insert t v ttl) :=
        loadActs_insert rfl fun _ hn => .inl hn
      rw [Outdated, hacts.cleared, hacts.evicted]
      exact h.outdated hmarked ht
  | recheck t =>
      rw [loadStep] at hstep
      split_ifs at hstep with hold
      · cases hstep
        exact h.move rfl (fun ht => by cases ht) fun _ _ => rfl
      · cases hstep
        refine h.move rfl id fun hover _ => ?_
        cases all with
        | true => rfl
        | false => exact absurd (h.outdated (isMarked_of_isOver hover) rfl) hold
  | recheckCleared t =>
      rw [loadStep] at hstep
      split_ifs at hstep with hold
      · cases hstep
        exact h.move rfl (fun ht => by cases ht) fun _ _ => rfl
      · cases hstep
        refine h.move rfl (fun ht => by cases ht) fun hover hundoing => ?_
        cases all with
        | true => exact absurd (h.outdated (isMarked_of_isOver hover) rfl) hold
        | false => exact hnot hundoing
  | undo =>
      cases hstep
      refine ⟨rfl, fun _ _ ht => (by cases ht), fun _ e he => ?_⟩
      have hnone : Function.update g.entries k none k = some e := he
      rw [Function.update_self] at hnone
      cases hnone
  | returned inserted => cases hstep

end

/-! ## Runs -/

section

variable [DecidableEq ι] {w w' : Pool ι (L1Cache K ι V) (Call K V)} {i j r : ι} {k : K} {all : Bool}
  {g g' : L1Cache K ι V} {l l' : Call K V} {source : Option (V × ℕ)} {e : Event K}

/-- No eviction is forgotten early: one that was recorded since a loader of the key looked is remembered as
long as the loader may look again. -/
def Remembered (w : Pool ι (L1Cache K ι V) (Call K V)) (a : Pick ι (Option (V × ℕ)) (Event K)) : Prop :=
  ∀ k, a = .env (.forget k) → ∀ i pc, w.calls i = .load k pc →
    ∀ seen n, pc.seen = some seen → w.shared.evicted k = some n → seen = some n

/-- An entry is of a loader of its key. -/
def Owned (w : Pool ι (L1Cache K ι V) (Call K V)) : Prop :=
  ∀ {k e}, w.shared.entries k = some e → ∃ pc, w.calls e.loader = .load k pc

/-- The loader and the eviction that `Past` relates. -/
def Follows (all : Bool) (k : K) (i r : ι) (w : Pool ι (L1Cache K ι V) (Call K V)) : Prop :=
  ∃ pc pc', w.calls i = .load k pc ∧ w.calls r = evictor all k pc' ∧ Past all k i w.shared pc pc'

omit [DecidableEq ι] in
lemma act_owned (h : act i g l source = some (g', l')) {k : K} :
    (∀ {pc}, l = .load k pc → ∃ pc', l' = .load k pc') ∧
    ∀ {e}, g'.entries k = some e → g.entries k = some e ∨ e.loader = i ∧ ∃ pc', l' = .load k pc' := by
  cases l with
  | load k' pc =>
      obtain ⟨⟨g₁, pc'⟩, hstep, heq⟩ := Option.map_eq_some_iff.mp h
      cases heq
      refine ⟨fun hl => ?_, fun {e} he => ?_⟩
      · cases hl
        exact ⟨pc', rfl⟩
      · rcases (loadStep_acts hstep).entries with hsame | hnone | ⟨v, hown⟩
        · exact .inl (hsame ▸ he)
        · exact .inl (update_none_eq_some (hnone ▸ he))
        · rw [hown] at he
          by_cases hk : k = k'
          · subst hk
            rw [Function.update_self, Option.some.injEq] at he
            exact .inr ⟨he ▸ rfl, pc', rfl⟩
          · rw [Function.update_of_ne hk] at he
            exact .inl he
  | remove k' pc =>
      obtain ⟨⟨g₁, pc'⟩, hstep, heq⟩ := Option.map_eq_some_iff.mp h
      cases heq
      refine ⟨fun hl => (by cases hl), fun he => .inl ?_⟩
      cases pc with
      | waiting | drawn n =>
          cases hstep
          exact he
      | marked n =>
          cases hstep
          exact update_none_eq_some he
      | evicted n => cases hstep
  | clear pc =>
      obtain ⟨⟨g₁, pc'⟩, hstep, heq⟩ := Option.map_eq_some_iff.mp h
      cases heq
      refine ⟨fun hl => (by cases hl), fun he => .inl ?_⟩
      cases pc with
      | waiting | drawn n =>
          cases hstep
          exact he
      | marked n =>
          cases hstep
          cases he
      | evicted n => cases hstep

lemma Owned.act (hw : Owned w) (h : act i w.shared (w.calls i) source = some (g, l)) :
    Owned (w.next i g l) := by
  intro k e he
  obtain ⟨hkind, hentries⟩ := act_owned h (k := k)
  rcases hentries he with he | ⟨hloader, hl⟩
  · obtain ⟨pc, hpc⟩ := hw he
    by_cases hei : e.loader = i
    · rw [hei, Pool.next_self]
      exact hkind (hei ▸ hpc)
    · rw [Pool.next_of_ne w hei]
      exact ⟨pc, hpc⟩
  · rw [hloader, Pool.next_self]
    exact hl

omit [DecidableEq ι] in
lemma Owned.env (hw : Owned w) (h : env w.shared e = some g) : Owned ⟨g, w.calls⟩ := by
  cases e with
  | dropEntry k' =>
      cases h
      exact fun he => hw (update_none_eq_some he)
  | forget k' =>
      cases h
      exact hw

omit [DecidableEq K] in
lemma evictor_ne_load {pc : Loading V} {pc' : Evicting} {k' : K} : evictor all k pc' ≠ .load k' pc := by
  cases all with
  | true => exact fun h => by cases h
  | false => exact fun h => by cases h

omit [DecidableEq K] in
lemma inHand_evictor {pc' : Evicting} : (evictor all k pc' : Call K V).inHand = Evicting.inHand pc' := by
  cases all with
  | true => rfl
  | false => rfl

omit [DecidableEq K] [DecidableEq ι] in
lemma Sound.unknown (hw : Sound w) {pc : Loading V} (hi : w.calls i = .load k pc) {n : ℕ}
    (hn : (w.calls j).inHand = some n) : ¬ pc.Knows n := by
  intro hknows
  refine hw.unused hn (.inr ⟨i, ?_⟩)
  rw [hi]
  exact hknows

/-- **One step** keeps the loader and the eviction in step. -/
lemma Follows.act (hfollows : Follows all k i r w) (hw : Sound w)
    (h : act j w.shared (w.calls j) source = some (g, l)) : Follows all k i r (w.next j g l) := by
  obtain ⟨pc, pc', hi, hr, hpast⟩ := hfollows
  have hri : r ≠ i := by
    rintro rfl
    exact evictor_ne_load (hr.symm.trans hi)
  by_cases hji : j = i
  · subst hji
    rw [hi] at h
    obtain ⟨⟨g₁, pc₁⟩, hstep, heq⟩ := Option.map_eq_some_iff.mp h
    cases heq
    refine ⟨pc₁, pc', Pool.next_self .., ?_, hpast.load hstep⟩
    rw [Pool.next_of_ne w hri]
    exact hr
  · have hunknown : ∀ n, (w.calls j).inHand = some n → ¬ pc.Knows n := fun n hn => hw.unknown hi hn
    have hi' : (w.next j g l).calls i = .load k pc := by
      rw [Pool.next_of_ne w (Ne.symm hji)]
      exact hi
    by_cases hjr : j = r
    · subst hjr
      rw [hr] at h hunknown
      rw [inHand_evictor] at hunknown
      obtain ⟨pc₁, rfl, hpast'⟩ := hpast.evict hunknown hji h
      exact ⟨pc, pc₁, hi', Pool.next_self .., hpast'⟩
    · refine ⟨pc, pc', hi', ?_, hpast.spares (act_spares hji hunknown h)⟩
      rw [Pool.next_of_ne w (Ne.symm hjr)]
      exact hr

omit [DecidableEq ι] in
lemma Follows.env (hfollows : Follows all k i r w) (hremembered : Remembered w (.env e))
    (h : env w.shared e = some g) : Follows all k i r ⟨g, w.calls⟩ := by
  obtain ⟨pc, pc', hi, hr, hpast⟩ := hfollows
  refine ⟨pc, pc', hi, hr, hpast.spares ?_⟩
  cases e with
  | dropEntry k' =>
      cases h
      exact ⟨fun he _ => update_none_eq_some he, fun _ hold => hold⟩
  | forget k' =>
      cases h
      refine ⟨fun he _ => he, fun {t} ht hold => ?_⟩
      cases all with
      | true => exact hold
      | false =>
          show Function.update w.shared.evicted k' none k ≠ t.evicted
          by_cases hk : k = k'
          · subst hk
            -- the record is not the one of the ticket, so it is not forgotten yet
            cases hevicted : w.shared.evicted k with
            | none =>
                rw [Function.update_self, ← hevicted]
                exact hold
            | some n =>
                have hseen := hremembered k rfl i pc hi t.evicted n (seen_of_ticket ht) hevicted
                exact absurd (hevicted.trans hseen.symm) hold
          · rw [Function.update_of_ne hk]
            exact hold

omit [DecidableEq K] [DecidableEq ι] in
lemma Started.owned (hw : Started w) : Owned w := by
  intro k e he
  rw [hw.shared] at he
  cases he

lemma load_back {a : Pick ι (Option (V × ℕ)) (Event K)} (hw : ∃ pc, w'.calls i = .load k pc)
    (hstep : calling.machine.step w a = some w') : ∃ pc, w.calls i = .load k pc := by
  obtain ⟨pc, hpc⟩ := hw
  cases a with
  | call j source =>
      obtain ⟨g, l, hact, rfl⟩ := Calls.step_call.mp hstep
      by_cases hij : i = j
      · subst hij
        rw [Pool.next_self] at hpc
        subst hpc
        have hact' : act i w.shared (w.calls i) source = some (g, .load k pc) := hact
        cases hl : w.calls i with
        | load k' pc' =>
            rw [hl] at hact'
            obtain ⟨r, -, heq⟩ := Option.map_eq_some_iff.mp hact'
            cases heq
            exact ⟨pc', rfl⟩
        | remove k' pc' =>
            rw [hl] at hact'
            obtain ⟨r, -, heq⟩ := Option.map_eq_some_iff.mp hact'
            cases heq
        | clear pc' =>
            rw [hl] at hact'
            obtain ⟨r, -, heq⟩ := Option.map_eq_some_iff.mp hact'
            cases heq
      · rw [Pool.next_of_ne w hij] at hpc
        exact ⟨pc, hpc⟩
  | env e =>
      obtain ⟨g, -, rfl⟩ := Calls.step_env.mp hstep
      exact ⟨pc, hpc⟩

lemma run_sound {as : List (Pick ι (Option (V × ℕ)) (Event K))} (hrun : calling.machine.run w as = some w')
    (hsound : Sound w) (howned : Owned w) : Sound w' ∧ Owned w' := by
  refine Calls.run_inv (I := fun w => Sound w ∧ Owned w) (C := fun _ _ => True) ?_ ?_
    (Machine.meets_of_forall (fun _ _ => trivial) w as) hrun ⟨hsound, howned⟩
  · rintro w i k g l ⟨hsound, howned⟩ - hstep
    exact ⟨hsound.draws (act_draws hstep), howned.act hstep⟩
  · rintro w e g ⟨hsound, howned⟩ - hstep
    exact ⟨hsound.env hstep, howned.env hstep⟩

/-- **The loader and the eviction stay in step** over a run that forgets no eviction early. -/
lemma run_follows {as : List (Pick ι (Option (V × ℕ)) (Event K))} (hrun : calling.machine.run w as = some w')
    (hremembered : calling.machine.Meets Remembered w as) (hsound : Sound w) (hw : Follows all k i r w) :
    Follows all k i r w' := by
  have hboth := Calls.run_inv (I := fun w => Sound w ∧ Follows all k i r w) (C := Remembered) ?_ ?_
    hremembered hrun ⟨hsound, hw⟩
  · exact hboth.2
  · rintro w j source g l ⟨hsound, hfollows⟩ - hstep
    exact ⟨hsound.draws (act_draws hstep), hfollows.act hsound hstep⟩
  · rintro w e g ⟨hsound, hfollows⟩ hC hstep
    exact ⟨hsound.env hstep, hfollows.env hC hstep⟩

def Call.returned : Call K V → Bool
  | .load _ (.returned _) => true
  | .load _ _ => false
  | .remove _ pc | .clear pc => pc.isOver

omit [DecidableEq K] in
lemma undoing_of_returned {pc : Loading V} (h : (Call.load k pc).returned = true) : pc.undoing all = false := by
  cases pc with
  | returned inserted => rfl
  | start | ticketCleared | read | check | checkCleared | insert | recheck | recheckCleared | undo => cases h

omit [DecidableEq K] in
lemma isOver_of_returned {pc' : Evicting} (h : (evictor all k pc' : Call K V).returned = true) :
    pc'.isOver = true := by
  cases all with
  | true => exact h
  | false => exact h

/-- **Tickets are sound.**  Once `remove` or `clear` has returned, no entry of a loader that has returned,
too, is of a ticket from before the eviction began. -/
theorem tickets_sound {w₀ w₁ w₂ : Pool ι (L1Cache K ι V) (Call K V)}
    {before after : List (Pick ι (Option (V × ℕ)) (Event K))} (hstart : Started w₀)
    (hbefore : calling.machine.run w₀ before = some w₁) (hafter : calling.machine.run w₁ after = some w₂)
    (hremembered : calling.machine.Meets Remembered w₀ (before ++ after))
    (hr : w₁.calls r = .remove k .waiting ∨ w₁.calls r = .clear .waiting)
    (hover : (w₂.calls r).returned = true) {e : Entry ι V} (he : w₂.shared.entries k = some e)
    (hreturned : (w₂.calls e.loader).returned = true) :
    ∃ pc, w₁.calls e.loader = .load k pc ∧ pc.ticketed = false := by
  obtain ⟨hsound, howned⟩ := run_sound hbefore hstart.sound hstart.owned
  obtain ⟨-, howned'⟩ := run_sound hafter hsound howned
  have hkind := Machine.run_back (B := fun w => ∃ pc, w.calls e.loader = .load k pc) load_back hafter (howned' he)
  obtain ⟨pc, hpc⟩ := hkind
  refine ⟨pc, hpc, ?_⟩
  rw [← Bool.not_eq_true]
  intro hticketed
  have hlater := (hremembered.of_append hbefore).2
  obtain ⟨all, hevictor⟩ : ∃ all, w₁.calls r = evictor all k .waiting := by
    rcases hr with hr | hr
    · exact ⟨false, hr⟩
    · exact ⟨true, hr⟩
  obtain ⟨pc₂, pc', hi, hr', hpast'⟩ := run_follows hafter hlater hsound
    ⟨pc, .waiting, hpc, hevictor, hticketed, fun hmarked => (by cases hmarked), fun hover => (by cases hover)⟩
  rw [hr'] at hover
  rw [hi] at hreturned
  have hundoing := hpast'.dropped (isOver_of_returned hover) he rfl
  rw [undoing_of_returned hreturned] at hundoing
  cases hundoing

end

end Steps

/-! ## A run -/

def twoLoads : Pool (Fin 3) (L1Cache ℕ (Fin 3) ℕ) (Call ℕ ℕ) :=
  ⟨.new, fun i => if i = 1 then .remove 5 .waiting else .load 5 .start⟩

def steps (i : Fin 3) (n v : ℕ) : List (Pick (Fin 3) (Option (ℕ × ℕ)) (Event ℕ)) :=
  List.replicate n (.call i (some (v, 15)))

def overtaken : List (Pick (Fin 3) (Option (ℕ × ℕ)) (Event ℕ)) :=
  steps 1 1 0 ++ steps 0 1 6 ++ steps 1 1 0 ++ steps 0 1 6 ++ steps 1 1 0 ++ steps 0 1 6 ++ steps 2 8 7

lemma started_twoLoads : Started twoLoads where
  shared := rfl
  calls i := by
    by_cases hi : i = 1
    · exact .inr (.inl ⟨5, if_pos hi⟩)
    · exact .inl ⟨5, if_neg hi⟩

lemma remembered_of_calls {as : List (Pick (Fin 3) (Option (ℕ × ℕ)) (Event ℕ))}
    {w w' : Pool (Fin 3) (L1Cache ℕ (Fin 3) ℕ) (Call ℕ ℕ)} (hrun : calling.machine.run w as = some w')
    (has : ∀ a ∈ as, ∀ e, a ≠ .env e) : calling.machine.Meets Remembered w as :=
  Machine.Meets.mono (fun hcall _ hforget => absurd hforget (hcall _)) ((Machine.meets_iff_forall hrun).mpr has)

/-- The first load takes its value back; what the cache holds in the end is of the second. -/
theorem tickets_sound_overtaken : ∃ w₁ w₂, calling.machine.run twoLoads (steps 0 5 6) = some w₁ ∧
    calling.machine.run w₁ overtaken = some w₂ ∧ w₂.shared.entries 5 = some ⟨7, 2⟩ ∧
    ∃ pc, w₁.calls 2 = .load 5 pc ∧ pc.ticketed = false := by
  have hruns : ((calling.machine.run twoLoads (steps 0 5 6)).any fun w₁ =>
      decide (w₁.calls 1 = .remove 5 .waiting) && (calling.machine.run w₁ overtaken).any fun w₂ =>
        (w₂.calls 1).returned && (w₂.calls 2).returned && decide (w₂.shared.entries 5 = some ⟨7, 2⟩)) = true := rfl
  obtain ⟨w₁, hbefore, hrest⟩ := Machine.exists_run_of_any hruns
  rw [Bool.and_eq_true, decide_eq_true_eq] at hrest
  obtain ⟨w₂, hafter, hend⟩ := Machine.exists_run_of_any hrest.2
  rw [Bool.and_eq_true, Bool.and_eq_true, decide_eq_true_eq] at hend
  have hremembered : calling.machine.Meets Remembered twoLoads (steps 0 5 6 ++ overtaken) := by
    refine remembered_of_calls (Machine.run_append.mpr ⟨w₁, hbefore, hafter⟩) ?_
    simp [steps, overtaken]
  exact ⟨w₁, w₂, hbefore, hafter, hend.2,
    tickets_sound started_twoLoads hbefore hafter hremembered (.inl hrest.1) hend.1.1 hend.2 hend.1.2⟩

end Ridm.Cache.Tickets
