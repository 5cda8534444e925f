import Ridm.Cache.Steps

/-!
# When an invalidation is effective

`invalidate` evicts the key from the L1 of the writer's node, puts its mark into Valkey and publishes
the key; the other nodes evict it when the message comes.  The three layers are made to exclude each
other's races: a ticket from before the eviction is refused by `insert_fresh`, a loader that has read
the source before the write is refused by the mark.

Two orders of steps get through (`old_value_after_invalidation`).  The writer's node is evicted
**before** the mark is in Valkey, so a call there takes a ticket that is good and still reads the old
value; `bump_versions` has the two the other way round.  And `insert_fresh` undoes an insert that an
eviction has overtaken, but in between the entry can be read.  In all other runs the invalidation is
effective (`invalidation_effective`).
-/

namespace Ridm.Cache

variable {N ι V : Type}

/-! ## The invariant -/

/-- The mark is in Valkey, or was. -/
def Phase.isHeld : Phase → Bool
  | .held | .returned => true
  | _ => false

/-- The invariant of the store: from each point of the invalidation on, there is only the new value
where it has been. -/
structure Store.Sound (writer : N) (new : Option V) (g : Store N ι V) : Prop where
  source : g.phase ≠ .before → g.source = new
  begun : ∀ n, g.evicting n ≠ .waiting → g.phase ≠ .before ∧ (n ≠ writer → g.phase = .returned)
  valkey : g.phase.isHeld = true → ∀ v, g.valkey.get = some (.value v) → v = new
  waiting : ∀ n, g.evicting n = .waiting → ∀ x ∈ (g.l1 n).evicted.get, x ≤ (g.l1 n).generation
  drawn : ∀ n y, g.evicting n = .drawn y → ∀ x ∈ (g.l1 n).evicted.get, x < y
  entry : ∀ n, (g.evicting n).isOver = true → ∀ v, (g.l1 n).entry.get = some v → v = new

/-- What is known of a ticket: one from before the eviction is told from the eviction for as long as a
load takes. -/
structure Ticketed (g : Store N ι V) (l : Call N V) (e : Option ℕ) : Prop where
  taken : l.ticketAt ≤ g.now
  waiting : g.evicting l.node = .waiting → ∀ x ∈ e, x ≤ (g.l1 l.node).generation
  drawn : ∀ y, g.evicting l.node = .drawn y → ∀ x ∈ e, x < y
  marked : ∀ y, g.evicting l.node = .marked y ∨ g.evicting l.node = .evicted y → l.early = true →
    (∀ x ∈ e, x < y) ∧
      (g.l1 l.node).evicted.Lasts y (l.ticketAt + seconds EVICTION_MEMORY) g.now
  early : l.early = false → (g.evicting l.node).isMarked = true
  late : l.late = true → l.early = false

/-- The invariant of a call. -/
structure Call.Sound (new : Option V) (g : Store N ι V) (l : Call N V) : Prop where
  ticket : ∀ e, l.pc.ticketOf = some e → Ticketed g l e
  value : ∀ v, l.pc.valueOf = some v → l.early = false ∨ l.late = true → v = new
  store : ∀ t v, l.pc = .store t v → l.readAt ≤ g.now ∧ (v ≠ new → g.phase.isHeld = true →
    g.valkey.Lasts .invalidated (l.readAt + seconds INVALIDATION_HOLD) g.now)
  checked : l.pc.isChecked = true → l.unevicted = false → l.early = false
  late : l.late = true → g.settled l.node = true
  returned : ∀ v, l.pc = .returned v → l.late = true → v = new

/-- Loads are shorter than the hold, and shorter than evictions are remembered. -/
def Prompt (g : Store N ι V) (l : Call N V) : Prop :=
  match l.pc with
  | .store _ _ => g.now < l.readAt + seconds INVALIDATION_HOLD
  | .check _ _ => g.now < l.ticketAt + seconds EVICTION_MEMORY
  | _ => True

/-- No call on the writer's node that took its ticket after the eviction finds an old value in Valkey
before the mark is there, and no eviction is over between the first check of an insert of an old value
and the insert. -/
def Orderly (writer : N) (new : Option V) (g : Store N ι V) (l : Call N V) : Prop :=
  match l.pc with
  | .fetch _ => l.node = writer → l.early = false → g.phase = .committed →
      ∀ s ∈ g.valkey.get, s = .value new ∨ s = .invalidated
  | .insert _ v => l.unevicted = true → (g.evicting l.node).isOver = true → v = new
  | _ => True

instance (g : Store N ι V) (l : Call N V) : Decidable (Prompt g l) := by
  dsimp only [Prompt]
  split <;> infer_instance

instance [DecidableEq N] [DecidableEq V] (writer : N) (new : Option V) (g : Store N ι V)
    (l : Call N V) : Decidable (Orderly writer new g l) := by
  dsimp only [Orderly]
  split <;> infer_instance

def OfCalls (C : Store N ι V → Call N V → Prop) (w : Pool ι (Store N ι V) (Call N V)) :
    Pick ι Outcome (Event N) → Prop
  | .call i _ => C w.shared (w.calls i)
  | .env _ => True

instance (C : Store N ι V → Call N V → Prop) [∀ g l, Decidable (C g l)]
    (w : Pool ι (Store N ι V) (Call N V)) : ∀ p, Decidable (OfCalls C w p)
  | .call _ _ => inferInstanceAs (Decidable (C _ _))
  | .env _ => .isTrue trivial

/-! ## Steps of calls keep it -/

section Acting

variable {writer : N} {new : Option V} {g g' : Store N ι V} {l l' : Call N V}

lemma Store.Sound.phase_of_marked (hg : g.Sound writer new) {n : N}
    (h : (g.evicting n).isMarked = true) : g.phase ≠ .before ∧ (n ≠ writer → g.phase = .returned) := by
  refine hg.begun n ?_
  rintro hwaiting
  rw [hwaiting] at h
  cases h

/-- **The store.**  A step of a call puts no old value where there are only new ones. -/
lemma Store.Sound.act (hg : g.Sound writer new) (hl : l.Sound new g) (hprompt : Prompt g l)
    (horderly : Orderly writer new g l) (h : Acts g l g' l') : g'.Sound writer new where
  source := by
    rw [h.same.phase, h.same.source]
    exact hg.source
  begun := by
    rw [h.same.phase, h.same.evicting]
    exact hg.begun
  valkey := by
    rw [h.same.phase]
    intro hheld v hv
    rcases h.valkey with hsame | ⟨t, w, d, hpc, hfree, hset⟩
    · rw [hsame] at hv
      exact hg.valkey hheld v hv
    · -- an old value would have been refused: the mark outlasts the load
      rw [hset] at hv
      obtain rfl : w = v := by simpa [Slot.setUntil, Slot.get] using hv
      by_contra hold
      have hlasts := (hl.store t w hpc).2 hold hheld
      rw [Prompt, hpc] at hprompt
      exact hfree (hlasts.get hprompt)
  waiting n := by
    rw [h.same.evicting, h.same.evicted, h.same.generation]
    exact hg.waiting n
  drawn n := by
    rw [h.same.evicting, h.same.evicted]
    exact hg.drawn n
  entry n := by
    rw [h.same.evicting]
    intro hover v hv
    rcases h.entry n v hv with hbefore | ⟨rfl, t, hpc⟩
    · exact hg.entry n hover v hbefore
    · rw [Orderly, hpc] at horderly
      cases hunevicted : l.unevicted with
      | true => exact horderly hunevicted hover
      | false =>
          have hearly := hl.checked (by rw [hpc]; rfl) hunevicted
          exact hl.value v (by rw [hpc]; rfl) (.inl hearly)

lemma settled_iff {n : N} :
    g.settled n = true ↔ g.phase = .returned ∧ (g.evicting n).isOver = true := by
  simp [Store.settled]

lemma isMarked_of_isOver {x : Evicting} (h : x.isOver = true) : x.isMarked = true := by
  cases x <;> simp_all [Evicting.isOver, Evicting.isMarked]

lemma Store.Sound.fetched (hg : g.Sound writer new) (horderly : Orderly writer new g l) {t : Ticket}
    {v : Option V} (hpc : l.pc = .fetch t) (hearly : l.early = false)
    (hmarked : (g.evicting l.node).isMarked = true) (hv : g.valkey.get = some (.value v)) : v = new := by
  rw [Orderly, hpc] at horderly
  obtain ⟨hbegun, hother⟩ := hg.phase_of_marked hmarked
  cases hphase : g.phase with
  | before => exact absurd hphase hbegun
  | committed =>
      by_cases hnode : l.node = writer
      · rcases horderly hnode hearly hphase _ hv with hnew | hinvalidated
        · exact Stored.value.inj hnew
        · cases hinvalidated
      · rw [hother hnode] at hphase
        cases hphase
  | held => exact hg.valkey (by rw [hphase]; rfl) v hv
  | returned => exact hg.valkey (by rw [hphase]; rfl) v hv

lemma Call.Sound.checked_early (hl : l.Sound new g) (hprompt : Prompt g l) {t : Ticket} {v : Option V}
    (hpc : l.pc = .check t v) (hpass : (g.l1 l.node).evicted.get = t.evicted)
    (hmarked : (g.evicting l.node).isMarked = true) : l.early = false := by
  have hticket := hl.ticket t.evicted (by rw [hpc]; rfl)
  rw [Prompt, hpc] at hprompt
  by_contra hnot
  have hearly : l.early = true := by simpa using hnot
  obtain ⟨y, hy⟩ : ∃ y, g.evicting l.node = .marked y ∨ g.evicting l.node = .evicted y := by
    cases hevicting : g.evicting l.node <;> simp_all [Evicting.isMarked]
  obtain ⟨hbefore, hlasts⟩ := hticket.marked y hy hearly
  have hsame : t.evicted = some y := hpass.symm.trans (hlasts.get hprompt)
  exact absurd (hbefore y hsame) (Nat.lt_irrefl y)

/-- **The call.**  What it holds after its step. -/
lemma Call.Sound.act (hg : g.Sound writer new) (hl : l.Sound new g) (hprompt : Prompt g l)
    (horderly : Orderly writer new g l) (h : Acts g l g' l') : l'.Sound new g := by
  -- a call learns that it is late with its first step, which reads nothing but the entry
  have hlate : l'.late = true → g.settled l.node = true := by
    intro hlate'
    rcases h.late with hsame | ⟨-, hstarted⟩
    · exact hl.late (hsame ▸ hlate')
    · exact hstarted ▸ hlate'
  have hlate_of_ne : l.pc ≠ .start → l'.late = true → l.late = true := by
    intro hpc hlate'
    rcases h.late with hsame | ⟨hstart, -⟩
    · exact hsame ▸ hlate'
    · exact absurd hstart hpc
  refine ⟨?_, ?_, ?_, ?_, ?_, ?_⟩
  · intro e he
    rcases h.ticket e he with ⟨hpc, htaken, hearly⟩ | ⟨rfl, htaken, hearly⟩
    · have hticket := hl.ticket e hpc
      have hne : l.pc ≠ .start := by
        rintro hstart
        rw [hstart] at hpc
        cases hpc
      refine ⟨?_, ?_, ?_, ?_, ?_, ?_⟩ <;> simp only [h.node, htaken, hearly]
      · exact hticket.taken
      · exact hticket.waiting
      · exact hticket.drawn
      · exact hticket.marked
      · exact hticket.early
      · exact fun hlate' => hticket.late (hlate_of_ne hne hlate')
    · refine ⟨?_, ?_, ?_, ?_, ?_, ?_⟩ <;> simp only [h.node, htaken, hearly]
      · exact Int.le_refl _
      · exact hg.waiting l.node
      · exact hg.drawn l.node
      · rintro y hy hunmarked
        rcases hy with hy | hy <;> simp [hy, Evicting.isMarked] at hunmarked
      · simp
      · intro hlate'
        rw [isMarked_of_isOver (settled_iff.mp (hlate hlate')).2]
        rfl
  · intro v hv hnew
    obtain ⟨hearly, hcases⟩ := h.value v hv
    rw [hearly] at hnew
    have hfresh : ∀ e, l.pc.ticketOf = some e → l.early = false := by
      intro e he
      have hne : l.pc ≠ .start := by
        rintro hstart
        rw [hstart] at he
        cases he
      exact hnew.elim id fun hlate' => (hl.ticket e he).late (hlate_of_ne hne hlate')
    rcases hcases with hbefore | ⟨t, hpc, hfetched⟩ | ⟨t, hpc, rfl⟩
    · have hne : l.pc ≠ .start := by
        rintro hstart
        rw [hstart] at hbefore
        cases hbefore
      exact hl.value v hbefore (hnew.imp_right (hlate_of_ne hne))
    · have hticket : l.pc.ticketOf = some t.evicted := by rw [hpc]; rfl
      exact hg.fetched horderly hpc (hfresh _ hticket)
        ((hl.ticket _ hticket).early (hfresh _ hticket)) hfetched
    · have hticket : l.pc.ticketOf = some t.evicted := by rw [hpc]; rfl
      exact hg.source (hg.phase_of_marked ((hl.ticket _ hticket).early (hfresh _ hticket))).1
  · intro t v hpc
    obtain ⟨rfl, hread⟩ := h.store t v hpc
    refine ⟨hread ▸ Int.le_refl _, fun hold hheld => absurd (hg.source ?_) hold⟩
    rintro hbefore
    rw [hbefore] at hheld
    cases hheld
  · intro hchecked hunevicted
    obtain ⟨hearly, ⟨hbefore, hsame⟩ | ⟨t, v, hpc, hpass, hmarked⟩⟩ := h.checked hchecked
    · rw [hearly]
      exact hl.checked hbefore (hsame ▸ hunevicted)
    · rw [hearly]
      refine hl.checked_early hprompt hpc hpass ?_
      rw [hmarked] at hunevicted
      simpa using hunevicted
  · rw [h.node]
    exact hlate
  · intro v hpc hlate'
    have hsettled := settled_iff.mp (hlate hlate')
    rcases h.returned v hpc with hentry | hvalue
    · exact hg.entry l.node hsettled.2 v hentry
    · refine hl.value v hvalue (.inr (hlate_of_ne ?_ hlate'))
      rintro hstart
      rw [hstart] at hvalue
      cases hvalue

/-- What a call is known by does not depend on entries and gates, nor on what Valkey holds after the
mark. -/
lemma Call.Sound.frame (hl : l.Sound new g) (hsame : g.Same g')
    (hvalkey : g'.valkey = g.valkey ∨ g.valkey.get ≠ some .invalidated) : l.Sound new g' where
  ticket e he := by
    have hticket := hl.ticket e he
    refine ⟨?_, ?_, ?_, ?_, ?_, hticket.late⟩ <;>
      simp only [hsame.now, hsame.evicting, hsame.generation, hsame.evicted]
    · exact hticket.taken
    · exact hticket.waiting
    · exact hticket.drawn
    · exact hticket.marked
    · exact hticket.early
  value := hl.value
  store t v hpc := by
    rw [hsame.now, hsame.phase]
    refine ⟨(hl.store t v hpc).1, fun hold hheld => ?_⟩
    have hlasts := (hl.store t v hpc).2 hold hheld
    rcases hvalkey with hkept | hfree
    · rwa [hkept]
    · exact hlasts.replace hfree
  checked := hl.checked
  late := by
    rw [Store.settled, hsame.phase, hsame.evicting]
    exact hl.late
  returned := hl.returned

end Acting

/-! ## So does everything else -/

section Events

variable {writer : N} {new : Option V} {g g' : Store N ι V} {l : Call N V}

lemma Call.Sound.move (hl : l.Sound new g) (hticket : ∀ e, Ticketed g l e → Ticketed g' l e)
    (hstore : l.readAt ≤ g.now → l.readAt ≤ g'.now)
    (hold : l.readAt ≤ g.now → (g.phase.isHeld = true → g.valkey.Lasts .invalidated
      (l.readAt + seconds INVALIDATION_HOLD) g.now) → g'.phase.isHeld = true →
        g'.valkey.Lasts .invalidated (l.readAt + seconds INVALIDATION_HOLD) g'.now)
    (hsettled : g.settled l.node = true → g'.settled l.node = true) : l.Sound new g' where
  ticket e he := hticket e (hl.ticket e he)
  value := hl.value
  store t v hpc := by
    obtain ⟨hread, hlasts⟩ := hl.store t v hpc
    exact ⟨hstore hread, fun hstale hheld => hold hread (hlasts hstale) hheld⟩
  checked := hl.checked
  late h := hsettled (hl.late h)
  returned := hl.returned

/-- The invariant is kept: that of the store, and that of every call. -/
def Keeps (writer : N) (new : Option V) (g g' : Store N ι V) : Prop :=
  g'.Sound writer new ∧ ∀ l : Call N V, l.Sound new g → l.Sound new g'

/-- Where no node has begun to evict and no mark is set, nothing is asked of tickets and stores that was
not asked before. -/
lemma sound_commit (hg : g.Sound writer new) (hphase : g.phase = .before) :
    Keeps writer new g { g with source := new, phase := .committed } := by
  have hwaiting : ∀ n, g.evicting n = .waiting := by
    intro n
    by_contra hbegun
    exact (hg.begun n hbegun).1 hphase
  refine ⟨⟨fun _ => rfl, fun n hn => absurd (hwaiting n) hn, nofun, hg.waiting, hg.drawn, hg.entry⟩, ?_⟩
  intro l hl
  refine hl.move (fun e he => ?_) id (fun _ _ => nofun) ?_
  · exact ⟨he.taken, he.waiting, he.drawn, he.marked, he.early, he.late⟩
  · rw [settled_iff, hphase]
    exact fun h => absurd h.1 nofun

lemma sound_hold (hg : g.Sound writer new) (hphase : g.phase = .committed) :
    Keeps writer new g { g with
      valkey := Slot.setUntil .invalidated (g.now + seconds INVALIDATION_HOLD), phase := .held } := by
  have hcommitted : g.phase ≠ .before := by
    rw [hphase]
    exact nofun
  refine ⟨⟨fun _ => hg.source hcommitted, fun n hn => ⟨nofun, fun hother => ?_⟩, fun _ v hv => ?_,
    hg.waiting, hg.drawn, hg.entry⟩, fun l hl => hl.move (fun e he => ?_) id (fun hread _ _ => ?_) ?_⟩
  · have hreturned := (hg.begun n hn).2 hother
    rw [hphase] at hreturned
    cases hreturned
  · simp [Slot.setUntil, Slot.get] at hv
  · exact ⟨he.taken, he.waiting, he.drawn, he.marked, he.early, he.late⟩
  · exact Slot.lasts_setUntil (Int.add_le_add_right hread _)
  · rw [settled_iff, hphase]
    exact fun h => absurd h.1 nofun

lemma sound_publish (hg : g.Sound writer new) (hphase : g.phase = .held) :
    Keeps writer new g { g with phase := .returned } := by
  have hcommitted : g.phase ≠ .before := by
    rw [hphase]
    exact nofun
  have hheld : g.phase.isHeld = true := by
    rw [hphase]
    rfl
  refine ⟨⟨fun _ => hg.source hcommitted, fun n hn => ⟨nofun, fun _ => rfl⟩, fun _ => hg.valkey hheld,
    hg.waiting, hg.drawn, hg.entry⟩, fun l hl => hl.move (fun e he => ?_) id (fun _ h _ => h hheld) ?_⟩
  · exact ⟨he.taken, he.waiting, he.drawn, he.marked, he.early, he.late⟩
  · rw [settled_iff, hphase]
    exact fun h => absurd h.1 nofun

lemma sound_tick (hg : g.Sound writer new) (d : ℕ) :
    Keeps writer new g { g with now := g.now + d } := by
  have hlater : g.now ≤ g.now + d := Int.le_add_of_nonneg_right (Int.natCast_nonneg d)
  refine ⟨⟨hg.source, hg.begun, hg.valkey, hg.waiting, hg.drawn, hg.entry⟩,
    fun l hl => hl.move (fun e he => ?_) ?_ (fun _ h hheld => (h hheld).later hlater) id⟩
  · refine ⟨Int.le_trans he.taken hlater, he.waiting, he.drawn, fun y hy hearly => ?_, he.early, he.late⟩
    obtain ⟨hbefore, hlasts⟩ := he.marked y hy hearly
    exact ⟨hbefore, hlasts.later hlater⟩
  · exact fun h => Int.le_trans h hlater

lemma sound_expire {k : Slot (Stored V)} (hg : g.Sound writer new)
    (hexpire : g.valkey.expire g.now = some k) :
    Keeps writer new g { g with valkey := k } := by
  obtain rfl := (Slot.expire_eq_some hexpire).2
  refine ⟨⟨hg.source, hg.begun, fun _ v hv => ?_, hg.waiting, hg.drawn, hg.entry⟩,
    fun l hl => hl.move (fun e he => ?_) id (fun _ h hheld => (h hheld).expire hexpire) id⟩
  · cases hv
  · exact ⟨he.taken, he.waiting, he.drawn, he.marked, he.early, he.late⟩

section Nodes

variable [DecidableEq N] {n : N} {x : L1 ι V}

lemma sound_setL1 (hg : g.Sound writer new) (hgeneration : (g.l1 n).generation ≤ x.generation)
    (hevicted : ∀ y, x.evicted.get = some y → (g.l1 n).evicted.get = some y)
    (hlasts : ∀ y t, (g.l1 n).evicted.Lasts y t g.now → x.evicted.Lasts y t g.now)
    (hentry : ∀ v, x.entry.get = some v → (g.l1 n).entry.get = some v) :
    Keeps writer new g (g.setL1 n x) := by
  refine ⟨⟨hg.source, hg.begun, hg.valkey, fun m hm y hy => ?_, fun m z hm y hy => ?_,
    fun m hm v hv => ?_⟩, fun l hl => hl.move (fun e he => ?_) id (fun _ h => h) id⟩
  · by_cases hmn : m = n
    · subst hmn
      rw [setL1_self] at hy ⊢
      exact Nat.le_trans (hg.waiting m hm y (hevicted y hy)) hgeneration
    · rw [setL1_of_ne g n x hmn] at hy ⊢
      exact hg.waiting m hm y hy
  · by_cases hmn : m = n
    · subst hmn
      rw [setL1_self] at hy
      exact hg.drawn m z hm y (hevicted y hy)
    · rw [setL1_of_ne g n x hmn] at hy
      exact hg.drawn m z hm y hy
  · by_cases hmn : m = n
    · subst hmn
      rw [setL1_self] at hv
      exact hg.entry m hm v (hentry v hv)
    · rw [setL1_of_ne g n x hmn] at hv
      exact hg.entry m hm v hv
  · by_cases hmn : l.node = n
    · subst hmn
      refine ⟨he.taken, fun hw y hy => ?_, he.drawn, fun y hy hearly => ?_, he.early, he.late⟩
      · rw [setL1_self]
        exact Nat.le_trans (he.waiting hw y hy) hgeneration
      · obtain ⟨hbefore, hlast⟩ := he.marked y hy hearly
        rw [setL1_self]
        exact ⟨hbefore, hlasts y _ hlast⟩
    · refine ⟨he.taken, ?_, he.drawn, ?_, he.early, he.late⟩ <;> rw [setL1_of_ne g n x hmn]
      · exact he.waiting
      · exact he.marked

def Store.evictTo (g : Store N ι V) (n : N) (x : L1 ι V) (y : Evicting) : Store N ι V :=
  { (g.setL1 n x) with evicting := Function.update g.evicting n y }

lemma sound_evictTo {y : Evicting} (hg : g.Sound writer new)
    (hphase : g.phase ≠ .before ∧ (n ≠ writer → g.phase = .returned)) (hy : y ≠ .waiting)
    (hsettled : (g.evicting n).isOver = false)
    (hdrawn : ∀ z, y = .drawn z → ∀ w ∈ x.evicted.get, w < z)
    (hentry : y.isOver = true → ∀ v, x.entry.get = some v → v = new)
    (hticket : ∀ (l : Call N V) e, l.node = n → Ticketed g l e → Ticketed (g.evictTo n x y) l e) :
    Keeps writer new g (g.evictTo n x y) := by
  have hother : ∀ {m}, m ≠ n → (g.evictTo n x y).evicting m = g.evicting m ∧
      (g.evictTo n x y).l1 m = g.l1 m := by
    intro m hm
    exact ⟨Function.update_of_ne hm .., Function.update_of_ne hm ..⟩
  have hself : (g.evictTo n x y).evicting n = y ∧ (g.evictTo n x y).l1 n = x :=
    ⟨Function.update_self .., Function.update_self ..⟩
  refine ⟨⟨hg.source, fun m hm => ?_, hg.valkey, fun m hm => ?_, fun m z hm => ?_, fun m hm => ?_⟩,
    fun l hl => hl.move (fun e he => ?_) id (fun _ h => h) ?_⟩
  · by_cases hmn : m = n
    · exact hmn ▸ hphase
    · rw [(hother hmn).1] at hm
      exact hg.begun m hm
  · by_cases hmn : m = n
    · subst hmn
      rw [hself.1] at hm
      exact absurd hm hy
    · rw [(hother hmn).1] at hm
      rw [(hother hmn).2]
      exact hg.waiting m hm
  · by_cases hmn : m = n
    · subst hmn
      rw [hself.1] at hm
      rw [hself.2]
      exact hdrawn z hm
    · rw [(hother hmn).1] at hm
      rw [(hother hmn).2]
      exact hg.drawn m z hm
  · by_cases hmn : m = n
    · subst hmn
      rw [hself.1] at hm
      rw [hself.2]
      exact hentry hm
    · rw [(hother hmn).1] at hm
      rw [(hother hmn).2]
      exact hg.entry m hm
  · by_cases hmn : l.node = n
    · exact hticket l e hmn he
    · refine ⟨he.taken, ?_, ?_, ?_, ?_, he.late⟩ <;> rw [(hother hmn).1]
      · rw [(hother hmn).2]
        exact he.waiting
      · exact he.drawn
      · rw [(hother hmn).2]
        exact he.marked
      · exact he.early
  · rw [settled_iff, settled_iff]
    rintro ⟨hreturned, hover⟩
    by_cases hmn : l.node = n
    · rw [hmn, hsettled] at hover
      cases hover
    · rw [(hother hmn).1]
      exact ⟨hreturned, hover⟩

/-- **An eviction**, one part after the other: it draws a generation that no ticket knows, it marks
the key with it, and only then it takes the entry away. -/
lemma sound_evict (hg : g.Sound writer new) (h : g.evict n = some g')
    (hphase : g.phase ≠ .before ∧ (n ≠ writer → g.phase = .returned)) : Keeps writer new g g' := by
  rw [Store.evict] at h
  cases hevicting : g.evicting n with
  | waiting =>
      simp only [hevicting, Option.some.injEq] at h
      subst h
      refine sound_evictTo hg hphase nofun (by rw [hevicting]; rfl) ?_ nofun ?_
      · rintro z hz w hw
        cases hz
        exact Nat.lt_succ_of_le (hg.waiting n hevicting w hw)
      · rintro l e rfl he
        have hearly : l.early ≠ false := by
          rintro hlate
          have hmarked := he.early hlate
          rw [hevicting] at hmarked
          cases hmarked
        refine ⟨he.taken, ?_, ?_, ?_, fun hlate => absurd hlate hearly, he.late⟩ <;>
          simp only [Store.evictTo, Function.update_self]
        · exact nofun
        · rintro z hz w hw
          cases hz
          exact Nat.lt_succ_of_le (he.waiting hevicting w hw)
        · rintro z (hz | hz) <;> cases hz
  | drawn y =>
      simp only [hevicting, Option.some.injEq] at h
      subst h
      refine sound_evictTo hg hphase nofun (by rw [hevicting]; rfl) nofun nofun ?_
      rintro l e rfl he
      refine ⟨he.taken, ?_, ?_, ?_, fun _ => ?_, he.late⟩ <;>
        simp only [Store.evictTo, Function.update_self, setL1_self]
      · exact nofun
      · exact nofun
      · rintro z (hz | hz) - <;> cases hz
        exact ⟨he.drawn y hevicting, Slot.lasts_setUntil (Int.add_le_add_right he.taken _)⟩
      · rfl
  | marked y =>
      simp only [hevicting, Option.some.injEq] at h
      subst h
      refine sound_evictTo hg hphase nofun (by rw [hevicting]; rfl) nofun (fun _ v hv => ?_) ?_
      · cases hv
      · rintro l e rfl he
        refine ⟨he.taken, ?_, ?_, ?_, fun _ => ?_, he.late⟩ <;>
          simp only [Store.evictTo, Function.update_self, setL1_self]
        · exact nofun
        · exact nofun
        · rintro z (hz | hz) hearly <;> cases hz
          exact he.marked y (.inl hevicting) hearly
        · rfl
  | evicted y =>
      simp only [hevicting] at h
      cases h

/-- **Everything else** keeps the invariant. -/
lemma sound_env {e : Event N} (hg : g.Sound writer new) (h : env writer new g e = some g') :
    Keeps writer new g g' := by
  cases e with
  | tick d =>
      cases h
      exact sound_tick hg d
  | commit =>
      simp only [env] at h
      split_ifs at h with hphase
      cases h
      exact sound_commit hg hphase
  | evict n =>
      simp only [env] at h
      split_ifs at h with hwhere hphase hphase
      · refine sound_evict hg h ⟨?_, fun hother => absurd hwhere hother⟩
        rw [hphase]
        exact nofun
      · refine sound_evict hg h ⟨?_, fun _ => hphase⟩
        rw [hphase]
        exact nofun
  | hold =>
      simp only [env] at h
      split_ifs at h with hphase
      cases h
      exact sound_hold hg hphase.1
  | publish =>
      simp only [env] at h
      split_ifs at h with hphase
      cases h
      exact sound_publish hg hphase
  | evictOther n =>
      cases h
      exact sound_setL1 hg (Nat.le_succ _) (fun _ h => h) (fun _ _ h => h) fun _ h => h
  | clear n =>
      cases h
      exact sound_setL1 hg (Nat.le_succ _) (fun _ h => h) (fun _ _ h => h) fun _ h => h
  | dropEntry n =>
      cases h
      exact sound_setL1 hg (Nat.le_refl _) (fun _ h => h) (fun _ _ h => h) fun _ h => nomatch h
  | forget n =>
      obtain ⟨k, hk, rfl⟩ := Option.map_eq_some_iff.mp h
      refine sound_setL1 hg (Nat.le_refl _) ?_ (fun _ _ h => h.expire hk) fun _ h => h
      obtain rfl := (Slot.expire_eq_some hk).2
      exact fun _ h => nomatch h
  | expire =>
      obtain ⟨k, hk, rfl⟩ := Option.map_eq_some_iff.mp h
      exact sound_expire hg hk

end Nodes

end Events

/-! ## Whole runs -/

section Runs

variable [DecidableEq N] [DecidableEq ι] {writer : N} {new : Option V}

/-- Before the write: caches and Valkey hold whatever there was, and no call has begun. -/
structure Started (w : Pool ι (Store N ι V) (Call N V)) : Prop where
  phase : w.shared.phase = .before
  waiting : ∀ n, w.shared.evicting n = .waiting
  generation : ∀ n, ∀ x ∈ (w.shared.l1 n).evicted.get, x ≤ (w.shared.l1 n).generation
  calls : ∀ i, (w.calls i).pc = .start ∧ (w.calls i).late = false

/-- **Invalidation is effective** in every run in which loads are short, no call on the writer's node
reads an old value from Valkey between the eviction of that node and the mark, and no eviction falls
between the check and the insert of an old value.  Whatever else is interleaved: a `get_or_load` that
starts once `invalidate` has returned and its node has processed the message returns the new value. -/
theorem invalidation_effective (writer : N) (new : Option V)
    (w w' : Pool ι (Store N ι V) (Call N V)) (as : List (Pick ι Outcome (Event N))) (hw : Started w)
    (hmeets : (caching writer new).machine.Meets
      (OfCalls fun g l => Prompt g l ∧ Orderly writer new g l) w as)
    (hrun : (caching writer new).machine.run w as = some w') (i : ι) (v : Option V)
    (hlate : (w'.calls i).late = true) (hreturned : (w'.calls i).pc = .returned v) : v = new := by
  have hinv : w'.shared.Sound writer new ∧ ∀ j, (w'.calls j).Sound new w'.shared := by
    refine Calls.run_inv (I := fun w => w.shared.Sound writer new ∧ ∀ j, (w.calls j).Sound new w.shared)
      ?_ ?_ hmeets hrun ⟨?_, fun j => ?_⟩
    · rintro u j k g l ⟨hg, hl⟩ ⟨hprompt, horderly⟩ hstep
      have hacts := act_acts hstep
      have hvalkey : g.valkey = u.shared.valkey ∨ u.shared.valkey.get ≠ some .invalidated := by
        refine hacts.valkey.imp_right ?_
        rintro ⟨t, x, d, -, hfree, -⟩
        exact hfree
      refine ⟨hg.act (hl j) hprompt horderly hacts, fun m => ?_⟩
      by_cases hm : m = j
      · subst hm
        rw [Pool.next_self]
        exact ((hl m).act hg hprompt horderly hacts).frame hacts.same hvalkey
      · rw [Pool.next_of_ne u hm]
        exact (hl m).frame hacts.same hvalkey
    · rintro u e g ⟨hg, hl⟩ - hstep
      obtain ⟨hg', hl'⟩ := sound_env hg hstep
      exact ⟨hg', fun m => hl' _ (hl m)⟩
    · have hbefore : ∀ n, w.shared.evicting n = .waiting := hw.waiting
      refine ⟨fun h => absurd hw.phase h, fun n hn => absurd (hbefore n) hn, ?_,
        fun n _ => hw.generation n, ?_, ?_⟩
      · rw [hw.phase]
        exact nofun
      · intro n y hy
        rw [hbefore n] at hy
        cases hy
      · intro n hn
        rw [hbefore n] at hn
        cases hn
    · obtain ⟨hstart, hearlier⟩ := hw.calls j
      refine ⟨?_, ?_, ?_, ?_, ?_, ?_⟩ <;> simp [hstart, hearlier, Pc.ticketOf, Pc.valueOf, Pc.isChecked]
  exact (hinv.2 i).returned v hreturned hlate

end Runs

/-! ## Two nodes -/

def twoNodes : Pool ℕ (Store Bool ℕ ℕ) (Call Bool ℕ) where
  shared :=
    { now := 0, source := some 1, valkey := Slot.setUntil (.value (some 1)) (seconds 60),
      phase := .before, evicting := fun _ => .waiting, l1 := fun _ => ⟨none, none, 0, 0, none⟩ }
  calls i := { node := i % 2 == 1, pc := .start }

def steps (i n : ℕ) : List (Pick ℕ Outcome (Event Bool)) := List.replicate n (.call i (.done 15))

def evicts (n : Bool) : List (Pick ℕ Outcome (Event Bool)) := List.replicate 3 (.env (.evict n))

def invalidates (between : List (Pick ℕ Outcome (Event Bool))) : List (Pick ℕ Outcome (Event Bool)) :=
  [.env .commit] ++ evicts false ++ between ++ [.env .hold, .env .publish] ++ evicts true

def ordinary : List (Pick ℕ Outcome (Event Bool)) := steps 1 5 ++ invalidates [] ++ steps 1 1 ++ steps 3 15

def betweenEvictionAndMark : List (Pick ℕ Outcome (Event Bool)) :=
  invalidates (steps 0 5) ++ steps 0 5 ++ steps 2 1

def betweenCheckAndInsert : List (Pick ℕ Outcome (Event Bool)) :=
  steps 1 7 ++ invalidates [] ++ steps 1 1 ++ steps 3 1

def resultOf (i : ℕ) (as : List (Pick ℕ Outcome (Event Bool))) : Option (Bool × Pc ℕ) :=
  ((caching false (some 2)).machine.run twoNodes as).map fun w => ((w.calls i).late, (w.calls i).pc)

lemma started_twoNodes : Started twoNodes where
  phase := rfl
  waiting _ := rfl
  generation _ _ hx := nomatch hx
  calls _ := ⟨rfl, rfl⟩

/-- In an ordinary run the late call returns the new value. -/
theorem invalidation_effective_ordinary : ∃ v, resultOf 3 ordinary = some (true, .returned v) ∧
    v = some 2 := by
  obtain ⟨w', hrun⟩ : ∃ w', (caching false (some 2)).machine.run twoNodes ordinary = some w' :=
    Option.isSome_iff_exists.mp (by decide +kernel)
  have hresult : resultOf 3 ordinary = some (true, .returned (some 2)) := by decide +kernel
  have hcall := hresult
  rw [resultOf, hrun, Option.map_some, Option.some.injEq, Prod.mk.injEq] at hcall
  exact ⟨_, hresult, invalidation_effective false (some 2) twoNodes w' ordinary started_twoNodes
    (by decide +kernel) hrun 3 _ hcall.1 hcall.2⟩

/-- **The old value comes back** after the invalidation, on the writer's own node and on another, while
all loads are short. -/
theorem old_value_after_invalidation :
    (Started twoNodes ∧ (caching false (some 2)).machine.Meets (OfCalls Prompt) twoNodes
        betweenEvictionAndMark ∧
      resultOf 2 betweenEvictionAndMark = some (true, .returned (some 1))) ∧
    ((caching false (some 2)).machine.Meets (OfCalls Prompt) twoNodes betweenCheckAndInsert ∧
      resultOf 3 betweenCheckAndInsert = some (true, .returned (some 1))) :=
  ⟨⟨started_twoNodes, by decide +kernel, by decide +kernel⟩, by decide +kernel, by decide +kernel⟩

end Ridm.Cache
