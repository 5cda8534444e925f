import Mathlib.Data.Finset.Card
import Mathlib.Data.Fintype.Basic
import Ridm.Core.Types
import Ridm.Lib.Interleaving

/-!
# One load at a time

The gate of `get_or_load` (`api/src/cache/layer.rs`), for any number of calls for one key on one node: the map
`loading` with its entry for the key, the `Arc` behind it, and the mutex in it.  What L1, Valkey and the loader
answer is left open; a call may be cancelled wherever it awaits.

All calls that have yet to look at the map (`release_gate`) are on the gate of the entry, since an entry is only
removed by a call that is alone on its gate.  So at most one of them loads, and whoever waits is behind one of
them (`Inv`).

The entry goes with the last call that looks, if that call sees no other on the gate.  A call that has looked but
not dropped its `Arc` yet is still counted, and a cancelled one never looks: the entry then stays behind
(`entry_left_behind`).  `Watched` is what keeps a call that is yet to look on every
entry, step by step, and no more than that (`attended_iff_watched`).
-/

namespace Ridm.Cache.SingleFlight

variable (ι : Type)

/-- `Gate`: an `Arc` of a mutex. -/
structure Gate where
  owners : Finset ι
  /-- The calls at the mutex, in the order they came; the first holds it. -/
  line : List ι
  failed : Option Instant

/-- What calls share: the clock, the key's entry in `loading`, and the gates made so far. -/
structure Node where
  now : Instant
  entry : Option ℕ
  gates : ℕ → Gate ι
  created : ℕ

/-- What a call that holds the mutex does next. -/
inductive Stage
  | entered
  | again
  | loading
  | storing
  | leaving
  deriving DecidableEq

/-- Where a call stands. -/
inductive Pc
  | idle
  | lookup
  | missed (arrived : Instant)
  | locking (g : ℕ) (arrived : Instant)
  | waiting (g : ℕ) (arrived : Instant)
  | held (g : ℕ) (arrived : Instant) (stage : Stage)
  | releasing (g : ℕ)
  | dropping (g : ℕ)
  | ended
  deriving DecidableEq

/-- How a step comes out: found or done, not found or failed, or the call is cancelled at it. -/
inductive Outcome
  | goes
  | fails
  | cancelled
  deriving DecidableEq

variable {ι}

section Steps

variable [DecidableEq ι]

/-- A gate is changed. -/
def Node.modify (s : Node ι) (g : ℕ) (f : Gate ι → Gate ι) : Node ι :=
  { s with gates := Function.update s.gates g (f (s.gates g)) }

/-- `gate`: the entry's, or a new one. -/
def Node.gate (s : Node ι) (i : ι) : Node ι × ℕ :=
  match s.entry with
  | some g => (s.modify g fun x => { x with owners := insert i x.owners }, g)
  | none =>
      ({ s with
          entry := some s.created
          gates := Function.update s.gates s.created ⟨{i}, [], none⟩
          created := s.created + 1 }, s.created)

/-- A call comes to the mutex. -/
def Node.join (s : Node ι) (g : ℕ) (i : ι) : Node ι := s.modify g fun x => { x with line := x.line ++ [i] }

/-- A call leaves the mutex, its guard or its place in the line dropped. -/
def Node.leave (s : Node ι) (g : ℕ) (i : ι) : Node ι := s.modify g fun x => { x with line := x.line.erase i }

/-- What `last` is set to. -/
def Node.note (s : Node ι) (g : ℕ) (failed : Option Instant) : Node ι :=
  s.modify g fun x => { x with failed := failed }

/-- `Arc::strong_count`. -/
def Node.strongCount (s : Node ι) (g : ℕ) : ℕ :=
  (s.gates g).owners.card + if s.entry = some g then 1 else 0

def Node.releaseGate (s : Node ι) (g : ℕ) : Node ι :=
  if s.entry = some g ∧ s.strongCount g = 2 then { s with entry := none } else s

/-- A clone of the `Arc` is dropped. -/
def Node.drop (s : Node ι) (g : ℕ) (i : ι) : Node ι := s.modify g fun x => { x with owners := x.owners.erase i }

/-- One step of `get_or_load`. -/
def act (i : ι) (s : Node ι) : Pc → Outcome → Option (Node ι × Pc)
  | .idle, .goes => some (s, .lookup)
  | .lookup, .goes => some (s, .ended)
  | .lookup, .fails => some (s, .missed s.now)
  | .lookup, .cancelled => some (s, .ended)
  | .missed arrived, .goes => some ((s.gate i).1, .locking (s.gate i).2 arrived)
  | .locking g arrived, .goes =>
      some (s.join g i, if (s.gates g).line = [] then .held g arrived .entered else .waiting g arrived)
  | .locking g _, .cancelled => some (s, .dropping g)
  | .waiting g arrived, .goes =>
      if (s.gates g).line.head? = some i then some (s, .held g arrived .entered) else none
  | .waiting g _, .cancelled => some (s.leave g i, .dropping g)
  | .held g arrived .entered, .goes =>
      -- the load this call waited for has failed
      if (s.gates g).failed.any fun t => decide (arrived ≤ t) then some (s, .held g arrived .leaving)
      else some (s, .held g arrived .again)
  | .held g arrived .again, .goes => some (s.note g none, .held g arrived .leaving)
  | .held g arrived .again, .fails => some (s, .held g arrived .loading)
  | .held g arrived .loading, .goes => some (s, .held g arrived .storing)
  | .held g arrived .loading, .fails => some (s.note g (some s.now), .held g arrived .leaving)
  | .held g arrived .storing, .goes => some (s.note g none, .held g arrived .leaving)
  | .held g _ .loading, .cancelled | .held g _ .storing, .cancelled => some (s.leave g i, .dropping g)
  | .held g _ .leaving, .goes => some (s.leave g i, .releasing g)
  | .releasing g, .goes => some (s.releaseGate g, .dropping g)
  | .dropping g, .goes => some (s.drop g i, .ended)
  | _, _ => none

/-- Any number of calls, while time passes. -/
def flights : Calls ι (Node ι) Pc Outcome ℕ where
  act := act
  env s d := some { s with now := s.now + d }

/-! ## Where calls stand -/

def Pc.gate : Pc → Option ℕ
  | .locking g _ | .waiting g _ | .held g _ _ | .releasing g | .dropping g => some g
  | .idle | .lookup | .missed _ | .ended => none

/-- The gate of a call that has yet to look at the map. -/
def Pc.pending : Pc → Option ℕ
  | .locking g _ | .waiting g _ | .held g _ _ | .releasing g => some g
  | .idle | .lookup | .missed _ | .dropping _ | .ended => none

/-- The gate whose mutex a call holds or waits for. -/
def Pc.inLine : Pc → Option ℕ
  | .waiting g _ | .held g _ _ => some g
  | .idle | .lookup | .missed _ | .locking _ _ | .releasing _ | .dropping _ | .ended => none

def Pc.inProgress : Pc → Bool
  | .idle | .ended => false
  | _ => true

/-- What holds of gates in every state. -/
structure Inv (w : Pool ι (Node ι) Pc) : Prop where
  owners : ∀ {g i}, i ∈ (w.shared.gates g).owners ↔ (w.calls i).gate = some g
  entry : ∀ {g i}, (w.calls i).pending = some g → w.shared.entry = some g
  line : ∀ {g i}, i ∈ (w.shared.gates g).line ↔ (w.calls i).inLine = some g
  nodup : ∀ {g}, (w.shared.gates g).line.Nodup
  first : ∀ {g i arrived stage}, w.calls i = .held g arrived stage → (w.shared.gates g).line.head? = some i
  below : ∀ {g i}, (w.calls i).gate = some g → g < w.shared.created
  entry_below : ∀ {g}, w.shared.entry = some g → g < w.shared.created

/-! ## What one step does -/

/-- The clock and the failures apart, nothing has changed. -/
structure Node.Same (s s' : Node ι) : Prop where
  entry : s'.entry = s.entry
  created : s'.created = s.created
  owners : ∀ g, (s'.gates g).owners = (s.gates g).owners
  line : ∀ g, (s'.gates g).line = (s.gates g).line

/-- What a step of a call may do. -/
inductive Moves (i : ι) (s : Node ι) (k : Outcome) : Pc → Node ι → Pc → Prop
  | stays {l l' : Pc} {s' : Node ι} (hk : k = .cancelled → l.pending = none) (hlook : ∀ g, l ≠ .releasing g)
      (hs : s.Same s') (hgate : l'.gate = l.gate) (hpending : l'.pending = l.pending) (hline : l'.inLine = l.inLine)
      (hheld : ∀ g arrived stage, l' = .held g arrived stage →
        (∃ stage, l = .held g arrived stage) ∨ (s.gates g).line.head? = some i) : Moves i s k l s' l'
  | comes (arrived : Instant) : Moves i s k (.missed arrived) (s.gate i).1 (.locking (s.gate i).2 arrived)
  | joins (hk : k ≠ .cancelled) (g : ℕ) (arrived : Instant) : Moves i s k (.locking g arrived) (s.join g i)
      (if (s.gates g).line = [] then .held g arrived .entered else .waiting g arrived)
  | turns (hk : k = .cancelled) (g : ℕ) (arrived : Instant) : Moves i s k (.locking g arrived) s (.dropping g)
  | leaves (g : ℕ) {l l' : Pc} (hline : l.inLine = some g)
      (hl' : k ≠ .cancelled ∧ l' = .releasing g ∨ k = .cancelled ∧ l' = .dropping g) :
      Moves i s k l (s.leave g i) l'
  | looks (hk : k ≠ .cancelled) (g : ℕ) : Moves i s k (.releasing g) (s.releaseGate g) (.dropping g)
  | drops (g : ℕ) : Moves i s k (.dropping g) (s.drop g i) .ended

variable {i : ι} {s s' : Node ι} {l l' : Pc} {k : Outcome} {g g' : ℕ}

omit [DecidableEq ι] in
lemma Node.Same.refl (s : Node ι) : s.Same s := ⟨rfl, rfl, fun _ => rfl, fun _ => rfl⟩

omit [DecidableEq ι] in
lemma same_note (failed : Option Instant) : s.Same (s.note g failed) := by
  refine ⟨rfl, rfl, fun g' => ?_, fun g' => ?_⟩
  · by_cases hg : g' = g
    · simp [Node.note, Node.modify, hg]
    · simp [Node.note, Node.modify, hg]
  · by_cases hg : g' = g
    · simp [Node.note, Node.modify, hg]
    · simp [Node.note, Node.modify, hg]

variable {arrived : Instant} {a : Pick ι Outcome ℕ}

lemma moves_held {stage stage' : Stage} (hk : k ≠ .cancelled) (hs : s.Same s') :
    Moves i s k (.held g arrived stage) s' (.held g arrived stage') :=
  .stays (fun h => absurd h hk) (fun _ => by simp) hs rfl rfl rfl fun _ _ _ h => by
    cases h
    exact .inl ⟨stage, rfl⟩

lemma moves_out (hl : l.gate = none ∧ l.pending = none ∧ l.inLine = none)
    (hl' : l'.gate = none ∧ l'.pending = none ∧ l'.inLine = none) : Moves i s k l s l' := by
  have hlook : ∀ g, l ≠ .releasing g := by
    rintro g rfl
    cases hl.1
  refine .stays (fun _ => hl.2.1) hlook (.refl s) (hl'.1.trans hl.1.symm) (hl'.2.1.trans hl.2.1.symm) (hl'.2.2.trans hl.2.2.symm) ?_
  rintro g arrived stage rfl
  cases hl'.1

/-- What a call's own step does. -/
lemma act_moves (h : act i s l k = some (s', l')) : Moves i s k l s' l' := by
  cases l with
  | idle =>
      cases k with
      | goes =>
          cases h
          exact moves_out ⟨rfl, rfl, rfl⟩ ⟨rfl, rfl, rfl⟩
      | fails | cancelled => cases h
  | lookup =>
      cases k with
      | goes | fails | cancelled =>
          cases h
          exact moves_out ⟨rfl, rfl, rfl⟩ ⟨rfl, rfl, rfl⟩
  | missed arrived =>
      cases k with
      | goes =>
          cases h
          exact .comes arrived
      | fails | cancelled => cases h
  | locking g arrived =>
      cases k with
      | goes =>
          cases h
          exact .joins (by decide) g arrived
      | fails => cases h
      | cancelled =>
          cases h
          exact .turns rfl g arrived
  | waiting g arrived =>
      cases k with
      | goes =>
          rw [act] at h
          split_ifs at h with hfirst
          · cases h
            refine .stays (fun h => by cases h) (fun _ => by simp) (.refl s) rfl rfl rfl fun _ _ _ h => ?_
            cases h
            exact .inr hfirst
      | fails => cases h
      | cancelled =>
          cases h
          exact .leaves _ rfl (.inr ⟨rfl, rfl⟩)
  | held g arrived stage =>
      cases stage with
      | entered =>
          cases k with
          | goes =>
              rw [act] at h
              split_ifs at h with hfailed
              · cases h
                exact moves_held (by decide) (.refl s)
              · cases h
                exact moves_held (by decide) (.refl s)
          | fails | cancelled => cases h
      | again =>
          cases k with
          | goes =>
              cases h
              exact moves_held (by decide) (same_note none)
          | fails =>
              cases h
              exact moves_held (by decide) (.refl s)
          | cancelled => cases h
      | loading =>
          cases k with
          | goes =>
              cases h
              exact moves_held (by decide) (.refl s)
          | fails =>
              cases h
              exact moves_held (by decide) (same_note _)
          | cancelled =>
              cases h
              exact .leaves _ rfl (.inr ⟨rfl, rfl⟩)
      | storing =>
          cases k with
          | goes =>
              cases h
              exact moves_held (by decide) (same_note none)
          | fails => cases h
          | cancelled =>
              cases h
              exact .leaves _ rfl (.inr ⟨rfl, rfl⟩)
      | leaving =>
          cases k with
          | goes =>
              cases h
              exact .leaves _ rfl (.inl ⟨by decide, rfl⟩)
          | fails | cancelled => cases h
  | releasing g =>
      cases k with
      | goes =>
          cases h
          exact .looks (by decide) g
      | fails | cancelled => cases h
  | dropping g =>
      cases k with
      | goes =>
          cases h
          exact .drops g
      | fails | cancelled => cases h
  | ended => cases h

/-! ## The invariant -/

lemma Pc.gate_of_pending (h : l.pending = some g) : l.gate = some g := by
  cases l with
  | idle | lookup | missed arrived | dropping g | ended => cases h
  | locking | waiting | held | releasing => exact h

lemma Pc.pending_of_inLine (h : l.inLine = some g) : l.pending = some g := by
  cases l with
  | idle | lookup | missed arrived | locking | releasing | dropping g | ended => cases h
  | waiting | held => exact h

variable {w w' : Pool ι (Node ι) Pc}

lemma Inv.stays (hw : Inv w) (hs : w.shared.Same s') (hgate : l'.gate = (w.calls i).gate)
    (hpending : l'.pending = (w.calls i).pending) (hline : l'.inLine = (w.calls i).inLine)
    (hheld : ∀ g arrived stage, l' = .held g arrived stage →
      (∃ stage, w.calls i = .held g arrived stage) ∨ (w.shared.gates g).line.head? = some i) :
    Inv (w.next i s' l') where
  owners {g j} := by
    rw [Pool.next_congr hgate, Pool.next_shared, hs.owners]
    exact hw.owners
  entry {g j} h := by
    rw [Pool.next_congr hpending] at h
    rw [Pool.next_shared, hs.entry]
    exact hw.entry h
  line {g j} := by
    rw [Pool.next_congr hline, Pool.next_shared, hs.line]
    exact hw.line
  nodup {g} := by
    rw [Pool.next_shared, hs.line]
    exact hw.nodup
  first {g j arrived stage} h := by
    rw [Pool.next_shared, hs.line]
    rcases Pool.next_cases h with ⟨rfl, hl⟩ | hold
    · rcases hheld g arrived stage hl with ⟨stage', hi⟩ | hfirst
      · exact hw.first hi
      · exact hfirst
    · exact hw.first hold
  below {g j} h := by
    rw [Pool.next_congr hgate] at h
    rw [Pool.next_shared, hs.created]
    exact hw.below h
  entry_below {g} h := by
    rw [Pool.next_shared, hs.entry] at h
    rw [Pool.next_shared, hs.created]
    exact hw.entry_below h

omit [DecidableEq ι] in
@[simp] lemma modify_gates (s : Node ι) (g g' : ℕ) (f : Gate ι → Gate ι) :
    (s.modify g f).gates g' = if g' = g then f (s.gates g) else s.gates g' := Function.update_apply ..

@[simp] lemma next_calls (w : Pool ι (Node ι) Pc) (i j : ι) (s : Node ι) (l : Pc) :
    (w.next i s l).calls j = if j = i then l else w.calls j := Function.update_apply ..

lemma Inv.leaves (hw : Inv w) (hline : (w.calls i).inLine = some g) (hgate : l'.gate = some g)
    (hpending : l'.pending = some g ∨ l'.pending = none) (hnot : l'.inLine = none) :
    Inv (w.next i (w.shared.leave g i) l') := by
  have hpend := Pc.pending_of_inLine hline
  have hclone := Pc.gate_of_pending hpend
  constructor
  · intro g' j
    have h := hw.owners (g := g') (i := j)
    simp only [Node.leave, modify_gates, next_calls, Pool.next_shared]
    grind
  · intro g' j h
    have hentry := hw.entry hpend
    have hj := hw.entry (g := g') (i := j)
    simp only [next_calls] at h
    show w.shared.entry = some g'
    grind
  · intro g' j
    have h := hw.line (g := g') (i := j)
    have hnodup := hw.nodup (g := g)
    simp only [Node.leave, modify_gates, next_calls, Pool.next_shared]
    grind [List.Nodup.mem_erase_iff]
  · intro g'
    have hnodup := hw.nodup (g := g')
    simp only [Node.leave, modify_gates, Pool.next_shared]
    grind [List.Nodup.erase]
  · intro g' j arrived stage h
    simp only [next_calls] at h
    have hj : j ≠ i ∧ w.calls j = .held g' arrived stage := by
      split_ifs at h with hji
      · subst h
        cases hnot
      · exact ⟨hji, h⟩
    have hfirst := hw.first hj.2
    simp only [Node.leave, modify_gates, Pool.next_shared]
    -- the holder of the mutex is not the one that leaves it
    split_ifs with hg
    · subst hg
      obtain ⟨rest, hrest⟩ := List.head?_eq_some_iff.mp hfirst
      rw [hrest, List.erase_cons_tail (by simpa using hj.1)]
      rfl
    · exact hfirst
  · intro g' j h
    have hj := hw.below (g := g') (i := j)
    have hi := hw.below hclone
    simp only [next_calls] at h
    show g' < w.shared.created
    grind
  · exact hw.entry_below

lemma Inv.joins (hw : Inv w) (hi : w.calls i = .locking g arrived) :
    Inv (w.next i (w.shared.join g i)
      (if (w.shared.gates g).line = [] then .held g arrived .entered else .waiting g arrived)) := by
  have hgate : (if (w.shared.gates g).line = [] then Pc.held g arrived .entered
      else .waiting g arrived).gate = (w.calls i).gate := by
    rw [hi]
    split_ifs <;> rfl
  have hpending : (if (w.shared.gates g).line = [] then Pc.held g arrived .entered
      else .waiting g arrived).pending = (w.calls i).pending := by
    rw [hi]
    split_ifs <;> rfl
  have hline : (if (w.shared.gates g).line = [] then Pc.held g arrived .entered
      else .waiting g arrived).inLine = some g := by
    split_ifs <;> rfl
  have hout : i ∉ (w.shared.gates g).line := by
    rw [hw.line, hi]
    exact fun h => by cases h
  constructor
  · intro g' j
    rw [Pool.next_congr hgate]
    have h := hw.owners (g := g') (i := j)
    simp only [Node.join, modify_gates, Pool.next_shared]
    grind
  · intro g' j h
    rw [Pool.next_congr hpending] at h
    exact hw.entry h
  · intro g' j
    have h := hw.line (g := g') (i := j)
    have hnone : (w.calls i).inLine = none := by rw [hi]; rfl
    simp only [Node.join, modify_gates, next_calls, Pool.next_shared]
    grind
  · intro g'
    have hnodup := hw.nodup (g := g')
    simp only [Node.join, modify_gates, Pool.next_shared]
    split_ifs with hg
    · subst hg
      exact List.nodup_append.mpr ⟨hnodup, List.nodup_singleton i, by grind⟩
    · exact hnodup
  · intro g' j arrived' stage h
    simp only [Node.join, modify_gates, Pool.next_shared]
    rcases Pool.next_cases h with ⟨rfl, hl⟩ | hold
    · split_ifs at hl with hempty
      · cases hl
        rw [if_pos rfl, hempty]
        rfl
    · have hfirst := hw.first hold
      split_ifs with hg
      · subst hg
        obtain ⟨rest, hrest⟩ := List.head?_eq_some_iff.mp hfirst
        rw [hrest]
        rfl
      · exact hfirst
  · intro g' j h
    rw [Pool.next_congr hgate] at h
    exact hw.below h
  · exact hw.entry_below

lemma Inv.turns (hw : Inv w) (hi : w.calls i = .locking g arrived) :
    Inv (w.next i w.shared (.dropping g)) := by
  have hgate : Pc.gate (.dropping g) = (w.calls i).gate := by
    rw [hi]
    rfl
  have hline : Pc.inLine (.dropping g) = (w.calls i).inLine := by
    rw [hi]
    rfl
  constructor
  · intro g' j
    rw [Pool.next_congr hgate]
    exact hw.owners
  · intro g' j h
    rcases Pool.next_read h with ⟨-, hl⟩ | hold
    · cases hl
    · exact hw.entry hold
  · intro g' j
    rw [Pool.next_congr hline]
    exact hw.line
  · exact hw.nodup
  · intro g' j arrived' stage h
    rcases Pool.next_cases h with ⟨-, hl⟩ | hold
    · cases hl
    · exact hw.first hold
  · intro g' j h
    rw [Pool.next_congr hgate] at h
    exact hw.below h
  · exact hw.entry_below

/-- A call that missed comes to a gate. -/
lemma Inv.comes (hw : Inv w) (hi : w.calls i = .missed arrived) :
    Inv (w.next i (w.shared.gate i).1 (.locking (w.shared.gate i).2 arrived)) := by
  have hnone : (w.calls i).gate = none := by rw [hi]; rfl
  have hline : ∀ g', Pc.inLine (.locking g' arrived) = (w.calls i).inLine := fun g' => by rw [hi]; rfl
  cases hentry : w.shared.entry with
  | some g =>
      have hgate : w.shared.gate i = (w.shared.modify g fun x => { x with owners := insert i x.owners }, g) := by
        rw [Node.gate, hentry]
      rw [hgate]
      constructor
      · intro g' j
        have h := hw.owners (g := g') (i := j)
        simp only [modify_gates, next_calls, Pool.next_shared]
        grind [Pc.gate]
      · intro g' j h
        rcases Pool.next_read h with ⟨-, hl⟩ | hold
        · cases hl
          exact hentry
        · exact hw.entry hold
      · intro g' j
        have h := hw.line (g := g') (i := j)
        rw [Pool.next_congr (hline g)]
        simp only [modify_gates, Pool.next_shared]
        grind
      · intro g'
        have h := hw.nodup (g := g')
        simp only [modify_gates, Pool.next_shared]
        grind
      · intro g' j arrived' stage h
        rcases Pool.next_cases h with ⟨-, hl⟩ | hold
        · cases hl
        · have hfirst := hw.first hold
          simp only [modify_gates, Pool.next_shared]
          grind
      · intro g' j h
        rcases Pool.next_read h with ⟨-, hl⟩ | hold
        · cases hl
          exact hw.entry_below hentry
        · exact hw.below hold
      · exact hw.entry_below
  | none =>
      have hgate : w.shared.gate i = ({ w.shared with
          entry := some w.shared.created
          gates := Function.update w.shared.gates w.shared.created ⟨{i}, [], none⟩
          created := w.shared.created + 1 }, w.shared.created) := by
        rw [Node.gate, hentry]
      rw [hgate]
      -- nobody is on the new gate
      have hfresh : ∀ j, (w.calls j).gate ≠ some w.shared.created := fun j hj =>
        absurd (hw.below hj) (Nat.lt_irrefl _)
      have hnobody : ∀ j, (w.calls j).pending = none := by
        intro j
        cases hj : (w.calls j).pending with
        | none => rfl
        | some g' =>
            have h := hw.entry hj
            rw [hentry] at h
            cases h
      constructor
      · intro g' j
        have h := hw.owners (g := g') (i := j)
        have hj := hfresh j
        simp only [next_calls, Pool.next_shared, Function.update_apply]
        grind [Pc.gate]
      · intro g' j h
        rcases Pool.next_read h with ⟨-, hl⟩ | hold
        · exact hl
        · rw [hnobody] at hold
          cases hold
      · intro g' j
        have h := hw.line (g := g') (i := j)
        have hj : (w.calls j).inLine = none := by
          cases hj : (w.calls j).inLine with
          | none => rfl
          | some g' =>
              have h := Pc.pending_of_inLine hj
              rw [hnobody] at h
              cases h
        rw [Pool.next_congr (hline _)]
        simp only [Pool.next_shared, Function.update_apply]
        grind
      · intro g'
        have h := hw.nodup (g := g')
        simp only [Pool.next_shared, Function.update_apply]
        grind
      · intro g' j arrived' stage h
        rcases Pool.next_cases h with ⟨-, hl⟩ | hold
        · cases hl
        · have hpending := hnobody j
          rw [hold] at hpending
          cases hpending
      · intro g' j h
        rcases Pool.next_read h with ⟨-, hl⟩ | hold
        · cases hl
          exact Nat.lt_succ_self _
        · exact Nat.lt_succ_of_lt (hw.below hold)
      · intro g' h
        cases h
        exact Nat.lt_succ_self _

omit [DecidableEq ι] in
lemma Inv.alone (hw : Inv w) (hi : (w.calls i).gate = some g) (hentry : w.shared.entry = some g)
    (hcount : w.shared.strongCount g = 2) : (w.shared.gates g).owners = {i} := by
  rw [Node.strongCount, if_pos hentry] at hcount
  obtain ⟨j, hj⟩ := Finset.card_eq_one.mp (by omega : (w.shared.gates g).owners.card = 1)
  have hmem := hw.owners.mpr hi
  rw [hj, Finset.mem_singleton] at hmem
  rw [hj, hmem]

/-- **The entry is removed** by a call that is alone on its gate, if at all. -/
lemma Inv.looks (hw : Inv w) (hi : w.calls i = .releasing g) :
    Inv (w.next i (w.shared.releaseGate g) (.dropping g)) := by
  have hgate : Pc.gate (.dropping g) = (w.calls i).gate := by
    rw [hi]
    rfl
  have hline : Pc.inLine (.dropping g) = (w.calls i).inLine := by
    rw [hi]
    rfl
  have hgates : (w.shared.releaseGate g).gates = w.shared.gates := by
    rw [Node.releaseGate]
    split_ifs <;> rfl
  have hcreated : (w.shared.releaseGate g).created = w.shared.created := by
    rw [Node.releaseGate]
    split_ifs <;> rfl
  constructor
  · intro g' j
    rw [Pool.next_congr hgate, Pool.next_shared, hgates]
    exact hw.owners
  · intro g' j h
    rcases Pool.next_read h with ⟨-, hl⟩ | hold
    · cases hl
    · have hentry := hw.entry hold
      rw [Pool.next_shared, Node.releaseGate]
      split_ifs with halone
      · -- the other call is on the gate, too
        obtain rfl : g = g' := Option.some.inj (halone.1.symm.trans hentry)
        have howners := hw.alone (by rw [hi]; rfl) halone.1 halone.2
        have hmem := hw.owners.mpr (Pc.gate_of_pending hold)
        rw [howners, Finset.mem_singleton] at hmem
        subst hmem
        rw [Pool.next_self] at h
        cases h
      · exact hentry
  · intro g' j
    rw [Pool.next_congr hline, Pool.next_shared, hgates]
    exact hw.line
  · intro g'
    rw [Pool.next_shared, hgates]
    exact hw.nodup
  · intro g' j arrived' stage h
    rw [Pool.next_shared, hgates]
    rcases Pool.next_cases h with ⟨-, hl⟩ | hold
    · cases hl
    · exact hw.first hold
  · intro g' j h
    rw [Pool.next_congr hgate] at h
    rw [Pool.next_shared, hcreated]
    exact hw.below h
  · intro g' h
    rw [Pool.next_shared, hcreated]
    rw [Pool.next_shared, Node.releaseGate] at h
    split_ifs at h with halone
    · exact hw.entry_below h

lemma Inv.drops (hw : Inv w) (hi : w.calls i = .dropping g) : Inv (w.next i (w.shared.drop g i) .ended) := by
  have hclone : (w.calls i).gate = some g := by rw [hi]; rfl
  have hpending : Pc.pending .ended = (w.calls i).pending := by
    rw [hi]
    rfl
  have hline : Pc.inLine .ended = (w.calls i).inLine := by
    rw [hi]
    rfl
  constructor
  · intro g' j
    have h := hw.owners (g := g') (i := j)
    simp only [Node.drop, modify_gates, next_calls, Pool.next_shared]
    grind [Pc.gate]
  · intro g' j h
    rw [Pool.next_congr hpending] at h
    exact hw.entry h
  · intro g' j
    have h := hw.line (g := g') (i := j)
    rw [Pool.next_congr hline]
    simp only [Node.drop, modify_gates, Pool.next_shared]
    grind
  · intro g'
    have h := hw.nodup (g := g')
    simp only [Node.drop, modify_gates, Pool.next_shared]
    grind
  · intro g' j arrived' stage h
    rcases Pool.next_cases h with ⟨-, hl⟩ | hold
    · cases hl
    · have hfirst := hw.first hold
      simp only [Node.drop, modify_gates, Pool.next_shared]
      grind
  · intro g' j h
    rcases Pool.next_read h with ⟨-, hl⟩ | hold
    · cases hl
    · exact hw.below hold
  · exact hw.entry_below

/-- **A step** keeps the invariant. -/
lemma Inv.step (hw : Inv w) (h : act i w.shared (w.calls i) k = some (s', l')) : Inv (w.next i s' l') := by
  have hmoves := act_moves h
  generalize hl : w.calls i = l at hmoves
  cases hmoves with
  | stays hk hlook hs hgate hpending hline hheld =>
      subst hl
      exact hw.stays hs hgate hpending hline hheld
  | comes arrived => exact hw.comes hl
  | joins hk g arrived => exact hw.joins hl
  | turns hk g arrived => exact hw.turns hl
  | leaves g hline hl' =>
      subst hl
      rcases hl' with ⟨-, rfl⟩ | ⟨-, rfl⟩
      · exact hw.leaves hline rfl (.inl rfl) rfl
      · exact hw.leaves hline rfl (.inr rfl) rfl
  | looks hk g => exact hw.looks hl
  | drops g => exact hw.drops hl

/-! ## Single flight -/

/-- Before anything is called. -/
structure Started (w : Pool ι (Node ι) Pc) : Prop where
  entry : w.shared.entry = none
  gates : ∀ g, (w.shared.gates g).owners = ∅ ∧ (w.shared.gates g).line = []
  calls : ∀ i, w.calls i = .idle

/-- At most one call loads, and whoever waits is behind a call at the mutex. -/
structure Gated (w : Pool ι (Node ι) Pc) : Prop where
  one_loader : ∀ {i j g g' arrived arrived'}, w.calls i = .held g arrived .loading →
    w.calls j = .held g' arrived' .loading → i = j
  gate_held : ∀ {i g arrived}, w.calls i = .waiting g arrived →
    ∃ j, (w.shared.gates g).line.head? = some j ∧ (w.calls j).inLine = some g

/-- **Single flight.** -/
structure Single (w : Pool ι (Node ι) Pc) : Prop extends Gated w where
  no_entry : (∀ i, (w.calls i).inProgress = false) → w.shared.entry = none

/-- Another call is yet to look at the map. -/
def Other (w : Pool ι (Node ι) Pc) (i : ι) (g : ℕ) : Prop := ∃ j, j ≠ i ∧ (w.calls j).pending = some g

/-- **The entry is watched**: a call that is cancelled leaves another that is yet to look at the map, and so does
one that looks, unless it is alone on its gate. -/
def Watched (w : Pool ι (Node ι) Pc) : Pick ι Outcome ℕ → Prop
  | .call i k => ∀ g ∈ (w.calls i).pending, (k = .cancelled → Other w i g) ∧
      (w.calls i = .releasing g → Other w i g ∨ (w.shared.gates g).owners = {i})
  | .env _ => True

instance [Fintype ι] (w : Pool ι (Node ι) Pc) (i : ι) (g : ℕ) : Decidable (Other w i g) :=
  inferInstanceAs (Decidable (∃ j, j ≠ i ∧ (w.calls j).pending = some g))

instance [Fintype ι] (w : Pool ι (Node ι) Pc) : DecidablePred (Watched w)
  | .call i k => inferInstanceAs (Decidable (∀ g ∈ (w.calls i).pending, (k = .cancelled → Other w i g) ∧
      (w.calls i = .releasing g → Other w i g ∨ (w.shared.gates g).owners = {i})))
  | .env _ => .isTrue trivial

/-- Some call is yet to look at the entry. -/
def Attended (w : Pool ι (Node ι) Pc) : Prop := ∀ g, w.shared.entry = some g → ∃ i, (w.calls i).pending = some g

omit [DecidableEq ι] in
lemma Inv.gated (hw : Inv w) : Gated w where
  one_loader {i j g g' arrived arrived'} hi hj := by
    have hentry := hw.entry (g := g) (i := i) (by rw [hi]; rfl)
    have hentry' := hw.entry (g := g') (i := j) (by rw [hj]; rfl)
    obtain rfl : g = g' := Option.some.inj (hentry.symm.trans hentry')
    exact Option.some.inj ((hw.first hi).symm.trans (hw.first hj))
  gate_held {i g arrived} hi := by
    have hmem := hw.line.mpr (show (w.calls i).inLine = some g by rw [hi]; rfl)
    obtain ⟨j, rest, hline⟩ := List.exists_cons_of_ne_nil (List.ne_nil_of_mem hmem)
    refine ⟨j, by rw [hline]; rfl, hw.line.mp ?_⟩
    rw [hline]
    exact List.mem_cons_self

omit [DecidableEq ι] in
lemma Inv.single (hw : Inv w) (hattended : Attended w) : Single w where
  toGated := hw.gated
  no_entry hidle := by
    cases hentry : w.shared.entry with
    | none => rfl
    | some g =>
        obtain ⟨i, hi⟩ := hattended g hentry
        have h := hidle i
        cases hl : w.calls i with
        | idle | ended =>
            rw [hl] at hi
            cases hi
        | lookup | missed | locking | waiting | held | releasing | dropping =>
            rw [hl] at h
            cases h

lemma Attended.kept (hattended : Attended w) (hentry : s'.entry = w.shared.entry)
    (hpending : l'.pending = (w.calls i).pending) : Attended (w.next i s' l') := by
  intro g hg
  rw [Pool.next_shared, hentry] at hg
  obtain ⟨j, hj⟩ := hattended g hg
  exact ⟨j, by rw [Pool.next_congr hpending]; exact hj⟩

lemma attended_lost_iff (hw : Inv w) (hentry : s'.entry = w.shared.entry) (hi : (w.calls i).pending = some g)
    (hl' : l'.pending = none) : Attended (w.next i s' l') ↔ Other w i g := by
  have hg := hw.entry hi
  constructor
  · intro h
    obtain ⟨j, hj⟩ := h g (hentry.trans hg)
    by_cases hji : j = i
    · rw [hji, Pool.next_self, hl'] at hj
      cases hj
    · rw [Pool.next_of_ne w hji] at hj
      exact ⟨j, hji, hj⟩
  · rintro ⟨j, hji, hj⟩ g' hg'
    obtain rfl : g = g' := Option.some.inj (hg.symm.trans (hentry.symm.trans hg'))
    exact ⟨j, by rw [Pool.next_of_ne w hji]; exact hj⟩

lemma releaseGate_entry (hw : Inv w) (hi : w.calls i = .releasing g) : (w.shared.releaseGate g).entry =
    if (w.shared.gates g).owners = {i} then none else w.shared.entry := by
  have hentry := hw.entry (g := g) (i := i) (by rw [hi]; rfl)
  have hcount : w.shared.strongCount g = 2 ↔ (w.shared.gates g).owners = {i} := by
    constructor
    · exact hw.alone (by rw [hi]; rfl) hentry
    · intro h
      rw [Node.strongCount, if_pos hentry, h, Finset.card_singleton]
  rw [Node.releaseGate]
  split_ifs with hboth halone halone
  · rfl
  · exact absurd (hcount.mp hboth.2) halone
  · exact absurd ⟨hentry, hcount.mpr halone⟩ hboth
  · rfl

/-- **What a step does to the entry**: some call is yet to look at it exactly when it was watched. -/
lemma attended_step_iff (hw : Inv w) (hattended : Attended w) (h : act i w.shared (w.calls i) k = some (s', l')) :
    Attended (w.next i s' l') ↔ Watched w (.call i k) := by
  have hmoves := act_moves h
  generalize hl : w.calls i = l at hmoves
  cases hmoves with
  | stays hk hlook hs hgate hpending hline hheld =>
      subst hl
      refine iff_of_true (hattended.kept hs.entry hpending) fun g hg => ⟨fun hcancel => ?_, fun hlooks => ?_⟩
      · rw [hk hcancel] at hg
        cases hg
      · exact absurd hlooks (hlook g)
  | comes arrived =>
      refine iff_of_true (fun g hg => ⟨i, ?_⟩) fun g hg => ?_
      · rw [Pool.next_self]
        rw [Pool.next_shared, Node.gate] at hg
        rw [Node.gate]
        cases hentry : w.shared.entry with
        | none =>
            rw [hentry] at hg
            exact hg
        | some g' =>
            rw [hentry] at hg
            exact hentry.symm.trans hg
      · rw [hl] at hg
        cases hg
  | joins hk g arrived =>
      refine iff_of_true (hattended.kept rfl ?_) fun g' _ => ⟨fun hcancel => absurd hcancel hk, fun hlooks => ?_⟩
      · rw [hl]
        split_ifs <;> rfl
      · rw [hl] at hlooks
        cases hlooks
  | turns hk g arrived =>
      have hi : (w.calls i).pending = some g := by rw [hl]; rfl
      rw [attended_lost_iff hw rfl hi rfl]
      constructor
      · rintro hother g' hg'
        obtain rfl : g = g' := Option.some.inj (hi.symm.trans hg')
        exact ⟨fun _ => hother, fun _ => .inl hother⟩
      · exact fun hwatched => (hwatched g hi).1 hk
  | leaves g hline hl' =>
      subst hl
      have hi := Pc.pending_of_inLine hline
      rcases hl' with ⟨hk, rfl⟩ | ⟨hk, rfl⟩
      · refine iff_of_true (hattended.kept rfl hi.symm) fun g' _ => ⟨fun hcancel => absurd hcancel hk, fun hlooks => ?_⟩
        rw [hlooks] at hline
        cases hline
      · have hlost : Attended (w.next i (w.shared.leave g i) (.dropping g)) ↔ Other w i g :=
          attended_lost_iff hw rfl hi rfl
        rw [hlost]
        constructor
        · rintro hother g' hg'
          obtain rfl : g = g' := Option.some.inj (hi.symm.trans hg')
          exact ⟨fun _ => hother, fun _ => .inl hother⟩
        · exact fun hwatched => (hwatched g hi).1 hk
  | looks hk g =>
      have hi : (w.calls i).pending = some g := by rw [hl]; rfl
      have hwatched : Watched w (.call i k) ↔ Other w i g ∨ (w.shared.gates g).owners = {i} := by
        constructor
        · exact fun h => (h g hi).2 hl
        · intro h g' hg'
          obtain rfl : g = g' := Option.some.inj (hi.symm.trans hg')
          exact ⟨fun hcancel => absurd hcancel hk, fun _ => h⟩
      have hentry := releaseGate_entry hw hl
      rw [hwatched]
      by_cases halone : (w.shared.gates g).owners = {i}
      · rw [if_pos halone] at hentry
        refine iff_of_true (fun g' hg' => ?_) (.inr halone)
        rw [Pool.next_shared, hentry] at hg'
        cases hg'
      · rw [if_neg halone] at hentry
        rw [attended_lost_iff hw hentry hi rfl, or_iff_left halone]
  | drops g =>
      refine iff_of_true (hattended.kept rfl (by rw [hl]; rfl)) fun g' hg' => ?_
      rw [hl] at hg'
      cases hg'

omit [DecidableEq ι] in
lemma Started.inv (hw : Started w) : Inv w := by
  have hcalls : ∀ i, (w.calls i).gate = none ∧ (w.calls i).pending = none ∧ (w.calls i).inLine = none := by
    intro i
    rw [hw.calls i]
    exact ⟨rfl, rfl, rfl⟩
  constructor
  · simp [hw.gates, hcalls]
  · simp [hcalls]
  · simp [hw.gates, hcalls]
  · simp [hw.gates]
  · simp [hw.calls]
  · simp [hcalls]
  · simp [hw.entry]

variable {as : List (Pick ι Outcome ℕ)}

lemma step_inv (hw : Inv w) (h : flights.machine.step w a = some w') : Inv w' := by
  cases a with
  | call i k =>
      obtain ⟨s', l', hact, rfl⟩ := Calls.step_call.mp h
      exact hw.step hact
  | env d =>
      obtain ⟨s', henv, rfl⟩ := Calls.step_env.mp h
      cases henv
      exact ⟨hw.owners, hw.entry, hw.line, hw.nodup, hw.first, hw.below, hw.entry_below⟩

lemma step_iff (hw : Inv w) (hattended : Attended w) (h : flights.machine.step w a = some w') :
    Inv w' ∧ (Attended w' ↔ Watched w a) := by
  refine ⟨step_inv hw h, ?_⟩
  cases a with
  | call i k =>
      obtain ⟨s', l', hact, rfl⟩ := Calls.step_call.mp h
      exact attended_step_iff hw hattended hact
  | env d =>
      obtain ⟨s', henv, rfl⟩ := Calls.step_env.mp h
      cases henv
      exact iff_of_true hattended trivial

/-- **In every run** at most one call loads, and nobody waits behind nobody. -/
theorem gated_always (hstart : Started w) (hrun : flights.machine.run w as = some w') : Gated w' := by
  have hinv := Machine.run_inv (I := Inv) (C := fun _ _ => True) (fun hw _ h => step_inv hw h)
    (Machine.meets_of_forall (fun _ _ => trivial) w as) hrun hstart.inv
  exact hinv.gated

/-- **No more than that**: every entry of a run has a call that is yet to look at it exactly when every step
watches it. -/
theorem attended_iff_watched (hstart : Started w) (hrun : flights.machine.run w as = some w') :
    (∀ bs cs t, as = bs ++ cs → flights.machine.run w bs = some t → Attended t) ↔
      flights.machine.Meets Watched w as :=
  Machine.always_iff_meets (A := fun _ => True) (fun _ hw hattended h => step_iff hw hattended h)
    (fun _ _ => trivial) hrun hstart.inv fun g hg => by rw [hstart.entry] at hg; cases hg

/-- **Single flight** in every state of a run whose steps all watch the entry. -/
theorem single_flight (hstart : Started w) (hwatched : flights.machine.Meets Watched w as)
    (hrun : flights.machine.run w as = some w') : Single w' := by
  have hattended : Attended w := fun g hg => by rw [hstart.entry] at hg; cases hg
  have hend : Inv w' ∧ Attended w' := by
    refine Machine.run_inv (I := fun w => Inv w ∧ Attended w) (C := Watched) ?_ hwatched hrun ⟨hstart.inv, hattended⟩
    rintro w a w' ⟨hw, hattended⟩ hC hstep
    obtain ⟨hw', hiff⟩ := step_iff hw hattended hstep
    exact ⟨hw', hiff.mpr hC⟩
  exact hend.1.single hend.2

end Steps

/-! ## Runs of two calls -/

def fresh : Pool (Fin 2) (Node (Fin 2)) Pc := ⟨⟨0, none, fun _ => ⟨∅, [], none⟩, 0⟩, fun _ => .idle⟩

lemma started_fresh : Started fresh := ⟨rfl, fun _ => ⟨rfl, rfl⟩, fun _ => rfl⟩

def steps (i : Fin 2) (ks : List Outcome) : List (Pick (Fin 2) Outcome ℕ) := ks.map (.call i)

def arrives : List Outcome := [.goes, .fails, .goes, .goes]

def oneAfterTheOther : List (Pick (Fin 2) Outcome ℕ) :=
  steps 0 (arrives ++ [.goes, .fails]) ++ steps 1 arrives ++ steps 0 [.goes, .goes, .goes, .goes, .goes] ++
    steps 1 [.goes, .goes, .goes, .goes, .goes, .goes]

theorem single_flight_oneAfterTheOther : ∃ w, flights.machine.run fresh oneAfterTheOther = some w ∧ Single w ∧
    w.calls 0 = .ended ∧ w.calls 1 = .ended := by
  refine ⟨_, rfl, ?_, rfl, rfl⟩
  have hwatched : flights.machine.Meets Watched fresh oneAfterTheOther := by decide
  exact single_flight started_fresh hwatched rfl

/-- **The entry is left behind** by a call that is cancelled as it loads, and by two calls of which the first has
looked at the map, but not dropped its `Arc`, when the second looks. -/
theorem entry_left_behind : Started fresh ∧
    (∃ w, flights.machine.run fresh (steps 0 (arrives ++ [.goes, .fails, .cancelled, .goes])) = some w ∧
      (∀ i, (w.calls i).inProgress = false) ∧ w.shared.entry = some 0) ∧
    ∃ w, flights.machine.run fresh (steps 0 (arrives ++ [.goes, .fails]) ++ steps 1 arrives ++
        steps 0 [.goes, .goes, .goes, .goes] ++ steps 1 [.goes, .goes, .goes, .goes, .goes, .goes] ++
        steps 0 [.goes]) = some w ∧
      (∀ i, (w.calls i).inProgress = false) ∧ w.shared.entry = some 0 :=
  ⟨started_fresh, ⟨_, rfl, by decide, rfl⟩, _, rfl, by decide, rfl⟩

end Ridm.Cache.SingleFlight
