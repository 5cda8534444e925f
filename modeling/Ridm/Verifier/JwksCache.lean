import Mathlib.Data.Finset.Card
import Mathlib.Data.Fintype.Basic
import Ridm.Core.Types
import Ridm.Lib.Interleaving

/-!
# The key set of an issuer, cached

`crates/ridm-auth/src/jwks.rs`: a resource server verifies tokens with the keys that the issuer publishes.  It
keeps the set it fetched last, and fetches it again when a token names a key that is not in it (`key`), or when
the set is older than `max_age`; `min_refresh_interval` is the floor between fetches.  Any number of calls share
the set; a mutex is held across a fetch, and a call may be dropped wherever it awaits.

* However calls interleave, one fetch is under way at most, and those made for tokens are at least
  `min_refresh_interval` apart (`fetches_apart`); `warm` does not look at the floor.
* A key that is answered is one that the issuer published last, and where the set is older than `max_age` the
  issuer was asked again less than `min_refresh_interval` before, or by this call in vain (`answer_published`).
* So a key that is not published any more verifies nothing after the longer of the two, as long as fetches
  succeed (`revoked_after`).
-/

namespace Ridm.Verifier

/-! ## Parsing -/

/-- What a published key is for. -/
inductive PublicKeyUse
  | signature
  | encryption
  | other (s : String)
  deriving DecidableEq

/-- `KeyOperations`. -/
inductive KeyOperation
  | verify
  | other (s : String)
  deriving DecidableEq

/-- `Jwk`: the common parameters, and what the key is made of. -/
structure Jwk (M : Type) where
  keyId : Option String
  publicKeyUse : Option PublicKeyUse
  keyOperations : Option (List KeyOperation)
  keyAlgorithm : Option String
  material : M

/-- What `jsonwebtoken` makes of a key, and of the name of an algorithm. -/
structure Library (M D : Type) where
  fromJwk : Jwk M → Option D
  algorithm : String → Option String

/-- A decoded key. -/
structure Key (D : Type) where
  decoding : D
  alg : Option String
  deriving DecidableEq

/-- The keys by their ids, the one inserted last first. -/
abbrev Keys (D : Type) := List (String × Key D)

/-- `HashMap::get`. -/
def Keys.get {D : Type} (keys : Keys D) (kid : String) : Option (Key D) :=
  (keys.find? (·.1 == kid)).map (·.2)

section

variable {M D : Type} (lib : Library M D)

def usableForSigning (jwk : Jwk M) : Bool :=
  if jwk.publicKeyUse = some .encryption then false
  else
    match jwk.keyOperations with
    | none | some [] => true
    | some ops => ops.any (· == .verify)

/-- A round of the loop of `parse`. -/
def insertKey (keys : Keys D) (jwk : Jwk M) : Keys D :=
  match jwk.keyId with
  | none => keys
  | some kid =>
      if !usableForSigning jwk then keys
      else
        match lib.fromJwk jwk with
        | some decoding => (kid, ⟨decoding, jwk.keyAlgorithm.bind lib.algorithm⟩) :: keys
        | none => keys

def parse (set : List (Jwk M)) : Keys D := set.foldl (insertKey lib) []

end

/-! ## The cache -/

/-- The two clocks. -/
structure Settings where
  minRefreshInterval : ℕ
  maxAge : ℕ

/-- What calls share: the clock, the `Snapshot`, the mutex `refresh` and the instant in it. -/
structure Cache (ι D : Type) where
  now : Instant
  keys : Keys D
  fetchedAt : Instant
  holder : Option ι
  lastAttempt : Option Instant

/-- What a call is for. -/
inductive Task
  | key (kid : String)
  | warm

/-- How a call ends. -/
inductive Answer (D : Type)
  | found (k : Key D)
  | unknownKey
  | fetchFailed
  | warmed
  | abandoned
  deriving DecidableEq

/-- Where a caller stands. -/
inductive Call (D : Type)
  | idle
  | waiting
  | locked
  | fetching (cached : Keys D)
  | ended (asked : Bool) (a : Answer D)
  deriving DecidableEq

/-- How a step comes out: it goes on; the issuer answers; it does not, or not with a set; or the call is
dropped. -/
inductive Outcome (M : Type)
  | goes
  | responds (set : List (Jwk M))
  | fails
  | dropped

namespace Cache

variable {ι M D : Type}

/-- `JwksCache::new`, with the `Snapshot::empty` of a machine that has been up for as long. -/
def new (S : Settings) (now : Instant) : Cache ι D :=
  ⟨now, [], now - ((max S.maxAge S.minRefreshInterval : ℕ) + seconds 1), none, none⟩

/-- The key that is answered at once: the set is not too old. -/
def fresh (S : Settings) (s : Cache ι D) (kid : String) : Option (Key D) :=
  if s.now - s.fetchedAt < S.maxAge then s.keys.get kid else none

/-- The issuer was asked a moment ago. -/
def tooSoon (S : Settings) (s : Cache ι D) : Bool :=
  s.lastAttempt.any fun at_ => decide (s.now - at_ < S.minRefreshInterval)

/-- The guard of the mutex is dropped. -/
def unlock (s : Cache ι D) : Cache ι D := { s with holder := none }

def store (s : Cache ι D) (keys : Keys D) : Cache ι D := { s with keys := keys, fetchedAt := s.now }

/-- A fetch begins. -/
def attempt (s : Cache ι D) : Cache ι D := { s with lastAttempt := some s.now }

end Cache

/-- A key that was looked up in a set. -/
def Answer.ofGet {D : Type} (k : Option (Key D)) (otherwise : Answer D) : Answer D := k.elim otherwise .found

section Steps

variable {ι M D : Type} [DecidableEq ι] (lib : Library M D) (S : Settings) (task : ι → Task) (i : ι)
  (s : Cache ι D)

/-- A fetch has come to nothing. -/
def failed (cached : Keys D) : Cache ι D × Call D :=
  match task i with
  | .key kid => (s.unlock, .ended true (.ofGet (cached.get kid) .fetchFailed))
  | .warm => (s.unlock, .ended true .fetchFailed)

def fetched (keys : Keys D) : Cache ι D × Call D :=
  match task i with
  | .key kid => ((s.store keys).unlock, .ended true (.ofGet (keys.get kid) .unknownKey))
  | .warm => ((s.store keys).unlock, .ended true .warmed)

/-- With the mutex held. -/
def refresh : Cache ι D × Call D :=
  match task i with
  | .key kid =>
      match s.fresh S kid with
      | some k => (s.unlock, .ended false (.found k))
      | none =>
          if s.tooSoon S then (s.unlock, .ended false (.ofGet (s.keys.get kid) .unknownKey))
          else (s.attempt, .fetching s.keys)
  | .warm => (s.attempt, .fetching s.keys)

/-- One step of `key` and `warm`. -/
def act : Call D → Outcome M → Option (Cache ι D × Call D)
  | .idle, .goes =>
      match task i with
      | .key kid => some (s, (s.fresh S kid).elim .waiting fun k => .ended false (.found k))
      | .warm => some (s, .waiting)
  | .waiting, .goes => if s.holder = none then some ({ s with holder := some i }, .locked) else none
  | .waiting, .dropped => some (s, .ended false .abandoned)
  | .locked, .goes => some (refresh S task i s)
  | .fetching cached, .responds set =>
      if (parse lib set).isEmpty then some (failed task i s cached) else some (fetched task i s (parse lib set))
  | .fetching cached, .fails => some (failed task i s cached)
  | .fetching _, .dropped => some (s.unlock, .ended true .abandoned)
  | _, _ => none

/-- Any number of calls, while time passes. -/
def verifiers : Calls ι (Cache ι D) (Call D) (Outcome M) ℕ where
  act := act lib S task
  env s d := some { s with now := s.now + d }

/-- Nobody has asked for a key yet. -/
def start (now : Instant) : Pool ι (Cache ι D) (Call D) := ⟨.new S now, fun _ => .idle⟩

end Steps

/-! ## What a step does -/

def Call.Holds {D : Type} : Call D → Prop
  | .locked | .fetching _ => True
  | .idle | .waiting | .ended _ _ => False

def Call.Asked {D : Type} : Call D → Prop
  | .fetching _ => True
  | .ended asked _ => asked = true
  | .idle | .waiting | .locked => False

/-- A call is asking the issuer. -/
def Call.Fetching {D : Type} : Call D → Prop
  | .fetching _ => True
  | .idle | .waiting | .locked | .ended _ _ => False

instance {D : Type} : DecidablePred (Call.Asked (D := D))
  | .fetching _ => .isTrue trivial
  | .ended asked _ => inferInstanceAs (Decidable (asked = true))
  | .idle | .waiting | .locked => .isFalse id

instance {D : Type} : DecidablePred (Call.Fetching (D := D))
  | .fetching _ => .isTrue trivial
  | .idle | .waiting | .locked | .ended _ _ => .isFalse id

/-- An outcome that brings no set. -/
def Outcome.Vain {M D : Type} (lib : Library M D) : Outcome M → Prop
  | .goes => False
  | .responds set => parse lib set = []
  | .fails | .dropped => True

section

variable {ι M D : Type} {lib : Library M D} {S : Settings} {task : ι → Task} {i j : ι} {s s' : Cache ι D}
  {l l' : Call D} {o : Outcome M}

/-- What a step of `i` does. -/
inductive Does (lib : Library M D) (S : Settings) (task : ι → Task) (i : ι) (s : Cache ι D) :
    Call D → Outcome M → Cache ι D → Call D → Prop
  | stays {l l' : Call D} {o : Outcome M} (hl : ¬ l.Holds) (hl' : ¬ l'.Holds) (hasked : ¬ l'.Asked)
      (ha : ∀ b k, l' = .ended b (.found k) → ∃ kid, task i = .key kid ∧ s.fresh S kid = some k) :
      Does lib S task i s l o s l'
  | takes (hfree : s.holder = none) : Does lib S task i s .waiting .goes { s with holder := some i } .locked
  | leaves {a : Answer D} (ha : ∀ k, a = .found k → ∃ kid, task i = .key kid ∧ (s.fresh S kid = some k ∨
        s.tooSoon S = true ∧ s.keys.get kid = some k)) :
      Does lib S task i s .locked .goes s.unlock (.ended false a)
  | asks (hfloor : task i ≠ .warm → s.tooSoon S = false) :
      Does lib S task i s .locked .goes s.attempt (.fetching s.keys)
  | stores {set : List (Jwk M)} {cached : Keys D} {a : Answer D} (hset : parse lib set ≠ [])
      (ha : ∀ k, a = .found k → ∃ kid, task i = .key kid ∧ (parse lib set).get kid = some k) :
      Does lib S task i s (.fetching cached) (.responds set) (s.store (parse lib set)).unlock (.ended true a)
  | givesUp {cached : Keys D} {a : Answer D} {o : Outcome M} (hvain : o.Vain lib)
      (ha : ∀ k, a = .found k → ∃ kid, task i = .key kid ∧ cached.get kid = some k) :
      Does lib S task i s (.fetching cached) o s.unlock (.ended true a)

lemma Answer.ofGet_eq_found {k : Option (Key D)} {otherwise : Answer D} {k' : Key D}
    (hother : otherwise ≠ .found k') (h : Answer.ofGet k otherwise = .found k') : k = some k' := by
  cases k with
  | none => exact absurd h hother
  | some k => rw [Answer.found.inj h]

lemma failed_does {cached : Keys D} (hvain : o.Vain lib) :
    Does lib S task i s (.fetching cached) o (failed task i s cached).1 (failed task i s cached).2 := by
  cases htask : task i with
  | key kid =>
      simp only [failed, htask]
      exact .givesUp hvain fun k hk => ⟨kid, htask, Answer.ofGet_eq_found (by simp) hk⟩
  | warm =>
      simp only [failed, htask]
      exact .givesUp hvain fun k hk => nomatch hk

lemma fetched_does {cached : Keys D} {set : List (Jwk M)} (hset : parse lib set ≠ []) :
    Does lib S task i s (.fetching cached) (.responds set) (fetched task i s (parse lib set)).1
      (fetched task i s (parse lib set)).2 := by
  cases htask : task i with
  | key kid =>
      simp only [fetched, htask]
      exact .stores hset fun k hk => ⟨kid, htask, Answer.ofGet_eq_found (by simp) hk⟩
  | warm =>
      simp only [fetched, htask]
      exact .stores hset fun k hk => nomatch hk

lemma refresh_does :
    Does lib S task i s .locked .goes (refresh S task i s).1 (refresh S task i s).2 := by
  cases htask : task i with
  | key kid =>
      simp only [refresh, htask]
      cases hfresh : s.fresh S kid with
      | some k =>
          refine .leaves fun k' hk => ⟨kid, htask, .inl ?_⟩
          rw [hfresh, Answer.found.inj hk]
      | none =>
          cases hsoon : s.tooSoon S with
          | true => exact .leaves fun k hk => ⟨kid, htask, .inr ⟨hsoon, Answer.ofGet_eq_found (by simp) hk⟩⟩
          | false => exact .asks fun _ => hsoon
  | warm =>
      simp only [refresh, htask]
      exact .asks fun h => absurd htask h

/-- **One step.** -/
theorem act_does [DecidableEq ι] (h : act lib S task i s l o = some (s', l')) : Does lib S task i s l o s' l' := by
  cases l with
  | idle =>
      cases o with
      | goes =>
          cases htask : task i with
          | key kid =>
              simp only [act, htask, Option.some.injEq, Prod.mk.injEq] at h
              obtain ⟨rfl, rfl⟩ := h
              cases hfresh : s.fresh S kid with
              | none => exact .stays id id id fun b k hk => nomatch hk
              | some k =>
                  refine .stays id id (by simp [Call.Asked]) fun b k' hk => ⟨kid, htask, ?_⟩
                  rw [hfresh, Answer.found.inj (Call.ended.inj hk).2]
          | warm =>
              simp only [act, htask, Option.some.injEq, Prod.mk.injEq] at h
              obtain ⟨rfl, rfl⟩ := h
              exact .stays id id id fun b k hk => nomatch hk
      | responds set | fails | dropped => cases h
  | waiting =>
      cases o with
      | goes =>
          simp only [act] at h
          split_ifs at h with hfree
          cases h
          exact .takes hfree
      | dropped =>
          cases h
          exact .stays id id (by simp [Call.Asked]) fun b k hk => nomatch hk
      | responds set | fails => cases h
  | locked =>
      cases o with
      | goes =>
          obtain ⟨rfl, rfl⟩ := Prod.mk.inj (Option.some.inj h)
          exact refresh_does
      | responds set | fails | dropped => cases h
  | fetching cached =>
      cases o with
      | goes => cases h
      | responds set =>
          simp only [act] at h
          split_ifs at h with hset
          · obtain ⟨rfl, rfl⟩ := Prod.mk.inj (Option.some.inj h)
            exact failed_does (List.isEmpty_iff.mp hset)
          · obtain ⟨rfl, rfl⟩ := Prod.mk.inj (Option.some.inj h)
            exact fetched_does (fun hnil => hset (List.isEmpty_iff.mpr hnil))
      | fails =>
          obtain ⟨rfl, rfl⟩ := Prod.mk.inj (Option.some.inj h)
          exact failed_does trivial
      | dropped =>
          cases h
          exact .givesUp trivial fun k hk => nomatch hk
  | ended asked a => cases o <;> cases h

lemma Does.now_eq (h : Does lib S task i s l o s' l') : s'.now = s.now := by
  cases h <;> rfl

lemma Does.holder (h : Does lib S task i s l o s' l') : ¬ l.Holds ∧ ¬ l'.Holds ∧ s'.holder = s.holder ∨
    s.holder = none ∧ l'.Holds ∧ s'.holder = some i ∨ l.Holds ∧ l'.Holds ∧ s'.holder = s.holder ∨
      l.Holds ∧ ¬ l'.Holds ∧ s'.holder = none := by
  cases h with
  | stays hl hl' hasked ha => exact .inl ⟨hl, hl', rfl⟩
  | takes hfree => exact .inr (.inl ⟨hfree, trivial, rfl⟩)
  | asks hfloor => exact .inr (.inr (.inl ⟨trivial, trivial, rfl⟩))
  | leaves ha | stores hset ha | givesUp hvain ha => exact .inr (.inr (.inr ⟨trivial, id, rfl⟩))

lemma Does.set (h : Does lib S task i s l o s' l') : s'.keys = s.keys ∧ s'.fetchedAt = s.fetchedAt ∨
    l.Fetching ∧ s'.fetchedAt = s.now ∧
      ∃ set, o = .responds set ∧ parse lib set ≠ [] ∧ s'.keys = parse lib set := by
  cases h with
  | stores hset ha => exact .inr ⟨trivial, rfl, _, rfl, hset, rfl⟩
  | stays | takes | leaves | asks | givesUp => exact .inl ⟨rfl, rfl⟩

lemma Does.attempt (h : Does lib S task i s l o s' l') : s'.lastAttempt = s.lastAttempt ∧ (l'.Asked → l.Asked) ∨
    s'.lastAttempt = some s.now ∧ l'.Fetching ∧ ¬ l.Asked ∧ (task i ≠ .warm → s.tooSoon S = false) := by
  cases h with
  | asks hfloor => exact .inr ⟨rfl, trivial, id, hfloor⟩
  | stays hl hl' hasked ha => exact .inl ⟨rfl, fun h => absurd h hasked⟩
  | takes | leaves => exact .inl ⟨rfl, fun h => by simp [Call.Asked] at h⟩
  | stores | givesUp => exact .inl ⟨rfl, fun _ => trivial⟩

lemma Call.Fetching.holds (h : l.Fetching) : l.Holds := by
  cases l <;> first | exact h | trivial

end

/-! ## What holds at all times -/

section Runs

variable {ι M D : Type} {lib : Library M D} {S : Settings} {task : ι → Task} {i j : ι} {s : Cache ι D}
  {l : Call D} {o : Outcome M} {w w' w₀ : Pool ι (Cache ι D) (Call D)} {now : Instant}
  {as bs : List (Pick ι (Outcome M) ℕ)}

/-- Whoever has the mutex is one call, and what it found cached is cached still. -/
structure Inv (w : Pool ι (Cache ι D) (Call D)) : Prop where
  holder : ∀ i, (w.calls i).Holds ↔ w.shared.holder = some i
  cached : ∀ {i cached}, w.calls i = .fetching cached → w.shared.keys = cached
  attempt : ∀ a ∈ w.shared.lastAttempt, a ≤ w.shared.now
  fetchedAt : w.shared.fetchedAt ≤ w.shared.now

lemma Inv.unique (hw : Inv w) (hi : (w.calls i).Holds) (hj : (w.calls j).Holds) : i = j :=
  Option.some.inj (((hw.holder i).mp hi).symm.trans ((hw.holder j).mp hj))

variable [DecidableEq ι]

lemma Inv.step (hw : Inv w) (h : Does lib S task i w.shared (w.calls i) o s l) : Inv (w.next i s l) := by
  have hothers : ∀ j, j ≠ i → ((w.calls j).Holds ↔ s.holder = some j) := by
    intro j hji
    have hij : some i ≠ some j := fun hij => hji (Option.some.inj hij).symm
    rcases h.holder with ⟨-, -, hsame⟩ | ⟨hfree, -, htaken⟩ | ⟨-, -, hsame⟩ | ⟨hheld, -, hleft⟩
    · rw [hsame, hw.holder j]
    · rw [htaken, hw.holder j, hfree]
      exact iff_of_false (by simp) hij
    · rw [hsame, hw.holder j]
    · rw [hleft, hw.holder j, (hw.holder i).mp hheld]
      exact iff_of_false hij (by simp)
  refine ⟨Pool.next_forall (p := fun j (l : Call D) => l.Holds ↔ s.holder = some j) ?_ hothers, ?_, ?_, ?_⟩
  · rcases h.holder with ⟨hl, hl', hsame⟩ | ⟨-, hl', htaken⟩ | ⟨hl, hl', hsame⟩ | ⟨-, hl', hleft⟩
    · rw [hsame, ← hw.holder i]
      exact iff_of_false hl' hl
    · exact iff_of_true hl' htaken
    · rw [hsame, ← hw.holder i]
      exact iff_of_true hl' hl
    · exact iff_of_false hl' (by simp [hleft])
  · intro j cached hj
    rw [Pool.next_shared]
    by_cases hji : j = i
    · subst hji
      rw [Pool.next_self] at hj
      subst hj
      generalize w.calls j = l₀ at h
      cases h with
      | stays hl hl' => exact absurd trivial hl'
      | asks hfloor => rfl
    · rw [Pool.next_of_ne w hji] at hj
      rcases h.set with ⟨hsame, -⟩ | ⟨hfetching, -⟩
      · rw [hsame, hw.cached hj]
      · have hholds : (w.calls j).Holds := by
          rw [hj]
          trivial
        exact absurd (hw.unique hholds hfetching.holds) hji
  · rw [Pool.next_shared, h.now_eq]
    generalize w.calls i = l₀ at h
    cases h with
    | asks hfloor =>
        intro a ha
        obtain rfl := Option.some.inj ha
        exact Int.le_refl _
    | stays | takes | leaves | stores | givesUp => exact hw.attempt
  · rw [Pool.next_shared, h.now_eq]
    generalize w.calls i = l₀ at h
    cases h with
    | stores hset ha => exact Int.le_refl _
    | stays | takes | leaves | asks | givesUp => exact hw.fetchedAt

omit [DecidableEq ι] in
lemma Inv.later (hw : Inv w) (d : ℕ) : Inv ⟨{ w.shared with now := w.shared.now + d }, w.calls⟩ := by
  have hlater : w.shared.now ≤ w.shared.now + d := Int.le_add_of_nonneg_right (Int.natCast_nonneg d)
  exact ⟨hw.holder, hw.cached, fun a ha => Int.le_trans (hw.attempt a ha) hlater, Int.le_trans hw.fetchedAt hlater⟩

omit [DecidableEq ι] in
lemma inv_start : Inv (start S now : Pool ι (Cache ι D) (Call D)) := by
  refine ⟨fun i => iff_of_false id (by simp [start, Cache.new]), (nomatch ·), fun a ha => (nomatch ha), ?_⟩
  refine Int.sub_le_self _ ?_
  have hsecond : (0 : ℤ) ≤ seconds 1 := by decide
  exact Int.add_nonneg (Int.natCast_nonneg (max S.maxAge S.minRefreshInterval)) hsecond

/-- **The rule for runs**: what steps keep, and time, holds in every state of a run. -/
theorem keeps_run {I : Pool ι (Cache ι D) (Call D) → Prop}
    (hstep : ∀ {w i o s l}, I w → Does lib S task i w.shared (w.calls i) o s l → I (w.next i s l))
    (hlater : ∀ {w} {d : ℕ}, I w → I ⟨{ w.shared with now := w.shared.now + d }, w.calls⟩)
    (hrun : (verifiers lib S task).machine.run w as = some w') (hw : I w) : I w' := by
  refine Calls.run_inv (C := fun _ _ => True) ?_ ?_ (Machine.meets_of_forall (fun _ _ => trivial) _ _) hrun hw
  · intro w i k s l hw _ hact
    exact hstep hw (act_does hact)
  · intro w d s hw _ henv
    cases henv
    exact hlater hw

lemma inv_run (hrun : (verifiers lib S task).machine.run (start S now) as = some w) : Inv w :=
  keeps_run (fun hw h => hw.step h) (fun hw => hw.later _) hrun inv_start

/-! ## Fetches -/

/-- A call for a key that had not begun at the start of a stretch has asked the issuer since. -/
def AskedSince (task : ι → Task) (w₀ w : Pool ι (Cache ι D) (Call D)) (i : ι) : Prop :=
  task i ≠ .warm ∧ w₀.calls i = .idle ∧ (w.calls i).Asked

/-- **How many have asked**: the last of so many asked so many intervals after the first. -/
structure Spaced (S : Settings) (task : ι → Task) (w₀ w : Pool ι (Cache ι D) (Call D)) : Prop where
  now : w₀.shared.now ≤ w.shared.now
  attempt : ∀ a ∈ w.shared.lastAttempt, a ≤ w.shared.now
  spaced : ∀ A : Finset ι, A.Nonempty → (∀ i ∈ A, AskedSince task w₀ w i) →
    ∃ a ∈ w.shared.lastAttempt, w₀.shared.now + (A.card - 1 : ℕ) * S.minRefreshInterval ≤ a

lemma Spaced.step (hw : Spaced S task w₀ w) (h : Does lib S task i w.shared (w.calls i) o s l) :
    Spaced S task w₀ (w.next i s l) := by
  have hnow := h.now_eq
  rcases h.attempt with ⟨hsame, hasked⟩ | ⟨hnew, -, -, hfloor⟩
  · refine ⟨by rw [Pool.next_shared, hnow]; exact hw.now, ?_, fun A hA hAsked => ?_⟩
    · rw [Pool.next_shared, hsame, hnow]
      exact hw.attempt
    · rw [Pool.next_shared, hsame]
      refine hw.spaced A hA fun j hj => ⟨(hAsked j hj).1, (hAsked j hj).2.1, ?_⟩
      have hj' := (hAsked j hj).2.2
      by_cases hji : j = i
      · subst hji
        rw [Pool.next_self] at hj'
        exact hasked hj'
      · rwa [Pool.next_of_ne w hji] at hj'
  · have hearlier : ∀ A : Finset ι, (∀ j ∈ A, AskedSince task w₀ (w.next i s l) j) →
        ∀ j ∈ A.erase i, AskedSince task w₀ w j := by
      intro A hA j hj
      obtain ⟨hji, hjA⟩ := Finset.mem_erase.mp hj
      obtain ⟨hkey, hidle, hj'⟩ := hA j hjA
      rw [Pool.next_of_ne w hji] at hj'
      exact ⟨hkey, hidle, hj'⟩
    refine ⟨by rw [Pool.next_shared, hnow]; exact hw.now, ?_, fun A hA hAsked => ?_⟩
    · rw [Pool.next_shared, hnew, hnow]
      intro a ha
      exact Option.some.inj ha ▸ Int.le_refl _
    · rw [Pool.next_shared, hnew]
      refine ⟨_, rfl, ?_⟩
      rcases (A.erase i).eq_empty_or_nonempty with hempty | hne
      · have hcard : A.card - 1 = 0 := by
          have := Finset.pred_card_le_card_erase (s := A) (a := i)
          rw [hempty, Finset.card_empty] at this
          omega
        rw [hcard]
        simpa using hw.now
      · obtain ⟨a, ha, hle⟩ := hw.spaced _ hne (hearlier A hAsked)
        by_cases hi : i ∈ A
        · -- the attempt before was an interval ago at least
          have hsoon := hfloor (hAsked i hi).1
          rw [Cache.tooSoon, Option.mem_def.mp ha] at hsoon
          have hfar : (S.minRefreshInterval : ℤ) ≤ w.shared.now - a := by simpa using hsoon
          have hcard : A.card - 1 = (A.erase i).card - 1 + 1 := by
            have hpos := Finset.card_pos.mpr hne
            rw [Finset.card_erase_of_mem hi] at hpos ⊢
            omega
          have hsum : (((A.card - 1 : ℕ) : ℤ) * S.minRefreshInterval) =
              (((A.erase i).card - 1 : ℕ) : ℤ) * S.minRefreshInterval + S.minRefreshInterval := by
            rw [hcard, Int.natCast_add, Int.natCast_one, Int.add_mul, Int.one_mul]
          rw [hsum, ← Int.add_assoc]
          exact Int.le_trans (Int.add_le_add_right hle _) (Int.add_le_of_le_sub_left hfar)
        · rw [Finset.erase_eq_of_notMem hi] at hle
          exact Int.le_trans hle (hw.attempt a ha)

omit [DecidableEq ι] in
lemma Spaced.later (hw : Spaced S task w₀ w) (d : ℕ) :
    Spaced S task w₀ ⟨{ w.shared with now := w.shared.now + d }, w.calls⟩ := by
  have hlater : w.shared.now ≤ w.shared.now + d := Int.le_add_of_nonneg_right (Int.natCast_nonneg d)
  exact ⟨Int.le_trans hw.now hlater, fun a ha => Int.le_trans (hw.attempt a ha) hlater, hw.spaced⟩

def sampleJwk : Jwk ℕ := ⟨some "a", some .signature, none, some "ES256", 7⟩

def sampleLibrary : Library ℕ ℕ := ⟨fun jwk => some jwk.material, some⟩

def sampleSettings : Settings := ⟨30, 600⟩

/-- Two callers of one cache. -/
abbrev twoCalls (kid : String) : Machine (Pool (Fin 2) (Cache (Fin 2) ℕ) (Call ℕ)) (Pick (Fin 2) (Outcome ℕ) ℕ) :=
  (verifiers sampleLibrary sampleSettings fun _ => .key kid).machine

def asking {ι : Type} (i : ι) : List (Pick ι (Outcome ℕ) ℕ) := [.call i .goes, .call i .goes, .call i .goes]

/-- **Fetches apart.**  However calls interleave and are dropped, one of them is fetching at most; and in any
stretch of a run the calls for keys that have asked the issuer did so at least `min_refresh_interval` apart. -/
theorem fetches_apart (hpast : (verifiers lib S task).machine.run (start S now) as = some w₀)
    (hrun : (verifiers lib S task).machine.run w₀ bs = some w) :
    (∀ i j, (w.calls i).Fetching → (w.calls j).Fetching → i = j) ∧
      ∀ A : Finset ι, (∀ i ∈ A, AskedSince task w₀ w i) →
        ((A.card - 1 : ℕ) : ℤ) * S.minRefreshInterval ≤ w.shared.now - w₀.shared.now := by
  have hinv₀ := inv_run hpast
  have hinv : Inv w := keeps_run (fun hw h => hw.step h) (fun hw => hw.later _) hrun hinv₀
  have hstart : Spaced S task w₀ w₀ := by
    refine ⟨Int.le_refl _, hinv₀.attempt, fun A hA hAsked => ?_⟩
    obtain ⟨i, hi⟩ := hA
    obtain ⟨-, hidle, hasked⟩ := hAsked i hi
    rw [hidle] at hasked
    exact absurd hasked id
  have hspaced : Spaced S task w₀ w := keeps_run (fun hw h => hw.step h) (fun hw => hw.later _) hrun hstart
  refine ⟨fun i j hi hj => hinv.unique hi.holds hj.holds, fun A hAsked => ?_⟩
  rcases A.eq_empty_or_nonempty with rfl | hA
  · simpa using hspaced.now
  · obtain ⟨a, ha, hle⟩ := hspaced.spaced A hA hAsked
    exact Int.le_sub_left_of_add_le (Int.le_trans hle (hspaced.attempt a ha))

/-- Two calls for keys that the issuer does not publish, an interval apart: both ask. -/
theorem fetches_apart_unknown : ∃ w, (twoCalls "x").run
      (start sampleSettings 0) (asking 0 ++ [.call 0 (.responds [sampleJwk]), .env 30] ++ asking 1) = some w ∧
    (({0, 1} : Finset (Fin 2)).card - 1 : ℕ) * (sampleSettings.minRefreshInterval : ℤ) ≤ w.shared.now := by
  have hruns : ∃ w, (twoCalls "x").run
      (start sampleSettings 0) (asking 0 ++ [.call 0 (.responds [sampleJwk]), .env 30] ++ asking 1) = some w ∧
        ∀ i ∈ ({0, 1} : Finset (Fin 2)), (w.calls i).Asked :=
    ⟨_, rfl, by decide +kernel⟩
  obtain ⟨w, hrun, hasked⟩ := hruns
  have happ := (fetches_apart Machine.run_nil hrun).2 {0, 1} fun i hi => ⟨by simp, rfl, hasked i hi⟩
  refine ⟨w, hrun, ?_⟩
  simpa [start, Cache.new] using happ

/-! ## Answers -/

/-- A key as a document has it: for signatures, under its id, with the algorithm it names. -/
structure Published (lib : Library M D) (set : List (Jwk M)) (kid : String) (k : Key D) (jwk : Jwk M) : Prop where
  mem : jwk ∈ set
  keyId : jwk.keyId = some kid
  usable : usableForSigning jwk = true
  decoding : lib.fromJwk jwk = some k.decoding
  alg : k.alg = jwk.keyAlgorithm.bind lib.algorithm

variable {k : Key D} {kid : String}

omit [DecidableEq ι] in
lemma get_insertKey {keys : Keys D} {jwk : Jwk M} (h : (insertKey lib keys jwk).get kid = some k) :
    keys.get kid = some k ∨ Published lib [jwk] kid k jwk := by
  rw [insertKey] at h
  split at h
  · exact .inl h
  · next kid' hkid =>
      split_ifs at h with husable
      · exact .inl h
      · split at h
        · next decoding hdecoding =>
            by_cases heq : kid' = kid
            · subst heq
              have hk : some ⟨decoding, jwk.keyAlgorithm.bind lib.algorithm⟩ = some k := by
                simpa [Keys.get] using h
              obtain rfl := Option.some.inj hk
              exact .inr ⟨List.mem_singleton_self jwk, hkid, by simpa using husable, hdecoding, rfl⟩
            · exact .inl (by simpa [Keys.get, List.find?_cons, heq] using h)
        · exact .inl h

/-- **What is parsed**: each key is one of the document. -/
lemma published_of_get {set : List (Jwk M)} (h : (parse lib set).get kid = some k) :
    ∃ jwk, Published lib set kid k jwk := by
  have hfold : ∀ (set : List (Jwk M)) (keys : Keys D), (set.foldl (insertKey lib) keys).get kid = some k →
      keys.get kid = some k ∨ ∃ jwk, Published lib set kid k jwk := by
    intro set
    induction set with
    | nil => exact fun keys h => .inl h
    | cons jwk set ih =>
        intro keys h
        rcases ih _ h with hinsert | ⟨jwk', hjwk'⟩
        · rcases get_insertKey hinsert with hkeys | hjwk
          · exact .inl hkeys
          · exact .inr ⟨jwk, { hjwk with mem := List.mem_cons_self }⟩
        · exact .inr ⟨jwk', { hjwk' with mem := List.mem_cons_of_mem jwk hjwk'.mem }⟩
  rcases hfold set [] h with hnil | hset
  · cases hnil
  · exact hset

lemma keys_of_run (hrun : (verifiers lib S task).machine.run w as = some w') :
    w'.shared.keys = w.shared.keys ∨
      ∃ j set, .call j (.responds set) ∈ as ∧ w'.shared.keys = parse lib set := by
  induction as generalizing w with
  | nil =>
      cases hrun
      exact .inl rfl
  | cons p as ih =>
      obtain ⟨t, hstep, hrest⟩ := Machine.run_cons.mp hrun
      rcases ih hrest with hsame | ⟨j, set, hmem, hset⟩
      · cases p with
        | call i o =>
            obtain ⟨s, l, hact, rfl⟩ := Calls.step_call.mp hstep
            rcases (act_does hact).set with ⟨hkeys, -⟩ | ⟨-, -, set, rfl, -, hkeys⟩
            · exact .inl (hsame.trans hkeys)
            · exact .inr ⟨i, set, List.mem_cons_self, hsame.trans hkeys⟩
        | env d =>
            obtain ⟨s, henv, rfl⟩ := Calls.step_env.mp hstep
            cases henv
            exact .inl hsame
      · exact .inr ⟨j, set, List.mem_cons_of_mem p hmem, hset⟩

omit [DecidableEq ι] in
lemma fresh_eq_some {s : Cache ι D} :
    s.fresh S kid = some k ↔ s.now - s.fetchedAt < S.maxAge ∧ s.keys.get kid = some k := by
  rw [Cache.fresh]
  split_ifs with h
  · exact (and_iff_right h).symm
  · exact iff_of_false (by simp) fun hk => h hk.1

/-- When a set may be answered from: it is not too old, or the issuer was asked a moment ago, or by the call
itself. -/
def MayServe (S : Settings) (s : Cache ι D) (asked : Prop) : Prop :=
  s.now - s.fetchedAt < S.maxAge ∨ (∃ a, s.lastAttempt = some a ∧ s.now - a < S.minRefreshInterval) ∨ asked

omit [DecidableEq ι] in
lemma Inv.answer (hw : Inv w) {b : Bool}
    (h : Does lib S task i w.shared (w.calls i) o s (.ended b (.found k))) :
    ∃ kid, task i = .key kid ∧ s.keys.get kid = some k ∧
      MayServe S s ((w.calls i).Fetching ∧ (s.fetchedAt = s.now ∨ o.Vain lib)) := by
  generalize hl : w.calls i = l₀ at h
  cases h with
  | stays hl₀ hl' hasked ha =>
      obtain ⟨kid, htask, hfresh⟩ := ha b k rfl
      obtain ⟨hage, hget⟩ := fresh_eq_some.mp hfresh
      exact ⟨kid, htask, hget, .inl hage⟩
  | leaves ha =>
      obtain ⟨kid, htask, hfresh | ⟨hsoon, hget⟩⟩ := ha k rfl
      · obtain ⟨hage, hget⟩ := fresh_eq_some.mp hfresh
        exact ⟨kid, htask, hget, .inl hage⟩
      · obtain ⟨a, ha, hlt⟩ := (Option.any_eq_true ..).mp hsoon
        exact ⟨kid, htask, hget, .inr (.inl ⟨a, ha, of_decide_eq_true hlt⟩)⟩
  | stores hset ha =>
      obtain ⟨kid, htask, hget⟩ := ha k rfl
      exact ⟨kid, htask, hget, .inr (.inr ⟨trivial, .inl rfl⟩)⟩
  | givesUp hvain ha =>
      obtain ⟨kid, htask, hget⟩ := ha k rfl
      refine ⟨kid, htask, ?_, .inr (.inr ⟨trivial, .inr hvain⟩)⟩
      rw [← hw.cached hl] at hget
      exact hget

/-- **What is answered.**  In every run: a key that a call is answered is in the set that is cached, which an
answer of the issuer brought, and published there under the id for signatures; and the set is younger than
`max_age`, or the issuer was asked less than `min_refresh_interval` ago, or the call has just asked itself, for
this set or in vain. -/
theorem answer_published {b : Bool}
    (hrun : (verifiers lib S task).machine.run (start S now) as = some w)
    (hstep : (verifiers lib S task).machine.step w (.call i o) = some w')
    (hanswer : w'.calls i = .ended b (.found k)) :
    ∃ kid, task i = .key kid ∧
      (∃ j set, .call j (.responds set) ∈ as ++ [.call i o] ∧ w'.shared.keys = parse lib set ∧
        ∃ jwk, Published lib set kid k jwk) ∧
      MayServe S w'.shared ((w.calls i).Fetching ∧ (w'.shared.fetchedAt = w'.shared.now ∨ o.Vain lib)) := by
  have hinv := inv_run hrun
  obtain ⟨s, l, hact, rfl⟩ := Calls.step_call.mp hstep
  rw [Pool.next_self] at hanswer
  subst hanswer
  obtain ⟨kid, htask, hget, hserve⟩ := hinv.answer (act_does hact)
  refine ⟨kid, htask, ?_, hserve⟩
  have hall : (verifiers lib S task).machine.run (start S now) (as ++ [.call i o]) =
      some (w.next i s (.ended b (.found k))) :=
    Machine.run_append.mpr ⟨w, hrun, Machine.run_cons.mpr ⟨_, hstep, rfl⟩⟩
  rcases keys_of_run hall with hnone | ⟨j, set, hmem, hset⟩
  · rw [Pool.next_shared] at hnone
    rw [hnone] at hget
    cases hget
  · refine ⟨j, set, hmem, hset, published_of_get ?_⟩
    rw [Pool.next_shared] at hset
    rw [← hset]
    exact hget

/-- The first call fetches the set, and is answered the key in it. -/
theorem answer_published_first : ∃ w', (twoCalls "a").run
      (start sampleSettings 0) (asking 0 ++ [.call 0 (.responds [sampleJwk])]) = some w' ∧
    ∃ set, w'.shared.keys = parse sampleLibrary set ∧
      ∃ jwk, Published sampleLibrary set "a" ⟨7, some "ES256"⟩ jwk := by
  have hruns : ∃ w, (twoCalls "a").run
      (start sampleSettings 0) (asking 0) = some w ∧
        ∃ w', (twoCalls "a").step w
          (.call 0 (.responds [sampleJwk])) = some w' ∧ w'.calls 0 = .ended true (.found ⟨7, some "ES256"⟩) :=
    ⟨_, rfl, _, rfl, by decide +kernel⟩
  obtain ⟨w, hrun, w', hstep, hanswer⟩ := hruns
  obtain ⟨kid, htask, ⟨-, set, -, hset, hjwk⟩, -⟩ := answer_published hrun hstep hanswer
  obtain rfl := Task.key.inj htask
  exact ⟨w', Machine.run_append.mpr ⟨w, hrun, Machine.run_cons.mpr ⟨w', hstep, rfl⟩⟩, set, hset, hjwk⟩

/-! ## A key that is not published any more -/

/-- The issuer answers with a set, in which `kid` is not `k`. -/
def Outcome.Lacks (lib : Library M D) (kid : String) (k : Key D) : Outcome M → Prop
  | .responds set => parse lib set ≠ [] ∧ (parse lib set).get kid ≠ some k
  | .goes | .fails | .dropped => False

/-- Whoever fetches gets such a set. -/
def Withdrawn (lib : Library M D) (kid : String) (k : Key D) (w : Pool ι (Cache ι D) (Call D)) :
    Pick ι (Outcome M) ℕ → Prop
  | .call i o => (w.calls i).Fetching → o.Lacks lib kid k
  | .env _ => True

instance [DecidableEq D] (kid : String) (k : Key D) (w : Pool ι (Cache ι D) (Call D)) :
    DecidablePred (Withdrawn (M := M) lib kid k w) := fun p =>
  match p with
  | .call i (.responds set) =>
      inferInstanceAs (Decidable ((w.calls i).Fetching → parse lib set ≠ [] ∧ (parse lib set).get kid ≠ some k))
  | .call i .goes | .call i .fails | .call i .dropped =>
      inferInstanceAs (Decidable ((w.calls i).Fetching → False))
  | .env _ => .isTrue trivial

omit [DecidableEq ι] in
lemma Outcome.Lacks.not_vain (h : o.Lacks lib kid k) : ¬ o.Vain lib := by
  cases o with
  | responds set => exact h.1
  | goes | fails | dropped => exact h.elim

/-- **Since a key was withdrawn**, at `t`: where it is cached yet, the set is from before, and so is the last
attempt, if none is under way. -/
structure Waning (kid : String) (k : Key D) (t : Instant) (w : Pool ι (Cache ι D) (Call D)) : Prop where
  inv : Inv w
  set : w.shared.keys.get kid = some k → w.shared.fetchedAt ≤ t
  attempt : w.shared.keys.get kid = some k → ∀ a ∈ w.shared.lastAttempt, a ≤ t ∨ ∃ j, (w.calls j).Fetching

omit [DecidableEq ι] in
lemma Does.withdrawn (h : Does lib S task i w.shared (w.calls i) o s l)
    (hC : Withdrawn lib kid k w (.call i o)) (hfetching : (w.calls i).Fetching) : s.keys.get kid ≠ some k := by
  have hlacks := hC hfetching
  generalize w.calls i = l₀ at h hfetching
  cases h with
  | stores hnonempty ha => exact hlacks.2
  | givesUp hvain ha => exact absurd hvain hlacks.not_vain
  | stays hl => exact absurd hfetching.holds hl
  | takes | leaves | asks => cases hfetching

lemma Waning.step {t : Instant} (hw : Waning kid k t w)
    (hC : Withdrawn lib kid k w (.call i o)) (h : Does lib S task i w.shared (w.calls i) o s l) :
    Waning kid k t (w.next i s l) := by
  have hkeep : s.keys.get kid = some k → w.shared.keys.get kid = some k ∧ s.fetchedAt = w.shared.fetchedAt ∧
      ¬ (w.calls i).Fetching := by
    intro hget
    have hnot : ¬ (w.calls i).Fetching := fun hfetching => h.withdrawn hC hfetching hget
    rcases h.set with ⟨hkeys, hat⟩ | ⟨hfetching, -⟩
    · rw [hkeys] at hget
      exact ⟨hget, hat, hnot⟩
    · exact absurd hfetching hnot
  refine ⟨hw.inv.step h, fun hget => ?_, fun hget a ha => ?_⟩
  · obtain ⟨hbefore, hat, -⟩ := hkeep hget
    rw [Pool.next_shared, hat]
    exact hw.set hbefore
  · obtain ⟨hbefore, -, hnot⟩ := hkeep hget
    rw [Pool.next_shared] at ha
    rcases h.attempt with ⟨hsame, -⟩ | ⟨-, hfetching, -, -⟩
    · rw [hsame] at ha
      rcases hw.attempt hbefore a ha with hle | ⟨j, hj⟩
      · exact .inl hle
      · refine .inr ⟨j, ?_⟩
        have hji : j ≠ i := by
          rintro rfl
          exact hnot hj
        rwa [Pool.next_of_ne w hji]
    · exact .inr ⟨i, by rwa [Pool.next_self]⟩

omit [DecidableEq ι] in
lemma Waning.later {t : Instant} (hw : Waning kid k t w) (d : ℕ) :
    Waning kid k t ⟨{ w.shared with now := w.shared.now + d }, w.calls⟩ :=
  ⟨hw.inv.later d, hw.set, hw.attempt⟩

omit [DecidableEq ι] in
lemma Waning.not_answered {t : Instant} {b : Bool} (hw : Waning kid k t w)
    (hbound : t + (max S.maxAge S.minRefreshInterval : ℕ) ≤ w.shared.now) (htask : task i = .key kid)
    (hC : Withdrawn lib kid k w (.call i o))
    (h : Does lib S task i w.shared (w.calls i) o s (.ended b (.found k))) : False := by
  have hfar : ∀ {x : Instant} {m : ℕ}, x ≤ t → m ≤ max S.maxAge S.minRefreshInterval →
      ¬ w.shared.now - x < m := by
    intro x m hx hm
    have hm' : (m : ℤ) ≤ (max S.maxAge S.minRefreshInterval : ℕ) := by exact_mod_cast hm
    exact Int.not_lt.mpr (Int.le_sub_left_of_add_le
      (Int.le_trans (Int.add_le_add hx hm') hbound))
  have hstale : ∀ kid', task i = .key kid' → w.shared.fresh S kid' ≠ some k := by
    intro kid' htask' hfresh
    obtain rfl := Task.key.inj (htask.symm.trans htask')
    obtain ⟨hage, hget⟩ := fresh_eq_some.mp hfresh
    exact hfar (hw.set hget) (Nat.le_max_left _ _) hage
  generalize hl : w.calls i = l₀ at h
  cases h with
  | stays hl₀ hl' hasked ha =>
      obtain ⟨kid', htask', hfresh⟩ := ha b k rfl
      exact hstale kid' htask' hfresh
  | leaves ha =>
      obtain ⟨kid', htask', hfresh | ⟨hsoon, hget⟩⟩ := ha k rfl
      · exact hstale kid' htask' hfresh
      · obtain rfl := Task.key.inj (htask.symm.trans htask')
        obtain ⟨a, ha, hlt⟩ := (Option.any_eq_true ..).mp hsoon
        rcases hw.attempt hget a ha with hle | ⟨j, hj⟩
        · exact hfar hle (Nat.le_max_right _ _) (of_decide_eq_true hlt)
        · -- whoever fetches has the mutex, and this call has it
          have hholds : (w.calls i).Holds := by
            rw [hl]
            trivial
          obtain rfl := hw.inv.unique hholds hj.holds
          rw [hl] at hj
          exact hj
  | stores hset ha =>
      obtain ⟨kid', htask', hget⟩ := ha k rfl
      obtain rfl := Task.key.inj (htask.symm.trans htask')
      exact (hC (by rw [hl]; trivial)).2 hget
  | givesUp hvain ha => exact (hC (by rw [hl]; trivial)).not_vain hvain

/-- **Revoked.**  If from some state on whoever fetches gets a set, and `kid` is not `k` in any of them, then
after the longer of `max_age` and `min_refresh_interval` no call for `kid` is answered `k`. -/
theorem revoked_after {v v' : Pool ι (Cache ι D) (Call D)} {b : Bool}
    (hpast : (verifiers lib S task).machine.run (start S now) as = some w)
    (hmeets : (verifiers lib S task).machine.Meets (Withdrawn lib kid k) w (bs ++ [.call i o]))
    (hrun : (verifiers lib S task).machine.run w bs = some v)
    (hbound : w.shared.now + (max S.maxAge S.minRefreshInterval : ℕ) ≤ v.shared.now)
    (hstep : (verifiers lib S task).machine.step v (.call i o) = some v') (htask : task i = .key kid) :
    v'.calls i ≠ .ended b (.found k) := by
  obtain ⟨hmeets', hlast⟩ := hmeets.of_append hrun
  have hwaning : Waning kid k w.shared.now v := by
    have hinv := inv_run hpast
    have hstart : Waning kid k w.shared.now w :=
      ⟨hinv, fun _ => hinv.fetchedAt, fun _ a ha => .inl (hinv.attempt a ha)⟩
    refine Calls.run_inv ?_ ?_ hmeets' hrun hstart
    · intro w i o s l hw hC hact
      exact hw.step hC (act_does hact)
    · intro w d s hw _ henv
      cases henv
      exact hw.later d
  obtain ⟨s, l, hact, rfl⟩ := Calls.step_call.mp hstep
  intro hanswer
  rw [Pool.next_self] at hanswer
  subst hanswer
  exact hwaning.not_answered hbound htask hlast.1 (act_does hact)

/-- The first call has the key, and the set with another in its place is fetched when it is too old. -/
theorem revoked_after_rotation : ∃ w v v',
    (twoCalls "a").run (start sampleSettings 0)
      (asking 0 ++ [.call 0 (.responds [sampleJwk])]) = some w ∧
    (twoCalls "a").run w
      (.env 600 :: asking 1) = some v ∧
    (twoCalls "a").step v
      (.call 1 (.responds [{ sampleJwk with keyId := some "b" }])) = some v' ∧
    v'.calls 1 ≠ .ended true (.found ⟨7, some "ES256"⟩) := by
  have hruns : ∃ w, (twoCalls "a").run
      (start sampleSettings 0) (asking 0 ++ [.call 0 (.responds [sampleJwk])]) = some w ∧
        (twoCalls "a").Meets
          (Withdrawn sampleLibrary "a" ⟨7, some "ES256"⟩) w
          (.env 600 :: asking 1 ++ [.call 1 (.responds [{ sampleJwk with keyId := some "b" }])]) ∧
        ∃ v, (twoCalls "a").run w
            (.env 600 :: asking 1) = some v ∧
          w.shared.now + (max sampleSettings.maxAge sampleSettings.minRefreshInterval : ℕ) ≤ v.shared.now ∧
          ∃ v', (twoCalls "a").step v
            (.call 1 (.responds [{ sampleJwk with keyId := some "b" }])) = some v' :=
    ⟨_, rfl, by decide +kernel, _, rfl, by decide +kernel, _, rfl⟩
  obtain ⟨w, hpast, hmeets, v, hrun, hbound, v', hstep⟩ := hruns
  exact ⟨w, v, v', hpast, hrun, hstep, revoked_after hpast hmeets hrun hbound hstep rfl⟩

end Runs

end Ridm.Verifier
