import Mathlib.Data.Fintype.Basic
import Ridm.Core.KeyCommands
import Ridm.Lib.Interleaving

/-!
# The leader lock

`api/src/jobs/leader.rs`: one Valkey key per lock, which the nodes take with `SET NX PX`, renew by
compare-and-expire and give back by compare-and-delete.  A call of `try_acquire` is known by its token.

Any command may be lost on the way, or be carried out and its answer be lost; a node may stop at any time,
its guard dropped without a word.  A renewal that comes too late is no reason to stop: `hold_while` logs it, and
the work goes on.  So what the lock gives is a lease (`leased`), from the last command of its holder that was
answered.

* Two calls are never leased at once, and as long as no lease runs out under its work at most one call works
  (`one_works_at_a_time`).
* A renewal that is confirmed says that nobody has been let in since the lock was taken
  (`renewal_confirms`).
* A holder that renews no more keeps the lock for its lifetime and no longer (`lapses_unrenewed`).
-/

namespace Ridm.Jobs.Leader

/-- What a call does next. -/
inductive Action
  | tryAcquire (d : Delivery)
  | extend (d : Delivery)
  | release (d : Delivery)
  /-- The guard is dropped without a release: an early return, or a node that stops. -/
  | drop

/-- Where an instance stands with the lock. -/
inductive Call
  | idle
  /-- It has the `LeaderLock`, and the lock is its own until then, by the last answer it had. -/
  | working (until_ : Instant)
  | ended
  deriving DecidableEq

def Call.lease : Call → Option Instant
  | .working u => some u
  | .idle | .ended => none

lemma Call.mem_lease {l : Call} {u : Instant} : u ∈ l.lease ↔ l = .working u := by
  cases l <;> simp [Call.lease]

variable (ι : Type)

/-- The server: its clock, and the key of the lock. -/
structure Server where
  now : Instant
  lock : Slot ι

variable {ι} [DecidableEq ι]

/-- The token that `GET` finds. -/
def Server.holder (s : Server ι) : Option ι := (s.lock.found s.now).get

section

variable (ttl : ι → ℕ) (i : ι) (s : Server ι)

def tryAcquire : Delivery → Server ι × Call
  | .unsent => (s, .ended)
  | .unanswered => ({ s with lock := (s.lock.setNx i (ttl i) s.now).2 }, .ended)
  | .answered =>
      ({ s with lock := (s.lock.setNx i (ttl i) s.now).2 },
        if (s.lock.setNx i (ttl i) s.now).1 then .working (s.now + ttl i) else .ended)

/-- The answer of `LeaderLock::extend`. -/
def renewed : Bool := (s.lock.compareExpire i (ttl i) s.now).1

/-- `LeaderLock::extend`, of a guard whose lease ends at `until_`. -/
def extend (until_ : Instant) : Delivery → Server ι × Call
  | .unsent => (s, .working until_)
  | .unanswered => ({ s with lock := (s.lock.compareExpire i (ttl i) s.now).2 }, .working until_)
  | .answered =>
      ({ s with lock := (s.lock.compareExpire i (ttl i) s.now).2 },
        .working (if renewed ttl i s then s.now + ttl i else until_))

/-- `LeaderLock::release`. -/
def release : Delivery → Server ι × Call
  | .unsent => (s, .ended)
  | .unanswered | .answered => ({ s with lock := (s.lock.compareDel i s.now).2 }, .ended)

/-- One step of a call. -/
def act : Call → Action → Option (Server ι × Call)
  | .idle, .tryAcquire d => some (tryAcquire ttl i s d)
  | .working until_, .extend d => some (extend ttl i s until_ d)
  | .working _, .release d => some (release i s d)
  | .working _, .drop => some (s, .ended)
  | _, _ => none

end

/-- Any number of calls for one lock, while time passes. -/
def nodes (ttl : ι → ℕ) : Calls ι (Server ι) Call Action ℕ where
  act := act ttl
  env s d := some { s with now := s.now + d }

/-- Nobody has asked for the lock yet. -/
def start (now : Instant) : Pool ι (Server ι) Call := ⟨⟨now, none⟩, fun _ => .idle⟩

/-- A call has a guard, whether the lock is still its own or not. -/
def Works (w : Pool ι (Server ι) Call) (i : ι) : Prop := ∃ u, w.calls i = .working u

/-- A call has a guard, and its lease is not over. -/
def Leased (w : Pool ι (Server ι) Call) (i : ι) : Prop := ∃ u, w.calls i = .working u ∧ w.shared.now < u

/-- No lease is over before its holder has renewed it or is done. -/
def OnTime (w : Pool ι (Server ι) Call) : Pick ι Action ℕ → Prop
  | .call _ _ => True
  | .env d => ∀ i, ∀ u ∈ (w.calls i).lease, w.shared.now + d < u

instance [Fintype ι] (w : Pool ι (Server ι) Call) : DecidablePred (OnTime w) := fun p =>
  match p with
  | .call _ _ => .isTrue trivial
  | .env d => inferInstanceAs (Decidable (∀ i, ∀ u ∈ (w.calls i).lease, w.shared.now + d < u))

/-! ## What a step does -/

/-- What a step of `i` does to the server and to where it stands. -/
inductive Does (ttl : ι → ℕ) (i : ι) (s : Server ι) : Call → Action → Server ι → Call → Prop
  | nothing {k : Slot ι} {l l' : Call} {a : Action} (hk : k.found s.now = s.lock.found s.now)
      (hl : l' = l ∧ l ≠ .idle ∨ l' = .ended) : Does ttl i s l a { s with lock := k } l'
  | takes {l' : Call} (d : Delivery) (hfree : s.lock.found s.now = none)
      (hl : l' = .working (s.now + ttl i) ∨ l' = .ended) :
      Does ttl i s .idle (.tryAcquire d) { s with lock := Slot.setUntil i (s.now + ttl i) } l'
  | renews {u : Instant} {l' : Call} (d : Delivery) (hheld : s.holder = some i)
      (hl : l' = .working (s.now + ttl i) ∨ l' = .working u) :
      Does ttl i s (.working u) (.extend d) { s with lock := Slot.setUntil i (s.now + ttl i) } l'
  | frees {u : Instant} {a : Action} (hheld : s.holder = some i) :
      Does ttl i s (.working u) a { s with lock := none } .ended

variable {ttl : ι → ℕ} {i j : ι} {s s' : Server ι} {l l' : Call} {a : Action}

omit [DecidableEq ι] in
lemma tryAcquire_does (d : Delivery) :
    Does ttl i s .idle (.tryAcquire d) (tryAcquire ttl i s d).1 (tryAcquire ttl i s d).2 := by
  cases hfound : s.lock.found s.now with
  | none =>
      have hset : s.lock.setNx i (ttl i) s.now = (true, Slot.setUntil i (s.now + ttl i)) := by
        rw [Slot.setNx, hfound]
      cases d with
      | unsent => exact .nothing rfl (.inr rfl)
      | unanswered =>
          simp only [tryAcquire, hset]
          exact .takes _ hfound (.inr rfl)
      | answered =>
          simp only [tryAcquire, hset, if_true]
          exact .takes _ hfound (.inl rfl)
  | some e =>
      have hset : s.lock.setNx i (ttl i) s.now = (false, s.lock.found s.now) := by
        rw [Slot.setNx, hfound]
      cases d with
      | unsent => exact .nothing rfl (.inr rfl)
      | unanswered =>
          simp only [tryAcquire, hset]
          exact .nothing Slot.found_found (.inr rfl)
      | answered =>
          simp only [tryAcquire, hset, Bool.false_eq_true, if_false]
          exact .nothing Slot.found_found (.inr rfl)

lemma extend_does (u : Instant) (d : Delivery) :
    Does ttl i s (.working u) (.extend d) (extend ttl i s u d).1 (extend ttl i s u d).2 := by
  by_cases hheld : s.holder = some i
  · have hexpire : s.lock.compareExpire i (ttl i) s.now = (true, Slot.setUntil i (s.now + ttl i)) := by
      obtain ⟨deadline, hfound⟩ := Slot.get_eq_some.mp hheld
      show (if s.holder = some i then _ else _) = _
      rw [if_pos hheld, hfound]
      rfl
    cases d with
    | unsent => exact .nothing rfl (.inl ⟨rfl, by simp⟩)
    | unanswered =>
        simp only [extend, hexpire]
        exact .renews _ hheld (.inr rfl)
    | answered =>
        simp only [extend, renewed, hexpire, if_true]
        exact .renews _ hheld (.inl rfl)
  · have hexpire : s.lock.compareExpire i (ttl i) s.now = (false, s.lock.found s.now) := if_neg hheld
    cases d with
    | unsent => exact .nothing rfl (.inl ⟨rfl, by simp⟩)
    | unanswered =>
        simp only [extend, hexpire]
        exact .nothing Slot.found_found (.inl ⟨rfl, by simp⟩)
    | answered =>
        simp only [extend, renewed, hexpire, Bool.false_eq_true, if_false]
        exact .nothing Slot.found_found (.inl ⟨rfl, by simp⟩)

lemma release_does (u : Instant) (d : Delivery) :
    Does ttl i s (.working u) (.release d) (release i s d).1 (release i s d).2 := by
  by_cases hheld : s.holder = some i
  · have hdel : s.lock.compareDel i s.now = (true, none) := if_pos hheld
    cases d with
    | unsent => exact .nothing rfl (.inr rfl)
    | unanswered | answered =>
        simp only [release, hdel]
        exact .frees hheld
  · have hdel : s.lock.compareDel i s.now = (false, s.lock.found s.now) := if_neg hheld
    cases d with
    | unsent => exact .nothing rfl (.inr rfl)
    | unanswered | answered =>
        simp only [release, hdel]
        exact .nothing Slot.found_found (.inr rfl)

/-- **One step.** -/
theorem act_does (h : act ttl i s l a = some (s', l')) : Does ttl i s l a s' l' := by
  cases l with
  | idle =>
      cases a with
      | tryAcquire d =>
          obtain ⟨rfl, rfl⟩ := Prod.mk.inj (Option.some.inj h)
          exact tryAcquire_does d
      | extend d | release d | drop => cases h
  | working u =>
      cases a with
      | tryAcquire d => cases h
      | extend d =>
          obtain ⟨rfl, rfl⟩ := Prod.mk.inj (Option.some.inj h)
          exact extend_does u d
      | release d =>
          obtain ⟨rfl, rfl⟩ := Prod.mk.inj (Option.some.inj h)
          exact release_does u d
      | drop =>
          obtain ⟨rfl, rfl⟩ := Prod.mk.inj (Option.some.inj h)
          exact .nothing rfl (.inr rfl)
  | ended => cases a <;> cases h

omit [DecidableEq ι] in
lemma Does.now_eq (h : Does ttl i s l a s' l') : s'.now = s.now := by
  cases h <;> rfl

omit [DecidableEq ι] in
lemma Does.ne_idle (h : Does ttl i s l a s' l') : l' ≠ .idle := by
  cases h with
  | nothing hk hl =>
      rcases hl with ⟨rfl, hl⟩ | rfl
      · exact hl
      · simp
  | takes d hfree hl | renews d hheld hl => rcases hl with rfl | rfl <;> simp
  | frees hheld => simp

omit [DecidableEq ι] in
lemma Does.lease {u : Instant} (h : Does ttl i s l a s' (.working u)) : l = .working u ∨ u = s.now + ttl i := by
  cases h with
  | nothing hk hl =>
      rcases hl with ⟨rfl, -⟩ | hl
      · exact .inl rfl
      · cases hl
  | takes d hfree hl =>
      rcases hl with hl | hl
      · exact .inr (Call.working.inj hl)
      · cases hl
  | renews d hheld hl => exact hl.symm.imp (·.symm) Call.working.inj

omit [DecidableEq ι] in
/-- What is found under the lock after a step was found before, or it is the token of the call, for a
lifetime. -/
lemma Does.found {e : Entry ι} (h : Does ttl i s l a s' l') (he : s'.lock.found s.now = some e) :
    s.lock.found s.now = some e ∨ e = ⟨i, some (s.now + ttl i)⟩ ∧
      ((∃ d, a = .tryAcquire d) ∧ l = .idle ∧ s.lock.found s.now = none ∨
        (∃ d, a = .extend d) ∧ s.holder = some i) := by
  cases h with
  | nothing hk hl => exact .inl (hk.symm.trans he)
  | takes d hfree hl =>
      exact .inr ⟨(Option.some.inj (Slot.found_eq_some.mp he).1).symm, .inl ⟨⟨d, rfl⟩, rfl, hfree⟩⟩
  | renews d hheld hl =>
      exact .inr ⟨(Option.some.inj (Slot.found_eq_some.mp he).1).symm, .inr ⟨⟨d, rfl⟩, hheld⟩⟩
  | frees hheld => cases he

omit [DecidableEq ι] in
lemma Does.works {u : Instant} (h : Does ttl i s l a s' (.working u)) (hfound : s.lock.found s.now ≠ none) :
    ∃ u', l = .working u' := by
  cases h with
  | nothing hk hl =>
      rcases hl with ⟨rfl, -⟩ | hl
      · exact ⟨u, rfl⟩
      · cases hl
  | takes d hfree hl => exact absurd hfree hfound
  | renews d hheld hl => exact ⟨_, rfl⟩

omit [DecidableEq ι] in
lemma Does.keeps {e : Entry ι} (h : Does ttl i s l a s' l') (he : s.lock.found s.now = some e)
    (hother : e.value ≠ i) : s'.lock.found s.now = some e := by
  have hholder : s.holder = some e.value := by
    rw [Server.holder, he]
    rfl
  cases h with
  | nothing hk hl => exact hk.trans he
  | takes d hfree hl =>
      rw [hfree] at he
      cases he
  | renews d hheld hl => exact absurd (Option.some.inj (hholder.symm.trans hheld)) hother
  | frees hheld => exact absurd (Option.some.inj (hholder.symm.trans hheld)) hother

/-! ## Leases -/

/-- **Whoever is leased has the lock**, until its lease ends at least; and no lease is longer than a
lifetime. -/
structure Inv (ttl : ι → ℕ) (w : Pool ι (Server ι) Call) : Prop where
  lifetime : ∀ {i u}, w.calls i = .working u → u ≤ w.shared.now + ttl i
  held : ∀ {i u}, w.calls i = .working u → w.shared.now < u →
    ∃ d, w.shared.lock.found w.shared.now = some ⟨i, some d⟩ ∧ u ≤ d

variable {w w' : Pool ι (Server ι) Call} {as : List (Pick ι Action ℕ)} {now : Instant}

omit [DecidableEq ι] in
lemma found_setUntil {d now : Instant} (h : now < d) :
    (Slot.setUntil i d).found now = some ⟨i, some d⟩ :=
  Slot.found_eq_some.mpr ⟨rfl, fun _ hd => Option.some.inj hd ▸ h⟩

omit [DecidableEq ι] in
lemma Inv.holder (hw : Inv ttl w) (h : Leased w i) : w.shared.holder = some i := by
  obtain ⟨u, hu, hlt⟩ := h
  obtain ⟨d, hd, -⟩ := hw.held hu hlt
  rw [Server.holder, hd]
  rfl

omit [DecidableEq ι] in
lemma Inv.unique (hw : Inv ttl w) (hi : Leased w i) (hj : Leased w j) : i = j :=
  Option.some.inj ((hw.holder hi).symm.trans (hw.holder hj))

omit [DecidableEq ι] in
lemma Inv.held_self {u : Instant} (hw : Inv ttl w) (h : Does ttl i w.shared (w.calls i) a s (.working u))
    (hlt : w.shared.now < u) : ∃ d, s.lock.found w.shared.now = some ⟨i, some d⟩ ∧ u ≤ d := by
  generalize hl : w.calls i = l at h
  cases h with
  | nothing hk hl' =>
      rcases hl' with ⟨rfl, -⟩ | hl'
      · obtain ⟨d, hd, hle⟩ := hw.held hl hlt
        exact ⟨d, hk.trans hd, hle⟩
      · cases hl'
  | takes d hfree hl' =>
      rcases hl' with hl' | hl'
      · cases hl'
        exact ⟨_, found_setUntil hlt, Int.le_refl _⟩
      · cases hl'
  | renews d hheld hl' =>
      have hle : u ≤ w.shared.now + ttl i := by
        rcases hl' with hl' | hl'
        · cases hl'
          exact Int.le_refl _
        · cases hl'
          exact hw.lifetime hl
      exact ⟨_, found_setUntil (Int.lt_of_lt_of_le hlt hle), hle⟩

lemma Inv.step (hw : Inv ttl w) (h : Does ttl i w.shared (w.calls i) a s l) : Inv ttl (w.next i s l) := by
  refine ⟨fun {j u} hj => ?_, fun {j u} hj hlt => ?_⟩
  · rw [Pool.next_shared, h.now_eq]
    rcases Pool.next_cases hj with ⟨rfl, rfl⟩ | hj
    · rcases h.lease with hbefore | rfl
      · exact hw.lifetime hbefore
      · exact Int.le_refl _
    · exact hw.lifetime hj
  · rw [Pool.next_shared, h.now_eq] at hlt
    rw [Pool.next_shared, h.now_eq]
    by_cases hji : j = i
    · subst hji
      rw [Pool.next_self] at hj
      exact hw.held_self (hj ▸ h) hlt
    · rw [Pool.next_of_ne w hji] at hj
      obtain ⟨d, hd, hle⟩ := hw.held hj hlt
      exact ⟨d, h.keeps hd hji, hle⟩

omit [DecidableEq ι] in
lemma Inv.later (hw : Inv ttl w) (d : ℕ) : Inv ttl ⟨{ w.shared with now := w.shared.now + d }, w.calls⟩ := by
  have hlater : w.shared.now ≤ w.shared.now + d := Int.le_add_of_nonneg_right (Int.natCast_nonneg d)
  refine ⟨fun {i u} hi => ?_, fun {i u} hi hlt => ?_⟩
  · exact Int.le_trans (hw.lifetime hi) (Int.add_le_add_right hlater _)
  · obtain ⟨deadline, hfound, hle⟩ := hw.held hi (Int.lt_of_le_of_lt hlater hlt)
    obtain ⟨hlock, -⟩ := Slot.found_eq_some.mp hfound
    refine ⟨deadline, Slot.found_eq_some.mpr ⟨hlock, fun d' hd' => ?_⟩, hle⟩
    exact Option.some.inj hd' ▸ Int.lt_of_lt_of_le hlt hle

lemma inv_run (hrun : (nodes ttl).machine.run (start now) as = some w) : Inv ttl w := by
  refine Calls.run_inv (C := fun _ _ => True) ?_ ?_ (Machine.meets_of_forall (fun _ _ => trivial) _ _) hrun
    ⟨(nomatch ·), fun h _ => nomatch h⟩
  · intro w i k s l hw _ hact
    exact hw.step (act_does hact)
  · intro w d s hw _ henv
    cases henv
    exact hw.later d

lemma leased_of_onTime (httl : ∀ i, 0 < ttl i) (hmeets : (nodes ttl).machine.Meets OnTime (start now) as)
    (hrun : (nodes ttl).machine.run (start now) as = some w) (hi : Works w i) : Leased w i := by
  have hinv : ∀ i u, w.calls i = .working u → w.shared.now < u := by
    refine Calls.run_inv (I := fun w => ∀ i u, w.calls i = .working u → w.shared.now < u) ?_ ?_ hmeets hrun
      (fun i u h => nomatch h)
    · intro w i k s l hw _ hact j u hj
      have h := act_does hact
      rw [Pool.next_shared, h.now_eq]
      rcases Pool.next_cases hj with ⟨rfl, rfl⟩ | hj
      · rcases h.lease with hbefore | rfl
        · exact hw j u hbefore
        · exact Int.lt_add_of_pos_right _ (by exact_mod_cast httl j)
      · exact hw j u hj
    · intro w d s hw hC henv
      cases henv
      exact fun i u hu => hC i u (Call.mem_lease.mpr hu)
  obtain ⟨u, hu⟩ := hi
  exact ⟨u, hu, hinv i u hu⟩

/-- **No two at once.**  Whatever is lost on the way, and whenever nodes stop: two calls are never leased at
once; and in a run in which no lease runs out under its work, no two calls work at once. -/
theorem one_works_at_a_time (httl : ∀ i, 0 < ttl i)
    (hrun : (nodes ttl).machine.run (start now) as = some w) :
    (∀ i j, Leased w i → Leased w j → i = j) ∧
      ((nodes ttl).machine.Meets OnTime (start now) as → ∀ i j, Works w i → Works w j → i = j) := by
  have hinv := inv_run hrun
  refine ⟨fun i j => hinv.unique, fun hmeets i j hi hj => ?_⟩
  exact hinv.unique (leased_of_onTime httl hmeets hrun hi) (leased_of_onTime httl hmeets hrun hj)

def inTurn : List (Pick (Fin 3) Action ℕ) :=
  [.call 0 (.tryAcquire .answered), .env 9, .call 1 (.tryAcquire .answered), .call 0 (.extend .answered), .env 9,
    .call 0 (.release .unanswered), .call 2 (.tryAcquire .answered)]

theorem one_works_in_turn : ∃ w, (nodes fun _ : Fin 3 => 10).machine.run (start 0) inTurn = some w ∧
    ∀ i j, Works w i → Works w j → i = j := by
  obtain ⟨w, hrun, -⟩ := Machine.exists_run_of_any (p := fun _ => true)
    (show ((nodes fun _ : Fin 3 => 10).machine.run (start 0) inTurn).any (fun _ => true) = true by decide)
  exact ⟨w, hrun, (one_works_at_a_time (fun _ => by decide) hrun).2 (by decide)⟩

/-- The first stops renewing the lock, and the last takes it after the lifetime, with the first still at
work. -/
def overrun : List (Pick (Fin 3) Action ℕ) :=
  [.call 0 (.tryAcquire .answered), .env 10, .call 2 (.tryAcquire .answered)]

/-- Then both work. -/
example : ((nodes fun _ : Fin 3 => 10).machine.run (start 0) overrun).any (fun w =>
    decide (w.calls 0 = .working 10 ∧ w.calls 2 = .working 20)) = true := by
  decide

/-! ## What a renewal says -/

omit [DecidableEq ι] in
lemma holder_eq_some : s.holder = some i ↔ ∃ d, s.lock.found s.now = some ⟨i, d⟩ := Slot.get_eq_some

lemma renewed_iff : renewed ttl i s = true ↔ s.holder = some i := by
  rw [renewed, Slot.compareExpire]
  split_ifs with h
  · exact iff_of_true rfl h
  · exact iff_of_false not_false h

lemma holder_back {p : Pick ι Action ℕ} (h : (nodes ttl).machine.step w p = some w') (hi : w.calls i ≠ .idle)
    (hheld : w'.shared.holder = some i) : w.shared.holder = some i := by
  obtain ⟨d, hfound⟩ := holder_eq_some.mp hheld
  cases p with
  | call j k =>
      obtain ⟨s, l, hact, rfl⟩ := Calls.step_call.mp h
      have hdoes := act_does hact
      rw [Pool.next_shared, hdoes.now_eq] at hfound
      rcases hdoes.found hfound with hbefore | ⟨he, ⟨-, hidle, -⟩ | ⟨-, hbefore⟩⟩
      · exact holder_eq_some.mpr ⟨d, hbefore⟩
      · obtain rfl : i = j := congrArg Entry.value he
        exact absurd hidle hi
      · obtain rfl : i = j := congrArg Entry.value he
        exact hbefore
  | env d' =>
      obtain ⟨s, henv, rfl⟩ := Calls.step_env.mp h
      cases henv
      have hlater : w.shared.now ≤ w.shared.now + d' := Int.le_add_of_nonneg_right (Int.natCast_nonneg d')
      exact holder_eq_some.mpr ⟨d, Slot.found_of_le hfound hlater⟩

lemma works_back {p : Pick ι Action ℕ} (h : (nodes ttl).machine.step w p = some w')
    (hheld : w.shared.holder = some i) (hj : Works w' j) : Works w j := by
  obtain ⟨u, hu⟩ := hj
  cases p with
  | call m k =>
      obtain ⟨s, l, hact, rfl⟩ := Calls.step_call.mp h
      rcases Pool.next_cases hu with ⟨rfl, rfl⟩ | hu
      · obtain ⟨d, hfound⟩ := holder_eq_some.mp hheld
        exact (act_does hact).works (by simp [hfound])
      · exact ⟨u, hu⟩
  | env d =>
      obtain ⟨s, -, rfl⟩ := Calls.step_env.mp h
      exact ⟨u, hu⟩

lemma begun_step {p : Pick ι Action ℕ} (h : (nodes ttl).machine.step w p = some w') (hi : w.calls i ≠ .idle) :
    w'.calls i ≠ .idle := by
  cases p with
  | call m k =>
      obtain ⟨s, l, hact, rfl⟩ := Calls.step_call.mp h
      intro hidle
      rcases Pool.next_cases hidle with ⟨rfl, hl⟩ | hidle
      · exact (act_does hact).ne_idle hl
      · exact hi hidle
  | env d =>
      obtain ⟨s, -, rfl⟩ := Calls.step_env.mp h
      exact hi

lemma begun_run (hrun : (nodes ttl).machine.run w as = some w') (hi : w.calls i ≠ .idle) :
    w'.calls i ≠ .idle :=
  Machine.run_inv (C := fun _ _ => True) (I := fun w => w.calls i ≠ .idle) (fun hi _ hstep => begun_step hstep hi)
    (Machine.meets_of_forall (fun _ _ => trivial) _ _) hrun hi

lemma held_throughout (hrun : (nodes ttl).machine.run w as = some w') (hi : w.calls i ≠ .idle)
    (hheld : w'.shared.holder = some i) : w.shared.holder = some i ∧ ∀ j, Works w' j → Works w j := by
  induction as generalizing w with
  | nil =>
      cases hrun
      exact ⟨hheld, fun _ => id⟩
  | cons p as ih =>
      obtain ⟨t, hstep, hrest⟩ := Machine.run_cons.mp hrun
      obtain ⟨ht, hout⟩ := ih hrest (begun_step hstep hi)
      have hbefore := holder_back hstep hi ht
      exact ⟨hbefore, fun j hj => works_back hstep hbefore (hout j hj)⟩

/-- **What a renewal confirms.**  If a guard is renewed, then at all times since it was taken the lock was its
own, and nobody else was let in. -/
theorem renewal_confirms {past rest : List (Pick ι Action ℕ)} {v : Pool ι (Server ι) Call}
    (hi : Works w i) (hrun : (nodes ttl).machine.run w (past ++ rest) = some w')
    (hrenewed : renewed ttl i w'.shared = true) (hpast : (nodes ttl).machine.run w past = some v) :
    v.shared.holder = some i ∧ ∀ j, Works v j → Works w j := by
  obtain ⟨u, hu⟩ := hi
  have hbegun : w.calls i ≠ .idle := by simp [hu]
  obtain ⟨t, ht, hrest⟩ := Machine.run_append.mp hrun
  obtain rfl := Option.some.inj (ht.symm.trans hpast)
  have hheld := (held_throughout hrest (begun_run ht hbegun) (renewed_iff.mp hrenewed)).1
  exact ⟨hheld, (held_throughout ht hbegun hheld).2⟩

def taken : Pool (Fin 2) (Server (Fin 2)) Call :=
  ⟨⟨0, Slot.setUntil 0 10⟩, fun i => if i = 0 then .working 10 else .idle⟩

/-- The second asks in vain, and the first renews the lock: it has been its own. -/
theorem renewal_confirms_refused :
    ∃ v, (nodes fun _ : Fin 2 => 10).machine.run taken [.env 5, .call 1 (.tryAcquire .answered)] = some v ∧
      v.shared.holder = some 0 ∧ ∀ j, Works v j → Works taken j := by
  have hrun : (nodes fun _ : Fin 2 => 10).machine.run taken
      ([.env 5, .call 1 (.tryAcquire .answered)] ++ [.env 4]) = some _ := rfl
  exact ⟨_, rfl, renewal_confirms ⟨10, rfl⟩ hrun (by decide) rfl⟩

/-! ## A holder that is gone -/

/-- No lock is there for longer than a lifetime of its holder's. -/
def Bounded (ttl : ι → ℕ) (s : Server ι) : Prop :=
  ∀ e, s.lock.found s.now = some e → ∃ d, e.deadline = some d ∧ d ≤ s.now + ttl e.value

lemma bounded_run (hrun : (nodes ttl).machine.run (start now) as = some w) : Bounded ttl w.shared := by
  refine Calls.run_inv (C := fun _ _ => True) (I := fun w => Bounded ttl w.shared) ?_ ?_
    (Machine.meets_of_forall (fun _ _ => trivial) _ _) hrun (fun e he => nomatch he)
  · intro w i k s l hw _ hact e he
    have h := act_does hact
    rw [Pool.next_shared, h.now_eq] at he ⊢
    rcases h.found he with hbefore | ⟨rfl, -⟩
    · exact hw e hbefore
    · exact ⟨_, rfl, Int.le_refl _⟩
  · intro w d s hw _ henv e he
    cases henv
    have hlater : w.shared.now ≤ w.shared.now + d := Int.le_add_of_nonneg_right (Int.natCast_nonneg d)
    obtain ⟨deadline, hdeadline, hle⟩ := hw e (Slot.found_of_le he hlater)
    exact ⟨deadline, hdeadline, Int.le_trans hle (Int.add_le_add_right hlater _)⟩

lemma bounded_unrenewed {t : Instant}
    (hmeets : (nodes ttl).machine.Meets (fun _ p => ∀ d, p ≠ .call i (.extend d)) w as)
    (hrun : (nodes ttl).machine.run w as = some w') (hi : w.calls i ≠ .idle)
    (hw : ∀ d, w.shared.lock.found w.shared.now = some ⟨i, d⟩ → ∃ d' ∈ d, d' ≤ t) :
    ∀ d, w'.shared.lock.found w'.shared.now = some ⟨i, d⟩ → ∃ d' ∈ d, d' ≤ t := by
  refine (Machine.run_inv (I := fun w => w.calls i ≠ .idle ∧
    ∀ d, w.shared.lock.found w.shared.now = some ⟨i, d⟩ → ∃ d' ∈ d, d' ≤ t) ?_ hmeets hrun ⟨hi, hw⟩).2
  rintro w p w' ⟨hi, hw⟩ hp hstep
  refine ⟨begun_step hstep hi, fun d hd => ?_⟩
  cases p with
  | call j k =>
      obtain ⟨s, l, hact, rfl⟩ := Calls.step_call.mp hstep
      have h := act_does hact
      rw [Pool.next_shared, h.now_eq] at hd
      rcases h.found hd with hbefore | ⟨he, ⟨-, hidle, -⟩ | ⟨⟨d', rfl⟩, -⟩⟩
      · exact hw d hbefore
      · obtain rfl : i = j := congrArg Entry.value he
        exact absurd hidle hi
      · obtain rfl : i = j := congrArg Entry.value he
        exact absurd rfl (hp d')
  | env d' =>
      obtain ⟨s, henv, rfl⟩ := Calls.step_env.mp hstep
      cases henv
      exact hw d (Slot.found_of_le hd (Int.le_add_of_nonneg_right (Int.natCast_nonneg d')))

/-- **A holder that renews no more**, as a node that has stopped, has lost the lock after a lifetime. -/
theorem lapses_unrenewed {bs : List (Pick ι Action ℕ)}
    (hpast : (nodes ttl).machine.run (start now) as = some w) (hi : Works w i)
    (hrun : (nodes ttl).machine.run w bs = some w') (hunrenewed : ∀ d, .call i (.extend d) ∉ bs)
    (hlifetime : w.shared.now + ttl i ≤ w'.shared.now) : w'.shared.holder ≠ some i := by
  obtain ⟨u, hu⟩ := hi
  have hmeets : (nodes ttl).machine.Meets (fun _ p => ∀ d, p ≠ .call i (.extend d)) w bs := by
    rw [Machine.meets_iff_forall hrun]
    rintro p hp d rfl
    exact hunrenewed d hp
  have hbounded : ∀ d, w.shared.lock.found w.shared.now = some ⟨i, d⟩ →
      ∃ d' ∈ d, d' ≤ w.shared.now + ttl i := by
    intro d hd
    obtain ⟨d', rfl, hle⟩ := bounded_run hpast ⟨i, d⟩ hd
    exact ⟨d', rfl, hle⟩
  intro hheld
  obtain ⟨d, hfound⟩ := holder_eq_some.mp hheld
  obtain ⟨d', hd', hle⟩ := bounded_unrenewed hmeets hrun (by simp [hu]) hbounded d hfound
  exact absurd ((Slot.found_eq_some.mp hfound).2 d' hd') (Int.not_lt.mpr (Int.le_trans hle hlifetime))

/-- The first stops, and has lost the lock after a lifetime. -/
theorem lapses_stopped :
    ∃ w, (nodes fun _ : Fin 2 => 10).machine.run (start 0) [.call 0 (.tryAcquire .answered)] = some w ∧
      ∃ w', (nodes fun _ : Fin 2 => 10).machine.run w [.env 4, .env 6] = some w' ∧
        w'.shared.holder ≠ some 0 := by
  have hruns : ∃ w,
      (nodes fun _ : Fin 2 => 10).machine.run (start 0) [.call 0 (.tryAcquire .answered)] = some w ∧
      w.calls 0 = .working 10 ∧ w.shared.now = 0 ∧
      ∃ w', (nodes fun _ : Fin 2 => 10).machine.run w [.env 4, .env 6] = some w' ∧ w'.shared.now = 10 :=
    ⟨_, rfl, rfl, rfl, _, rfl, rfl⟩
  obtain ⟨w, hpast, hworks, hnow, w', hrun, hnow'⟩ := hruns
  exact ⟨w, hpast, w', hrun, lapses_unrenewed hpast ⟨10, hworks⟩ hrun (by simp) (by rw [hnow, hnow']; decide)⟩

end Ridm.Jobs.Leader
