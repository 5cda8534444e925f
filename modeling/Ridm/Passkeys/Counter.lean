import Mathlib.Data.Fintype.Basic
import Ridm.Passkeys.Model

/-!
# The sign counter of a passkey

The counter check compares an assertion with the copy of the row its call has loaded, and the copy is
written back whole.  So two calls that load the same row both accept the counter of a clone, and a
call that writes late takes the counter back (`counter_goes_back`).

A write does no harm while the counter check still passes against the row it overwrites
(`StillAdvances`).  `counter_only_advances`: in every schedule of such writes the stored counter never
decreases and each counter but zero is accepted once.
-/

namespace Ridm.Passkeys

section

variable {ι : Type} {rp : RelyingParty}

/-- The write of a call, if it is at one, **still advances** the counter that is stored. -/
def StoredPasskey.StillAdvances (row : StoredPasskey) : Pc → Prop
  | .recording key result =>
      (key.update result).2 = true → counterAdvances result.counter row.counter = true
  | _ => True

instance (row : StoredPasskey) : DecidablePred row.StillAdvances
  | .recording _ _ => inferInstanceAs (Decidable (_ → _))
  | .pending _ _ | .loaded _ _ _ | .verified _ | .refused _ => .isTrue trivial

/-- Every write of the schedule does. -/
def WritesAdvance (w : Pool ι StoredPasskey Pc) : Pick ι Unit Empty → Prop
  | .call i _ => w.shared.StillAdvances (w.calls i)
  | .env _ => True

instance (w : Pool ι StoredPasskey Pc) : DecidablePred (WritesAdvance w)
  | .call i _ => inferInstanceAs (Decidable (w.shared.StillAdvances (w.calls i)))
  | .env _ => .isTrue trivial

/-- No call has loaded the row. -/
def Pc.isPending : Pc → Bool
  | .pending _ _ => true
  | _ => false

/-- Each counter but zero is accepted by one call at most. -/
def AcceptedOnce (w : Pool ι StoredPasskey Pc) : Prop :=
  ∀ i j a b, w.calls i = .verified a → w.calls j = .verified b → a.counter = b.counter →
    a.counter ≠ 0 → i = j

/-- **The invariant.** -/
structure Inv (w : Pool ι StoredPasskey Pc) : Prop where
  once : AcceptedOnce w
  below : ∀ i a, w.calls i = .verified a → a.counter ≤ w.shared.counter
  checked : ∀ i key a, w.calls i = .recording key a →
    a.credId = key.credId ∧ counterAdvances a.counter key.counter = true

/-- **What a step does**: it leaves the row and accepts nothing, or records an assertion. -/
lemma act_cases {row row' : StoredPasskey} {l l' : Pc} (h : act rp row l = some (row', l')) :
    (row' = row ∧ (∀ a, l' ≠ .verified a) ∧ ∀ key a, l' = .recording key a →
      a.credId = key.credId ∧ counterAdvances a.counter key.counter = true) ∨
    ∃ key a, l = .recording key a ∧ l' = .verified a ∧
      row' = if (key.update a).2 then (key.update a).1 else row := by
  cases l with
  | pending credential state =>
      cases h
      exact .inl ⟨rfl, nofun, nofun⟩
  | loaded credential state key =>
      simp only [act] at h
      split at h
      · next a hfinish =>
          cases h
          refine .inl ⟨rfl, nofun, ?_⟩
          intro key' a' heq
          cases heq
          exact finishAuthentication_ok hfinish
      · cases h
        exact .inl ⟨rfl, nofun, nofun⟩
  | recording key a =>
      cases h
      exact .inr ⟨key, a, rfl, rfl, rfl⟩
  | verified a => cases h
  | refused reason => cases h

variable [DecidableEq ι] {w w' : Pool ι StoredPasskey Pc} {i : ι} {as bs : List (Pick ι Unit Empty)}

/-- **A step that records nothing** keeps the invariant. -/
lemma Inv.quiet_step {l' : Pc} (h : Inv w) (hnot : ∀ a, l' ≠ .verified a)
    (hchecked : ∀ key a, l' = .recording key a →
      a.credId = key.credId ∧ counterAdvances a.counter key.counter = true) :
    Inv (w.next i w.shared l') := by
  have hold : ∀ j a, (w.next i w.shared l').calls j = .verified a → w.calls j = .verified a := by
    intro j a hj
    exact (Pool.next_cases hj).resolve_left fun hself => hnot a hself.2
  refine ⟨?_, ?_, ?_⟩
  · intro j k a b hj hk
    exact h.once j k a b (hold j a hj) (hold k b hk)
  · intro j a hj
    exact h.below j a (hold j a hj)
  · intro j key a hj
    rcases Pool.next_cases hj with ⟨-, hself⟩ | hold
    · exact hchecked key a hself
    · exact h.checked j key a hold

/-- **What a record that advances leaves**: the counter it reports, which is above what was stored, or
no counter at all. -/
lemma recorded_counter {row key : StoredPasskey} {a : Assertion} (hid : a.credId = key.credId)
    (hchecked : counterAdvances a.counter key.counter = true)
    (hadvances : (key.update a).2 = true → counterAdvances a.counter row.counter = true) :
    row.counter ≤ (if (key.update a).2 then (key.update a).1 else row).counter ∧
      a.counter ≤ (if (key.update a).2 then (key.update a).1 else row).counter ∧
      (a.counter ≠ 0 → row.counter < a.counter) := by
  obtain ⟨hcounter, hzero⟩ := update_counter hid hchecked
  cases hchanged : (key.update a).2 with
  | false =>
      have hnone := hzero hchanged
      simp only [Bool.false_eq_true, if_false]
      omega
  | true =>
      have hnow := counterAdvances_iff.mp (hadvances hchanged)
      simp only [if_true, hcounter]
      omega

/-- **A record that advances** keeps the invariant. -/
lemma Inv.record_step {key : StoredPasskey} {a : Assertion} (h : Inv w)
    (hi : w.calls i = .recording key a) (hadvances : w.shared.StillAdvances (w.calls i)) :
    Inv (w.next i (if (key.update a).2 then (key.update a).1 else w.shared) (.verified a)) := by
  obtain ⟨hid, hchecked⟩ := h.checked i key a hi
  rw [hi] at hadvances
  obtain ⟨hle, hnew, habove⟩ := recorded_counter hid hchecked hadvances
  -- who has accepted what: call `i` this counter, everybody else what they had
  refine ⟨?_, ?_, ?_⟩
  · intro j k b c hj hk heq hne
    rcases Pool.next_cases hj with ⟨rfl, ⟨⟩⟩ | hold
    · rcases Pool.next_cases hk with ⟨rfl, ⟨⟩⟩ | hold
      · rfl
      · have := h.below k c hold
        have := habove hne
        omega
    · rcases Pool.next_cases hk with ⟨rfl, ⟨⟩⟩ | hold'
      · have := h.below j b hold
        have := habove (heq ▸ hne)
        omega
      · exact h.once j k b c hold hold' heq hne
  · intro j b hj
    rcases Pool.next_cases hj with ⟨-, ⟨⟩⟩ | hold
    · exact hnew
    · exact Nat.le_trans (h.below j b hold) hle
  · intro j key' b hj
    rcases Pool.next_cases hj with ⟨-, hself⟩ | hold
    · cases hself
    · exact h.checked j key' b hold

/-- **The invariant along a schedule**, and with it the counter. -/
lemma Inv.run {n : ℕ} (h : Inv w) (hn : n ≤ w.shared.counter)
    (hmeets : (calls ι rp).machine.Meets WritesAdvance w as)
    (hrun : (calls ι rp).machine.run w as = some w') : Inv w' ∧ n ≤ w'.shared.counter := by
  refine Calls.run_inv (I := fun w => Inv w ∧ n ≤ w.shared.counter) ?_ ?_ hmeets hrun ⟨h, hn⟩
  · rintro w i k row' l' ⟨h, hn⟩ hC hstep
    rcases act_cases hstep with ⟨rfl, hnot, hchecked⟩ | ⟨key, a, hi, rfl, rfl⟩
    · exact ⟨h.quiet_step hnot hchecked, hn⟩
    · refine ⟨h.record_step hi hC, ?_⟩
      obtain ⟨hid, hchecked⟩ := h.checked i key a hi
      have hadvances : w.shared.StillAdvances (w.calls i) := hC
      rw [hi] at hadvances
      exact Nat.le_trans hn (recorded_counter hid hchecked hadvances).1
  · intro w e
    nomatch e

/-- **A passkey's sign counter never goes back**, and each counter but zero is accepted once, in every
schedule of any number of assertions whose writes still advance what is stored. -/
theorem counter_only_advances (hpending : ∀ i, (w.calls i).isPending = true)
    (hmeets : (calls ι rp).machine.Meets WritesAdvance w (as ++ bs)) {u : Pool ι StoredPasskey Pc}
    (has : (calls ι rp).machine.run w as = some u) (hbs : (calls ι rp).machine.run u bs = some w') :
    u.shared.counter ≤ w'.shared.counter ∧ AcceptedOnce w' := by
  have hnone : ∀ i l, w.calls i = l → l.isPending = true := fun i l hl => hl ▸ hpending i
  have hinv : Inv w := by
    refine ⟨?_, ?_, ?_⟩
    · intro i j a b hi
      exact absurd (hnone i _ hi) (by simp [Pc.isPending])
    · intro i a hi
      exact absurd (hnone i _ hi) (by simp [Pc.isPending])
    · intro i key a hi
      exact absurd (hnone i _ hi) (by simp [Pc.isPending])
  obtain ⟨hfirst, hthen⟩ := hmeets.of_append has
  obtain ⟨hu, -⟩ := hinv.run (Nat.zero_le _) hfirst has
  obtain ⟨hlast, hle⟩ := hu.run (Nat.le_refl _) hthen hbs
  exact ⟨hle, hlast.once⟩

end

/-! ## The schedules that go wrong -/

def idExample : RelyingParty where
  idHash := "id.example"
  parseAuthData raw := .ok ⟨"id.example", true, true, false, false, raw.length⟩
  checkClientData _ _ := .ok ()
  verifies _ _ := true

def answer (n : ℕ) : Pc :=
  .pending ⟨"key", String.ofList (List.replicate n 'x'), "{}", "signature"⟩ ⟨"challenge", ["key"], false⟩

def clones : Pool (Fin 3) StoredPasskey Pc where
  shared := ⟨"key", "cose", 2, false, false⟩
  calls
    | 0 => answer 3
    | 1 => answer 3
    | 2 => answer 4

def turns (i : Fin 3) (n : ℕ) : List (Pick (Fin 3) Unit Empty) := List.replicate n (.call i ())

/-- **One counter accepted twice, and a counter that goes back.**  Calls 0 and 1 load the row before
either writes it, and both accept the counter 3.  Call 0 loads the row, call 2 stores the counter 4, and
the write of call 0 takes it back to 3. -/
theorem counter_goes_back :
    (∀ i, (clones.calls i).isPending = true) ∧
    (∃ w a b, (calls (Fin 3) idExample).machine.run clones (turns 0 2 ++ turns 1 3 ++ turns 0 1) =
        some w ∧ w.calls 0 = .verified a ∧ w.calls 1 = .verified b ∧ a.counter = 3 ∧ b.counter = 3 ∧
      ¬ AcceptedOnce w) ∧
    ∃ u w, (calls (Fin 3) idExample).machine.run clones (turns 0 2 ++ turns 2 3) = some u ∧
      (calls (Fin 3) idExample).machine.run u (turns 0 1) = some w ∧
      u.shared.counter = 4 ∧ w.shared.counter = 3 := by
  refine ⟨by decide, ⟨_, _, _, rfl, rfl, rfl, rfl, rfl, fun h => ?_⟩, ⟨_, _, rfl, rfl, rfl, rfl⟩⟩
  exact absurd (h 0 1 _ _ rfl rfl rfl (by decide)) (by decide)

/-- One after the other, the clone is refused and the counter goes from 2 to 3 to 4. -/
theorem counter_only_advances_inTurn :
    ∃ u w, (calls (Fin 3) idExample).machine.run clones (turns 0 3 ++ turns 1 2) = some u ∧
      (calls (Fin 3) idExample).machine.run u (turns 2 3) = some w ∧
      w.calls 1 = .refused "the counter did not advance (a cloned credential?)" ∧
      u.shared.counter = 3 ∧ w.shared.counter = 4 ∧ u.shared.counter ≤ w.shared.counter ∧
      AcceptedOnce w := by
  refine ⟨_, _, rfl, rfl, rfl, rfl, rfl, ?_⟩
  have hmeets : (calls (Fin 3) idExample).machine.Meets WritesAdvance clones
      ((turns 0 3 ++ turns 1 2) ++ turns 2 3) := by decide
  exact counter_only_advances (by decide) hmeets rfl rfl

end Ridm.Passkeys
