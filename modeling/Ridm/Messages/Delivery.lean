import Mathlib.Data.Fintype.Basic
import Ridm.Messages.Model

/-!
# One sender at a time, and none once it is sent

What any number of deliveries, redeliveries and passes of the job do to one message, in every
interleaving in which a delivery records its outcome within `STALE_AFTER` of its claim.

* `act_steps` — what a step can do, one constructor for each kind of step.
* `Phase` — the invariant: the message is in nobody's hands and was sent as often as the row says,
  or it is in one call's hands, which holds the row as it stands.
* `sent_once` — the queue keeps it as long as no redelivery writes while the message is in a
  delivery's hands or has been sent; where one does, the next delivery breaks it.

`redeliver` looks at the status once, before it writes.  Two redeliveries of one dead message can
both find it dead, and the second write puts it back in the queue when the first has long had it
sent (`sent_twice`).
-/

namespace Ridm.Messages

/-! ## What a step does -/

/-- The steps of a worker. -/
inductive Steps (g : Queue) : Pc → Queue → Pc → Prop
  | quiet (l l' : Pc) (hl : l.held = none) (hl' : l'.held = none)
      (hcutoff : ∀ b, l' = .requeueing b → b = g.now - staleAfter) : Steps g l g l'
  | claim (l : Pc) (hl : l.held = none) (hdue : g.row.isDue g.now = true) :
      Steps g l { g with row := g.row.claim g.now } (.claimed (g.row.claim g.now))
  | answer (msg : OutboundMessage) (error : Option ProviderError) :
      Steps g (.claimed msg) { g with sends := g.sends + 1 } (.answered msg error)
  | stop (msg : OutboundMessage) : Steps g (.claimed msg) g .done
  | record (msg : OutboundMessage) (error : Option ProviderError) :
      Steps g (.answered msg error) (record g msg error) .done
  | redeliver : Steps g .redelivering g.redeliver .done
  | requeue (b : Instant) :
      Steps g (.requeueing b) { g with row := g.row.requeueStale b } .done

variable {g g' : Queue} {l l' : Pc} {k : Choice}

lemma claimStep_steps (c : Call) (h : claimStep g = (g', l')) : Steps g (.idle c) g' l' := by
  by_cases hdue : g.row.isDue g.now = true
  · rw [claimStep, if_pos hdue] at h
    cases h
    exact .claim _ rfl hdue
  · rw [claimStep, if_neg hdue] at h
    cases h
    exact .quiet _ _ rfl rfl (fun b hb => by cases hb)

/-- Every step of a worker is one of these. -/
lemma act_steps (h : act g l k = some (g', l')) : Steps g l g' l' := by
  cases l with
  | idle c =>
      cases c with
      | deliverOne =>
          cases k with
          | go => exact claimStep_steps _ (Option.some.inj h)
          | passOver => cases h
          | answer error => cases h
          | stop => cases h
      | deliverDue =>
          cases k with
          | go => exact claimStep_steps _ (Option.some.inj h)
          | passOver =>
              cases h
              exact .quiet _ _ rfl rfl (fun b hb => by cases hb)
          | answer error => cases h
          | stop => cases h
      | redeliver =>
          cases k with
          | go =>
              cases h
              by_cases hdead : g.row.status = .dead
              · rw [if_pos hdead]
                exact .quiet _ _ rfl rfl (fun b hb => by cases hb)
              · rw [if_neg hdead]
                exact .quiet _ _ rfl rfl (fun b hb => by cases hb)
          | passOver => cases h
          | answer error => cases h
          | stop => cases h
      | requeueStale =>
          cases k with
          | go =>
              cases h
              exact .quiet _ _ rfl rfl (fun b hb => by cases hb; rfl)
          | passOver => cases h
          | answer error => cases h
          | stop => cases h
  | claimed msg =>
      cases k with
      | answer error => cases h; exact .answer msg error
      | stop => cases h; exact .stop msg
      | go => cases h
      | passOver => cases h
  | answered msg error =>
      cases k with
      | go => cases h; exact .record msg error
      | passOver => cases h
      | answer error' => cases h
      | stop => cases h
  | redelivering =>
      cases k with
      | go => cases h; exact .redeliver
      | passOver => cases h
      | answer error => cases h
      | stop => cases h
  | requeueing b =>
      cases k with
      | go => cases h; exact .requeue b
      | passOver => cases h
      | answer error => cases h
      | stop => cases h
  | refused => cases k <;> cases h
  | done => cases k <;> cases h

/-! ## The property and its condition -/

section

variable {ι : Type}

/-- **The message is sent by one delivery at a time, not again once it is sent, and no more often
than it may be.** -/
structure SentOnce (w : Pool ι Queue Pc) : Prop where
  one : ∀ i j, (w.calls i).held.isSome = true → (w.calls j).held.isSome = true → i = j
  notAgain : w.shared.delivered = true → ∀ i, (w.calls i).held = none
  bounded : w.shared.sends ≤ w.shared.row.maxAttempts

/-- Every delivery that holds the message claimed it less than `STALE_AFTER` ago. -/
def Prompt (w : Pool ι Queue Pc) : Prop :=
  ∀ i, ∀ msg ∈ (w.calls i).held, w.shared.now ≤ msg.nextAttemptAt + staleAfter

/-- Nobody holds the message, and it was not sent. -/
def Free (w : Pool ι Queue Pc) : Prop :=
  w.shared.delivered = false ∧ ∀ i, (w.calls i).held = none

/-- If the step is a redelivery's update, the message is free. -/
def RedeliversFree (w : Pool ι Queue Pc) : Pick ι Choice ℕ → Prop
  | .call i _ => w.calls i = .redelivering → Free w
  | .env _ => True

instance [Fintype ι] (w : Pool ι Queue Pc) : Decidable (Prompt w) :=
  inferInstanceAs (Decidable (∀ i, ∀ msg ∈ (w.calls i).held, w.shared.now ≤ msg.nextAttemptAt + staleAfter))

instance [Fintype ι] (w : Pool ι Queue Pc) : Decidable (Free w) :=
  inferInstanceAs (Decidable (_ ∧ _))

instance [Fintype ι] (w : Pool ι Queue Pc) : ∀ a, Decidable (RedeliversFree w a)
  | .call _ _ => inferInstanceAs (Decidable (_ → _))
  | .env _ => .isTrue trivial

/-! ## The invariant -/

/-- An answer that is not recorded yet is one send the row does not count. -/
def Pc.unrecorded : Pc → ℕ
  | .answered _ _ => 1
  | _ => 0

/-- Whose hands the message is in. -/
inductive Phase (n : ℕ) (w : Pool ι Queue Pc) : Prop
  | free (hnone : ∀ j, (w.calls j).held = none) (hsends : w.shared.sends = w.shared.row.attempts)
      (hsent : w.shared.delivered = true → w.shared.row.status = .sent)
      (hle : w.shared.row.attempts ≤ n)
      (hroom : w.shared.row.status = .queued ∨ w.shared.row.status = .sending →
        w.shared.row.attempts < n)
  | held (i : ι) (hi : (w.calls i).held = some w.shared.row)
      (hothers : ∀ j, j ≠ i → (w.calls j).held = none) (hstatus : w.shared.row.status = .sending)
      (hfresh : w.shared.delivered = false)
      (hsends : w.shared.sends = w.shared.row.attempts + (w.calls i).unrecorded)
      (hroom : w.shared.row.attempts < n)

/-- What every interleaving keeps. -/
structure Inv (n : ℕ) (w : Pool ι Queue Pc) : Prop where
  limit : w.shared.row.maxAttempts = n
  cutoff : ∀ i b, w.calls i = .requeueing b → b ≤ w.shared.now - staleAfter
  phase : Phase n w

lemma Pc.unrecorded_le (l : Pc) : l.unrecorded ≤ 1 := by
  cases l with
  | answered msg error => exact Nat.le_refl 1
  | _ => exact Nat.zero_le 1

variable {n : ℕ} {w : Pool ι Queue Pc}

lemma Inv.sentOnce (h : Inv n w) : SentOnce w := by
  obtain ⟨hlimit, -, hphase⟩ := h
  cases hphase with
  | free hnone hsends hsent hle hroom =>
      refine ⟨?_, fun _ => hnone, by omega⟩
      intro i j hi
      rw [hnone i] at hi
      cases hi
  | held i hi hothers hstatus hfresh hsends hroom =>
      have honly : ∀ j, (w.calls j).held.isSome = true → j = i := by
        intro j hj
        by_contra hne
        rw [hothers j hne] at hj
        cases hj
      have hle := (w.calls i).unrecorded_le
      refine ⟨fun j j' hj hj' => (honly j hj).trans (honly j' hj').symm, ?_, by omega⟩
      intro hdelivered
      rw [hfresh] at hdelivered
      cases hdelivered

lemma Inv.tick {d : ℕ} (h : Inv n w) (henv : env w.shared d = some g') : Inv n ⟨g', w.calls⟩ := by
  obtain ⟨hlimit, hcutoff, hphase⟩ := h
  rw [env, Option.some.injEq] at henv
  subst henv
  refine ⟨hlimit, ?_, ?_⟩
  · intro i b hi
    have hb := hcutoff i b hi
    exact Int.le_trans hb (Int.sub_le_sub_right (Int.le_add_of_nonneg_right (Int.natCast_nonneg d)) _)
  · cases hphase with
    | free hnone hsends hsent hle hroom => exact .free hnone hsends hsent hle hroom
    | held i hi hothers hstatus hfresh hsends hroom =>
        exact .held i hi hothers hstatus hfresh hsends hroom

lemma inv_queuedMessage (now : Instant) (hpos : 0 < n) (start : ι → Call) :
    Inv n (queuedMessage now n start) where
  limit := rfl
  cutoff i b h := by cases h
  phase := .free (fun _ => rfl) rfl (fun h => by cases h) (Nat.zero_le n) fun _ => hpos

/-! ## One step -/

variable [DecidableEq ι] {i : ι}

lemma Phase.quiet (h : Phase n w) (hl : (w.calls i).held = none) (hl' : l'.held = none) :
    Phase n (w.next i w.shared l') := by
  cases h with
  | free hnone hsends hsent hle hroom =>
      refine .free ?_ hsends hsent hle hroom
      exact Pool.next_forall (p := fun _ l => Pc.held l = none) hl' fun j _ => hnone j
  | held i₀ hi hothers hstatus hfresh hsends hroom =>
      have hne : i₀ ≠ i := by
        rintro rfl
        rw [hl] at hi
        cases hi
      have hsame : (w.next i w.shared l').calls i₀ = w.calls i₀ := Pool.next_of_ne w hne _ _
      refine .held i₀ ?_ ?_ hstatus hfresh ?_ hroom
      · rw [hsame]
        exact hi
      · intro j hj
        exact Pool.next_forall (p := fun j l => j ≠ i₀ → Pc.held l = none) (fun _ => hl')
          (fun j _ hj => hothers j hj) j hj
      · rw [hsame]
        exact hsends

lemma Phase.claim (h : Phase n w) (hdue : w.shared.row.isDue w.shared.now = true) :
    Phase n (w.next i { w.shared with row := w.shared.row.claim w.shared.now }
      (.claimed (w.shared.row.claim w.shared.now))) := by
  have hqueued : w.shared.row.status = .queued := by
    rw [OutboundMessage.isDue, Bool.and_eq_true] at hdue
    exact of_decide_eq_true hdue.1
  cases h with
  | free hnone hsends hsent hle hroom =>
      refine .held i ?_ ?_ rfl ?_ ?_ (hroom (.inl hqueued))
      · rw [Pool.next_self]
        rfl
      · intro j hj
        rw [Pool.next_of_ne w hj]
        exact hnone j
      · cases hdelivered : w.shared.delivered with
        | false => exact hdelivered
        | true =>
            rw [hsent hdelivered] at hqueued
            cases hqueued
      · rw [Pool.next_self]
        exact hsends
  | held i₀ hi hothers hstatus hfresh hsends hroom =>
      rw [hqueued] at hstatus
      cases hstatus

variable {msg : OutboundMessage} {error : Option ProviderError} {b : Instant}

lemma Phase.of_held (h : Phase n w) (hi : (w.calls i).held = some msg) :
    msg = w.shared.row ∧ (∀ j, j ≠ i → (w.calls j).held = none) ∧ w.shared.row.status = .sending ∧
      w.shared.delivered = false ∧
      w.shared.sends = w.shared.row.attempts + (w.calls i).unrecorded ∧ w.shared.row.attempts < n := by
  cases h with
  | free hnone hsends hsent hle hroom =>
      rw [hnone i] at hi
      cases hi
  | held i₀ hi₀ hothers hstatus hfresh hsends hroom =>
      have heq : i = i₀ := by
        by_contra hne
        rw [hothers i hne] at hi
        cases hi
      subst heq
      exact ⟨Option.some.inj (hi.symm.trans hi₀), hothers, hstatus, hfresh, hsends, hroom⟩

lemma next_none_of_others {g' : Queue} (hl' : l'.held = none)
    (hothers : ∀ j, j ≠ i → (w.calls j).held = none) (j : ι) :
    ((w.next i g' l').calls j).held = none :=
  Pool.next_forall (p := fun _ l => Pc.held l = none) hl' hothers j

lemma Phase.answer (h : Phase n w) (hi : w.calls i = .claimed msg) :
    Phase n (w.next i { w.shared with sends := w.shared.sends + 1 } (.answered msg error)) := by
  obtain ⟨rfl, hothers, hstatus, hfresh, hsends, hroom⟩ := h.of_held (i := i) (by rw [hi]; rfl)
  rw [hi] at hsends
  refine .held i ?_ ?_ hstatus hfresh ?_ hroom
  · rw [Pool.next_self]
    rfl
  · intro j hj
    rw [Pool.next_of_ne w hj]
    exact hothers j hj
  · rw [Pool.next_self]
    exact congrArg (· + 1) hsends

lemma Phase.stop (h : Phase n w) (hi : w.calls i = .claimed msg) :
    Phase n (w.next i w.shared .done) := by
  obtain ⟨-, hothers, hstatus, hfresh, hsends, hroom⟩ := h.of_held (i := i) (by rw [hi]; rfl)
  rw [hi] at hsends
  refine .free (next_none_of_others rfl hothers) hsends ?_ (Nat.le_of_lt hroom) fun _ => hroom
  intro hdelivered
  rw [Pool.next_shared, hfresh] at hdelivered
  cases hdelivered

lemma Phase.record (h : Phase n w)
    (hlimit : w.shared.row.maxAttempts = n) (hi : w.calls i = .answered msg error) :
    Phase n (w.next i (record w.shared msg error) .done) := by
  obtain ⟨rfl, hothers, hstatus, hfresh, hsends, hroom⟩ := h.of_held (i := i) (by rw [hi]; rfl)
  rw [hi] at hsends
  cases error with
  | none =>
      refine .free (next_none_of_others rfl hothers) hsends (fun _ => rfl) hroom ?_
      rintro (hqueued | hsending)
      · cases hqueued
      · cases hsending
  | some err =>
      refine .free (next_none_of_others rfl hothers) hsends ?_ hroom ?_
      · intro hdelivered
        exact absurd (hfresh.symm.trans hdelivered) Bool.false_ne_true
      · intro hwaiting
        cases hgives : w.shared.row.givesUp err with
        | true =>
            simp [Messages.record, OutboundMessage.markFailed, hgives] at hwaiting
        | false =>
            simp only [OutboundMessage.givesUp, Bool.or_eq_false_iff, decide_eq_false_iff_not,
              hlimit] at hgives
            exact Nat.not_le.mp hgives.2

lemma Phase.redeliver (hpos : 0 < n) (hfree : Free w) :
    Phase n (w.next i w.shared.redeliver .done) := by
  obtain ⟨hfresh, hnone⟩ := hfree
  refine .free (next_none_of_others rfl fun j _ => hnone j) rfl ?_ (Nat.zero_le n) fun _ => hpos
  intro hdelivered
  exact absurd (hfresh.symm.trans hdelivered) Bool.false_ne_true

lemma Phase.requeue (h : Phase n w) (hprompt : Prompt w)
    (hb : b ≤ w.shared.now - staleAfter) (hi : w.calls i = .requeueing b) :
    Phase n (w.next i { w.shared with row := w.shared.row.requeueStale b } .done) := by
  have hl : (w.calls i).held = none := by rw [hi]; rfl
  by_cases hstale : w.shared.row.status = .sending ∧ w.shared.row.nextAttemptAt < b
  · rw [OutboundMessage.requeueStale, if_pos hstale]
    cases h with
    | free hnone hsends hsent hle hroom =>
        refine .free (next_none_of_others rfl fun j _ => hnone j) hsends ?_ hle fun _ =>
          hroom (.inr hstale.1)
        intro hdelivered
        rw [hsent hdelivered] at hstale
        cases hstale.1
    | held i₀ hi₀ hothers hstatus hfresh hsends hroom =>
        have hclaimed := hprompt i₀ _ hi₀
        have hlt := Int.lt_of_lt_of_le hstale.2 hb
        exact absurd (Int.lt_sub_right_iff_add_lt.mp hlt) (Int.not_lt.mpr hclaimed)
  · rw [OutboundMessage.requeueStale, if_neg hstale]
    exact h.quiet hl rfl

lemma Steps.maxAttempts (h : Steps g l g' l') : g'.row.maxAttempts = g.row.maxAttempts := by
  cases h with
  | quiet => rfl
  | claim => rfl
  | answer => rfl
  | stop => rfl
  | record msg error =>
      cases error with
      | none => rfl
      | some err => rfl
  | redeliver => rfl
  | requeue b =>
      simp only [OutboundMessage.requeueStale]
      split_ifs <;> rfl

lemma Steps.cutoff (h : Steps g l g' l') (hl' : l' = .requeueing b) :
    b ≤ g'.now - staleAfter := by
  cases h with
  | quiet _ _ _ hnone hcutoff => exact Int.le_of_eq (hcutoff b hl')
  | claim => cases hl'
  | answer => cases hl'
  | stop => cases hl'
  | record => cases hl'
  | redeliver => cases hl'
  | requeue => cases hl'

lemma Steps.now (h : Steps g l g' l') : g'.now = g.now := by
  cases h with
  | record msg error =>
      cases error with
      | none => rfl
      | some err => rfl
  | _ => rfl

/-- **One step keeps the invariant.** -/
lemma Inv.step (hpos : 0 < n) (h : Inv n w) (hprompt : Prompt w)
    (hfree : w.calls i = .redelivering → Free w) (hstep : Steps w.shared (w.calls i) g' l') :
    Inv n (w.next i g' l') := by
  obtain ⟨hlimit, hcutoff, hphase⟩ := h
  refine ⟨hstep.maxAttempts.trans hlimit, ?_, ?_⟩
  · intro j b hj
    rcases Pool.next_cases hj with ⟨-, hl'⟩ | hbefore
    · exact hstep.cutoff hl'
    · rw [Pool.next_shared, hstep.now]
      exact hcutoff j b hbefore
  · generalize hl : w.calls i = l at hstep hfree
    cases hstep with
    | quiet _ _ hnone hnone' _ => exact hphase.quiet (by rw [hl]; exact hnone) hnone'
    | claim _ _ hdue => exact hphase.claim hdue
    | answer msg error => exact hphase.answer hl
    | stop msg => exact hphase.stop hl
    | record msg error => exact hphase.record hlimit hl
    | redeliver => exact Phase.redeliver hpos (hfree rfl)
    | requeue b => exact hphase.requeue hprompt (hcutoff i b hl) hl

/-! ## Runs -/

lemma claimStep_redeliver : claimStep g.redeliver =
    ({ g.redeliver with row := g.redeliver.row.claim g.now },
      .claimed (g.redeliver.row.claim g.now)) :=
  if_pos (by simp [OutboundMessage.isDue, Queue.redeliver, OutboundMessage.redelivered])

lemma prompt_redeliver (h : Prompt w) : Prompt (w.next i w.shared.redeliver .done) :=
  Pool.next_forall (p := fun _ l => ∀ msg ∈ Pc.held l, w.shared.now ≤ msg.nextAttemptAt + staleAfter)
    (fun _ hmsg => by cases hmsg) fun j _ => h j

lemma redeliver_breaks {i j : ι} (hprompt : Prompt w) (hi : w.calls i = .redelivering)
    (hfree : ¬ Free w) (hj : w.calls j = .idle .deliverOne) : ∃ w',
      (calls ι).machine.Meets (fun w _ => Prompt w) w [.call i .go, .call j .go] ∧
      (calls ι).machine.run w [.call i .go, .call j .go] = some w' ∧ ¬ SentOnce w' := by
  have hji : j ≠ i := by
    rintro rfl
    rw [hi] at hj
    cases hj
  have hredeliver : act w.shared (w.calls i) .go = some (w.shared.redeliver, .done) := by
    rw [hi]
    rfl
  have hclaim : act w.shared.redeliver ((w.next i w.shared.redeliver .done).calls j) .go =
      some ({ w.shared.redeliver with row := w.shared.redeliver.row.claim w.shared.now },
        .claimed (w.shared.redeliver.row.claim w.shared.now)) := by
    rw [Pool.next_of_ne w hji, hj]
    exact congrArg some claimStep_redeliver
  have hfirst := Calls.step_call (P := calls ι) (k := Choice.go).mpr ⟨_, _, hredeliver, rfl⟩
  have hsecond := Calls.step_call (P := calls ι) (k := Choice.go).mpr ⟨_, _, hclaim, rfl⟩
  refine ⟨_, ⟨hprompt, ?_⟩,
    Machine.run_cons.mpr ⟨_, hfirst, Machine.run_cons.mpr ⟨_, hsecond, rfl⟩⟩, ?_⟩
  · rw [hfirst, Option.elim_some, Machine.Meets, hsecond]
    exact ⟨prompt_redeliver hprompt, trivial⟩
  rintro ⟨hone, hnotAgain, -⟩
  refine hfree ⟨?_, fun k => ?_⟩
  · by_contra hdelivered
    have hnone := hnotAgain (Bool.eq_true_of_not_eq_false hdelivered) j
    rw [Pool.next_self] at hnone
    cases hnone
  · by_contra hheld
    have hki : k ≠ i := by
      rintro rfl
      rw [hi] at hheld
      exact hheld rfl
    have hkj : k ≠ j := by
      rintro rfl
      rw [hj] at hheld
      exact hheld rfl
    refine hkj (hone k j ?_ ?_)
    · rw [Pool.next_of_ne _ hkj, Pool.next_of_ne _ hki]
      exact Option.isSome_iff_ne_none.mpr hheld
    · rw [Pool.next_self]
      rfl

/-- **Sent once.**  As long as every redelivery that writes finds the message in nobody's hands and
not sent, one delivery at a time holds it, none does once it was sent, and it is handed to a sender
no more than `max_attempts` times between two redeliveries.  Where a redelivery does not, a delivery
that comes next holds it beside another one, or after it was sent. -/
theorem sent_once (n : ℕ) (hpos : 0 < n) (now : Instant) (start : ι → Call) :
    (∀ as w, (calls ι).machine.Meets (fun w a => Prompt w ∧ RedeliversFree w a)
        (queuedMessage now n start) as →
      (calls ι).machine.run (queuedMessage now n start) as = some w → SentOnce w) ∧
    (∀ w i j, Prompt w → w.calls i = .redelivering → ¬ Free w → w.calls j = .idle .deliverOne → ∃ w',
      (calls ι).machine.Meets (fun w _ => Prompt w) w [.call i .go, .call j .go] ∧
      (calls ι).machine.run w [.call i .go, .call j .go] = some w' ∧ ¬ SentOnce w') := by
  refine ⟨?_, fun w i j hprompt hi hfree hj => redeliver_breaks hprompt hi hfree hj⟩
  intro as w hmeets hrun
  refine Inv.sentOnce (n := n) ?_
  refine Calls.run_inv ?_ ?_ hmeets hrun (inv_queuedMessage now hpos start)
  · rintro w i k g l hinv ⟨hprompt, hfree⟩ hact
    exact hinv.step hpos hprompt hfree (act_steps hact)
  · intro w d g hinv _ henv
    exact hinv.tick henv

end

def sampleCalls : Fin 5 → Call
  | 0 => .deliverOne
  | 1 | 2 => .redeliver
  | _ => .deliverDue

def refusedFirst : List (Pick (Fin 5) Choice ℕ) :=
  [.call 0 .go, .call 0 (.answer (some (.rejected "no such mailbox"))), .call 0 .go]

def redeliveredInTurn : List (Pick (Fin 5) Choice ℕ) :=
  refusedFirst ++ [.env 60, .call 1 .go, .call 1 .go, .call 3 .go, .call 3 (.answer none), .call 3 .go,
    .call 2 .go, .call 4 .go]

theorem sent_once_in_turn : ∃ w,
    (calls (Fin 5)).machine.run (queuedMessage 0 6 sampleCalls) redeliveredInTurn = some w ∧
      SentOnce w := by
  obtain ⟨w, hrun, -⟩ : ∃ w, (calls (Fin 5)).machine.run (queuedMessage 0 6 sampleCalls)
      redeliveredInTurn = some w ∧ w.shared.delivered = true :=
    Machine.exists_run_of_any (by decide +kernel)
  exact ⟨w, hrun, (sent_once 6 (by decide) 0 sampleCalls).1 redeliveredInTurn w (by decide +kernel) hrun⟩

def redeliveredAtOnce : List (Pick (Fin 5) Choice ℕ) :=
  refusedFirst ++ [.env 60, .call 1 .go, .call 2 .go, .call 1 .go, .call 3 .go, .call 2 .go,
    .call 4 .go]

/-- **Two workers send it.**  Two deliveries hold the message at once, each to hand it to the
sender. -/
theorem sent_twice : ∃ w,
    (calls (Fin 5)).machine.Meets (fun w _ => Prompt w) (queuedMessage 0 6 sampleCalls)
        redeliveredAtOnce ∧
      (calls (Fin 5)).machine.run (queuedMessage 0 6 sampleCalls) redeliveredAtOnce = some w ∧
      ¬ SentOnce w := by
  obtain ⟨w, hrun, hheld⟩ : ∃ w, (calls (Fin 5)).machine.run (queuedMessage 0 6 sampleCalls)
      redeliveredAtOnce = some w ∧
        ((w.calls 3).held.isSome && (w.calls 4).held.isSome) = true :=
    Machine.exists_run_of_any (by decide +kernel)
  refine ⟨w, by decide +kernel, hrun, ?_⟩
  rintro ⟨hone, -, -⟩
  rw [Bool.and_eq_true] at hheld
  exact absurd (hone 3 4 hheld.1 hheld.2) (by decide)

end Ridm.Messages
