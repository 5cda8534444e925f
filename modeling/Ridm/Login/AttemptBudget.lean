import Mathlib.Data.Fintype.Card
import Ridm.Login.Attempts

/-!
# The budget of second-factor attempts

A flow counts its failed attempts in the record that every request reads and writes back whole.  Requests
that have loaded the same record all check a code before one of them counts it; in the last second of a
flow nothing is saved, so nothing is counted; and the first factor counts in the same place
(`budget_not_exact`).

`attempts_budget` has what holds: when every check is of the flow as it is stored, with no other request
between its check and its write, and a wrong code is counted (`Counts`), then no more than
`MFA_MAX_ATTEMPTS` wrong codes are ever checked.  When besides no failed first factor is counted
(`StartsAtZero`), a flow is discarded for no fewer.

The invariant keeps the set of the requests whose code was wrong.
-/

namespace Ridm.Login.Attempts

namespace Pc

/-- The request has not begun. -/
def isIdle : Pc → Bool
  | .idle _ => true
  | _ => false

/-- The request has checked what it was given, and is to write. -/
def writes : Pc → Bool
  | .passing _ | .failing _ _ => true
  | _ => false

def counts : Pc → Bool
  | .failing .secondFactor _ => true
  | _ => false

/-- The request has checked a wrong code. -/
def isWrong : Pc → Bool
  | .failing .secondFactor _ | .rejected .secondFactor _ => true
  | _ => false

def discards : Pc → Bool
  | .rejected .secondFactor flow => MFA_MAX_ATTEMPTS ≤ flow.attempts + 1
  | _ => false

/-- The request has checked nothing. -/
def isQuiet : Pc → Bool
  | .idle _ | .loaded _ _ | .refused => true
  | _ => false

lemma writes_of_counts {l : Pc} (h : l.counts = true) : l.writes = true := by
  cases l <;> first | rfl | cases h

lemma counts_of_writes {l : Pc} (h : l.writes = false) : l.counts = false := by
  cases l <;> first | rfl | cases h

lemma writes_of_isQuiet {l : Pc} (h : l.isQuiet = true) : l.writes = false := by
  cases l <;> first | rfl | cases h

lemma isWrong_of_isQuiet {l : Pc} (h : l.isQuiet = true) : l.isWrong = false := by
  cases l <;> first | rfl | cases h

lemma discards_of_isQuiet {l : Pc} (h : l.isQuiet = true) : l.discards = false := by
  cases l <;> first | rfl | cases h

lemma discards_of_writes {l : Pc} (h : l.writes = true) : l.discards = false := by
  cases l <;> first | rfl | cases h

end Pc

section

variable {ι : Type}

/-- The flow that a request is about to check a credential for. -/
def checks : Pc → Option LoginFlow
  | .loaded request flow => if request.isAt flow.stage then some flow else none
  | _ => none

/-- A wrong code that is about to be saved is saved. -/
def Keys.Saves (g : Keys) : Pc → Prop
  | .failing .secondFactor flow =>
      MFA_MAX_ATTEMPTS ≤ flow.attempts + 1 ∨ 0 < numSeconds (flow.expiresAt - g.now)
  | _ => True

instance (g : Keys) : DecidablePred g.Saves := by
  intro l
  unfold Keys.Saves
  split <;> infer_instance

/-- **Every attempt counts**: what is checked is checked for the flow as it is stored, while no other
request is between its check and its write; and a wrong code is saved, or discards the flow. -/
def Counts (w : Pool ι Keys Pc) : Pick ι Outcome Env → Prop
  | .call i _ => (∀ flow ∈ checks (w.calls i), w.shared.flow.get = some flow ∧
      ∀ j, (w.calls j).writes = false) ∧ w.shared.Saves (w.calls i)
  | .env _ => True

instance [Fintype ι] (w : Pool ι Keys Pc) : DecidablePred (Counts w)
  | .call i _ => inferInstanceAs (Decidable ((∀ flow ∈ checks (w.calls i),
      w.shared.flow.get = some flow ∧ ∀ j, (w.calls j).writes = false) ∧ w.shared.Saves (w.calls i)))
  | .env _ => .isTrue trivial

/-- What leads past the first factor finds no failed one counted. -/
def StartsAtZero (w : Pool ι Keys Pc) : Pick ι Outcome Env → Prop
  | .call i (.right flow') => ∀ flow ∈ checks (w.calls i),
      flow.stage.isFirst = true → flow'.stage.isFirst = false → flow.attempts = 0
  | _ => True

instance (w : Pool ι Keys Pc) : DecidablePred (StartsAtZero w)
  | .call i (.right flow') => inferInstanceAs (Decidable (∀ flow ∈ checks (w.calls i),
      flow.stage.isFirst = true → flow'.stage.isFirst = false → flow.attempts = 0))
  | .call _ .wrong => .isTrue trivial
  | .env _ => .isTrue trivial

/-- **No more than the budget** of wrong codes are checked. -/
def WithinBudget (w : Pool ι Keys Pc) : Prop :=
  ∀ S : Finset ι, (∀ i ∈ S, (w.calls i).isWrong = true) → S.card ≤ MFA_MAX_ATTEMPTS

/-- **The whole budget is there**: when a flow is discarded, as many wrong codes have been checked. -/
def FullBudget (w : Pool ι Keys Pc) : Prop :=
  ∀ i, (w.calls i).discards = true →
    ∃ S : Finset ι, (∀ j ∈ S, (w.calls j).isWrong = true) ∧ S.card = MFA_MAX_ATTEMPTS

/-- A code can still be checked for the flow.  It waits for one even where the session it resumes has
passed a second factor, if the client asked for another class. -/
def Pending (flow : LoginFlow) : Prop := flow.stage = .mfa ∨ "mfa" ∉ flow.amr

variable {flow : LoginFlow} {g : Keys} {l' : Pc}

lemma Pending.of_onward (h : Pending flow) (hon : Onward flow) : "mfa" ∉ flow.amr :=
  h.elim hon.2 id

/-- A flow for which `n` wrong codes have been checked.  `E`: all it has counted are these. -/
structure Counted (E : Prop) (n : ℕ) (flow : LoginFlow) : Prop where
  before : flow.stage.isFirst = true → n = 0
  unpassed : Pending flow → n < MFA_MAX_ATTEMPTS
  counted : Pending flow → flow.stage.isFirst = false → n ≤ flow.attempts ∧ (E → flow.attempts = n)

/-- **The invariant**, with the set of the requests whose code was wrong. -/
structure Inv (E : Prop) (S : Finset ι) (w : Pool ι Keys Pc) : Prop where
  wrong : ∀ i, i ∈ S ↔ (w.calls i).isWrong = true
  alone : ∀ i j, (w.calls i).writes = true → (w.calls j).writes = true → i = j
  stored : ∀ flow, w.shared.flow.get = some flow → (∀ i, (w.calls i).counts = false) →
    Counted E S.card flow
  passing : ∀ i flow, w.calls i = .passing flow → Counted E S.card flow
  failing : ∀ i request flow, w.calls i = .failing request flow → request ≠ .secondFactor →
    flow.stage = .authenticate ∧ Counted E S.card flow
  counting : ∀ i flow, w.calls i = .failing .secondFactor flow →
    ∃ n, S.card = n + 1 ∧ flow.stage = .mfa ∧ Counted E n flow
  full : E → ∀ i, (w.calls i).discards = true → S.card = MFA_MAX_ATTEMPTS
  budget : S.card ≤ MFA_MAX_ATTEMPTS

variable {E : Prop} {S : Finset ι} {w w' : Pool ι Keys Pc} {i : ι} {as : List (Pick ι Outcome Env)}

lemma Inv.withinBudget (h : Inv E S w) : WithinBudget w := by
  intro T hT
  have hsub : T ⊆ S := fun i hi => (h.wrong i).mpr (hT i hi)
  exact Nat.le_trans (Finset.card_le_card hsub) h.budget

lemma Inv.fullBudget (h : Inv E S w) (hE : E) : FullBudget w := by
  intro i hi
  exact ⟨S, fun j hj => (h.wrong j).mp hj, h.full hE i hi⟩

lemma not_withinBudget [Fintype ι] (hall : ∀ j, (w.calls j).isWrong = true)
    (hcard : MFA_MAX_ATTEMPTS < Fintype.card ι) : ¬ WithinBudget w := by
  intro h
  exact absurd (h Finset.univ fun j _ => hall j) (Nat.not_le_of_lt hcard)

lemma not_fullBudget (hi : (w.calls i).discards = true)
    (honly : ∀ j, (w.calls j).isWrong = true → j = i) : ¬ FullBudget w := by
  intro h
  obtain ⟨S, hS, hcard⟩ := h i hi
  have hsub : S ⊆ {i} := fun j hj => Finset.mem_singleton.mpr (honly j (hS j hj))
  have hle := Finset.card_le_card hsub
  rw [hcard, Finset.card_singleton] at hle
  exact absurd hle (by decide)

variable {flow flow' : LoginFlow}

lemma get_save (h : (g.save flow).flow.get = some flow') :
    flow' = flow ∨ g.flow.get = some flow' := by
  rw [Keys.save] at h
  split_ifs at h
  · exact .inl (Option.some.inj h).symm
  · exact .inr h

lemma Counted.failed_first {n : ℕ} (h : Counted E n flow) (hstage : flow.stage = .authenticate) :
    Counted E n { flow with attempts := flow.attempts + 1 } := by
  refine ⟨h.before, h.unpassed, fun _ hnot => ?_⟩
  have hnot : flow.stage.isFirst = false := hnot
  rw [hstage] at hnot
  cases hnot

lemma Counted.at_mfa {n : ℕ} (h : Counted E n flow) (hstage : flow.stage = .mfa) :
    n < MFA_MAX_ATTEMPTS ∧ n ≤ flow.attempts ∧ (E → flow.attempts = n) :=
  ⟨h.unpassed (.inl hstage), h.counted (.inl hstage) (by rw [hstage]; rfl)⟩

lemma Counted.failed_second {n : ℕ} (h : Counted E n flow)
    (hstage : flow.stage = .mfa) (hlt : ¬ MFA_MAX_ATTEMPTS ≤ flow.attempts + 1) :
    Counted E (n + 1) { flow with attempts := flow.attempts + 1 } := by
  obtain ⟨-, hle, heq⟩ := h.at_mfa hstage
  refine ⟨fun hbefore => ?_, fun _ => ?_, fun _ _ => ⟨Nat.succ_le_succ hle, fun hE => ?_⟩⟩
  · have hbefore : flow.stage.isFirst = true := hbefore
    rw [hstage] at hbefore
    cases hbefore
  · omega
  · rw [heq hE]

/-- Past the first factor no wrong code has been checked yet. -/
lemma Counted.first_passes {n : ℕ} (h : Counted E n flow)
    (hfirst : flow.stage.isFirst = true) (hattempts : flow'.attempts = flow.attempts)
    (hzero : E → flow'.stage.isFirst = false → flow.attempts = 0) : Counted E n flow' := by
  obtain rfl := h.before hfirst
  refine ⟨fun _ => rfl, fun _ => by decide, fun _ hpast => ⟨Nat.zero_le _, fun hE => ?_⟩⟩
  rw [hattempts, hzero hE hpast]

lemma Counted.passes {n : ℕ} {request : Request} (h : Counted E n flow)
    (hat : request.isAt flow.stage = true) (hpasses : request.Passes flow flow')
    (hzero : E → flow.stage.isFirst = true → flow'.stage.isFirst = false → flow.attempts = 0) :
    Counted E n flow' := by
  cases request with
  | firstFactor =>
      have hfirst : flow.stage.isFirst = true := by
        rw [beq_iff_eq.mp hat]
        rfl
      exact h.first_passes hfirst hpasses.2.1 fun hE => hzero hE hfirst
  | registration => exact h.first_passes hat hpasses.2.1 fun hE => hzero hE hat
  | secondFactor =>
      obtain ⟨hon, hin, -⟩ := hpasses
      refine ⟨fun hbefore => ?_, fun hnot => absurd hin (hnot.of_onward hon),
        fun hnot => absurd hin (hnot.of_onward hon)⟩
      rw [hon.1] at hbefore
      cases hbefore
  | later =>
      obtain ⟨hon, hamr, hattempts, -⟩ := hpasses
      have hpast : flow.stage.isFirst = false := by
        simp only [Request.isAt, Bool.and_eq_true, Bool.not_eq_true'] at hat
        exact hat.1
      have hpending : Pending flow' → Pending flow := fun hnot => .inr (hamr ▸ hnot.of_onward hon)
      refine ⟨fun hbefore => ?_, fun hnot => h.unpassed (hpending hnot), fun hnot _ => ?_⟩
      · rw [hon.1] at hbefore
        cases hbefore
      · rw [hattempts]
        exact h.counted (hpending hnot) hpast

lemma Inv.counted (h : Inv E S w) (hfree : ∀ j, (w.calls j).writes = false)
    (hstored : w.shared.flow.get = some flow) : Counted E S.card flow :=
  h.stored flow hstored fun j => Pc.counts_of_writes (hfree j)

variable [DecidableEq ι]

lemma next_eq {p : Pc → Bool} (hp : ∀ l, l.isQuiet = true → p l = false)
    (hl : (w.calls i).isQuiet = true) (hl' : l'.isQuiet = true) (j : ι) :
    p ((w.next i g l').calls j) = p (w.calls j) :=
  Pool.next_congr (by rw [hp _ hl', hp _ hl]) j

lemma writer_of_next {l' l : Pc} {j : ι} (hl' : l'.isQuiet = true)
    (hj : (w.next i g l').calls j = l) (hl : l.writes = true) : w.calls j = l := by
  rcases Pool.next_cases hj with ⟨-, rfl⟩ | hj
  · rw [Pc.writes_of_isQuiet hl'] at hl
    cases hl
  · exact hj

/-- **A step that checks nothing.** -/
lemma Inv.quiet_step (h : Inv E S w) (hl : (w.calls i).isQuiet = true)
    (hl' : l'.isQuiet = true) : Inv E S (w.next i w.shared l') := by
  have hwrites : ∀ j, ((w.next i w.shared l').calls j).writes = (w.calls j).writes :=
    next_eq (fun _ => Pc.writes_of_isQuiet) hl hl'
  have hwrong : ∀ j, ((w.next i w.shared l').calls j).isWrong = (w.calls j).isWrong :=
    next_eq (fun _ => Pc.isWrong_of_isQuiet) hl hl'
  have hdiscards : ∀ j, ((w.next i w.shared l').calls j).discards = (w.calls j).discards :=
    next_eq (fun _ => Pc.discards_of_isQuiet) hl hl'
  have hcounts : ∀ j, ((w.next i w.shared l').calls j).counts = (w.calls j).counts :=
    next_eq (fun _ hquiet => Pc.counts_of_writes (Pc.writes_of_isQuiet hquiet)) hl hl'
  constructor
  · simpa only [hwrong] using h.wrong
  · simpa only [hwrites] using h.alone
  · simpa only [hcounts, Pool.next_shared] using h.stored
  · exact fun j flow hj => h.passing j flow (writer_of_next hl' hj rfl)
  · exact fun j request flow hj => h.failing j request flow (writer_of_next hl' hj rfl)
  · exact fun j flow hj => h.counting j flow (writer_of_next hl' hj rfl)
  · simpa only [hdiscards] using h.full
  · exact h.budget

/-- **A credential is checked** for the stored flow, while no other request is to write; `T` are the
requests whose code was wrong by now. -/
lemma Inv.check_step {T : Finset ι} (h : Inv E S w)
    (hfree : ∀ j, (w.calls j).writes = false) (hl' : l'.writes = true)
    (hT : ∀ j, j ∈ T ↔ ((w.next i w.shared l').calls j).isWrong = true)
    (hle : S.card ≤ T.card) (hbudget : T.card ≤ MFA_MAX_ATTEMPTS)
    (hstored : l'.counts = false → T.card = S.card)
    (hpassing : ∀ flow, l' = .passing flow → Counted E T.card flow)
    (hfailing : ∀ request flow, l' = .failing request flow → request ≠ .secondFactor →
      flow.stage = .authenticate ∧ Counted E T.card flow)
    (hcounting : ∀ flow, l' = .failing .secondFactor flow →
      ∃ n, T.card = n + 1 ∧ flow.stage = .mfa ∧ Counted E n flow) :
    Inv E T (w.next i w.shared l') := by
  have honly : ∀ {j l}, (w.next i w.shared l').calls j = l → l.writes = true → l' = l := by
    intro j l hj hl
    rcases Pool.next_cases hj with ⟨-, hself⟩ | hj
    · exact hself
    · rw [← hj, hfree j] at hl
      cases hl
  have hother : ∀ j, ((w.next i w.shared l').calls j).writes = true → j = i :=
    fun _ => Pool.next_only hfree
  constructor
  · exact hT
  · intro j k hj hk
    rw [hother j hj, hother k hk]
  · intro flow hflow hnone
    have hself := hnone i
    rw [Pool.next_self] at hself
    rw [hstored hself]
    exact h.counted hfree hflow
  · exact fun j flow hj => hpassing flow (honly hj rfl)
  · exact fun j request flow hj => hfailing request flow (honly hj rfl)
  · exact fun j flow hj => hcounting flow (honly hj rfl)
  · intro hE j hj
    rcases Pool.next_read hj with ⟨-, hself⟩ | hold
    · rw [Pc.discards_of_writes hl'] at hself
      cases hself
    · exact Nat.le_antisymm hbudget (h.full hE j hold ▸ hle)
  · exact hbudget

lemma Inv.same_wrong (h : Inv E S w) (hl : l'.isWrong = (w.calls i).isWrong) (j : ι) :
    j ∈ S ↔ ((w.next i g l').calls j).isWrong = true := by
  rw [Pool.next_congr hl]
  exact h.wrong j

/-- **What was checked is written.** -/
lemma Inv.write_step (h : Inv E S w) (hi : (w.calls i).writes = true)
    (hl' : l'.writes = false) (hwrong : l'.isWrong = (w.calls i).isWrong)
    (hstored : ∀ flow, g.flow.get = some flow → Counted E S.card flow)
    (hfull : E → l'.discards = true → S.card = MFA_MAX_ATTEMPTS) : Inv E S (w.next i g l') := by
  have hfree : ∀ j, ((w.next i g l').calls j).writes = false :=
    Pool.next_none hl' fun j hj => h.alone j i hj hi
  have hnone : ∀ {j l}, (w.next i g l').calls j = l → l.writes = true → False := by
    intro j l hj hl
    rw [← hj, hfree j] at hl
    cases hl
  constructor
  · exact h.same_wrong hwrong
  · intro j k hj
    rw [hfree j] at hj
    cases hj
  · exact fun flow hflow _ => hstored flow hflow
  · exact fun j flow hj => (hnone hj rfl).elim
  · exact fun j request flow hj => (hnone hj rfl).elim
  · exact fun j flow hj => (hnone hj rfl).elim
  · intro hE j hj
    rcases Pool.next_read hj with ⟨-, hself⟩ | hold
    · exact hfull hE hself
    · exact h.full hE j hold
  · exact h.budget

lemma Inv.passes_step {request : Request} (h : Inv E S w)
    (hi : w.calls i = .loaded request flow) (hfree : ∀ j, (w.calls j).writes = false)
    (hpassed : Counted E S.card flow') : Inv E S (w.next i w.shared (.passing flow')) := by
  refine h.check_step hfree rfl (h.same_wrong (by rw [hi]; rfl)) (Nat.le_refl _) h.budget (fun _ => rfl) ?_
    (fun _ _ hl => by cases hl) (fun _ hl => by cases hl)
  intro flow'' hl
  obtain rfl := Pc.passing.inj hl
  exact hpassed

lemma Inv.fails_first_step {request : Request} (h : Inv E S w)
    (hi : w.calls i = .loaded request flow) (hfree : ∀ j, (w.calls j).writes = false)
    (hstage : flow.stage = .authenticate) (hcounted : Counted E S.card flow) :
    Inv E S (w.next i w.shared (.failing .firstFactor flow)) := by
  refine h.check_step hfree rfl (h.same_wrong (by rw [hi]; rfl)) (Nat.le_refl _) h.budget (fun _ => rfl)
    (fun _ hl => by cases hl) ?_ (fun _ hl => by cases hl)
  intro request flow' hl _
  obtain ⟨-, rfl⟩ := Pc.failing.inj hl
  exact ⟨hstage, hcounted⟩

lemma Inv.fails_second_step {request : Request} (h : Inv E S w)
    (hi : w.calls i = .loaded request flow) (hfree : ∀ j, (w.calls j).writes = false)
    (hstage : flow.stage = .mfa) (hcounted : Counted E S.card flow) :
    Inv E (insert i S) (w.next i w.shared (.failing .secondFactor flow)) := by
  have hnew : i ∉ S := by
    rw [h.wrong, hi]
    nofun
  have hcard : (insert i S).card = S.card + 1 := Finset.card_insert_of_notMem hnew
  refine h.check_step hfree rfl (Pool.next_mem_insert h.wrong rfl) ?_ ?_ (fun hl => by cases hl)
    (fun _ hl => by cases hl) ?_ ?_
  · rw [hcard]
    exact Nat.le_succ _
  · rw [hcard]
    exact (hcounted.at_mfa hstage).1
  · intro request flow' hl hnot
    exact absurd (Pc.failing.inj hl).1.symm hnot
  · intro flow' hl
    obtain ⟨-, rfl⟩ := Pc.failing.inj hl
    exact ⟨S.card, hcard, hstage, hcounted⟩

lemma Inv.save_step (h : Inv E S w) (hi : (w.calls i).writes = true)
    (hnot : (w.calls i).counts = false) (hl' : l'.writes = false)
    (hwrong : l'.isWrong = (w.calls i).isWrong) (hdiscards : l'.discards = false)
    (hcounted : Counted E S.card flow) : Inv E S (w.next i (w.shared.save flow) l') := by
  -- while this request is to write and does not count, nobody counts
  have hnone : ∀ j, (w.calls j).counts = false := by
    intro j
    cases hj : (w.calls j).counts with
    | false => rfl
    | true => rw [← hnot, h.alone i j hi (Pc.writes_of_counts hj), hj]
  refine h.write_step hi hl' hwrong ?_ (fun _ hspent => ?_)
  · intro flow' hflow'
    rcases get_save hflow' with rfl | hold
    · exact hcounted
    · exact h.stored flow' hold hnone
  · rw [hdiscards] at hspent
    cases hspent

lemma Inv.reject_step (h : Inv E S w) (hi : w.calls i = .failing .secondFactor flow)
    (hsaves : w.shared.Saves (w.calls i)) :
    Inv E S (w.next i (w.shared.mfaReject flow) (.rejected .secondFactor flow)) := by
  rw [hi] at hsaves
  obtain ⟨n, hcard, hstage, hcounted⟩ := h.counting i flow hi
  obtain ⟨-, -, heq⟩ := hcounted.at_mfa hstage
  refine h.write_step (by rw [hi]; rfl) rfl (by rw [hi]; rfl) ?_ ?_
  · intro flow' hflow'
    rw [Keys.mfaReject] at hflow'
    split_ifs at hflow' with hspent
    · cases hflow'
    · rw [Keys.save, if_pos (hsaves.resolve_left hspent)] at hflow'
      obtain rfl := Option.some.inj hflow'
      rw [hcard]
      exact hcounted.failed_second hstage hspent
  · intro hE hspent
    have hspent : MFA_MAX_ATTEMPTS ≤ flow.attempts + 1 := of_decide_eq_true hspent
    rw [heq hE, ← hcard] at hspent
    exact Nat.le_antisymm h.budget hspent

/-- **A step** keeps the invariant. -/
lemma Inv.step {outcome : Outcome} (h : Inv E S w)
    (hC : Counts w (.call i outcome)) (hzero : E → StartsAtZero w (.call i outcome))
    (hstep : act w.shared outcome (w.calls i) = some (g, l')) : ∃ T, Inv E T (w.next i g l') := by
  obtain ⟨hchecks, hsaves⟩ := hC
  cases hi : w.calls i with
  | idle request =>
      rw [hi] at hstep
      simp only [act] at hstep
      split at hstep <;> cases hstep <;> exact ⟨S, h.quiet_step (by rw [hi]; rfl) rfl⟩
  | loaded request flow =>
      rw [hi] at hstep
      simp only [act] at hstep
      split_ifs at hstep with hat
      · cases hstep
        exact ⟨S, h.quiet_step (by rw [hi]; rfl) rfl⟩
      · rw [Bool.not_eq_false] at hat
        have hmem : flow ∈ checks (w.calls i) := by
          rw [hi, checks, if_pos hat]
          rfl
        obtain ⟨hstored, hfree⟩ := hchecks flow hmem
        have hcounted : Counted E S.card flow := h.counted hfree hstored
        cases outcome with
        | right flow' =>
            simp only [Option.ite_none_right_eq_some] at hstep
            obtain ⟨hpasses, heq⟩ := hstep
            cases heq
            exact ⟨S, h.passes_step hi hfree (hcounted.passes hat hpasses fun hE => hzero hE flow hmem)⟩
        | wrong =>
            cases request with
            | firstFactor =>
                cases hstep
                exact ⟨S, h.fails_first_step hi hfree (beq_iff_eq.mp hat) hcounted⟩
            | secondFactor =>
                cases hstep
                exact ⟨insert i S, h.fails_second_step hi hfree (beq_iff_eq.mp hat) hcounted⟩
            | registration | later =>
                cases hstep
                exact ⟨S, h.quiet_step (by rw [hi]; rfl) rfl⟩
  | passing flow =>
      rw [hi] at hstep
      cases hstep
      exact ⟨S, h.save_step (by rw [hi]; rfl) (by rw [hi]; rfl) rfl (by rw [hi]; rfl) rfl
        (h.passing i flow hi)⟩
  | failing request flow =>
      cases request with
      | secondFactor =>
          rw [hi] at hstep
          cases hstep
          exact ⟨S, h.reject_step hi hsaves⟩
      | firstFactor | registration | later =>
          rw [hi] at hstep
          cases hstep
          obtain ⟨hstage, hcounted⟩ := h.failing i _ flow hi (by decide)
          exact ⟨S, h.save_step (by rw [hi]; rfl) (by rw [hi]; rfl) rfl (by rw [hi]; rfl) rfl
            (hcounted.failed_first hstage)⟩
  | _ =>
      rw [hi] at hstep
      cases hstep

omit [DecidableEq ι] in
lemma Inv.without_flow (h : Inv E S w) (hg : g.flow = none) : Inv E S ⟨g, w.calls⟩ := by
  refine ⟨h.wrong, h.alone, ?_, h.passing, h.failing, h.counting, h.full, h.budget⟩
  intro flow hflow
  rw [hg] at hflow
  cases hflow

omit [DecidableEq ι] in
/-- **The surroundings** keep the invariant. -/
lemma Inv.env_step {e : Env} (h : Inv E S w) (hstep : env w.shared e = some g) :
    Inv E S ⟨g, w.calls⟩ := by
  cases e with
  | tick d =>
      cases hstep
      exact ⟨h.wrong, h.alone, h.stored, h.passing, h.failing, h.counting, h.full, h.budget⟩
  | lapse =>
      obtain ⟨key, hkey, rfl⟩ := Option.map_eq_some_iff.mp hstep
      obtain ⟨-, rfl⟩ := Slot.expire_eq_some hkey
      exact h.without_flow rfl
  | delete =>
      cases hstep
      exact h.without_flow rfl

/-- **The invariant along a schedule.** -/
lemma Inv.run (h : Inv E S w) (hmeets : (calls ι).machine.Meets Counts w as)
    (hzero : E → (calls ι).machine.Meets StartsAtZero w as)
    (hrun : (calls ι).machine.run w as = some w') : ∃ T, Inv E T w' := by
  have hboth : (calls ι).machine.Meets (fun w a => Counts w a ∧ (E → StartsAtZero w a)) w as := by
    by_cases hE : E
    · exact (hmeets.and (hzero hE)).mono fun h => ⟨h.1, fun _ => h.2⟩
    · exact hmeets.mono fun h => ⟨h, fun h => absurd h hE⟩
  refine Calls.run_inv (I := fun w => ∃ T, Inv E T w) ?_ ?_ hboth hrun ⟨S, h⟩
  · rintro w i outcome g l' ⟨T, h⟩ ⟨hC, hzero⟩ hstep
    exact h.step hC hzero hstep
  · rintro w e g ⟨T, h⟩ - hstep
    exact ⟨T, h.env_step hstep⟩

/-- **The budget of second-factor attempts**, of a flow as it is created and in every schedule of any number
of requests that all count: no more than `MFA_MAX_ATTEMPTS` wrong codes are checked, and where the first
factor leaves no failed attempt behind, no fewer discard the flow. -/
theorem attempts_budget {e : Entry LoginFlow} (hidle : ∀ i, (w.calls i).isIdle = true)
    (hstored : w.shared.flow = some e) (hnew : e.value.attempts = 0)
    (hmeets : (calls ι).machine.Meets Counts w as) (hrun : (calls ι).machine.run w as = some w') :
    WithinBudget w' ∧ ((calls ι).machine.Meets StartsAtZero w as → FullBudget w') := by
  have hnone : ∀ i l, w.calls i = l → l.isIdle = true := fun i l hl => hl ▸ hidle i
  have hquiet : ∀ i, (w.calls i).isQuiet = true := by
    intro i
    have hi := hidle i
    cases hl : w.calls i <;> rw [hl] at hi <;> first | rfl | cases hi
  have hinv : Inv ((calls ι).machine.Meets StartsAtZero w as) ∅ w := by
    constructor
    · intro i
      rw [Pc.isWrong_of_isQuiet (hquiet i)]
      exact iff_of_false (Finset.notMem_empty i) nofun
    · intro i j hi
      rw [Pc.writes_of_isQuiet (hquiet i)] at hi
      cases hi
    · intro flow hflow _
      rw [hstored, Slot.get_some, Option.some.injEq] at hflow
      subst hflow
      rw [Finset.card_empty]
      exact ⟨fun _ => rfl, fun _ => by decide, fun _ _ => ⟨Nat.zero_le _, fun _ => hnew⟩⟩
    · intro i flow hi
      exact absurd (hnone i _ hi) nofun
    · intro i request flow hi
      exact absurd (hnone i _ hi) nofun
    · intro i flow hi
      exact absurd (hnone i _ hi) nofun
    · intro _ i hi
      rw [Pc.discards_of_isQuiet (hquiet i)] at hi
      cases hi
    · exact Nat.zero_le _
  obtain ⟨T, hlast⟩ := hinv.run hmeets id hrun
  exact ⟨hlast.withinBudget, hlast.fullBudget⟩

end

/-! ## The schedules that go wrong -/

def flowAt (stage : FlowStage) (amr : List String) (attempts : ℕ) : LoginFlow where
  request := { clientId := 3, scopes := ["openid"] }
  stage := stage
  sessionId := if stage = .authenticate then none else some 5
  userId := if stage = .authenticate then none else some 7
  attempts := attempts
  amr := amr
  expiresAt := seconds 600

def guessing : Pool (Fin 7) Keys Pc where
  shared := (⟨500000000, none⟩ : Keys).save (flowAt .mfa ["pwd"] 0)
  calls _ := .idle .secondFactor

def forgotten (n : Fin 7) : Pool (Fin 7) Keys Pc where
  shared := (⟨500000000, none⟩ : Keys).save (flowAt .authenticate [] 0)
  calls i := .idle (if i < n then .firstFactor else .secondFactor)

def wrong (i : Fin 7) (n : ℕ) : List (Pick (Fin 7) Outcome Env) := List.replicate n (.call i .wrong)

def fifthIsRight : List (Pick (Fin 7) Outcome Env) :=
  wrong 0 3 ++ wrong 1 3 ++ wrong 2 3 ++ wrong 3 3 ++
    List.replicate 3 (.call 4 (.right (flowAt .mfa ["pwd"] 4)))

def together : List (Pick (Fin 7) Outcome Env) :=
  wrong 0 1 ++ wrong 1 1 ++ wrong 2 1 ++ wrong 3 1 ++ wrong 4 1 ++ wrong 5 1 ++ wrong 6 1 ++
    wrong 0 2 ++ wrong 1 2 ++ wrong 2 2 ++ wrong 3 2 ++ wrong 4 2 ++ wrong 5 2 ++ wrong 6 2

def lastSecond : List (Pick (Fin 7) Outcome Env) :=
  .env (.tick 598700000000) :: (wrong 0 3 ++ wrong 1 3 ++ wrong 2 3 ++ wrong 3 3 ++ wrong 4 3 ++
    wrong 5 3 ++ wrong 6 3)

/-- **The budget is not exact.**  Seven requests load the flow before one of them counts.  In the last
second of the flow seven requests come one after the other, and none is saved.  After four wrong passwords
the first wrong code discards the flow. -/
theorem budget_not_exact :
    (∀ i, (guessing.calls i).isIdle = true) ∧ (∀ i, ((forgotten 5).calls i).isIdle = true) ∧
    (∃ w, (calls (Fin 7)).machine.run guessing together = some w ∧ ¬ WithinBudget w) ∧
    (∃ w, (calls (Fin 7)).machine.run guessing lastSecond = some w ∧ ¬ WithinBudget w) ∧
    ∃ w, (calls (Fin 7)).machine.run (forgotten 5) (fifthIsRight ++ wrong 5 3) = some w ∧
      w.shared.flow = none ∧ ¬ FullBudget w := by
  have hall : ∀ as, ((calls (Fin 7)).machine.run guessing as).any
        (fun w => ∀ j, (w.calls j).isWrong = true) = true →
      ∃ w, (calls (Fin 7)).machine.run guessing as = some w ∧ ¬ WithinBudget w := by
    intro as h
    obtain ⟨w, hrun, hwrong⟩ := Machine.exists_run_of_any h
    exact ⟨w, hrun, not_withinBudget (of_decide_eq_true hwrong) (by decide)⟩
  refine ⟨by decide, by decide, hall together (by decide +kernel), hall lastSecond (by decide +kernel), ?_⟩
  have hfirst : ((calls (Fin 7)).machine.run (forgotten 5) (fifthIsRight ++ wrong 5 3)).any
      (fun w => w.shared.flow = none ∧ (w.calls 5).discards = true ∧
        ∀ j, (w.calls j).isWrong = true → j = 5) = true := by decide +kernel
  obtain ⟨w, hrun, hw⟩ := Machine.exists_run_of_any hfirst
  obtain ⟨hgone, hdiscards, honly⟩ := of_decide_eq_true hw
  exact ⟨w, hrun, hgone, not_fullBudget hdiscards honly⟩

def fiveCodes : List (Pick (Fin 7) Outcome Env) :=
  List.replicate 3 (.call 0 (.right (flowAt .mfa ["pwd"] 0))) ++ wrong 1 3 ++ wrong 2 3 ++ wrong 3 3 ++
    wrong 4 3 ++ wrong 5 3 ++ wrong 6 1

/-- One after the other, the fifth wrong code discards the flow, and the last request finds none. -/
theorem attempts_budget_inTurn :
    ∃ w, (calls (Fin 7)).machine.run (forgotten 1) fiveCodes = some w ∧
      (w.calls 5).discards = true ∧ w.calls 6 = .refused ∧ WithinBudget w ∧ FullBudget w := by
  have hcounts : (calls (Fin 7)).machine.Meets Counts (forgotten 1) fiveCodes := by decide +kernel
  have hzero : (calls (Fin 7)).machine.Meets StartsAtZero (forgotten 1) fiveCodes := by decide +kernel
  have hlast : ((calls (Fin 7)).machine.run (forgotten 1) fiveCodes).any
      (fun w => (w.calls 5).discards = true ∧ w.calls 6 = .refused) = true := by decide +kernel
  obtain ⟨w, hrun, hw⟩ := Machine.exists_run_of_any hlast
  obtain ⟨hdiscards, hrefused⟩ := of_decide_eq_true hw
  obtain ⟨hwithin, hfull⟩ := attempts_budget (by decide) rfl rfl hcounts hrun
  exact ⟨w, hrun, hdiscards, hrefused, hwithin, hfull hzero⟩

end Ridm.Login.Attempts
