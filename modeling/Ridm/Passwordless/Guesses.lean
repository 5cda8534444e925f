import Mathlib.Data.Finset.Card
import Mathlib.Data.Fintype.Basic
import Ridm.Passwordless.Model

/-!
# A code is accepted once, and guessed five times

`check_code` compares a guess with the record it has read, and what it writes is for that record.  Two
calls that have read the same record both compare, and both may be right; a wrong guess that was read
before a deletion puts the record back (`code_guessed_again` has all of it).

A guess that is compared with what is stored, while no other call has compared and is yet to write
(`Fresh`), is one that no other call can lose.  `code_single_use` is about the schedules of such guesses:
one is accepted, `OTP_MAX_ATTEMPTS` are compared in vain, and a call that starts when the code has been
accepted or spent compares nothing.

The invariant keeps the set of the calls that have guessed wrong beside the record that counts them.
-/

namespace Ridm.Passwordless

open Users (OTP_MAX_ATTEMPTS Hash)

namespace Check

/-- The call has not begun. -/
def isIdle : Check → Bool
  | .idle _ => true
  | _ => false

/-- The call has compared, and its `DEL` or `SET` is to come. -/
def writes : Check → Bool
  | .accepting _ | .rejecting _ => true
  | _ => false

/-- The call has compared a wrong guess. -/
def isWrong : Check → Bool
  | .rejecting _ | .rejected _ => true
  | _ => false

def hasCompared : Check → Bool
  | .accepting _ | .accepted _ | .rejecting _ | .rejected _ => true
  | _ => false

/-- The code was accepted or spent by this call. -/
def ends : Check → Bool
  | .accepted _ => true
  | .rejected rec => rec.isSpent
  | _ => false

/-- The call has returned the user. -/
def isAccepted : Check → Bool
  | .accepted _ => true
  | _ => false

variable {l' : Check} {g : Store} {l : Check}

lemma hasCompared_of_writes (h : l.writes = true) : l.hasCompared = true := by
  cases l <;> first | rfl | cases h

lemma hasCompared_of_isWrong (h : l.isWrong = true) : l.hasCompared = true := by
  cases l <;> first | rfl | cases h

lemma hasCompared_of_ends (h : l.ends = true) : l.hasCompared = true := by
  cases l <;> first | rfl | cases h

lemma not_ends_of_writes (h : l.writes = true) : l.ends = false := by
  cases l <;> first | rfl | cases h

lemma ends_of_isAccepted (h : l.isAccepted = true) : l.ends = true := by
  cases l <;> first | rfl | cases h

end Check

section

variable {ι : Type} {hash : Hash}

variable {rec : OtpRecord} {key : Slot OtpRecord} {code : String}

lemma checkCode_of_ends {now : Instant} (h : l.ends = true) :
    checkCode hash now key l = none := by
  cases l <;> first | rfl | cases h

/-- The record that the call's next step compares with. -/
def Store.compares (hash : Hash) (g : Store) : Check → Option OtpRecord
  | .read code rec => if rec.judge hash g.now code = .expired then none else some rec
  | _ => none

/-- **Every guess is compared with what is stored**, while no other call that has compared is yet to
write. -/
def Fresh (hash : Hash) (w : Pool ι Store Check) : Pick ι Unit Env → Prop
  | .call i _ => ∀ rec ∈ w.shared.compares hash (w.calls i),
      w.shared.code.get = some rec ∧ ∀ j, (w.calls j).writes = false
  | .env _ => True

instance [Fintype ι] (w : Pool ι Store Check) : DecidablePred (Fresh hash w)
  | .call i _ => inferInstanceAs (Decidable (∀ rec ∈ w.shared.compares hash (w.calls i),
      w.shared.code.get = some rec ∧ ∀ j, (w.calls j).writes = false))
  | .env _ => .isTrue trivial

/-- One call is told the user, and no more than the budget have guessed wrong. -/
structure SingleUse (w : Pool ι Store Check) : Prop where
  once : ∀ i j, (w.calls i).isAccepted = true → (w.calls j).isAccepted = true → i = j
  budget : ∀ S : Finset ι, (∀ i ∈ S, (w.calls i).isWrong = true) → S.card ≤ OTP_MAX_ATTEMPTS

/-- **The invariant**, with the set of the calls that have guessed wrong.  The stored record counts
them, but for a guess that is yet to be written. -/
structure Inv (S : Finset ι) (w : Pool ι Store Check) : Prop where
  wrong : ∀ i, i ∈ S ↔ (w.calls i).isWrong = true
  alone : ∀ i j, (w.calls i).writes = true → (w.calls j).writes = true → i = j
  stored : ∀ rec, w.shared.code.get = some rec → rec.attempts < OTP_MAX_ATTEMPTS ∧
    ((∀ i, (w.calls i).writes = false) → rec.attempts = S.card)
  rejecting : ∀ i rec, w.calls i = .rejecting rec → rec.attempts + 1 = S.card
  ended : ∀ i, (w.calls i).ends = true → w.shared.code = none ∧ ∀ j, (w.calls j).writes = false
  once : ∀ i j, (w.calls i).isAccepted = true → (w.calls j).isAccepted = true → i = j
  budget : S.card ≤ OTP_MAX_ATTEMPTS

variable {S : Finset ι} {w w' u : Pool ι Store Check} {i j : ι} {as bs : List (Pick ι Unit Env)}

lemma Inv.singleUse (h : Inv S w) : SingleUse w := by
  refine ⟨h.once, ?_⟩
  intro T hT
  have hsub : T ⊆ S := fun i hi => (h.wrong i).mpr (hT i hi)
  exact Nat.le_trans (Finset.card_le_card hsub) h.budget

lemma Inv.not_ended (h : Inv S w) (hi : (w.calls i).writes = true) (j : ι) :
    (w.calls j).ends = false := by
  cases hj : (w.calls j).ends with
  | false => rfl
  | true =>
      have hnot := (h.ended j hj).2 i
      rw [hi] at hnot
      cases hnot

lemma Inv.not_ended_of_stored (h : Inv S w) (hrec : w.shared.code.get = some rec)
    (j : ι) : (w.calls j).ends = false := by
  cases hj : (w.calls j).ends with
  | false => rfl
  | true =>
      rw [(h.ended j hj).1] at hrec
      cases hrec

variable [DecidableEq ι]

lemma next_iff {p : Check → Bool}
    (hp : ∀ l, p l = true → l.hasCompared = true) (hl : (w.calls i).hasCompared = false)
    (hl' : l'.hasCompared = false) (j : ι) : p ((w.next i g l').calls j) = p (w.calls j) := by
  have hfalse : ∀ l : Check, l.hasCompared = false → p l = false := by
    intro l hl
    cases hpl : p l with
    | false => rfl
    | true =>
        rw [hp l hpl] at hl
        cases hl
  exact Pool.next_congr (by rw [hfalse _ hl', hfalse _ hl]) j

lemma Inv.same_wrong (h : Inv S w) (hl : l'.isWrong = (w.calls i).isWrong) (j : ι) :
    j ∈ S ↔ ((w.next i g l').calls j).isWrong = true := by
  rw [Pool.next_congr hl]
  exact h.wrong j

/-- **A step that does not compare**, and leaves the record or deletes it. -/
lemma Inv.quiet_step (h : Inv S w) (hl : (w.calls i).hasCompared = false)
    (hl' : l'.hasCompared = false) (hcode : g.code = w.shared.code ∨ g.code = none) :
    Inv S (w.next i g l') := by
  have hwrites : ∀ j, ((w.next i g l').calls j).writes = (w.calls j).writes :=
    next_iff (fun _ => Check.hasCompared_of_writes) hl hl'
  have hends : ∀ j, ((w.next i g l').calls j).ends = (w.calls j).ends :=
    next_iff (fun _ => Check.hasCompared_of_ends) hl hl'
  have haccepted : ∀ j, ((w.next i g l').calls j).isAccepted = (w.calls j).isAccepted :=
    next_iff (fun _ hl => Check.hasCompared_of_ends (Check.ends_of_isAccepted hl)) hl hl'
  have hwrong : ∀ j, ((w.next i g l').calls j).isWrong = (w.calls j).isWrong :=
    next_iff (fun _ => Check.hasCompared_of_isWrong) hl hl'
  constructor
  · simpa only [hwrong] using h.wrong
  · simpa only [hwrites] using h.alone
  · intro rec hrec
    simp only [Pool.next_shared] at hrec
    rcases hcode with hcode | hcode
    · rw [hcode] at hrec
      simpa only [hwrites] using h.stored rec hrec
    · rw [hcode] at hrec
      cases hrec
  · intro j rec hj
    rcases Pool.next_cases hj with ⟨-, rfl⟩ | hj
    · cases hl'
    · exact h.rejecting j rec hj
  · intro j hj
    rw [hends] at hj
    obtain ⟨hnone, hnot⟩ := h.ended j hj
    refine ⟨?_, by simpa only [hwrites] using hnot⟩
    rcases hcode with hcode | hcode
    · exact hcode.trans hnone
    · exact hcode
  · simpa only [haccepted] using h.once
  · exact h.budget

/-- **A guess is compared** with what is stored, while no other call is yet to write: it ends nothing, and
`T` are the calls that have guessed wrong by now. -/
lemma Inv.compare_step {T : Finset ι} (h : Inv S w)
    (hrec : w.shared.code.get = some rec) (hfree : ∀ j, (w.calls j).writes = false)
    (hl' : l'.writes = true) (hT : ∀ j, j ∈ T ↔ ((w.next i w.shared l').calls j).isWrong = true)
    (hcount : ∀ rec', l' = .rejecting rec' → rec'.attempts + 1 = T.card)
    (hbudget : T.card ≤ OTP_MAX_ATTEMPTS) : Inv T (w.next i w.shared l') := by
  have hends : ∀ j, ((w.next i w.shared l').calls j).ends = false := by
    refine Pool.next_none (Check.not_ends_of_writes hl') fun j hj => ?_
    rw [h.not_ended_of_stored hrec j] at hj
    cases hj
  have hother : ∀ j, ((w.next i w.shared l').calls j).writes = true → j = i :=
    fun _ => Pool.next_only hfree
  constructor
  · exact hT
  · intro j k hj hk
    rw [hother j hj, hother k hk]
  · intro rec' hrec'
    refine ⟨(h.stored rec' hrec').1, fun hnone => ?_⟩
    have hself := hnone i
    rw [Pool.next_self, hl'] at hself
    cases hself
  · intro j rec' hj
    have hji : j = i := hother j (by rw [hj]; rfl)
    rw [hji, Pool.next_self] at hj
    exact hcount rec' hj
  · intro j hj
    rw [hends j] at hj
    cases hj
  · intro j k hj
    have hj' := Check.ends_of_isAccepted hj
    rw [hends j] at hj'
    cases hj'
  · exact hbudget

/-- **What was compared is written**: `key` is nothing, or a record that counts all wrong guesses. -/
lemma Inv.write_step (h : Inv S w) (hi : (w.calls i).writes = true) (hl' : l'.writes = false)
    (hwrong : l'.isWrong = (w.calls i).isWrong)
    (hkey : ∀ rec, key.get = some rec → rec.attempts < OTP_MAX_ATTEMPTS ∧ rec.attempts = S.card)
    (hends : l'.ends = true → key = none) : Inv S (w.next i { w.shared with code := key } l') := by
  set w' := w.next i { w.shared with code := key } l'
  have hfree : ∀ j, (w'.calls j).writes = false := Pool.next_none hl' fun j hj => h.alone j i hj hi
  -- a call that ends the code is this one
  have honly : ∀ j, (w'.calls j).ends = true → j = i := fun _ => Pool.next_only (h.not_ended hi)
  constructor
  · exact h.same_wrong hwrong
  · intro j k hj
    rw [hfree j] at hj
    cases hj
  · intro rec hrec
    obtain ⟨hlt, hcard⟩ := hkey rec hrec
    exact ⟨hlt, fun _ => hcard⟩
  · intro j rec hj
    have hnot := hfree j
    rw [hj] at hnot
    cases hnot
  · intro j hj
    obtain rfl := honly j hj
    rw [Pool.next_self] at hj
    exact ⟨hends hj, hfree⟩
  · intro j k hj hk
    rw [honly j (Check.ends_of_isAccepted hj), honly k (Check.ends_of_isAccepted hk)]
  · exact h.budget

lemma Inv.right_step (h : Inv S w) (hi : w.calls i = .read code rec)
    (hrec : w.shared.code.get = some rec) (hfree : ∀ j, (w.calls j).writes = false) :
    Inv S (w.next i w.shared (.accepting rec)) :=
  h.compare_step hrec hfree rfl (h.same_wrong (by rw [hi]; rfl)) nofun h.budget

lemma Inv.wrong_step (h : Inv S w) (hi : w.calls i = .read code rec)
    (hrec : w.shared.code.get = some rec) (hfree : ∀ j, (w.calls j).writes = false) :
    Inv (insert i S) (w.next i w.shared (.rejecting rec)) := by
  obtain ⟨hlt, hcount⟩ := h.stored rec hrec
  have hnew : i ∉ S := by
    rw [h.wrong, hi]
    nofun
  have hcard : (insert i S).card = rec.attempts + 1 := by
    rw [Finset.card_insert_of_notMem hnew, hcount hfree]
  refine h.compare_step hrec hfree rfl (Pool.next_mem_insert h.wrong rfl) ?_ ?_
  · intro rec' hrec'
    cases hrec'
    exact hcard.symm
  · rw [hcard]
    exact hlt

/-- **A step** keeps the invariant, when a guess it compares is compared with what is stored. -/
lemma Inv.step (h : Inv S w) (hC : Fresh hash w (.call i ()))
    (hstep : (calls ι hash).act i w.shared (w.calls i) () = some (g, l')) :
    ∃ T, Inv T (w.next i g l') := by
  obtain ⟨⟨key, l⟩, hact, heq⟩ := Option.map_eq_some_iff.mp hstep
  cases heq
  cases hi : w.calls i with
  | idle code =>
      rw [hi] at hact
      refine ⟨S, h.quiet_step (by rw [hi]; rfl) ?_ (.inl ?_)⟩ <;>
        (simp only [checkCode] at hact; split at hact <;> cases hact <;> rfl)
  | read code rec =>
      have hcompares : rec.judge hash w.shared.now code ≠ .expired →
          w.shared.code.get = some rec ∧ ∀ j, (w.calls j).writes = false := by
        intro hjudge
        refine hC rec ?_
        rw [hi, Store.compares, if_neg hjudge]
        rfl
      rw [hi, checkCode] at hact
      cases hjudge : rec.judge hash w.shared.now code with
      | expired =>
          rw [hjudge] at hact
          cases hact
          exact ⟨S, h.quiet_step (by rw [hi]; rfl) rfl (.inl rfl)⟩
      | right =>
          rw [hjudge] at hact
          cases hact
          obtain ⟨hrec, hfree⟩ := hcompares (by rw [hjudge]; decide)
          exact ⟨S, h.right_step hi hrec hfree⟩
      | wrong =>
          rw [hjudge] at hact
          cases hact
          obtain ⟨hrec, hfree⟩ := hcompares (by rw [hjudge]; decide)
          exact ⟨insert i S, h.wrong_step hi hrec hfree⟩
  | dropping =>
      rw [hi] at hact
      cases hact
      exact ⟨S, h.quiet_step (by rw [hi]; rfl) rfl (.inr rfl)⟩
  | accepting rec =>
      rw [hi] at hact
      cases hact
      refine ⟨S, h.write_step (by rw [hi]; rfl) rfl (by rw [hi]; rfl) ?_ fun _ => rfl⟩
      intro rec' hrec'
      cases hrec'
  | rejecting rec =>
      rw [hi] at hact
      cases hact
      have hcount := h.rejecting i rec hi
      refine ⟨S, h.write_step (by rw [hi]; rfl) rfl (by rw [hi]; rfl) ?_ fun hspent => if_pos hspent⟩
      intro rec' hrec'
      rw [OtpRecord.countDown] at hrec'
      split_ifs at hrec' with hspent
      · cases hrec'
      · obtain rfl := Option.some.inj hrec'
        exact ⟨by simpa [OtpRecord.isSpent] using hspent, hcount⟩
  | _ =>
      rw [hi] at hact
      cases hact

omit [DecidableEq ι] in
/-- **The surroundings** keep the invariant. -/
lemma Inv.env_step {e : Env} (h : Inv S w) (hstep : env w.shared e = some g) :
    Inv S ⟨g, w.calls⟩ := by
  cases e with
  | tick d =>
      cases hstep
      exact ⟨h.wrong, h.alone, h.stored, h.rejecting, h.ended, h.once, h.budget⟩
  | lapse =>
      obtain ⟨key, hkey, rfl⟩ := Option.map_eq_some_iff.mp hstep
      obtain ⟨-, rfl⟩ := Slot.expire_eq_some hkey
      exact ⟨h.wrong, h.alone, nofun, h.rejecting, fun j hj => ⟨rfl, (h.ended j hj).2⟩, h.once, h.budget⟩

/-- **The invariant along a schedule.** -/
lemma Inv.run (h : Inv S w) (hmeets : (calls ι hash).machine.Meets (Fresh hash) w as)
    (hrun : (calls ι hash).machine.run w as = some u) : ∃ T, Inv T u := by
  refine Calls.run_inv (I := fun w => ∃ T, Inv T w) ?_ ?_ hmeets hrun ⟨S, h⟩
  · rintro w i ⟨⟩ g l' ⟨T, h⟩ hC hstep
    exact h.step hC hstep
  · rintro w e g ⟨T, h⟩ - hstep
    exact ⟨T, h.env_step hstep⟩

omit [DecidableEq ι] in
lemma act_of_ends (hi : (w.calls i).ends = true) :
    (calls ι hash).act i w.shared (w.calls i) () ≠ some (g, l') := by
  intro hstep
  obtain ⟨r, hact, -⟩ := Option.map_eq_some_iff.mp hstep
  rw [checkCode_of_ends hi] at hact
  cases hact

omit [DecidableEq ι] in
lemma act_of_none (hnone : w.shared.code = none)
    (hj : (w.calls j).isIdle = true ∨ w.calls j = .absent)
    (hstep : (calls ι hash).act j w.shared (w.calls j) () = some (g, l')) : l' = .absent := by
  rcases hj with hj | hj
  · cases hl : w.calls j with
    | idle code =>
        rw [hl] at hstep
        simp only [calls, checkCode, hnone, Slot.get_none] at hstep
        cases hstep
        rfl
    | _ =>
        rw [hl] at hj
        cases hj
  · rw [hj] at hstep
    cases hstep

/-- **After the end**: a call that had not begun finds nothing. -/
lemma Inv.run_of_ended (h : Inv S u) (hi : (u.calls i).ends = true) (hj : (u.calls j).isIdle = true)
    (hmeets : (calls ι hash).machine.Meets (Fresh hash) u bs)
    (hrun : (calls ι hash).machine.run u bs = some w') : (w'.calls j).hasCompared = false := by
  have hinv := Calls.run_inv (I := fun w => (∃ T, Inv T w) ∧ (w.calls i).ends = true ∧
    ((w.calls j).isIdle = true ∨ w.calls j = .absent)) ?_ ?_ hmeets hrun ⟨⟨S, h⟩, hi, .inl hj⟩
  · obtain ⟨-, -, hidle | habsent⟩ := hinv
    · cases hl : w'.calls j <;> rw [hl] at hidle <;> first | rfl | cases hidle
    · rw [habsent]
      rfl
  · rintro w k ⟨⟩ g l' ⟨⟨T, h⟩, hi, hj⟩ hC hstep
    refine ⟨h.step hC hstep, ?_, ?_⟩
    · by_cases hik : i = k
      · rw [← hik] at hstep
        exact absurd hstep (act_of_ends hi)
      · rw [Pool.next_of_ne w hik]
        exact hi
    · by_cases hjk : j = k
      · rw [← hjk] at hstep
        rw [← hjk, Pool.next_self]
        exact .inr (act_of_none (h.ended i hi).1 hj hstep)
      · rw [Pool.next_of_ne w hjk]
        exact hj
  · rintro w e g ⟨⟨T, h⟩, hi, hj⟩ - hstep
    exact ⟨⟨T, h.env_step hstep⟩, hi, hj⟩

/-- **A code is accepted once and guessed at most `OTP_MAX_ATTEMPTS` times**, in every schedule of any
number of calls whose guesses are compared with what is stored; and no call that starts when it has been
accepted or spent compares with it. -/
theorem code_single_use {e : Entry OtpRecord} (hidle : ∀ i, (w.calls i).isIdle = true)
    (hstored : w.shared.code = some e) (hfresh : e.value.attempts = 0)
    (hmeets : (calls ι hash).machine.Meets (Fresh hash) w (as ++ bs))
    (has : (calls ι hash).machine.run w as = some u) (hbs : (calls ι hash).machine.run u bs = some w') :
    SingleUse w' ∧ ∀ i j, (u.calls i).ends = true → (u.calls j).isIdle = true →
      (w'.calls j).hasCompared = false := by
  have hnone : ∀ i, (w.calls i).hasCompared = false := by
    intro i
    have hi := hidle i
    cases hl : w.calls i <;> rw [hl] at hi <;> first | rfl | cases hi
  have hnot : ∀ {p : Check → Bool}, (∀ l, p l = true → l.hasCompared = true) → ∀ i, p (w.calls i) ≠ true := by
    intro p hp i hi
    have := hp _ hi
    rw [hnone i] at this
    cases this
  have hinv : Inv ∅ w := by
    constructor
    · intro i
      refine iff_of_false (Finset.notMem_empty i) (hnot (fun _ => Check.hasCompared_of_isWrong) i)
    · intro i j hi
      exact absurd hi (hnot (fun _ => Check.hasCompared_of_writes) i)
    · intro rec hrec
      rw [hstored, Slot.get_some, Option.some.injEq] at hrec
      rw [← hrec, hfresh]
      exact ⟨by decide, fun _ => rfl⟩
    · intro i rec hi
      have := hnone i
      rw [hi] at this
      cases this
    · intro i hi
      exact absurd hi (hnot (fun _ => Check.hasCompared_of_ends) i)
    · intro i j hi
      exact absurd (Check.ends_of_isAccepted hi) (hnot (fun _ => Check.hasCompared_of_ends) i)
    · exact Nat.zero_le _
  obtain ⟨hfirst, hthen⟩ := hmeets.of_append has
  obtain ⟨T, hu⟩ := hinv.run hfirst has
  obtain ⟨T', hlast⟩ := hu.run hthen hbs
  exact ⟨hlast.singleUse, fun i j hi hj => hu.run_of_ended hi hj hthen hbs⟩

end

/-! ## The schedules that go wrong -/

def sha256 (code : String) : String :=
  if code = "123456" then "jZae727K08KaOmKSgOaGzww_XVqGr_PKEgIMkjrcbJI" else "other"

def otpRace : Pool (Fin 8) Store Check where
  shared := ⟨seconds 0, storeCode sha256 7 "123456" "+15550100" (seconds 0)⟩
  calls i := .idle (if i < 2 then "123456" else "000000")

def steps (i : Fin 8) (n : ℕ) : List (Pick (Fin 8) Unit Env) := List.replicate n (.call i ())

def allRead : List (Pick (Fin 8) Unit Env) :=
  steps 2 1 ++ steps 3 1 ++ steps 4 1 ++ steps 5 1 ++ steps 6 1 ++ steps 7 1

def allWritten : List (Pick (Fin 8) Unit Env) :=
  steps 2 2 ++ steps 3 2 ++ steps 4 2 ++ steps 5 2 ++ steps 6 2 ++ steps 7 2

/-- **A code accepted twice, guessed six times, and compared with when it has been accepted.**  Calls 0
and 1 read the record before either deletes it.  All wrong guesses read the record before one writes it.
A wrong guess reads the record, the code is accepted, the guess puts the record back, and the second call
with the right code starts. -/
theorem code_guessed_again :
    (∀ i, (otpRace.calls i).isIdle = true) ∧
    (∃ w, (calls (Fin 8) sha256).machine.run otpRace (steps 0 1 ++ steps 1 3 ++ steps 0 2) = some w ∧
      (w.calls 0).isAccepted = true ∧ (w.calls 1).isAccepted = true ∧ ¬ SingleUse w) ∧
    (∃ w, (calls (Fin 8) sha256).machine.run otpRace (allRead ++ allWritten) = some w ∧
      ¬ SingleUse w) ∧
    ∃ u w, (calls (Fin 8) sha256).machine.run otpRace (steps 2 1 ++ steps 0 3) = some u ∧
      (u.calls 0).ends = true ∧ (u.calls 1).isIdle = true ∧
      (calls (Fin 8) sha256).machine.run u (steps 2 2 ++ steps 1 3) = some w ∧
      (w.calls 1).isAccepted = true := by
  refine ⟨by decide, ⟨_, rfl, rfl, rfl, fun h => ?_⟩, ⟨_, rfl, fun h => ?_⟩,
    ⟨_, _, rfl, rfl, rfl, rfl, rfl⟩⟩
  · exact absurd (h.once 0 1 rfl rfl) (by decide)
  · exact absurd (h.budget {2, 3, 4, 5, 6, 7} (by decide)) (by decide)

/-- In turn, the fifth wrong guess spends the code, and the right one comes too late. -/
theorem code_single_use_inTurn :
    ∃ u w, (calls (Fin 8) sha256).machine.run otpRace
        (steps 2 3 ++ steps 3 3 ++ steps 4 3 ++ steps 5 3 ++ steps 6 3) = some u ∧
      (calls (Fin 8) sha256).machine.run u (steps 0 1) = some w ∧
      (u.calls 6).ends = true ∧ w.calls 0 = .absent ∧ SingleUse w ∧
      ∀ i j, (u.calls i).ends = true → (u.calls j).isIdle = true → (w.calls j).hasCompared = false := by
  refine ⟨_, _, rfl, rfl, rfl, rfl, ?_⟩
  have hmeets : (calls (Fin 8) sha256).machine.Meets (Fresh sha256) otpRace
      ((steps 2 3 ++ steps 3 3 ++ steps 4 3 ++ steps 5 3 ++ steps 6 3) ++ steps 0 1) := by decide
  exact code_single_use (by decide) rfl rfl hmeets rfl rfl

end Ridm.Passwordless
