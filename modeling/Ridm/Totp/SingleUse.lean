import Ridm.Totp.RecoveryCodes
import Mathlib.Data.Fintype.Basic

/-!
# Recovery codes are single-use

A call of `verify_recovery` writes back the whole row it read, so two calls that read the same row
undo each other: both may accept the same code, and the later write un-marks what the earlier one
marked.  `code_accepted_twice` has both.

A call does no harm when the row it read is still stored, unchanged, at its `UPDATE` (`RowFound`,
a compare-and-set).  `codes_single_use`: in every schedule of such calls, each code is accepted at
most once, and once accepted it stays marked until its row is gone.
-/

namespace Ridm.Totp

/-! ## What the search finds -/

/-- The code at `i` exists, and is unused. -/
def Unused (codes : List RecoveryCode) (i : ℕ) : Prop :=
  ∃ c, codes[i]? = some c ∧ c.usedAt = none

/-- The code at `i` exists, and is used. -/
def Used (codes : List RecoveryCode) (i : ℕ) : Prop :=
  ∃ c, codes[i]? = some c ∧ c.usedAt.isSome = true

variable {codes : List RecoveryCode} {wanted : String} {rows : List Row} {row : Row} {g' : Store}

lemma Unused.not_used {i : ℕ} (h : Unused codes i) :
    ¬ Used codes i := by
  obtain ⟨c, hc, hnone⟩ := h
  rintro ⟨c', hc', hsome⟩
  rw [hc, Option.some.injEq] at hc'
  rw [← hc', hnone] at hsome
  cases hsome

lemma hitFrom_unused {all : List RecoveryCode} (codes : List RecoveryCode) :
    ∀ (i : ℕ) (hit : Option ℕ), (∀ n, codes[n]? = all[i + n]?) → (∀ k, hit = some k → Unused all k) →
      ∀ k, hitFrom wanted i codes hit = some k → Unused all k := by
  induction codes with
  | nil =>
      intro i hit _ hhit k hk
      exact hhit k hk
  | cons c codes ih =>
      intro i hit hall hhit k hk
      refine ih (i + 1) _ ?_ ?_ k hk
      · intro n
        have hn := hall (n + 1)
        rw [List.getElem?_cons_succ] at hn
        rw [hn]
        congr 1
        omega
      · intro m hm
        split_ifs at hm with hc
        · obtain rfl := Option.some.inj hm
          have h0 := hall 0
          rw [List.getElem?_cons_zero, Nat.add_zero] at h0
          exact ⟨c, h0.symm, by simpa using hc.2⟩
        · exact hhit m hm

/-- **What `findCode` finds**: an unused code. -/
lemma findCode_unused {i : ℕ} (h : findCode wanted rows = some (row, i)) : Unused row.codes i := by
  induction rows with
  | nil => cases h
  | cons r rows ih =>
      simp only [findCode] at h
      split at h
      · rename_i k hk
        simp only [Option.some.injEq, Prod.mk.injEq] at h
        obtain ⟨rfl, rfl⟩ := h
        exact hitFrom_unused r.codes 0 none (by simp) (by simp) k hk
      · exact ih h

/-! ## Marking -/

lemma used_markUsed_self {i : ℕ} (h : Unused codes i) (now : Instant) :
    Used (markUsed codes i now) i := by
  obtain ⟨c, hc, -⟩ := h
  exact ⟨{ c with usedAt := some now }, by simp [markUsed, hc], rfl⟩

lemma used_markUsed {i j : ℕ} (h : Used codes j) (now : Instant) :
    Used (markUsed codes i now) j := by
  obtain ⟨c, hc, hused⟩ := h
  by_cases hij : i = j
  · subst hij
    exact ⟨{ c with usedAt := some now }, by simp [markUsed, hc], rfl⟩
  · exact ⟨c, by simp [markUsed, hij, hc], hused⟩

lemma mem_updateData {id : Uuid} (h : row ∈ updateData rows id codes) :
    row = ⟨id, codes⟩ ∨ row ∈ rows ∧ row.id ≠ id := by
  obtain ⟨r, hr, rfl⟩ := List.mem_map.mp h
  split_ifs with hid
  · exact Or.inl (by rw [← hid])
  · exact Or.inr ⟨hr, hid⟩

section

variable {ι : Type} {lowercase hash : String → String}

/-- The row the call's next step overwrites, as the call read it. -/
def Pc.overwrites : Pc → Option Row
  | .marking row _ _ => some row
  | _ => none

/-- The call of a schedule's start has not begun. -/
def Pc.isIdle : Pc → Bool
  | .idle _ => true
  | _ => false

/-- **The row is still what was read.**  Whenever a call writes a row back, the stored row is the
one the call read. -/
def RowFound (w : Pool ι Store Pc) : Pick ι Unit Env → Prop
  | .call i _ => ((w.calls i).overwrites.all fun row => decide (row ∈ w.shared.rows)) = true
  | .env _ => True

instance (w : Pool ι Store Pc) : ∀ a, Decidable (RowFound w a)
  | .call _ _ => inferInstanceAs (Decidable (_ = true))
  | .env _ => .isTrue trivial

/-- The ids of the stored rows have been given, so no later row gets one of them. -/
def Store.IdsGiven (g : Store) : Prop := ∀ row ∈ g.rows, row.id < g.nextId

/-- Each code was accepted by at most one call, and whatever was accepted is marked used. -/
structure SingleUse (w : Pool ι Store Pc) : Prop where
  once : ∀ i j id n m m', w.calls i = .accepted id n m → w.calls j = .accepted id n m' → i = j
  marked : ∀ i id n m, w.calls i = .accepted id n m →
    ∀ row ∈ w.shared.rows, row.id = id → Used row.codes n

/-- **The invariant.** -/
structure Inv (w : Pool ι Store Pc) : Prop extends SingleUse w where
  table : w.shared.IdsGiven
  unused : ∀ i row n t, w.calls i = .marking row n t → Unused row.codes n
  given : ∀ i id n m, w.calls i = .accepted id n m → id < w.shared.nextId

/-! ## The invariant along a schedule -/

/-- **What a step does**: it reads, and may come to mark an unused code; or it writes the row back
and accepts the code. -/
lemma act_cases {g g' : Store} {l l' : Pc} (h : act lowercase hash g l = some (g', l')) :
    (g' = g ∧ (∀ row n t, l' = .marking row n t → Unused row.codes n) ∧
      ∀ id n m, l' ≠ .accepted id n m) ∨
    ∃ row n t, l = .marking row n t ∧
      g' = { g with rows := updateData g.rows row.id (markUsed row.codes n t) } ∧
      l' = .accepted row.id n (remaining (markUsed row.codes n t)) := by
  cases l with
  | idle code =>
      simp only [act] at h
      split_ifs at h <;>
        (simp only [Option.some.injEq, Prod.mk.injEq] at h; obtain ⟨rfl, rfl⟩ := h; simp)
  | read wanted rows =>
      simp only [act] at h
      split at h
      · simp only [Option.some.injEq, Prod.mk.injEq] at h
        obtain ⟨rfl, rfl⟩ := h
        simp
      · rename_i row i hfind
        simp only [Option.some.injEq, Prod.mk.injEq] at h
        obtain ⟨rfl, rfl⟩ := h
        refine Or.inl ⟨rfl, ?_, by simp⟩
        intro row' n t heq
        simp only [Pc.marking.injEq] at heq
        obtain ⟨rfl, rfl, -⟩ := heq
        exact findCode_unused hfind
  | marking row n t =>
      simp only [act, Option.some.injEq, Prod.mk.injEq] at h
      obtain ⟨rfl, rfl⟩ := h
      exact Or.inr ⟨row, n, t, rfl, rfl, rfl⟩
  | _ => cases h

variable [DecidableEq ι] {w w' : Pool ι Store Pc} {i : ι} {as : List (Pick ι Unit Env)}

/-- **A step that only reads** keeps the invariant. -/
lemma Inv.read_step {l' : Pc} (h : Inv w)
    (hunused : ∀ row n t, l' = .marking row n t → Unused row.codes n)
    (hnot : ∀ id n m, l' ≠ .accepted id n m) : Inv (w.next i w.shared l') := by
  have hold : ∀ j id n m, (w.next i w.shared l').calls j = .accepted id n m →
      w.calls j = .accepted id n m := by
    intro j id n m hj
    exact (Pool.next_cases hj).resolve_left fun hself => hnot id n m hself.2
  constructor
  · constructor
    · intro j k id n m m' hj hk
      exact h.once j k id n m m' (hold j id n m hj) (hold k id n m' hk)
    · intro j id n m hj
      exact h.marked j id n m (hold j id n m hj)
  · exact h.table
  · intro j row n t hj
    rcases Pool.next_cases hj with ⟨-, hself⟩ | hold
    · exact hunused row n t hself
    · exact h.unused j row n t hold
  · intro j id n m hj
    exact h.given j id n m (hold j id n m hj)

lemma accepted_next {id id' : Uuid} {n n' m m' : ℕ} {j : ι}
    (hj : (w.next i g' (.accepted id n m)).calls j = .accepted id' n' m') :
    j = i ∧ id' = id ∧ n' = n ∨ w.calls j = .accepted id' n' m' := by
  rcases Pool.next_cases hj with ⟨hji, hself⟩ | hold
  · simp only [Pc.accepted.injEq] at hself
    exact Or.inl ⟨hji, hself.1.symm, hself.2.1.symm⟩
  · exact Or.inr hold

/-- **The write-back of an unchanged row** keeps the invariant: what was marked stays marked, and
the code it accepts was not accepted before. -/
lemma Inv.write_step {n m : ℕ} {t : Instant} (h : Inv w)
    (hi : w.calls i = .marking row n t) (hrow : row ∈ w.shared.rows) :
    Inv (w.next i { w.shared with rows := updateData w.shared.rows row.id (markUsed row.codes n t) }
      (.accepted row.id n m)) := by
  have hunused := h.unused i row n t hi
  -- an accepted code of this row is marked in it, so it is not the code `n`
  have hnew : ∀ j m', w.calls j ≠ .accepted row.id n m' := by
    intro j m' hj
    exact hunused.not_used (h.marked j row.id n m' hj row hrow rfl)
  constructor
  · constructor
    · intro j k id n' m₁ m₂ hj hk
      rcases accepted_next hj with ⟨rfl, rfl, rfl⟩ | hold
      · rcases accepted_next hk with ⟨rfl, -, -⟩ | hold
        · rfl
        · exact absurd hold (hnew k m₂)
      · rcases accepted_next hk with ⟨rfl, rfl, rfl⟩ | hold'
        · exact absurd hold (hnew j m₁)
        · exact h.once j k id n' m₁ m₂ hold hold'
    · intro j id n' m' hj r hr hid
      rcases accepted_next hj with ⟨rfl, rfl, rfl⟩ | hold
      · rcases mem_updateData hr with rfl | ⟨-, hother⟩
        · exact used_markUsed_self hunused t
        · exact absurd hid hother
      · rcases mem_updateData hr with rfl | ⟨hr, -⟩
        · exact used_markUsed (h.marked j id n' m' hold row hrow hid) t
        · exact h.marked j id n' m' hold r hr hid
  · intro r hr
    rcases mem_updateData hr with rfl | ⟨hr, -⟩
    · exact h.table row hrow
    · exact h.table r hr
  · intro j r n' t' hj
    rcases Pool.next_cases hj with ⟨-, hself⟩ | hold
    · cases hself
    · exact h.unused j r n' t' hold
  · intro j id n' m' hj
    rcases accepted_next hj with ⟨rfl, rfl, rfl⟩ | hold
    · exact h.table row hrow
    · exact h.given j id n' m' hold

omit [DecidableEq ι] in
/-- **A step of the surroundings** keeps the invariant: a new set has an id nobody knows. -/
lemma Inv.env_step {e : Env} (h : Inv w) (hstep : env w.shared e = some g') :
    Inv ⟨g', w.calls⟩ := by
  cases e with
  | tick d =>
      simp only [env, Option.some.injEq] at hstep
      subst hstep
      exact ⟨⟨h.once, h.marked⟩, h.table, h.unused, h.given⟩
  | regenerate hashes =>
      simp only [env, Option.some.injEq] at hstep
      subst hstep
      refine ⟨⟨h.once, ?_⟩, by simp [Store.IdsGiven], h.unused, ?_⟩
      · intro j id n m hj row hrow hid
        rw [List.mem_singleton] at hrow
        rw [hrow] at hid
        exact absurd hid.symm (ne_of_lt (h.given j id n m hj))
      · intro j id n m hj
        exact Nat.lt_succ_of_lt (h.given j id n m hj)
  | remove =>
      simp only [env, Option.some.injEq] at hstep
      subst hstep
      exact ⟨⟨h.once, by simp⟩, by simp [Store.IdsGiven], h.unused, h.given⟩

/-- **Recovery codes are single-use** in every schedule in which every write-back finds the row
its call read: whatever calls run beside each other, and however often the set is regenerated, each
code is accepted at most once and stays marked once it is. -/
theorem codes_single_use (hidle : ∀ i, (w.calls i).isIdle = true) (hgiven : w.shared.IdsGiven)
    (hmeets : (calls ι lowercase hash).machine.Meets RowFound w as)
    (hrun : (calls ι lowercase hash).machine.run w as = some w') : SingleUse w' := by
  have hinv : Inv w' := by
    refine Calls.run_inv (I := Inv) ?_ ?_ hmeets hrun ?_
    · intro w i k g' l' h hC hstep
      rcases act_cases hstep with ⟨rfl, hunused, hnot⟩ | ⟨row, n, t, hi, rfl, rfl⟩
      · exact h.read_step hunused hnot
      · have hrow : row ∈ w.shared.rows := by simpa [RowFound, hi, Pc.overwrites] using hC
        exact h.write_step hi hrow
    · intro w e g' h _ hstep
      exact h.env_step hstep
    · have hnone : ∀ i l, w.calls i = l → l.isIdle = true := fun i l hl => hl ▸ hidle i
      refine ⟨⟨?_, ?_⟩, hgiven, ?_, ?_⟩
      · intro i j id n m m' hi
        exact absurd (hnone i _ hi) (by simp [Pc.isIdle])
      · intro i id n m hi
        exact absurd (hnone i _ hi) (by simp [Pc.isIdle])
      · intro i row n t hi
        exact absurd (hnone i _ hi) (by simp [Pc.isIdle])
      · intro i id n m hi
        exact absurd (hnone i _ hi) (by simp [Pc.isIdle])
  exact hinv.toSingleUse

end

/-! ## The schedules that go wrong -/

def lower (s : String) : String := String.ofList (s.toList.map Char.toLower)

def sha256 (code : String) : String :=
  if code = "abcde23456" then "Pzyn0MPaeU6U-bZjr4nsk1ZrHsO7EXgY6s9AGHoOVKs"
  else "IqsLpkiaWXr4Cx6kwvfKGGpWJVLER3W-fXgsVkbt52o"

def codeRace : Pool (Fin 3) Store Pc where
  shared :=
    { now := seconds 0
      rows := [⟨1, [⟨"Pzyn0MPaeU6U-bZjr4nsk1ZrHsO7EXgY6s9AGHoOVKs", none⟩,
        ⟨"IqsLpkiaWXr4Cx6kwvfKGGpWJVLER3W-fXgsVkbt52o", none⟩]⟩]
      nextId := 2 }
  calls
    | 0 => .idle "abcde-23456"
    | 1 => .idle "ABCDE 23456"
    | 2 => .idle "fghij-23456"

def steps (i : Fin 3) (n : ℕ) : List (Pick (Fin 3) Unit Env) := List.replicate n (.call i ())

/-- **A code accepted twice, and another un-marked.**  Calls 0 and 1 both read the row before
either writes it: both accept the first code.  Call 0 reads the row, call 2 spends the second code,
and the write of call 0 makes that code unused again. -/
theorem code_accepted_twice :
    (∀ i, (codeRace.calls i).isIdle = true) ∧ codeRace.shared.IdsGiven ∧
    (∃ w, (calls (Fin 3) lower sha256).machine.run codeRace (steps 0 2 ++ steps 1 3 ++ steps 0 1) =
        some w ∧ w.calls 0 = .accepted 1 0 1 ∧ w.calls 1 = .accepted 1 0 1 ∧ ¬ SingleUse w) ∧
    ∃ w, (calls (Fin 3) lower sha256).machine.run codeRace (steps 0 2 ++ steps 2 3 ++ steps 0 1) =
        some w ∧ w.calls 2 = .accepted 1 1 1 ∧ (∃ row ∈ w.shared.rows, row.id = 1 ∧
          Unused row.codes 1) ∧ ¬ SingleUse w := by
  refine ⟨by decide, by simp [Store.IdsGiven, codeRace], ⟨_, rfl, rfl, rfl, fun h => ?_⟩,
    ⟨_, rfl, rfl, ⟨_, .head _, rfl, _, rfl, rfl⟩, fun h => ?_⟩⟩
  · exact absurd (h.once 0 1 1 0 1 1 rfl rfl) (by decide)
  · obtain ⟨c, hc, hused⟩ := h.marked 2 1 1 1 rfl _ (.head _) rfl
    exact absurd hused (Option.some.inj hc ▸ by decide)

def inTurn : List (Pick (Fin 3) Unit Env) := steps 0 3 ++ steps 2 3 ++ steps 1 2

/-- In turn, the first code is accepted once and refused the second time. -/
theorem codes_single_use_inTurn :
    ∃ w, (calls (Fin 3) lower sha256).machine.run codeRace inTurn = some w ∧
      w.calls 0 = .accepted 1 0 1 ∧ w.calls 2 = .accepted 1 1 0 ∧ w.calls 1 = .refused ∧
      SingleUse w := by
  refine ⟨_, rfl, rfl, rfl, rfl, ?_⟩
  have hmeets : (calls (Fin 3) lower sha256).machine.Meets RowFound codeRace inTurn := by decide
  exact codes_single_use (by decide) (by simp [Store.IdsGiven, codeRace]) hmeets rfl

end Ridm.Totp
