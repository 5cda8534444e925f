import Mathlib.Data.Finset.Insert

/-!
# Interleavings of calls over one shared store

A concurrent program is given by what *one* call does in *one* atomic step.  Everything else is
generic, and lives here.

* `Machine` — a system that takes one labelled step at a time; a label that is not enabled gives
  `none`.  `Machine.run` executes a whole schedule, so a concrete schedule can be evaluated.
* `Machine.Meets C` — every step of a schedule meets a condition on the state it is taken in.
  A property that only holds of well-behaved schedules is stated over `Meets`.
  `Machine.Sometime C` is the dual, some step meets it, for what comes about in a schedule.
* `Calls` — the atomic steps of a call over a shared store, and those of the surroundings (a
  clock, an expiring key).  `Calls.machine` lets any number of calls, indexed by an arbitrary
  type, run interleaved.

The rules are the usual ones.  `Machine.run_inv` turns what one step preserves into what a whole
schedule preserves, and `Calls.run_inv` is the same for calls.  `Calls.once_marked` and
`Calls.after_mark` are for what holds from some event on (a deletion, a decision), with the event
recorded as a mark on the call that caused it; `Calls.take_unique` is the argument behind every
"handed out once": what is taken is gone, and nothing puts it back.
-/

/-- A system that takes one labelled atomic step at a time.  `none`: the label is not enabled. -/
structure Machine (σ α : Type*) where
  step : σ → α → Option σ

namespace Machine

variable {σ α : Type*} (M : Machine σ α)

/-- Execute a schedule; `none` as soon as a label is not enabled. -/
def run : σ → List α → Option σ
  | s, [] => some s
  | s, a :: as => (M.step s a).bind fun s' => run s' as

/-- Every step of the schedule meets `C` in the state it is taken in. -/
def Meets (C : σ → α → Prop) : σ → List α → Prop
  | _, [] => True
  | s, a :: as => C s a ∧ (M.step s a).elim True fun s' => Meets C s' as

/-- Some step of the schedule is taken in a state in which it meets `C`. -/
def Sometime (C : σ → α → Prop) : σ → List α → Prop
  | _, [] => False
  | s, a :: as => C s a ∨ (M.step s a).elim False fun s' => Sometime C s' as

instance decidableMeets (C : σ → α → Prop) [∀ s a, Decidable (C s a)] :
    ∀ s as, Decidable (M.Meets C s as)
  | _, [] => .isTrue trivial
  | s, a :: as => by
      have next : Decidable ((M.step s a).elim True fun s' => M.Meets C s' as) :=
        match M.step s a with
        | none => .isTrue trivial
        | some s' => decidableMeets C s' as
      exact instDecidableAnd

instance decidableSometime (C : σ → α → Prop) [∀ s a, Decidable (C s a)] :
    ∀ s as, Decidable (M.Sometime C s as)
  | _, [] => .isFalse id
  | s, a :: as => by
      have next : Decidable ((M.step s a).elim False fun s' => M.Sometime C s' as) :=
        match M.step s a with
        | none => .isFalse id
        | some s' => decidableSometime C s' as
      exact instDecidableOr

variable {M} {C : σ → α → Prop} {s s' : σ} {a : α} {as bs : List α}

@[simp] lemma run_nil : M.run s [] = some s := rfl

lemma run_cons : M.run s (a :: as) = some s' ↔ ∃ t, M.step s a = some t ∧ M.run t as = some s' :=
  Option.bind_eq_some_iff

lemma exists_run_of_any {p : σ → Bool} (h : (M.run s as).any p = true) :
    ∃ s', M.run s as = some s' ∧ p s' = true := by
  cases hrun : M.run s as with
  | none =>
      rw [hrun] at h
      cases h
  | some s' =>
      rw [hrun] at h
      exact ⟨s', rfl, h⟩

lemma run_append :
    M.run s (as ++ bs) = some s' ↔ ∃ t, M.run s as = some t ∧ M.run t bs = some s' := by
  induction as generalizing s with
  | nil => simp
  | cons a as ih =>
      rw [List.cons_append, run_cons]
      constructor
      · rintro ⟨t, ht, hrest⟩
        obtain ⟨u, hu, hbs⟩ := ih.mp hrest
        exact ⟨u, run_cons.mpr ⟨t, ht, hu⟩, hbs⟩
      · rintro ⟨u, hu, hbs⟩
        obtain ⟨t, ht, has⟩ := run_cons.mp hu
        exact ⟨t, ht, ih.mpr ⟨u, has, hbs⟩⟩

lemma Meets.of_cons (h : M.Meets C s (a :: as)) (ht : M.step s a = some s') :
    C s a ∧ M.Meets C s' as := by
  obtain ⟨hC, hrest⟩ := h
  rw [ht] at hrest
  exact ⟨hC, hrest⟩

lemma meets_of_forall (hC : ∀ s a, C s a) : ∀ (s : σ) (as : List α), M.Meets C s as
  | _, [] => trivial
  | s, a :: as => by
      refine ⟨hC s a, ?_⟩
      cases M.step s a with
      | none => trivial
      | some t => exact meets_of_forall hC t as

lemma meets_iff_forall {D : α → Prop} (hrun : M.run s as = some s') :
    M.Meets (fun _ a => D a) s as ↔ ∀ a ∈ as, D a := by
  induction as generalizing s with
  | nil => exact iff_of_true trivial fun a ha => absurd ha List.not_mem_nil
  | cons a as ih =>
      obtain ⟨t, ht, hrest⟩ := run_cons.mp hrun
      rw [Meets, ht, Option.elim_some, ih hrest, List.forall_mem_cons]

variable {D : σ → α → Prop} {I : σ → Prop}

lemma meets_congr (hstep : ∀ {s a s'}, M.step s a = some s' → (C s a ↔ D s a))
    (hrun : M.run s as = some s') : M.Meets C s as ↔ M.Meets D s as := by
  induction as generalizing s with
  | nil => exact Iff.rfl
  | cons a as ih =>
      obtain ⟨t, ht, hrest⟩ := run_cons.mp hrun
      rw [Meets, Meets, ht, Option.elim_some, Option.elim_some, hstep ht, ih hrest]

lemma meets_iff_splits : M.Meets C s as ↔
    ∀ past a rest t, as = past ++ a :: rest → M.run s past = some t → C t a := by
  induction as generalizing s with
  | nil =>
      refine iff_of_true trivial fun past a rest t h _ => ?_
      cases past <;> cases h
  | cons b bs ih =>
      constructor
      · rintro ⟨hb, hbs⟩ past a rest t hsplit hpast
        cases past with
        | nil =>
            obtain ⟨rfl, rfl⟩ := List.cons_eq_cons.mp hsplit
            cases hpast
            exact hb
        | cons c past =>
            obtain ⟨rfl, rfl⟩ := List.cons_eq_cons.mp hsplit
            obtain ⟨u, hu, hpast⟩ := run_cons.mp hpast
            rw [hu] at hbs
            exact ih.mp hbs past a rest t rfl hpast
      · intro h
        refine ⟨h [] b bs s rfl rfl, ?_⟩
        cases hstep : M.step s b with
        | none => trivial
        | some u =>
            refine ih.mpr fun past a rest t hsplit hpast => ?_
            exact h (b :: past) a rest t (hsplit ▸ rfl) (run_cons.mpr ⟨u, hstep, hpast⟩)

lemma Meets.of_append (h : M.Meets C s (as ++ bs)) (hrun : M.run s as = some s') :
    M.Meets C s as ∧ M.Meets C s' bs := by
  induction as generalizing s with
  | nil =>
      rw [run_nil, Option.some.injEq] at hrun
      subst hrun
      exact ⟨trivial, h⟩
  | cons a as ih =>
      obtain ⟨t, ht, has⟩ := run_cons.mp hrun
      obtain ⟨hC, hrest⟩ := Meets.of_cons h ht
      obtain ⟨hfst, hsnd⟩ := ih hrest has
      refine ⟨⟨hC, ?_⟩, hsnd⟩
      rw [ht]
      exact hfst

lemma Meets.mono (himp : ∀ {s a}, C s a → D s a) :
    ∀ {s : σ} {as : List α}, M.Meets C s as → M.Meets D s as
  | _, [], _ => trivial
  | s, a :: as, h => by
      refine ⟨himp h.1, ?_⟩
      cases ht : M.step s a with
      | none => trivial
      | some t => exact Meets.mono himp (Meets.of_cons h ht).2

lemma Meets.and :
    ∀ {s : σ} {as : List α}, M.Meets C s as → M.Meets D s as → M.Meets (fun s a => C s a ∧ D s a) s as
  | _, [], _, _ => trivial
  | s, a :: as, h, h' => by
      refine ⟨⟨h.1, h'.1⟩, ?_⟩
      cases ht : M.step s a with
      | none => trivial
      | some t => exact Meets.and (Meets.of_cons h ht).2 (Meets.of_cons h' ht).2

lemma exists_run (htotal : ∀ s a, ∃ s', M.step s a = some s') (s : σ) (as : List α) :
    ∃ s', M.run s as = some s' := by
  induction as generalizing s with
  | nil => exact ⟨s, rfl⟩
  | cons a as ih =>
      obtain ⟨t, ht⟩ := htotal s a
      obtain ⟨s', hrun⟩ := ih t
      exact ⟨s', run_cons.mpr ⟨t, ht, hrun⟩⟩

/-- **The invariant rule.**  What every step that meets `C` preserves, every schedule whose steps
all meet `C` preserves. -/
theorem run_inv (hstep : ∀ {s a s'}, I s → C s a → M.step s a = some s' → I s')
    (hmeets : M.Meets C s as) (hrun : M.run s as = some s') (hs : I s) : I s' := by
  induction as generalizing s with
  | nil =>
      rw [run_nil, Option.some.injEq] at hrun
      exact hrun ▸ hs
  | cons a as ih =>
      obtain ⟨t, ht, has⟩ := run_cons.mp hrun
      obtain ⟨hC, hrest⟩ := Meets.of_cons hmeets ht
      exact ih hrest has (hstep hs hC ht)

lemma run_back {B : σ → Prop} (hback : ∀ {s a s'}, B s' → M.step s a = some s' → B s)
    (hrun : M.run s as = some s') (hB : B s') : B s := by
  induction as generalizing s with
  | nil =>
      rw [run_nil, Option.some.injEq] at hrun
      exact hrun ▸ hB
  | cons a as ih =>
      obtain ⟨t, ht, hrest⟩ := run_cons.mp hrun
      exact hback (ih hrest) ht

lemma Meets.imp (hstep : ∀ {s a s'}, I s → C s a → M.step s a = some s' → I s')
    (himp : ∀ {s a}, I s → C s a → D s a) (hmeets : M.Meets C s as) (hs : I s) : M.Meets D s as := by
  induction as generalizing s with
  | nil => trivial
  | cons a as ih =>
      refine ⟨himp hs hmeets.1, ?_⟩
      cases ht : M.step s a with
      | none => trivial
      | some t =>
          obtain ⟨hC, hrest⟩ := hmeets.of_cons ht
          exact ih hrest (hstep hs hC ht)

/-- **What comes about.**  If `G` comes about exactly by the steps that meet `C`, then it holds after a
run exactly when it held before or some step of the run met `C`.  `B` is a bound that the last state
meets, and so all states before it. -/
theorem run_iff_sometime {I B G : σ → Prop}
    (hback : ∀ {s a s'}, B s' → M.step s a = some s' → B s)
    (hstep : ∀ {s a s'}, I s → B s → M.step s a = some s' → I s' ∧ (G s' ↔ G s ∨ C s a))
    (hrun : M.run s as = some s') (hB : B s') (hI : I s) :
    I s' ∧ (G s' ↔ G s ∨ M.Sometime C s as) := by
  induction as generalizing s with
  | nil =>
      rw [run_nil, Option.some.injEq] at hrun
      subst hrun
      exact ⟨hI, by simp [Sometime]⟩
  | cons a as ih =>
      obtain ⟨t, ht, hrest⟩ := run_cons.mp hrun
      obtain ⟨hI', hG⟩ := hstep hI (run_back hback hrun hB) ht
      obtain ⟨hlast, hiff⟩ := ih hrest hI'
      refine ⟨hlast, ?_⟩
      rw [hiff, hG, Sometime, ht, Option.elim_some, or_assoc]

/-- **The exact condition.**  If each step from a good state keeps `I`, and leads to a good state exactly
when it meets `C`, then every state of a run is good exactly when every step of it meets `C`. -/
theorem always_iff_meets {I G : σ → Prop} {A : α → Prop}
    (hstep : ∀ {s a s'}, A a → I s → G s → M.step s a = some s' → I s' ∧ (G s' ↔ C s a))
    (hA : ∀ a ∈ as, A a) (hrun : M.run s as = some s') (hI : I s) (hG : G s) :
    (∀ bs cs t, as = bs ++ cs → M.run s bs = some t → G t) ↔ M.Meets C s as := by
  induction as generalizing s with
  | nil =>
      refine iff_of_true ?_ trivial
      intro bs cs t hsplit ht
      obtain ⟨rfl, -⟩ := List.append_eq_nil_iff.mp hsplit.symm
      cases ht
      exact hG
  | cons a as ih =>
      obtain ⟨u, hu, hrest⟩ := run_cons.mp hrun
      have ha := hA a List.mem_cons_self
      obtain ⟨hI', hgood⟩ := hstep ha hI hG hu
      have hih := ih (fun b hb => hA b (List.mem_cons_of_mem _ hb)) hrest hI'
      constructor
      · intro hall
        have hG' : G u := hall [a] as u rfl (run_cons.mpr ⟨u, hu, rfl⟩)
        refine ⟨hgood.mp hG', ?_⟩
        rw [hu]
        refine (hih hG').mp fun bs cs t hsplit ht => ?_
        exact hall (a :: bs) cs t (by rw [hsplit]; rfl) (run_cons.mpr ⟨u, hu, ht⟩)
      · intro hmeets bs cs t hsplit ht
        obtain ⟨hC, hmeets'⟩ := Meets.of_cons hmeets hu
        cases bs with
        | nil =>
            cases ht
            exact hG
        | cons b bs =>
            simp only [List.cons_append, List.cons.injEq] at hsplit
            obtain ⟨rfl, hsplit⟩ := hsplit
            obtain ⟨v, hv, ht'⟩ := run_cons.mp ht
            obtain rfl : u = v := Option.some.inj (hu.symm.trans hv)
            exact (hih (hgood.mpr hC)).mpr hmeets' bs cs t hsplit ht'

end Machine

/-! ## Calls over a shared store -/

/-! Two, three or four calls can be numbered by `Fin`.  The zero is the one its literals ask for. -/

instance neZero_two : @NeZero ℕ Zero.ofOfNat0 2 := ⟨by decide⟩

instance neZero_three : @NeZero ℕ Zero.ofOfNat0 3 := ⟨by decide⟩

instance neZero_four : @NeZero ℕ Zero.ofOfNat0 4 := ⟨by decide⟩

/-- The shared store and where each call stands. -/
structure Pool (ι G L : Type*) where
  shared : G
  calls : ι → L

namespace Pool

variable {ι G L : Type*} [DecidableEq ι]

/-- Call `i` has moved to `l`, leaving the store as `g`. -/
def next (w : Pool ι G L) (i : ι) (g : G) (l : L) : Pool ι G L :=
  ⟨g, Function.update w.calls i l⟩

@[simp] lemma next_shared (w : Pool ι G L) (i : ι) (g : G) (l : L) :
    (w.next i g l).shared = g := rfl

@[simp] lemma next_self (w : Pool ι G L) (i : ι) (g : G) (l : L) :
    (w.next i g l).calls i = l := Function.update_self ..

@[simp] lemma next_of_ne (w : Pool ι G L) {i j : ι} (h : j ≠ i) (g : G) (l : L) :
    (w.next i g l).calls j = w.calls j := Function.update_of_ne h ..

variable {w : Pool ι G L} {i j : ι} {g : G} {l l' : L} {p : L → Bool}

lemma next_forall {p : ι → L → Prop} (hl : p i l) (hothers : ∀ j, j ≠ i → p j (w.calls j)) (j : ι) :
    p j ((w.next i g l).calls j) := by
  by_cases hji : j = i
  · rw [hji, next_self]
    exact hl
  · rw [next_of_ne w hji]
    exact hothers j hji

lemma next_read {α : Type*} {f : L → α} {a : α} (h : f ((w.next i g l).calls j) = a) :
    j = i ∧ f l = a ∨ f (w.calls j) = a := by
  by_cases hji : j = i
  · rw [hji, next_self] at h
    exact Or.inl ⟨hji, h⟩
  · rw [next_of_ne w hji] at h
    exact Or.inr h

lemma next_cases (h : (w.next i g l).calls j = l') : j = i ∧ l = l' ∨ w.calls j = l' :=
  next_read (f := id) h

lemma next_congr {α : Type*} {f : L → α} (hl : f l = f (w.calls i)) (j : ι) :
    f ((w.next i g l).calls j) = f (w.calls j) := by
  by_cases hji : j = i
  · rw [hji, next_self, hl]
  · rw [next_of_ne w hji]

lemma next_none (hl : p l = false) (honly : ∀ j, p (w.calls j) = true → j = i) (j : ι) :
    p ((w.next i g l).calls j) = false := by
  by_cases hji : j = i
  · rw [hji, next_self, hl]
  · rw [next_of_ne w hji, ← Bool.not_eq_true]
    exact fun hj => hji (honly j hj)

lemma next_only (hnone : ∀ j, p (w.calls j) = false) (hj : p ((w.next i g l).calls j) = true) : j = i := by
  by_contra hji
  rw [next_of_ne w hji, hnone j] at hj
  cases hj

lemma next_mem_insert {S : Finset ι} (hS : ∀ j, j ∈ S ↔ p (w.calls j) = true) (hl : p l = true) (j : ι) :
    j ∈ insert i S ↔ p ((w.next i g l).calls j) = true := by
  by_cases hji : j = i
  · rw [hji, next_self]
    exact iff_of_true (Finset.mem_insert_self i S) hl
  · rw [next_of_ne w hji, Finset.mem_insert, or_iff_right hji]
    exact hS j

end Pool

/-- One pick of the schedule: a call takes its next step (settling whatever `κ` leaves open, such
as a failure), or the surroundings do. -/
inductive Pick (ι κ ε : Type*)
  | call (i : ι) (k : κ)
  | env (e : ε)
  deriving DecidableEq

/-- A concurrent program: the atomic steps of one call, and those of its surroundings. -/
structure Calls (ι G L κ ε : Type*) where
  act : ι → G → L → κ → Option (G × L)
  env : G → ε → Option G

namespace Calls

variable {ι G L κ ε : Type*} [DecidableEq ι] (P : Calls ι G L κ ε)

/-- Any number of calls, interleaved. -/
def machine : Machine (Pool ι G L) (Pick ι κ ε) where
  step w
    | .call i k => (P.act i w.shared (w.calls i) k).map fun r => w.next i r.1 r.2
    | .env e => (P.env w.shared e).map fun g => ⟨g, w.calls⟩

variable {P} {C : Pool ι G L → Pick ι κ ε → Prop} {w w' : Pool ι G L} {as : List (Pick ι κ ε)}

lemma step_call {i : ι} {k : κ} : P.machine.step w (.call i k) = some w' ↔
    ∃ g l, P.act i w.shared (w.calls i) k = some (g, l) ∧ w' = w.next i g l := by
  simp only [machine, Option.map_eq_some_iff, Prod.exists]
  constructor
  · rintro ⟨g, l, h, rfl⟩
    exact ⟨g, l, h, rfl⟩
  · rintro ⟨g, l, h, rfl⟩
    exact ⟨g, l, h, rfl⟩

lemma step_env {e : ε} : P.machine.step w (.env e) = some w' ↔
    ∃ g, P.env w.shared e = some g ∧ w' = ⟨g, w.calls⟩ := by
  simp only [machine, Option.map_eq_some_iff]
  constructor
  · rintro ⟨g, h, rfl⟩
    exact ⟨g, h, rfl⟩
  · rintro ⟨g, h, rfl⟩
    exact ⟨g, h, rfl⟩

/-- The invariant rule, one obligation for the steps of calls and one for the surroundings. -/
theorem run_inv {I : Pool ι G L → Prop}
    (hact : ∀ {w i k g l}, I w → C w (.call i k) →
      P.act i w.shared (w.calls i) k = some (g, l) → I (w.next i g l))
    (henv : ∀ {w e g}, I w → C w (.env e) → P.env w.shared e = some g → I ⟨g, w.calls⟩)
    (hmeets : P.machine.Meets C w as) (hrun : P.machine.run w as = some w') (hw : I w) :
    I w' := by
  refine Machine.run_inv ?_ hmeets hrun hw
  intro s a s' hs hC hstep
  cases a with
  | call i k =>
      obtain ⟨g, l, hg, rfl⟩ := step_call.mp hstep
      exact hact hs hC hg
  | env e =>
      obtain ⟨g, hg, rfl⟩ := step_env.mp hstep
      exact henv hs hC hg

/-- **Once marked.**  If a mark on a call comes with `K`, and nothing breaks `K` once a call is
marked, then `K` holds whenever a call is marked. -/
theorem once_marked {t : L → Prop} {K : G → Prop}
    (hstable : ∀ {w i k g l j}, C w (.call i k) → P.act i w.shared (w.calls i) k = some (g, l) →
      t (w.calls j) → K w.shared → K g)
    (hmark : ∀ {i g l k g' l'}, P.act i g l k = some (g', l') → t l' → t l ∨ K g')
    (henv : ∀ {g e g'}, P.env g e = some g' → K g → K g')
    (hmeets : P.machine.Meets C w as) (hrun : P.machine.run w as = some w')
    (h0 : ∀ i, ¬ t (w.calls i)) : ∀ j, t (w'.calls j) → K w'.shared := by
  refine run_inv (I := fun w => ∀ j, t (w.calls j) → K w.shared) ?_ ?_ hmeets hrun
    (fun j hj => absurd hj (h0 j))
  · intro w i k g l hinv hC hstep
    refine Pool.next_forall (p := fun _ l => t l → K g) ?_ fun j _ hj => hstable hC hstep hj (hinv j hj)
    intro hl
    rcases hmark hstep hl with hbefore | hnow
    · exact hstable hC hstep hbefore (hinv i hbefore)
    · exact hnow
  · intro w e g hinv _ hstep j hj
    exact henv hstep (hinv j hj)

/-- **After the mark.**  From a state with a marked call on, `K` stays, and so does what `K`
keeps true of a call `q`. -/
theorem after_mark {t : L → Prop} {K : G → Prop} {J : L → Prop} {q : ι}
    (hstable : ∀ {w i k g l j}, C w (.call i k) → P.act i w.shared (w.calls i) k = some (g, l) →
      t (w.calls j) → K w.shared → K g)
    (hkeep : ∀ {i g l k g' l'}, P.act i g l k = some (g', l') → t l → t l')
    (henv : ∀ {g e g'}, P.env g e = some g' → K g → K g')
    (hq : ∀ {i g l k g' l'}, P.act i g l k = some (g', l') → K g → J l → J l')
    (hmeets : P.machine.Meets C w as) (hrun : P.machine.run w as = some w')
    {d : ι} (hd : t (w.calls d)) (hK : K w.shared) (hJ : J (w.calls q)) :
    K w'.shared ∧ J (w'.calls q) := by
  have hinv := run_inv (I := fun w => t (w.calls d) ∧ K w.shared ∧ J (w.calls q))
    ?_ ?_ hmeets hrun ⟨hd, hK, hJ⟩
  · exact hinv.2
  · rintro w i k g l ⟨hd, hK, hJ⟩ hC hstep
    refine ⟨?_, hstable hC hstep hd hK, ?_⟩
    · by_cases hdi : d = i
      · subst hdi
        rw [Pool.next_self]
        exact hkeep hstep hd
      · rw [Pool.next_of_ne w hdi]
        exact hd
    · by_cases hqi : q = i
      · subst hqi
        rw [Pool.next_self]
        exact hq hstep hK hJ
      · rw [Pool.next_of_ne w hqi]
        exact hJ
  · rintro w e g ⟨hd, hK, hJ⟩ _ hstep
    exact ⟨hd, henv hstep hK, hJ⟩

/-- **Handed out once.**  If taking needs the thing to be there and leaves it gone, and no step
puts it back after some call has taken it, then at most one call ever takes it. -/
theorem take_unique {p : G → Prop} {t : L → Prop}
    (hback : ∀ {w i k g l}, C w (.call i k) → P.act i w.shared (w.calls i) k = some (g, l) →
      p g → p w.shared ∨ ∀ j, ¬ t (w.calls j))
    (htake : ∀ {w i k g l}, C w (.call i k) → P.act i w.shared (w.calls i) k = some (g, l) →
      t l → t (w.calls i) ∨ p w.shared ∧ ¬ p g)
    (henv : ∀ {g e g'}, P.env g e = some g' → p g' → p g)
    (hmeets : P.machine.Meets C w as) (hrun : P.machine.run w as = some w')
    (h0 : ∀ i, ¬ t (w.calls i)) :
    ∀ i j, t (w'.calls i) → t (w'.calls j) → i = j := by
  -- once somebody has taken it, it is gone and nobody else has
  have hinv : ∀ i, t (w'.calls i) →
      ¬ p w'.shared ∧ ∀ j, t (w'.calls j) → j = i := by
    refine run_inv (I := fun w => ∀ i, t (w.calls i) →
      ¬ p w.shared ∧ ∀ j, t (w.calls j) → j = i) ?_ ?_ hmeets hrun
      (fun i hi => absurd hi (h0 i))
    · intro w i k g l hinv hC hstep m hm
      have hnew : ∀ j, t ((w.next i g l).calls j) → j ≠ i → t (w.calls j) := by
        intro j hj hne
        rwa [Pool.next_of_ne w hne] at hj
      -- the step either left somebody's earlier taking in place, or is itself the taking
      by_cases hold : ∃ j, t (w.calls j)
      · obtain ⟨j, hj⟩ := hold
        have hgone := (hinv j hj).1
        have hgone' : ¬ p g := fun hp => (hback hC hstep hp).elim hgone (fun h => h j hj)
        have hold' : ∀ n, t ((w.next i g l).calls n) → t (w.calls n) := by
          intro n hn
          by_cases hni : n = i
          · subst hni
            rw [Pool.next_self] at hn
            rcases htake hC hstep hn with h | ⟨hp, -⟩
            · exact h
            · exact absurd hp hgone
          · exact hnew n hn hni
        exact ⟨hgone', fun n hn => (hinv m (hold' m hm)).2 n (hold' n hn)⟩
      · have honly : ∀ n, t ((w.next i g l).calls n) → n = i := by
          intro n hn
          by_contra hni
          exact hold ⟨n, hnew n hn hni⟩
        have hmi := honly m hm
        subst hmi
        rw [Pool.next_self] at hm
        rcases htake hC hstep hm with h | ⟨-, hgone⟩
        · exact absurd ⟨m, h⟩ hold
        · exact ⟨hgone, honly⟩
    · intro w e g hinv _ hstep m hm
      obtain ⟨hgone, honly⟩ := hinv m hm
      exact ⟨fun hp => hgone (henv hstep hp), honly⟩
  intro i j hi hj
  exact (hinv j hj).2 i hi

end Calls
