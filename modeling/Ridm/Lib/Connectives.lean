import Mathlib.Data.Bool.Basic
import Mathlib.Data.List.Basic

/-!
# Chains of two connectives

An unparenthesised chain `x c₁ y₁ c₂ y₂ …` of `and` and `or` can be read in two ways.  With the
usual precedence it is a disjunction of groups, each the conjunction of what stands between two
`or`s (`groups`, `disjunction`).  Read from left to right, each connective takes everything before
it as its left side (`leftToRight`).

`leftToRight_eq_iff` says exactly when the two agree at one valuation, and
`undisturbed_of_ors_last` that they always do when no `and` stands after an `or`.
-/

/-- The connectives between operands. -/
inductive Connective
  | and
  | or
  deriving DecidableEq

namespace Connective

variable {α : Type*}

/-- The value of `a c b`. -/
def apply : Connective → Bool → Bool → Bool
  | .and, a, b => a && b
  | .or, a, b => a || b

/-- The chain from left to right, `acc` being the value so far. -/
def leftToRight (v : α → Bool) : Bool → List (Connective × α) → Bool
  | acc, [] => acc
  | acc, (c, y) :: l => leftToRight v (c.apply acc (v y)) l

/-- The groups between the `or`s of `x l`: each by its first member and those an `and` joins to
it. -/
def groups : α → List (Connective × α) → List (α × List α)
  | x, [] => [(x, [])]
  | x, (.or, y) :: l => (x, []) :: groups y l
  | x, (.and, y) :: l =>
      match groups y l with
      | [] => [(x, [])]
      | g :: gs => (x, g.1 :: g.2) :: gs

/-- A group holds when all its members do. -/
def groupHolds (v : α → Bool) (g : α × List α) : Bool := v g.1 && g.2.all v

/-- Some group holds. -/
def disjunction (v : α → Bool) (gs : List (α × List α)) : Bool := gs.any (groupHolds v)

/-- Behind each group that holds comes another one that does, or no group with a joined member
that fails. -/
def Undisturbed (v : α → Bool) : List (α × List α) → Prop
  | [] => True
  | g :: gs =>
      (groupHolds v g = true → disjunction v gs = true ∨ ∀ g' ∈ gs, g'.2.all v = true) ∧
        Undisturbed v gs

/-- `leftToRight`, a group at a time. -/
def foldGroups (v : α → Bool) : Bool → List (α × List α) → Bool
  | acc, [] => acc
  | acc, g :: gs => foldGroups v ((acc || v g.1) && g.2.all v) gs

lemma leftToRight_eq_foldGroups (v : α → Bool) (x : α) (l : List (Connective × α)) :
    ∃ joined gs, groups x l = (x, joined) :: gs ∧
      ∀ acc, leftToRight v acc l = foldGroups v (acc && joined.all v) gs := by
  induction l generalizing x with
  | nil => exact ⟨[], [], rfl, fun acc => by simp [leftToRight, foldGroups]⟩
  | cons p l ih =>
      obtain ⟨c, y⟩ := p
      obtain ⟨joined, gs, hgroups, hfold⟩ := ih y
      cases c with
      | or =>
          refine ⟨[], (y, joined) :: gs, by rw [groups, hgroups], ?_⟩
          intro acc
          rw [leftToRight, hfold, foldGroups, List.all_nil, Bool.and_true, apply]
      | and =>
          refine ⟨y :: joined, gs, by rw [groups, hgroups], ?_⟩
          intro acc
          rw [leftToRight, hfold, List.all_cons, apply, Bool.and_assoc]

lemma leftToRight_groups (v : α → Bool) (x : α) (l : List (Connective × α)) :
    leftToRight v (v x) l = foldGroups v false (groups x l) := by
  obtain ⟨joined, gs, hgroups, hfold⟩ := leftToRight_eq_foldGroups v x l
  rw [hgroups, hfold, foldGroups, Bool.false_or]

lemma foldGroups_le (v : α → Bool) (gs : List (α × List α)) :
    ∀ acc, foldGroups v acc gs = true → (acc || disjunction v gs) = true := by
  induction gs with
  | nil =>
      intro acc h
      rw [foldGroups] at h
      rw [h, Bool.true_or]
  | cons g gs ih =>
      intro acc h
      have hrest := ih _ h
      simp only [disjunction, List.any_cons, groupHolds] at hrest ⊢
      revert hrest
      cases acc <;> cases v g.1 <;> cases g.2.all v <;> simp

lemma foldGroups_eq_iff (v : α → Bool) (gs : List (α × List α)) :
    ∀ acc, foldGroups v acc gs = (acc || disjunction v gs) ↔
      (acc = true → disjunction v gs = true ∨ ∀ g ∈ gs, g.2.all v = true) ∧ Undisturbed v gs := by
  induction gs with
  | nil =>
      intro acc
      simp [foldGroups, disjunction, Undisturbed]
  | cons g gs ih =>
      intro acc
      have hdisj : disjunction v (g :: gs) = (groupHolds v g || disjunction v gs) := rfl
      have hih := ih ((acc || v g.1) && g.2.all v)
      have hle := foldGroups_le v gs false
      rw [foldGroups, Undisturbed, hdisj]
      simp only [groupHolds, List.mem_cons, forall_eq_or_imp] at hih ⊢
      -- what a failing joined member takes away has to come back from a later group
      cases acc <;> cases hx : v g.1 <;> cases hj : g.2.all v <;>
        simp only [hx, hj, Bool.false_or, Bool.true_or, Bool.or_true, Bool.and_true,
          Bool.and_false, true_implies, false_implies, true_and, reduceCtorEq, false_and,
          or_false, true_or] at hih ⊢
      all_goals
        cases hd : disjunction v gs with
        | false =>
            simp only [hd, Bool.false_or, reduceCtorEq, imp_false, false_or] at hih hle ⊢
            tauto
        | true =>
            simp only [hd, true_or, true_and] at hih ⊢
            tauto

/-- **When reading from left to right keeps the precedence.**  At one valuation, the two readings
of a chain agree exactly when behind each group that holds comes another one that does, or no
joined member that fails. -/
theorem leftToRight_eq_iff (v : α → Bool) (x : α) (l : List (Connective × α)) :
    leftToRight v (v x) l = disjunction v (groups x l) ↔ Undisturbed v (groups x l) := by
  have h := foldGroups_eq_iff v (groups x l) false
  rw [leftToRight_groups]
  simpa using h

lemma groups_ors (x : α) (ors : List (Connective × α)) (hors : ∀ p ∈ ors, p.1 = .or) :
    ∃ gs, groups x ors = (x, []) :: gs ∧ ∀ g ∈ gs, g.2 = [] := by
  induction ors generalizing x with
  | nil => exact ⟨[], rfl, fun g hg => absurd hg List.not_mem_nil⟩
  | cons p ors ih =>
      obtain ⟨c, y⟩ := p
      obtain rfl : c = .or := hors _ List.mem_cons_self
      obtain ⟨gs, hgroups, hgs⟩ := ih y (fun p hp => hors p (List.mem_cons_of_mem _ hp))
      refine ⟨(y, []) :: gs, by rw [groups, hgroups], ?_⟩
      intro g hg
      rcases List.mem_cons.mp hg with rfl | hg
      · rfl
      · exact hgs g hg

lemma groups_of_ors_last (x : α) (ands ors : List (Connective × α)) (hands : ∀ p ∈ ands, p.1 = .and)
    (hors : ∀ p ∈ ors, p.1 = .or) :
    ∃ joined gs, groups x (ands ++ ors) = (x, joined) :: gs ∧ ∀ g ∈ gs, g.2 = [] := by
  induction ands generalizing x with
  | nil => exact ⟨[], groups_ors x ors hors⟩
  | cons p ands ih =>
      obtain ⟨c, y⟩ := p
      obtain rfl : c = .and := hands _ List.mem_cons_self
      obtain ⟨joined, gs, hgroups, hgs⟩ := ih y (fun p hp => hands p (List.mem_cons_of_mem _ hp))
      exact ⟨y :: joined, gs, by rw [List.cons_append, groups, hgroups], hgs⟩

lemma undisturbed_of_single (v : α → Bool) {gs : List (α × List α)} (h : ∀ g ∈ gs, g.2 = []) :
    Undisturbed v gs := by
  induction gs with
  | nil => trivial
  | cons g gs ih =>
      refine ⟨fun _ => .inr ?_, ih fun g' hg' => h g' (List.mem_cons_of_mem _ hg')⟩
      intro g' hg'
      rw [h g' (List.mem_cons_of_mem _ hg'), List.all_nil]

/-- Without an `and` behind an `or` the two readings agree. -/
theorem undisturbed_of_ors_last (v : α → Bool) (x : α) {ands ors : List (Connective × α)}
    (hands : ∀ p ∈ ands, p.1 = .and) (hors : ∀ p ∈ ors, p.1 = .or) :
    Undisturbed v (groups x (ands ++ ors)) := by
  obtain ⟨joined, gs, hgroups, hgs⟩ := groups_of_ors_last x ands ors hands hors
  rw [hgroups]
  refine ⟨fun _ => .inr ?_, undisturbed_of_single v hgs⟩
  intro g hg
  rw [hgs g hg, List.all_nil]

end Connective
