import Mathlib.Data.List.Basic

/-!
# The first of a sorted list

A list in the order of `lt`, where the place of an element is the number of elements before it
(`countP_lt`).  `count_take_iff` says when the first `e` elements hold exactly `k` of a kind, in terms
of places only: the element of the kind with `k` others of its kind before it must have `e` elements
before it.
-/

namespace Ranking

variable {α : Type*} {lt : α → α → Prop} [DecidableRel lt] {l : List α} {s : α} {i e k : ℕ}

lemma countP_lt (hirrefl : ∀ a, ¬ lt a a) (hasymm : ∀ a b, lt a b → ¬ lt b a) (hl : l.Pairwise lt)
    (hs : l[i]? = some s) : l.countP (fun a => lt a s) = i := by
  induction l generalizing i with
  | nil => simp at hs
  | cons a l ih =>
      obtain ⟨hfirst, hrest⟩ := List.pairwise_cons.mp hl
      cases i with
      | zero =>
          rw [List.getElem?_cons_zero, Option.some.injEq] at hs
          subst hs
          rw [List.countP_eq_zero]
          intro b hb
          rcases List.mem_cons.mp hb with rfl | hb
          · simpa using hirrefl b
          · simpa using hasymm a b (hfirst b hb)
      | succ i =>
          rw [List.getElem?_cons_succ] at hs
          have hlt : lt a s := hfirst s (List.mem_of_getElem? hs)
          rw [List.countP_cons_of_pos (by simpa using hlt), ih hrest hs]

lemma mem_take_iff (hirrefl : ∀ a, ¬ lt a a) (hasymm : ∀ a b, lt a b → ¬ lt b a) (hl : l.Pairwise lt)
    (hs : s ∈ l) : s ∈ l.take e ↔ l.countP (fun a => lt a s) < e := by
  constructor
  · intro h
    obtain ⟨i, hi⟩ := List.mem_iff_getElem?.mp h
    rw [List.getElem?_take] at hi
    split_ifs at hi with hie
    rw [countP_lt hirrefl hasymm hl hi]
    exact hie
  · intro h
    obtain ⟨i, hi⟩ := List.mem_iff_getElem?.mp hs
    rw [countP_lt hirrefl hasymm hl hi] at h
    refine List.mem_iff_getElem?.mpr ⟨i, ?_⟩
    rw [List.getElem?_take, if_pos h]
    exact hi

lemma filter_take (p : α → Bool) :
    (l.take e).filter p = (l.filter p).take ((l.take e).countP p) := by
  conv_rhs => rw [← List.take_append_drop e l, List.filter_append]
  rw [List.countP_eq_length_filter, List.take_append_drop, List.take_left]

/-- **How many of a kind are among the first.** -/
theorem count_take_iff (hirrefl : ∀ a, ¬ lt a a) (hasymm : ∀ a b, lt a b → ¬ lt b a)
    (hl : l.Pairwise lt) (p : α → Bool) (hk : k ≤ (l.take e).countP p) :
    (l.take e).countP p = k ↔ ∀ s ∈ l.filter p,
      (l.filter p).countP (fun a => lt a s) = k → e ≤ l.countP fun a => lt a s := by
  have hkind : (l.filter p).Pairwise lt := hl.filter p
  constructor
  · intro hcount s hs hplace
    by_contra hbefore
    have hfirst : s ∈ l.take e :=
      (mem_take_iff hirrefl hasymm hl (List.mem_filter.mp hs).1).mpr (by omega)
    have hmem : s ∈ (l.take e).filter p := List.mem_filter.mpr ⟨hfirst, (List.mem_filter.mp hs).2⟩
    rw [filter_take, hcount, mem_take_iff hirrefl hasymm hkind hs] at hmem
    omega
  · intro hplaces
    by_contra hcount
    -- the element at place `k` of the kind is among the first `e`, though it should not be
    have hmore : k < (l.take e).countP p := by omega
    have hlen : (l.take e).countP p ≤ (l.filter p).length := by
      rw [List.countP_eq_length_filter, filter_take]
      exact List.length_take_le' _ _
    obtain ⟨s, hs⟩ : ∃ s, (l.filter p)[k]? = some s :=
      ⟨_, List.getElem?_eq_getElem (Nat.lt_of_lt_of_le hmore hlen)⟩
    have hmem := List.mem_of_getElem? hs
    have hplace := countP_lt hirrefl hasymm hkind hs
    have hfirst : s ∈ (l.take e).filter p := by
      rw [filter_take, mem_take_iff hirrefl hasymm hkind hmem, hplace]
      exact hmore
    have hbefore := (mem_take_iff hirrefl hasymm hl (List.mem_filter.mp hmem).1).mp
      (List.mem_filter.mp hfirst).1
    have := hplaces s hmem hplace
    omega

end Ranking
