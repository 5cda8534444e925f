import Mathlib.Data.List.Chain
import Mathlib.Data.List.Nodup

/-!
# Logs whose entries carry a number

A log is a list of entries with a number each.  It is `Increasing` when the numbers grow, and a
`Consecutive` log numbers its entries one after the other, with neighbours related by a link `S`.

Reading a log in pages asks for the entries above a number (`Increasing.filter_above`), retention
deletes the lowest ones (`Increasing.filter_le`, `filter_notMem_take`), and a log from which
entries were removed is still consecutive exactly when none of them lay between two that remain
(`consecutive_filter_iff`).
-/

namespace NumberedLog

variable {α : Type*} {f : α → ℤ} {S : α → α → Prop} {l : List α}

/-- The numbers grow along the log. -/
def Increasing (f : α → ℤ) (l : List α) : Prop := l.Pairwise fun a b => f a < f b

/-- Each entry has the number after its predecessor's, and is linked to it by `S`. -/
def Consecutive (f : α → ℤ) (S : α → α → Prop) (l : List α) : Prop :=
  l.IsChain fun a b => f b = f a + 1 ∧ S a b

lemma Consecutive.increasing (h : Consecutive f S l) : Increasing f l := by
  have : Trans (fun a b => f a < f b) (fun a b => f a < f b) (fun a b => f a < f b) :=
    ⟨fun hab hbc => Int.lt_trans hab hbc⟩
  refine List.isChain_iff_pairwise.mp (List.IsChain.imp ?_ h)
  intro a b hab
  omega

lemma Increasing.nodup (h : Increasing f l) : l.Nodup := by
  refine List.Pairwise.imp ?_ h
  rintro a b hab rfl
  exact Int.lt_irrefl _ hab

lemma Increasing.filter (h : Increasing f l) (p : α → Bool) : Increasing f (l.filter p) :=
  List.Pairwise.filter p h

lemma Increasing.eq_of_number (h : Increasing f l) {a b : α} (ha : a ∈ l) (hb : b ∈ l)
    (hab : f a = f b) : a = b := by
  induction l with
  | nil => cases ha
  | cons x l ih =>
      obtain ⟨hx, hl⟩ := List.pairwise_cons.mp h
      rcases List.mem_cons.mp ha with hax | ha'
      · rcases List.mem_cons.mp hb with hbx | hb'
        · rw [hax, hbx]
        · have := hx b hb'
          rw [hax] at hab
          omega
      · rcases List.mem_cons.mp hb with hbx | hb'
        · have := hx a ha'
          rw [hbx] at hab
          omega
        · exact ih hl ha' hb'

lemma Increasing.filter_above {a b : List α} {x : α} (h : Increasing f (a ++ x :: b)) :
    (a ++ x :: b).filter (fun y => decide (f x < f y)) = b := by
  obtain ⟨-, hxb, hab⟩ := List.pairwise_append.mp h
  obtain ⟨hx, -⟩ := List.pairwise_cons.mp hxb
  have ha : a.filter (fun y => decide (f x < f y)) = [] := by
    rw [List.filter_eq_nil_iff]
    intro y hy
    have := hab y hy x List.mem_cons_self
    simp only [decide_eq_true_eq]
    omega
  have hb : b.filter (fun y => decide (f x < f y)) = b := by
    rw [List.filter_eq_self]
    intro y hy
    simpa using hx y hy
  rw [List.filter_append, ha, List.nil_append, List.filter_cons_of_neg (by simp), hb]

lemma Increasing.filter_gt (h : Increasing f l) (s : ℤ) :
    l.filter (fun y => decide (s < f y)) = l.drop (l.filter (fun y => decide (f y ≤ s))).length := by
  induction l with
  | nil => rfl
  | cons x l ih =>
      obtain ⟨hx, hl⟩ := List.pairwise_cons.mp h
      by_cases hs : f x ≤ s
      · rw [List.filter_cons_of_neg (by simpa using hs), List.filter_cons_of_pos (by simpa using hs),
          ih hl, List.length_cons, List.drop_succ_cons]
      · have hall : ∀ y ∈ x :: l, s < f y := by
          intro y hy
          rcases List.mem_cons.mp hy with rfl | hy
          · omega
          · have := hx y hy
            omega
        have hnone : (x :: l).filter (fun y => decide (f y ≤ s)) = [] := by
          rw [List.filter_eq_nil_iff]
          intro y hy
          have := hall y hy
          simp only [decide_eq_true_eq]
          omega
        rw [hnone, List.filter_eq_self.mpr (fun y hy => by simpa using hall y hy)]
        rfl

lemma Increasing.filter_le (h : Increasing f l) (s : ℤ) :
    l.filter (fun y => decide (f y ≤ s)) = l.take (l.filter (fun y => decide (f y ≤ s))).length := by
  induction l with
  | nil => rfl
  | cons x l ih =>
      obtain ⟨hx, hl⟩ := List.pairwise_cons.mp h
      by_cases hs : f x ≤ s
      · rw [List.filter_cons_of_pos (by simpa using hs), List.length_cons, List.take_succ_cons,
          ← ih hl]
      · have hnone : (x :: l).filter (fun y => decide (f y ≤ s)) = [] := by
          rw [List.filter_eq_nil_iff]
          intro y hy
          simp only [decide_eq_true_eq]
          rcases List.mem_cons.mp hy with rfl | hy
          · exact hs
          · have := hx y hy
            omega
        rw [hnone]
        rfl

lemma filter_notMem_take [DecidableEq α] (h : l.Nodup) (k : ℕ) :
    l.filter (fun y => decide (y ∉ l.take k)) = l.drop k := by
  have hdis : List.Disjoint (l.take k) (l.drop k) := by
    have hnd : (l.take k ++ l.drop k).Nodup := by rwa [List.take_append_drop]
    exact List.disjoint_of_nodup_append hnd
  have hcut : l.filter (fun y => decide (y ∉ l.take k)) =
      (l.take k ++ l.drop k).filter (fun y => decide (y ∉ l.take k)) := by
    rw [List.take_append_drop]
  rw [hcut, List.filter_append, List.filter_eq_nil_iff.mpr, List.filter_eq_self.mpr, List.nil_append]
  · intro y hy
    simpa using fun hmem => hdis hmem hy
  · intro y hy
    simp [hy]

/-! ## Removing entries -/

lemma Consecutive.exists_between (h : Consecutive f S l) {a b : α} {n : ℤ} (ha : a ∈ l)
    (hb : b ∈ l) (han : f a ≤ n) (hnb : n ≤ f b) : ∃ x ∈ l, f x = n := by
  induction l generalizing a with
  | nil => cases ha
  | cons x l ih =>
      have hinc := List.pairwise_cons.mp h.increasing
      have hl : Consecutive f S l := h.tail
      by_cases hn : f x = n
      · exact ⟨x, List.mem_cons_self, hn⟩
      · have hxn : f x < n := by
          rcases List.mem_cons.mp ha with rfl | ha
          · omega
          · have := hinc.1 a ha
            omega
        have hb' : b ∈ l := by
          rcases List.mem_cons.mp hb with rfl | hb
          · omega
          · exact hb
        cases l with
        | nil => cases hb'
        | cons y l =>
            -- the next entry has the next number, which is still not above `n`
            have hxy := (List.isChain_cons_cons.mp h).1.1
            obtain ⟨z, hz, hzn⟩ := ih hl List.mem_cons_self hb' (by omega)
            exact ⟨z, List.mem_cons_of_mem _ hz, hzn⟩

lemma Consecutive.link_of_next (h : Consecutive f S l) {a b : α} (ha : a ∈ l) (hb : b ∈ l)
    (hab : f b = f a + 1) : S a b := by
  induction l with
  | nil => cases ha
  | cons x l ih =>
      have hinc := List.pairwise_cons.mp h.increasing
      rcases List.mem_cons.mp ha with rfl | ha'
      · rcases List.mem_cons.mp hb with rfl | hb'
        · omega
        · cases l with
          | nil => cases hb'
          | cons y l =>
              have hy := (List.isChain_cons_cons.mp h).1
              have htail : Consecutive f S (y :: l) := h.tail
              have hby : b = y :=
                htail.increasing.eq_of_number hb' List.mem_cons_self (hab.trans hy.1.symm)
              exact hby ▸ hy.2
      · rcases List.mem_cons.mp hb with rfl | hb'
        · have := hinc.1 a ha'
          omega
        · exact ih h.tail ha' hb'

/-- No removed entry lies between two that remain. -/
def NoHole (f : α → ℤ) (keep : α → Bool) (l : List α) : Prop :=
  ∀ a ∈ l, ∀ d ∈ l, ∀ b ∈ l, keep a = true → keep d = false → keep b = true →
    f a < f d → f d < f b → False

lemma NoHole.tail {keep : α → Bool} {x : α} (h : NoHole f keep (x :: l)) : NoHole f keep l := by
  intro a ha d hd b hb
  exact h a (List.mem_cons_of_mem _ ha) d (List.mem_cons_of_mem _ hd) b (List.mem_cons_of_mem _ hb)

lemma Consecutive.filter {keep : α → Bool} (h : Consecutive f S l) (hole : NoHole f keep l) :
    Consecutive f S (l.filter keep) := by
  induction l with
  | nil => exact .nil
  | cons x l ih =>
      have hinc := List.pairwise_cons.mp h.increasing
      have hrest := ih h.tail hole.tail
      by_cases hx : keep x = true
      · rw [List.filter_cons_of_pos hx]
        refine hrest.cons ?_
        intro b hb
        have hbl : b ∈ l.filter keep := List.mem_of_mem_head? hb
        obtain ⟨hbmem, hbkeep⟩ := List.mem_filter.mp hbl
        cases l with
        | nil => cases hbmem
        | cons y l =>
            have hxy := (List.isChain_cons_cons.mp h).1
            by_cases hy : keep y = true
            · -- the neighbour remains, so it is the next one
              rw [List.filter_cons_of_pos hy, List.head?_cons, Option.mem_def,
                Option.some.injEq] at hb
              exact hb ▸ hxy
            · -- the neighbour is gone, and `b` remains behind it: a hole
              have htail : Consecutive f S (y :: l) := h.tail
              have hyl := (List.pairwise_cons.mp htail.increasing).1
              rcases List.mem_cons.mp hbmem with rfl | hbmem'
              · exact absurd hbkeep hy
              · refine (hole x List.mem_cons_self y (by simp) b
                  (List.mem_cons_of_mem _ hbmem) hx (by simpa using hy) hbkeep ?_
                  (hyl b hbmem')).elim
                exact hinc.1 y List.mem_cons_self
      · rw [List.filter_cons_of_neg hx]
        exact hrest

/-- **What remains of a consecutive log is consecutive exactly when there is no hole in it.** -/
theorem consecutive_filter_iff {keep : α → Bool} (h : Consecutive f S l) :
    Consecutive f (fun _ _ => True) (l.filter keep) ↔ NoHole f keep l := by
  constructor
  · intro hc a ha d hd b hb hka hkd hkb hfa hfb
    obtain ⟨x, hx, hxd⟩ := hc.exists_between (List.mem_filter.mpr ⟨ha, hka⟩)
      (List.mem_filter.mpr ⟨hb, hkb⟩) (Int.le_of_lt hfa) (Int.le_of_lt hfb)
    obtain ⟨hxl, hkx⟩ := List.mem_filter.mp hx
    have hxd' := h.increasing.eq_of_number hxl hd hxd
    rw [hxd', hkd] at hkx
    exact Bool.noConfusion hkx
  · intro hole
    refine List.IsChain.imp ?_ (h.filter hole)
    intro a b hab
    exact ⟨hab.1, trivial⟩

end NumberedLog
