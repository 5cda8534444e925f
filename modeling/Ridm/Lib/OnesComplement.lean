import Mathlib.Algebra.BigOperators.Group.List.Basic
import Mathlib.Data.List.Induction
import Mathlib.Data.Nat.ModEq
import Mathlib.Tactic.Ring

/-!
# Ones'-complement sums

Words below `w`, where a carry out of the top is added again at the bottom (`add`).  Zero has two
representations there, `0` and `w - 1`, and a sum of words is `0` only if all of them are.  So a sum is known
by its remainder modulo `w - 1` and by whether it is zero (`Same`), in whatever order and however late its
carries are brought around.

* `Same.of_carry` — a carry out of the top counts one at the bottom.
* `same_sum` — the plain sum of words stands for their ones'-complement sum.
* `Same.eq_of_lt` — two words that stand for the same are the same word.
-/

namespace OnesComplement

variable {w a b c d : ℕ} {l : List ℕ}

/-- The sum of two words, with the carry added again. -/
def add (w a b : ℕ) : ℕ := (a + b) % w + (a + b) / w

def sum (w : ℕ) (l : List ℕ) : ℕ := l.foldl (add w) 0

/-- Two numbers that stand for the same word. -/
structure Same (w a b : ℕ) : Prop where
  mod_eq : a ≡ b [MOD w - 1]
  zero_iff : a = 0 ↔ b = 0

lemma Same.refl (w a : ℕ) : Same w a a := ⟨.rfl, .rfl⟩

lemma Same.symm (h : Same w a b) : Same w b a := ⟨h.mod_eq.symm, h.zero_iff.symm⟩

lemma Same.trans (h : Same w a b) (h' : Same w b c) : Same w a c :=
  ⟨h.mod_eq.trans h'.mod_eq, h.zero_iff.trans h'.zero_iff⟩

lemma Same.add (h : Same w a b) (h' : Same w c d) : Same w (a + c) (b + d) := by
  refine ⟨h.mod_eq.add h'.mod_eq, ?_⟩
  rw [Nat.add_eq_zero_iff, Nat.add_eq_zero_iff, h.zero_iff, h'.zero_iff]

lemma Same.of_carry (hw : 0 < w) (c : ℕ) : Same w (c * w) c := by
  refine ⟨?_, ?_⟩
  · have hone : w ≡ 1 [MOD w - 1] := by
      have hsplit : w = 1 + (w - 1) := by omega
      calc w = 1 + (w - 1) := hsplit
        _ ≡ 1 [MOD w - 1] := Nat.add_modEq_right
    calc c * w ≡ c * 1 [MOD w - 1] := hone.mul_left c
      _ = c := Nat.mul_one c
  · rw [Nat.mul_eq_zero]
    exact or_iff_left hw.ne'

lemma same_add (hw : 0 < w) (a b : ℕ) : Same w (a + b) (OnesComplement.add w a b) := by
  have hcarry := (Same.refl w ((a + b) % w)).add (Same.of_carry hw ((a + b) / w))
  rw [Nat.mul_comm, Nat.mod_add_div] at hcarry
  exact hcarry

lemma add_lt (ha : a < w) (hb : b < w) : OnesComplement.add w a b < w := by
  have hw : 0 < w := by omega
  rw [OnesComplement.add]
  by_cases hfits : a + b < w
  · rw [Nat.mod_eq_of_lt hfits, Nat.div_eq_of_lt hfits]
    exact hfits
  · have hdiv : (a + b) / w = 1 := Nat.div_eq_of_lt_le (by omega) (by omega)
    have hmod := Nat.mod_add_div (a + b) w
    rw [hdiv] at hmod ⊢
    omega

/-- **The plain sum of words stands for their ones'-complement sum**, which is a word. -/
theorem same_sum (hw : 0 < w) (hl : ∀ a ∈ l, a < w) : Same w l.sum (sum w l) ∧ sum w l < w := by
  induction l using List.reverseRecOn with
  | nil => exact ⟨Same.refl w 0, hw⟩
  | append_singleton l a ih =>
      have hinit : ∀ b ∈ l, b < w := fun b hb => hl b (List.mem_append_left _ hb)
      have ha : a < w := hl a (List.mem_append_right _ (List.mem_singleton_self a))
      obtain ⟨hsame, hlt⟩ := ih hinit
      have hlast : sum w (l ++ [a]) = OnesComplement.add w (sum w l) a := by
        rw [sum, List.foldl_append]
        rfl
      rw [hlast, List.sum_append, List.sum_singleton]
      exact ⟨(hsame.add (Same.refl w a)).trans (same_add hw _ _), add_lt hlt ha⟩

/-- **Two words that stand for the same are the same.** -/
theorem Same.eq_of_lt (h : Same w a b) (ha : a < w) (hb : b < w) : a = b := by
  rcases Nat.eq_zero_or_pos a with hzero | hpos
  · rw [hzero, (h.zero_iff.mp hzero)]
  · have hbpos : 0 < b := Nat.pos_of_ne_zero fun hzero => hpos.ne' (h.zero_iff.mpr hzero)
    -- both are above zero, so they are known by what they are modulo `w - 1` less one
    have hpred : a - 1 ≡ b - 1 [MOD w - 1] := by
      refine Nat.ModEq.add_right_cancel' 1 ?_
      rw [Nat.sub_add_cancel hpos, Nat.sub_add_cancel hbpos]
      exact h.mod_eq
    have heq : a - 1 = b - 1 := hpred.eq_of_lt_of_lt (by omega) (by omega)
    omega

end OnesComplement
