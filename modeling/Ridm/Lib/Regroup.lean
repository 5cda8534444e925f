import Mathlib.Data.Nat.Digits.Lemmas

/-!
# Regrouping digits

A codec shifts digits of `w` bits, highest first, into an accumulator and takes digits of `v` bits from
above the `r` bits it leaves.  The accumulator is never masked: only its low `r` bits count, and what is
above them was written before.  `Held` is the invariant of both loops: the number read is the number
written, followed by the low `r` bits.  Both steps keep it (`Held.shift_in`, `Held.take_out`), in any order,
also in a machine word as long as the bits that count fit in it.

What is regrouped, filled up with zero bits to a whole digit, and regrouped back is the same sequence, if
fewer than `w` bits are filled in and fewer than `w` are left at the end (`Filled.regroup_back`).
-/

namespace Regroup

variable {w v r d z acc acc' : ℕ} {ds out back : List ℕ}

/-- The number that digits of `w` bits write, the first one highest. -/
def value (w : ℕ) (ds : List ℕ) : ℕ := Nat.ofDigits (2 ^ w) ds.reverse

@[simp] lemma value_nil : value w [] = 0 := rfl

lemma value_concat (w : ℕ) (ds : List ℕ) (d : ℕ) : value w (ds ++ [d]) = value w ds * 2 ^ w + d := by
  rw [value, List.reverse_append, List.reverse_singleton, List.singleton_append, Nat.ofDigits_cons, value]
  ring

lemma eq_of_value_eq (hw : 0 < w) (hlength : ds.length = back.length) (hds : ∀ d ∈ ds, d < 2 ^ w)
    (hback : ∀ d ∈ back, d < 2 ^ w) (hvalue : value w ds = value w back) : ds = back := by
  have hbase : 1 < 2 ^ w := Nat.one_lt_two_pow hw.ne'
  have hreverse : ds.reverse = back.reverse := by
    refine Nat.ofDigits_inj_of_len_eq hbase ?_ ?_ ?_ hvalue
    · rw [List.length_reverse, List.length_reverse, hlength]
    · exact fun d hd => hds d (List.mem_reverse.mp hd)
    · exact fun d hd => hback d (List.mem_reverse.mp hd)
  exact List.reverse_injective hreverse

/-! ## The accumulator -/

/-- A codec that has read `ds` and written `out` still holds the low `r` bits of its accumulator. -/
structure Held (w v : ℕ) (ds out : List ℕ) (r acc : ℕ) : Prop where
  value_eq : value w ds = value v out * 2 ^ r + acc % 2 ^ r
  length_eq : w * ds.length = v * out.length + r

lemma Held.nil (w v : ℕ) : Held w v [] [] 0 0 := ⟨by simp, by simp⟩

lemma shifted_mod (r acc : ℕ) (hd : d < 2 ^ w) :
    (acc * 2 ^ w + d) % 2 ^ (r + w) = acc % 2 ^ r * 2 ^ w + d := by
  have hdiv : (acc * 2 ^ w + d) / 2 ^ w = acc := by
    rw [Nat.mul_comm, Nat.mul_add_div (Nat.two_pow_pos w), Nat.div_eq_of_lt hd, Nat.add_zero]
  have hmod : (acc * 2 ^ w + d) % 2 ^ w = d := by rw [Nat.mul_comm, Nat.mul_add_mod, Nat.mod_eq_of_lt hd]
  rw [Nat.pow_add, Nat.mul_comm (2 ^ r), Nat.mod_mul, hdiv, hmod]
  ring

lemma Held.shift_in (h : Held w v ds out r acc) (hd : d < 2 ^ w)
    (hacc : acc' % 2 ^ (r + w) = (acc * 2 ^ w + d) % 2 ^ (r + w)) :
    Held w v (ds ++ [d]) out (r + w) acc' := by
  refine ⟨?_, ?_⟩
  · rw [value_concat, h.value_eq, hacc, shifted_mod r acc hd, Nat.pow_add]
    ring
  · rw [List.length_append, List.length_singleton, Nat.mul_add, Nat.mul_one, h.length_eq, Nat.add_assoc]

lemma Held.take_out (h : Held w v ds out (r + v) acc) :
    Held w v ds (out ++ [acc / 2 ^ r % 2 ^ v]) r acc := by
  refine ⟨?_, ?_⟩
  · rw [value_concat, h.value_eq, Nat.pow_add, Nat.mod_mul]
    ring
  · rw [List.length_append, List.length_singleton, Nat.mul_add, Nat.mul_one, h.length_eq]
    omega

/-! ## The last digit -/

/-- The digits `ds` regrouped whole, with `z` zero bits filled in at the end. -/
structure Filled (w v : ℕ) (ds out : List ℕ) (z : ℕ) : Prop where
  value_eq : value v out = value w ds * 2 ^ z
  length_eq : v * out.length = w * ds.length + z

lemma Held.whole (h : Held w v ds out 0 acc) : Filled w v ds out 0 := by
  refine ⟨?_, ?_⟩
  · rw [h.value_eq, Nat.pow_zero, Nat.mod_one, Nat.mul_one, Nat.mul_one, Nat.add_zero]
  · rw [h.length_eq, Nat.add_zero]

lemma Held.fill (h : Held w v ds out r acc) (hr : r ≤ v) :
    Filled w v ds (out ++ [acc * 2 ^ (v - r) % 2 ^ v]) (v - r) := by
  have hpow : 2 ^ v = 2 ^ r * 2 ^ (v - r) := by rw [← Nat.pow_add, Nat.add_sub_cancel' hr]
  refine ⟨?_, ?_⟩
  · rw [value_concat, h.value_eq, hpow, Nat.mul_mod_mul_right]
    ring
  · rw [List.length_append, List.length_singleton, Nat.mul_add, Nat.mul_one, h.length_eq]
    omega

/-- **What is regrouped and regrouped back is unchanged**, however far the last digit was filled up. -/
theorem Filled.regroup_back (h : Filled w v ds out z) (hback : Held v w out back r acc) (hz : z < w)
    (hr : r < w) (hds : ∀ d ∈ ds, d < 2 ^ w) (hdigits : ∀ d ∈ back, d < 2 ^ w) : back = ds := by
  have hw : 0 < w := by omega
  have hbits : w * back.length + r = w * ds.length + z := by rw [← hback.length_eq, h.length_eq]
  have hlength : back.length = ds.length := by
    have hdiv := congrArg (· / w) hbits
    simpa [Nat.mul_add_div hw, Nat.div_eq_of_lt hr, Nat.div_eq_of_lt hz] using hdiv
  have hrz : r = z := by
    rw [hlength] at hbits
    exact Nat.add_left_cancel hbits
  subst hrz
  have hpos : 0 < 2 ^ r := Nat.two_pow_pos r
  have hvalue : value w back * 2 ^ r + acc % 2 ^ r = value w ds * 2 ^ r := by
    rw [← hback.value_eq, h.value_eq]
  have hsame : value w back = value w ds := by
    have hdiv := congrArg (· / 2 ^ r) hvalue
    simpa [Nat.mul_comm _ (2 ^ r), Nat.mul_add_div hpos, Nat.div_eq_of_lt (Nat.mod_lt acc hpos),
      hpos.ne'] using hdiv
  exact eq_of_value_eq hw hlength hdigits hds hsame

end Regroup
