import Mathlib.Algebra.BigOperators.Ring.Finset
import Mathlib.Data.List.GetD
import Ridm.Kerberos.Aes
import Ridm.Lib.OnesComplement

/-!
# `nfold` is the n-fold of RFC 3961

The RFC makes copies of the input, each rotated right by 13 bits more than the one before, up to the least
common multiple of the two lengths, cuts what they make together into blocks of the length asked for, and adds
those up as ones'-complement numbers (`rfc3961Fold`).

`nfold` of `api/src/kerberos/aes.rs` makes neither the copies nor the blocks.  It finds the bit that each byte
of the stream starts at (`streamByte_eq`), adds the bytes from the last to the first, each in its place, and
carries a block's overflow into the lowest place of the block before it.  What is in the bytes and the carry
always stands for the same ones'-complement number as the blocks added so far (`nfoldBytes_same`), and two
words that stand for the same number, of which neither or both are zero, are the same (`nfold_eq`).
-/

namespace Ridm.Kerberos.Aes

open Checked OnesComplement

/-! ## The fold of the RFC -/

/-- The input as a number, rotated right by `r` bits. -/
def rotated (input : List UInt8) (r : ℕ) : ℕ :=
  ((BitVec.ofNat (8 * input.length) (BigEndian.toNat input)).rotateRight r).toNat

/-- Copies of the input, each rotated right by 13 bits more than the one before. -/
def rotatedCopies (input : List UInt8) (count : ℕ) : List UInt8 :=
  (List.range count).flatMap fun j =>
    BigEndian.ofNat input.length (rotated input (13 * j))

/-- Blocks of `n` bytes, one after another. -/
def blocks (n : ℕ) (stream : List UInt8) : List (List UInt8) :=
  (List.range (stream.length / n)).map fun q => (stream.drop (q * n)).take n

/-- The n-fold: the ones'-complement sum of the blocks. -/
def rfc3961Fold (input : List UInt8) (n : ℕ) : List UInt8 :=
  let stream := rotatedCopies input (Nat.lcm n input.length / input.length)
  BigEndian.ofNat n (OnesComplement.sum (256 ^ n) ((blocks n stream).map BigEndian.toNat))

/-! ## The bytes of the stream -/

/-- The bit that byte `i` of the stream starts at, as `nfold` finds it. -/
def msbit (k i : ℕ) : ℕ := ((k * 8 - 1) + (k * 8 + 13) * (i / k) + (k - i % k) * 8) % (k * 8)

/-- Byte `i` of the stream, as `nfold` finds it. -/
def streamByte (input : List UInt8) (i : ℕ) : ℕ :=
  let k := input.length
  let hi := input.getD ((k - 1 - (msbit k i >>> 3)) % k) 0
  let lo := input.getD ((k - (msbit k i >>> 3)) % k) 0
  (((hi.toNat <<< 8) ||| lo.toNat) >>> ((msbit k i &&& 7) + 1)) &&& 0xff

variable {input out : List UInt8} {n i j p b carry count : ℕ}

lemma nfoldByte_eq (hin : 0 < input.length) (hout : 0 < out.length) (carry i : ℕ) :
    nfoldByte input out carry i =
      .ok (out.set (i % out.length)
          (UInt8.ofNat ((carry + streamByte input i + (out.getD (i % out.length) 0).toNat) &&& 0xff)),
        (carry + streamByte input i + (out.getD (i % out.length) 0).toNat) >>> 8) := by
  rw [nfoldByte, index_eq (Nat.mod_lt _ hin), index_eq (Nat.mod_lt _ hin), index_eq (Nat.mod_lt _ hout),
    streamByte, List.getD_eq_getElem _ _ (Nat.mod_lt _ hin), List.getD_eq_getElem _ _ (Nat.mod_lt _ hin),
    List.getD_eq_getElem _ _ (Nat.mod_lt _ hout)]
  rfl

/-- A bit of the number, counted around from the lowest. -/
def cyclicBit (input : List UInt8) (i : ℕ) : Bool :=
  (BigEndian.toNat input).testBit (i % (8 * input.length))

lemma cyclicBit_congr (h : i ≡ j [MOD 8 * input.length]) : cyclicBit input i = cyclicBit input j :=
  congrArg (BigEndian.toNat input).testBit h

lemma testBit_byte (hp : p < input.length) (hb : b < 8) :
    (input.getD p 0).toNat.testBit b = cyclicBit input (8 * (input.length - 1 - p) + b) := by
  rw [List.getD_eq_getElem _ _ hp, BigEndian.testBit_getElem hp hb, cyclicBit, Nat.mod_eq_of_lt (by omega)]

lemma testBit_rotated (hi : i < 8 * input.length) (r : ℕ) :
    (rotated input r).testBit i = cyclicBit input (i + r) := by
  rw [rotated, BitVec.testBit_toNat, BitVec.getLsbD_rotateRight, cyclicBit]
  generalize BigEndian.toNat input = x
  generalize 8 * input.length = w at hi
  have hbit : ∀ c < w, (BitVec.ofNat w x).getLsbD c = x.testBit c := by
    intro c hc
    rw [BitVec.getLsbD_ofNat]
    simp [hc]
  have hr : r % w < w := Nat.mod_lt _ (by omega)
  rw [Nat.add_mod, Nat.mod_eq_of_lt hi]
  generalize r % w = r at hr
  by_cases hlow : i < w - r
  · have hsum : (i + r) % w = r + i := by rw [Nat.mod_eq_of_lt (by omega), Nat.add_comm]
    rw [hsum, hbit (r + i) (by omega)]
    simp [hlow]
  · have hwrap : (i + r) % w = i - (w - r) := by
      rw [Nat.mod_eq_sub_mod (by omega), Nat.mod_eq_of_lt (by omega)]
      omega
    rw [hwrap, hbit (i - (w - r)) (by omega)]
    simp [hlow, hi]

lemma rotated_lt (input : List UInt8) (r : ℕ) : rotated input r < 256 ^ input.length := by
  have hlt := ((BitVec.ofNat (8 * input.length) (BigEndian.toNat input)).rotateRight r).isLt
  rw [Nat.pow_mul] at hlt
  exact hlt

lemma length_rotatedCopies (input : List UInt8) (count : ℕ) :
    (rotatedCopies input count).length = count * input.length := by
  induction count with
  | zero => rw [Nat.zero_mul]; rfl
  | succ count ih =>
      rw [rotatedCopies, List.range_succ, List.flatMap_append, List.length_append, Nat.succ_mul]
      show (rotatedCopies input count).length + _ = _
      rw [ih]
      simp

lemma getD_rotatedCopies (hi : i < count * input.length) :
    (rotatedCopies input count).getD i 0 =
      (BigEndian.ofNat input.length (rotated input (13 * (i / input.length)))).getD
        (i % input.length) 0 := by
  induction count with
  | zero => omega
  | succ count ih =>
      have happend : rotatedCopies input (count + 1) = rotatedCopies input count ++
          BigEndian.ofNat input.length (rotated input (13 * count)) := by
        rw [rotatedCopies, List.range_succ, List.flatMap_append, List.flatMap_singleton]
        rfl
      have hlen := length_rotatedCopies input count
      rw [happend]
      by_cases hbefore : i < count * input.length
      · rw [List.getD_append _ _ _ _ (by rw [hlen]; exact hbefore), ih hbefore]
      · have hdiv : i / input.length = count := Nat.div_eq_of_lt_le (by omega) (by omega)
        have hmod : i % input.length = i - count * input.length := by
          have hsum := Nat.mod_add_div i input.length
          rw [hdiv, Nat.mul_comm] at hsum
          omega
        rw [List.getD_append_right _ _ _ _ (by omega), hlen, hdiv, hmod]

lemma testBit_rotatedCopies (hi : i < count * input.length) (hb : b < 8) :
    ((rotatedCopies input count).getD i 0).toNat.testBit b =
      cyclicBit input (8 * (input.length - 1 - i % input.length) + b + 13 * (i / input.length)) := by
  have hpos : 0 < input.length := Nat.pos_of_ne_zero fun hzero => by rw [hzero] at hi; omega
  have hplace : i % input.length < input.length := Nat.mod_lt _ hpos
  have hlen := BigEndian.length_ofNat input.length (rotated input (13 * (i / input.length)))
  rw [getD_rotatedCopies hi, List.getD_eq_getElem _ _ (by rw [hlen]; exact hplace),
    BigEndian.testBit_getElem (by rw [hlen]; exact hplace) hb,
    BigEndian.toNat_ofNat_of_lt (rotated_lt input _), hlen, testBit_rotated (by omega)]

lemma msbit_modEq {k : ℕ} (hk : 0 < k) (i : ℕ) :
    msbit k i + 1 + (8 * k - 8) ≡ 8 * (k - 1 - i % k) + 13 * (i / k) [MOD 8 * k] := by
  have hplace : i % k < k := Nat.mod_lt _ hk
  have hturns : 8 * k * (i / k + 2) + (8 * (k - 1 - i % k) + 13 * (i / k)) =
      ((k * 8 - 1) + (k * 8 + 13) * (i / k) + (k - i % k) * 8) + 1 + (8 * k - 8) := by
    have hmul : (k * 8 + 13) * (i / k) = 8 * k * (i / k) + 13 * (i / k) := by ring
    rw [hmul, Nat.mul_add]
    omega
  have hmsbit : msbit k i ≡ (k * 8 - 1) + (k * 8 + 13) * (i / k) + (k - i % k) * 8 [MOD 8 * k] := by
    rw [msbit, Nat.mul_comm k 8]
    exact Nat.mod_modEq _ _
  calc msbit k i + 1 + (8 * k - 8)
      ≡ ((k * 8 - 1) + (k * 8 + 13) * (i / k) + (k - i % k) * 8) + 1 + (8 * k - 8) [MOD 8 * k] :=
        (hmsbit.add_right 1).add_right _
    _ = 8 * k * (i / k + 2) + (8 * (k - 1 - i % k) + 13 * (i / k)) := hturns.symm
    _ ≡ 8 * (k - 1 - i % k) + 13 * (i / k) [MOD 8 * k] := Nat.mul_add_mod ..

lemma testBit_streamByte (hin : 0 < input.length) (hb : b < 8) :
    (streamByte input i).testBit b =
      cyclicBit input (8 * (input.length - 1 - i % input.length) + b + 13 * (i / input.length)) := by
  have hstart := msbit_modEq hin i
  have hlt : msbit input.length i < input.length * 8 := Nat.mod_lt _ (by omega)
  rw [streamByte]
  generalize msbit input.length i = s at hstart hlt
  have hshift : s >>> 3 = s / 8 := Nat.shiftRight_eq_div_pow s 3
  have hmask : s &&& 7 = s % 8 := Nat.and_two_pow_sub_one_eq_mod s 3
  have hbyte : ∀ x : ℕ, (x &&& 0xff).testBit b = x.testBit b := by
    intro x
    rw [Nat.and_two_pow_sub_one_eq_mod x 8, Nat.testBit_mod_two_pow]
    simp [hb]
  -- whichever of the two bytes the bit is in, it counts from where the byte starts
  have hsame : ∀ c, c ≡ s + 1 + b + (8 * input.length - 8) [MOD 8 * input.length] →
      cyclicBit input c =
        cyclicBit input (8 * (input.length - 1 - i % input.length) + b + 13 * (i / input.length)) := by
    intro c hc
    refine cyclicBit_congr (hc.trans ?_)
    have hadd := hstart.add_right b
    rw [Nat.add_right_comm (s + 1), Nat.add_right_comm (8 * _) b]
    exact hadd
  rw [hbyte, Nat.testBit_shiftRight, Nat.testBit_or, Nat.testBit_shiftLeft, hshift, hmask]
  by_cases hhi : 8 ≤ s % 8 + 1 + b
  · have hlo : (input.getD ((input.length - s / 8) % input.length) 0).toNat.testBit (s % 8 + 1 + b) = false :=
      Nat.testBit_lt_two_pow (Nat.lt_of_lt_of_le (UInt8.toNat_lt _) (Nat.pow_le_pow_right (by decide) hhi))
    rw [hlo, Bool.or_false, decide_eq_true hhi, Bool.true_and, Nat.mod_eq_of_lt (by omega),
      testBit_byte (by omega) (by omega)]
    refine hsame _ ?_
    have hturn : s + 1 + b + (8 * input.length - 8) =
        8 * input.length + (8 * (input.length - 1 - (input.length - 1 - s / 8)) + (s % 8 + 1 + b - 8)) := by
      omega
    rw [hturn]
    exact (Nat.add_modEq_left).symm
  · rw [decide_eq_false hhi, Bool.false_and, Bool.false_or, testBit_byte (Nat.mod_lt _ hin) (by omega)]
    refine hsame _ ?_
    by_cases hfirst : s / 8 = 0
    · have hplace : (input.length - s / 8) % input.length = 0 := by rw [hfirst, Nat.sub_zero, Nat.mod_self]
      have hbits : 8 * (input.length - 1 - 0) + (s % 8 + 1 + b) = s + 1 + b + (8 * input.length - 8) := by omega
      rw [hplace, hbits]
    · have hplace : (input.length - s / 8) % input.length = input.length - s / 8 :=
        Nat.mod_eq_of_lt (by omega)
      have hturn : s + 1 + b + (8 * input.length - 8) =
          8 * input.length + (8 * (input.length - 1 - (input.length - s / 8)) + (s % 8 + 1 + b)) := by omega
      rw [hplace, hturn]
      exact (Nat.add_modEq_left).symm

lemma streamByte_lt (input : List UInt8) (i : ℕ) : streamByte input i < 256 :=
  Nat.lt_of_le_of_lt Nat.and_le_right (by decide)

/-- **`nfold` adds the bytes of the stream of rotated copies.** -/
theorem streamByte_eq (hi : i < count * input.length) :
    streamByte input i = ((rotatedCopies input count).getD i 0).toNat := by
  have hpos : 0 < input.length := Nat.pos_of_ne_zero fun hzero => by rw [hzero] at hi; omega
  refine Nat.eq_of_testBit_eq fun b => ?_
  by_cases hb : b < 8
  · rw [testBit_streamByte hpos hb, testBit_rotatedCopies hi hb]
  · have hpow : 256 ≤ 2 ^ b := Nat.pow_le_pow_right (n := 2) (by decide) (Nat.le_of_not_lt hb)
    rw [Nat.testBit_lt_two_pow (Nat.lt_of_lt_of_le (streamByte_lt input i) hpow),
      Nat.testBit_lt_two_pow (Nat.lt_of_lt_of_le (UInt8.toNat_lt _) hpow)]

/-! ## The sum -/

/-- What one counts in the place of byte `i` of the stream. -/
def weight (n i : ℕ) : ℕ := 256 ^ (n - 1 - i % n)

/-- What a carry counts when `i` bytes of the stream are still to come: it goes to the place of the next. -/
def carryWeight (n i : ℕ) : ℕ := weight n (i + n - 1)

lemma nfoldByte_value (hin : 0 < input.length) (hn : 0 < n) (hout : out.length = n) (carry i : ℕ) :
    ∃ out' carry', nfoldByte input out carry i = .ok (out', carry') ∧ out'.length = n ∧
      BigEndian.toNat out' + carry' * (256 * weight n i) =
        BigEndian.toNat out + carry * weight n i + streamByte input i * weight n i := by
  subst hout
  have hp : i % out.length < out.length := Nat.mod_lt _ hn
  refine ⟨_, _, nfoldByte_eq hin hn carry i, List.length_set, ?_⟩
  rw [List.getD_eq_getElem _ _ hp]
  have hset := BigEndian.toNat_set hp
    (UInt8.ofNat ((carry + streamByte input i + out[i % out.length].toNat) &&& 0xff))
  generalize hv : carry + streamByte input i + out[i % out.length].toNat = v at hset ⊢
  have hbyte : (UInt8.ofNat (v &&& 0xff)).toNat = v % 256 := by
    rw [UInt8.toNat_ofNat', Nat.and_two_pow_sub_one_eq_mod v 8]
    omega
  have hshift : v >>> 8 = v / 256 := Nat.shiftRight_eq_div_pow v 8
  rw [hbyte] at hset
  rw [hshift, weight]
  refine Nat.add_right_cancel (m := out[i % out.length].toNat * 256 ^ (out.length - 1 - i % out.length)) ?_
  generalize 256 ^ (out.length - 1 - i % out.length) = W at hset ⊢
  calc BigEndian.toNat (out.set (i % out.length) (UInt8.ofNat (v &&& 0xff))) + v / 256 * (256 * W) +
        out[i % out.length].toNat * W
      = BigEndian.toNat out + v % 256 * W + v / 256 * (256 * W) := by rw [← hset]; ring
    _ = BigEndian.toNat out + (v % 256 + 256 * (v / 256)) * W := by ring
    _ = BigEndian.toNat out + (carry + streamByte input i + out[i % out.length].toNat) * W := by
        rw [Nat.mod_add_div, hv]
    _ = BigEndian.toNat out + carry * W + streamByte input i * W + out[i % out.length].toNat * W := by ring

lemma same_carry (hn : 0 < n) (carry i : ℕ) :
    Same (256 ^ n) (carry * (256 * weight n i)) (carry * carryWeight n i) := by
  have hplace : i % n < n := Nat.mod_lt _ hn
  rw [weight, carryWeight, weight]
  by_cases hfirst : i % n = 0
  · have hlast : (i + n - 1) % n = n - 1 := by
      rw [Nat.add_sub_assoc hn, Nat.add_mod, hfirst, Nat.zero_add, Nat.mod_mod, Nat.mod_eq_of_lt (by omega)]
    have htop : 256 * 256 ^ (n - 1 - 0) = 256 ^ n := by
      rw [Nat.sub_zero, ← Nat.pow_succ', Nat.succ_eq_add_one, Nat.sub_add_cancel hn]
    rw [hfirst, hlast, htop, Nat.sub_self, Nat.pow_zero, Nat.mul_one]
    exact Same.of_carry (Nat.pow_pos (by decide)) carry
  · have hbefore : (i + n - 1) % n = i % n - 1 := by
      have hsplit : i + n - 1 = (i % n - 1) + n * (i / n + 1) := by
        have hdiv := Nat.mod_add_div i n
        rw [Nat.mul_add, Nat.mul_one]
        omega
      rw [hsplit, Nat.add_mul_mod_self_left, Nat.mod_eq_of_lt (by omega)]
    have hpow : 256 ^ (n - 1 - (i % n - 1)) = 256 * 256 ^ (n - 1 - i % n) := by
      rw [← Nat.pow_succ']
      exact congrArg (256 ^ ·) (by omega)
    rw [hbefore, hpow]
    exact Same.refl _ _

/-- **The bytes and the carry stand for the bytes of the stream added so far.** -/
theorem nfoldBytes_same (hin : 0 < input.length) (hn : 0 < n) (hout : out.length = n) (carry count : ℕ) :
    ∃ out' carry', nfoldBytes input count out carry = .ok (out', carry') ∧ out'.length = n ∧
      Same (256 ^ n) (BigEndian.toNat out' + carry')
        (BigEndian.toNat out + carry * carryWeight n count +
          ∑ i ∈ Finset.range count, streamByte input i * weight n i) := by
  induction count generalizing out carry with
  | zero =>
      have hone : carryWeight n 0 = 1 := by
        rw [carryWeight, weight, Nat.zero_add, Nat.mod_eq_of_lt (by omega), Nat.sub_self, Nat.pow_zero]
      refine ⟨out, carry, rfl, hout, ?_⟩
      rw [hone, Nat.mul_one, Finset.range_zero, Finset.sum_empty, Nat.add_zero]
      exact Same.refl _ _
  | succ i ih =>
      obtain ⟨out₁, carry₁, hturn, hlen₁, hvalue⟩ := nfoldByte_value hin hn hout carry i
      obtain ⟨out', carry', hrest, hlen', hsame⟩ := ih hlen₁ carry₁
      refine ⟨out', carry', ?_, hlen', hsame.trans ?_⟩
      · rw [nfoldBytes, hturn]
        exact hrest
      · have hplace : carryWeight n (i + 1) = weight n i := by
          rw [carryWeight, weight, weight, show i + 1 + n - 1 = i + n by omega, Nat.add_mod_right]
        have hcarry := ((Same.refl (256 ^ n) (BigEndian.toNat out₁)).add (same_carry hn carry₁ i)).symm.add
          (Same.refl (256 ^ n) (∑ i ∈ Finset.range i, streamByte input i * weight n i))
        rw [hvalue] at hcarry
        rw [hplace, Finset.sum_range_succ, Nat.add_comm (∑ i ∈ Finset.range i, _), ← Nat.add_assoc]
        exact hcarry

lemma endAround_same (hn : 0 < n) (hout : out.length = n) (carry : ℕ) :
    ∃ s, endAround (carry * 256 ^ n + BigEndian.toNat out) out carry = .ok s ∧ s.1.length = n ∧
      Same (256 ^ n) (BigEndian.toNat s.1) (BigEndian.toNat out + carry) := by
  subst hout
  have hturn : ∀ s : List UInt8 × ℕ, (s.1.length = out.length ∧
        Same (256 ^ out.length) (BigEndian.toNat s.1 + s.2) (BigEndian.toNat out + carry)) →
      (s.2 != 0) = true →
      ∃ s', (.ok (carryIn s.1 s.2) : Checked Failed _) = .ok s' ∧ (s'.1.length = out.length ∧
          Same (256 ^ out.length) (BigEndian.toNat s'.1 + s'.2) (BigEndian.toNat out + carry)) ∧
        s'.2 * 256 ^ out.length + BigEndian.toNat s'.1 < s.2 * 256 ^ out.length + BigEndian.toNat s.1 := by
    rintro s ⟨hs, hsame⟩ hcarry
    have hlt := carryIn_lt (hs.symm ▸ hn) (bne_iff_ne.mp hcarry)
    obtain ⟨hlen, hsum⟩ := carryIn_spec s.1 s.2
    rw [hs] at hlt hsum
    refine ⟨_, rfl, ⟨hlen.trans hs, ?_⟩, hlt⟩
    have hcarried := (Same.refl (256 ^ out.length) (BigEndian.toNat (carryIn s.1 s.2).1)).add
      (Same.of_carry (Nat.pow_pos (by decide)) (carryIn s.1 s.2).2)
    rw [Nat.mul_comm, hsum] at hcarried
    exact hcarried.symm.trans hsame
  obtain ⟨s, hloop, ⟨hlen, hsame⟩, hend⟩ :=
    whileLoop_spec hturn _ (out, carry) ⟨rfl, Same.refl _ _⟩ (Nat.le_refl _)
  have hzero : s.2 = 0 := by simpa using hend
  rw [hzero, Nat.add_zero] at hsame
  exact ⟨s, hloop, hlen, hsame⟩

/-- What is carried from byte to byte is at most one, so it fits in the `u32` of the source. -/
theorem nfoldBytes_carry_le (hin : 0 < input.length) (hn : 0 < n) (hout : out.length = n) (hcarry : carry ≤ 1)
    (count : ℕ) : ∃ out' carry', nfoldBytes input count out carry = .ok (out', carry') ∧ carry' ≤ 1 := by
  induction count generalizing out carry with
  | zero => exact ⟨out, carry, rfl, hcarry⟩
  | succ i ih =>
      subst hout
      have hbyte := streamByte_lt input i
      have hplace := (out.getD (i % out.length) 0).toNat_lt
      have hle : (carry + streamByte input i + (out.getD (i % out.length) 0).toNat) >>> 8 ≤ 1 := by
        rw [Nat.shiftRight_eq_div_pow]
        omega
      rw [nfoldBytes, nfoldByte_eq hin hn carry i]
      exact ih List.length_set hle

/-! ## The blocks -/

lemma toNat_eq_sum (bytes : List UInt8) :
    BigEndian.toNat bytes =
      ∑ p ∈ Finset.range bytes.length, (bytes.getD p 0).toNat * 256 ^ (bytes.length - 1 - p) := by
  induction bytes using List.reverseRecOn with
  | nil => rfl
  | append_singleton bytes b ih =>
      have hinit : ∑ p ∈ Finset.range bytes.length,
            ((bytes ++ [b]).getD p 0).toNat * 256 ^ (bytes.length + 1 - 1 - p) =
          (∑ p ∈ Finset.range bytes.length, (bytes.getD p 0).toNat * 256 ^ (bytes.length - 1 - p)) * 256 := by
        rw [Finset.sum_mul]
        refine Finset.sum_congr rfl fun p hp => ?_
        have hlt : p < bytes.length := Finset.mem_range.mp hp
        rw [List.getD_append _ _ _ _ hlt, show bytes.length + 1 - 1 - p = bytes.length - 1 - p + 1 by omega,
          Nat.pow_succ, Nat.mul_assoc]
      have hlast : (bytes ++ [b]).getD bytes.length 0 = b := by
        rw [List.getD_append_right _ _ _ _ (Nat.le_refl _), Nat.sub_self]
        rfl
      rw [BigEndian.toNat_concat, List.length_append, List.length_singleton, Finset.sum_range_succ, hinit,
        hlast, ← ih, Nat.add_sub_cancel, Nat.sub_self, Nat.pow_zero, Nat.mul_one]

lemma toNat_block {stream : List UInt8} {q : ℕ} (h : q * n + n ≤ stream.length) :
    BigEndian.toNat ((stream.drop (q * n)).take n) =
      ∑ p ∈ Finset.range n, (stream.getD (q * n + p) 0).toNat * 256 ^ (n - 1 - p) := by
  have hlen : ((stream.drop (q * n)).take n).length = n := by
    rw [List.length_take, List.length_drop]
    omega
  rw [toNat_eq_sum, hlen]
  refine Finset.sum_congr rfl fun p hp => ?_
  have hlt : p < n := Finset.mem_range.mp hp
  rw [List.getD_eq_getElem _ _ (by rw [hlen]; exact hlt), List.getD_eq_getElem _ _ (by omega),
    List.getElem_take, List.getElem_drop]

lemma sum_blocks {stream : List UInt8} (q : ℕ) (h : q * n ≤ stream.length) :
    ∑ i ∈ Finset.range (q * n), (stream.getD i 0).toNat * weight n i =
      (((List.range q).map fun q => (stream.drop (q * n)).take n).map BigEndian.toNat).sum := by
  induction q with
  | zero => rw [Nat.zero_mul]; rfl
  | succ q ih =>
      rw [Nat.succ_mul] at h
      have hblock : ∑ p ∈ Finset.range n, (stream.getD (q * n + p) 0).toNat * weight n (q * n + p) =
          BigEndian.toNat ((stream.drop (q * n)).take n) := by
        rw [toNat_block h]
        refine Finset.sum_congr rfl fun p hp => ?_
        rw [weight, Nat.mul_comm q n, Nat.mul_add_mod, Nat.mod_eq_of_lt (Finset.mem_range.mp hp)]
      rw [Nat.succ_mul, Finset.sum_range_add, ih (by omega), hblock, List.range_succ, List.map_append,
        List.map_append, List.sum_append, List.map_singleton, List.map_singleton, List.sum_singleton]

lemma toNat_zeros (n : ℕ) : BigEndian.toNat (List.replicate n 0) = 0 := by
  induction n with
  | zero => rfl
  | succ n ih => rw [List.replicate_succ, BigEndian.toNat_cons, ih, UInt8.toNat_zero, Nat.zero_mul]

/-- **`nfold` is the n-fold of RFC 3961**, and its last loop ends. -/
theorem nfold_eq (hin : input ≠ []) (hn : 0 < n) : nfold input n = .ok (rfc3961Fold input n) := by
  have hpos : 0 < input.length := List.length_pos_iff.mpr hin
  have hw : 0 < 256 ^ n := Nat.pow_pos (by decide)
  -- as many bytes as the copies have, which are as many as whole blocks have
  have hlcm : n / gcd n input.length * input.length = Nat.lcm n input.length := by
    rw [gcd, Nat.lcm_eq_mul_div, Nat.div_mul_right_comm (Nat.gcd_dvd_left n input.length)]
  have hcopies : Nat.lcm n input.length / input.length * input.length = Nat.lcm n input.length :=
    Nat.div_mul_cancel (Nat.dvd_lcm_right n input.length)
  have hblocks : Nat.lcm n input.length / n * n = Nat.lcm n input.length :=
    Nat.div_mul_cancel (Nat.dvd_lcm_left n input.length)
  obtain ⟨out, carry, hbytes, hlen, hadded⟩ :=
    nfoldBytes_same hpos hn List.length_replicate 0 (Nat.lcm n input.length)
  obtain ⟨s, hloop, hend, haround⟩ := endAround_same hn hlen carry
  have hstream := length_rotatedCopies input (Nat.lcm n input.length / input.length)
  rw [hcopies] at hstream
  have hsum : ∑ i ∈ Finset.range (Nat.lcm n input.length), streamByte input i * weight n i =
      ((blocks n (rotatedCopies input (Nat.lcm n input.length / input.length))).map BigEndian.toNat).sum := by
    rw [blocks, hstream, ← sum_blocks (Nat.lcm n input.length / n) (by rw [hstream, hblocks]), hblocks]
    refine Finset.sum_congr rfl fun i hi => ?_
    rw [streamByte_eq (by rw [hcopies]; exact Finset.mem_range.mp hi)]
  have hwords : ∀ a ∈ (blocks n (rotatedCopies input (Nat.lcm n input.length / input.length))).map
      BigEndian.toNat, a < 256 ^ n := by
    intro a ha
    obtain ⟨block, hblock, rfl⟩ := List.mem_map.mp ha
    obtain ⟨q, -, rfl⟩ := List.mem_map.mp hblock
    exact Nat.lt_of_lt_of_le (BigEndian.toNat_lt _)
      (Nat.pow_le_pow_right (by decide) (List.length_take_le _ _))
  obtain ⟨hfold, hfits⟩ := same_sum hw hwords
  rw [toNat_zeros, hsum, Nat.zero_mul, Nat.zero_add] at hadded
  have hout : BigEndian.toNat s.1 < 256 ^ n := hend ▸ BigEndian.toNat_lt s.1
  have hvalue := (haround.trans (hadded.trans hfold)).eq_of_lt hout hfits
  rw [nfold, hlcm, hbytes]
  show (endAround _ _ _ >>= _) = _
  rw [hloop, rfc3961Fold, ← hvalue]
  refine congrArg Except.ok ?_
  show s.1 = _
  rw [← hend, BigEndian.ofNat_toNat]

/-- The 64-fold of `012345`. -/
theorem nfold_eq_012345 :
    ([0x30, 0x31, 0x32, 0x33, 0x34, 0x35] : List UInt8) ≠ [] ∧ 0 < 8 ∧
      nfold [0x30, 0x31, 0x32, 0x33, 0x34, 0x35] 8 =
        .ok (rfc3961Fold [0x30, 0x31, 0x32, 0x33, 0x34, 0x35] 8) :=
  ⟨List.cons_ne_nil _ _, by decide, nfold_eq (List.cons_ne_nil _ _) (by decide)⟩

end Ridm.Kerberos.Aes
