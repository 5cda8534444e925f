import Mathlib.Data.List.Induction
import Mathlib.Tactic.Ring

/-!
# Numbers as bytes, the highest first

`toNat` reads a byte string as a number, and `ofNat` writes a number as so many bytes.  They are inverse to
each other on numbers that fit (`toNat_ofNat_of_lt`) and on byte strings of that length (`ofNat_toNat`).
-/

namespace BigEndian

/-- The number that bytes stand for. -/
def toNat (bytes : List UInt8) : ℕ := bytes.foldl (fun n b => n * 256 + b.toNat) 0

/-- A number as so many bytes; what does not fit is cut off. -/
def ofNat : ℕ → ℕ → List UInt8
  | 0, _ => []
  | w + 1, n => ofNat w (n / 256) ++ [UInt8.ofNat n]

/-- An integer as so many bytes, a negative one in two's complement. -/
def ofInt (w : ℕ) (n : ℤ) : List UInt8 := ofNat w (n % 256 ^ w).toNat

variable {bytes : List UInt8} {w n : ℕ}

@[simp] lemma toNat_nil : toNat [] = 0 := rfl

lemma toNat_concat (bytes : List UInt8) (b : UInt8) : toNat (bytes ++ [b]) = toNat bytes * 256 + b.toNat := by
  simp [toNat]

lemma toNat_append (bytes rest : List UInt8) :
    toNat (bytes ++ rest) = toNat bytes * 256 ^ rest.length + toNat rest := by
  induction rest using List.reverseRecOn with
  | nil => simp
  | append_singleton rest b ih =>
      rw [← List.append_assoc, toNat_concat, toNat_concat, ih, List.length_append, List.length_singleton,
        Nat.pow_succ]
      ring

lemma toNat_cons (b : UInt8) (bytes : List UInt8) :
    toNat (b :: bytes) = b.toNat * 256 ^ bytes.length + toNat bytes := by
  have hone : toNat [b] = b.toNat := by simp [toNat]
  rw [← List.singleton_append, toNat_append, hone]

lemma toNat_lt (bytes : List UInt8) : toNat bytes < 256 ^ bytes.length := by
  induction bytes using List.reverseRecOn with
  | nil => decide
  | append_singleton bytes b ih =>
      have hb : b.toNat < 256 := b.toNat_lt
      rw [toNat_concat, List.length_append, List.length_singleton, Nat.pow_succ]
      omega

@[simp] lemma length_ofNat (w n : ℕ) : (ofNat w n).length = w := by
  induction w generalizing n with
  | zero => rfl
  | succ w ih => rw [ofNat, List.length_append, ih, List.length_singleton]

@[simp] lemma length_ofInt (w : ℕ) (n : ℤ) : (ofInt w n).length = w := length_ofNat w _

lemma toNat_ofNat (w n : ℕ) : toNat (ofNat w n) = n % 256 ^ w := by
  induction w generalizing n with
  | zero => rw [ofNat, toNat_nil, Nat.pow_zero, Nat.mod_one]
  | succ w ih =>
      have hbyte : (UInt8.ofNat n).toNat = n % 256 := UInt8.toNat_ofNat'
      rw [ofNat, toNat_concat, ih, hbyte, Nat.pow_succ, Nat.mul_comm (256 ^ w) 256, Nat.mod_mul]
      ring

/-- **A number that fits is read again.** -/
theorem toNat_ofNat_of_lt (h : n < 256 ^ w) : toNat (ofNat w n) = n := by
  rw [toNat_ofNat, Nat.mod_eq_of_lt h]

/-- **Bytes are written again**, as many as there were. -/
theorem ofNat_toNat (bytes : List UInt8) : ofNat bytes.length (toNat bytes) = bytes := by
  induction bytes using List.reverseRecOn with
  | nil => rfl
  | append_singleton bytes b ih =>
      have hb : b.toNat < 256 := b.toNat_lt
      have hdiv : (toNat bytes * 256 + b.toNat) / 256 = toNat bytes := by omega
      have hmod : UInt8.ofNat (toNat bytes * 256 + b.toNat) = b := by
        rw [← UInt8.toNat_inj, UInt8.toNat_ofNat']
        omega
      rw [List.length_append, List.length_singleton, ofNat, toNat_concat, hdiv, hmod, ih]

/-! ## Single bytes -/

lemma toNat_set_eq {p : ℕ} (hp : p < bytes.length) (b : UInt8) :
    toNat (bytes.set p b) =
      (toNat (bytes.take p) * 256 + b.toNat) * 256 ^ (bytes.length - 1 - p) + toNat (bytes.drop (p + 1)) := by
  have hlen : (bytes.drop (p + 1)).length = bytes.length - 1 - p := by
    rw [List.length_drop]
    omega
  rw [List.set_eq_take_append_cons_drop, if_pos hp, toNat_append, toNat_cons, List.length_cons, Nat.pow_succ,
    hlen]
  ring

lemma toNat_div_mod {p : ℕ} (hp : p < bytes.length) :
    toNat bytes / 256 ^ (bytes.length - 1 - p) % 256 = bytes[p].toNat := by
  have hrest : toNat (bytes.drop (p + 1)) < 256 ^ (bytes.length - 1 - p) := by
    have hlt := toNat_lt (bytes.drop (p + 1))
    rw [List.length_drop] at hlt
    rwa [show bytes.length - 1 - p = bytes.length - (p + 1) by omega]
  have hpos : 0 < 256 ^ (bytes.length - 1 - p) := Nat.pow_pos (by decide)
  have hbytes := toNat_set_eq hp bytes[p]
  rw [List.set_getElem_self] at hbytes
  rw [hbytes, Nat.mul_comm, Nat.mul_add_div hpos, Nat.div_eq_of_lt hrest, Nat.add_zero]
  have hb := bytes[p].toNat_lt
  omega

lemma toNat_set {p : ℕ} (hp : p < bytes.length) (b : UInt8) :
    toNat (bytes.set p b) + bytes[p].toNat * 256 ^ (bytes.length - 1 - p) =
      toNat bytes + b.toNat * 256 ^ (bytes.length - 1 - p) := by
  have hbytes := toNat_set_eq hp bytes[p]
  rw [List.set_getElem_self] at hbytes
  rw [toNat_set_eq hp b, hbytes]
  ring

lemma testBit_getElem {p i : ℕ} (hp : p < bytes.length) (hi : i < 8) :
    bytes[p].toNat.testBit i = (toNat bytes).testBit (8 * (bytes.length - 1 - p) + i) := by
  have hpow : 256 ^ (bytes.length - 1 - p) = 2 ^ (8 * (bytes.length - 1 - p)) := by rw [Nat.pow_mul]
  rw [← toNat_div_mod hp, hpow, Nat.testBit_mod_two_pow (toNat bytes / _) 8 i, Nat.testBit_div_two_pow]
  simp [hi, Nat.add_comm]

end BigEndian
