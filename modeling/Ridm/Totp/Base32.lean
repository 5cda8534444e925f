import Ridm.Lib.Regroup
import Ridm.Totp.Authenticator

/-!
# Base32 secrets

`base32_encode` and `base32_decode` of `api/src/services/totp.rs`.  Both keep their bits in a `u32` that
they never mask, so it overflows on the fourth byte and from then on.  Only the bits that were not written
yet count, and there are at most twelve of them: both loops keep `Regroup.Held`.

So a secret is read again as it was (`base32Decode_base32Encode`), in either case and with any padding, and
`build` takes every secret that `new_secret` makes (`build_base32Encode`).
-/

namespace Ridm.Totp

open Regroup (Held Filled shifted_mod)

/-! ## Writing -/

/-- The character of `BASE32` for the low five bits. -/
def base32Char (v : UInt32) : Char := base32Alphabet.getD (v &&& 31).toNat 'A'

/-- The inner loop of `base32_encode`: what it pushes, and the bits it leaves. -/
def base32Groups (buffer : UInt32) : ℕ → List Char × ℕ
  | bits + 5 =>
      let rest := base32Groups buffer bits
      (base32Char (buffer >>> UInt32.ofNat bits) :: rest.1, rest.2)
  | bits => ([], bits)

/-- The loop of `base32_encode`, and its last group. -/
def base32EncodeLoop : List UInt8 → UInt32 → ℕ → List Char
  | [], buffer, bits => if 0 < bits then [base32Char (buffer <<< UInt32.ofNat (5 - bits))] else []
  | b :: bytes, buffer, bits =>
      let buffer := (buffer <<< 8) ||| b.toUInt32
      let groups := base32Groups buffer (bits + 8)
      groups.1 ++ base32EncodeLoop bytes buffer groups.2

/-- `base32_encode`: upper case, without padding. -/
def base32Encode (bytes : List UInt8) : String := String.ofList (base32EncodeLoop bytes 0 0)

example : base32EncodeLoop [0x66, 0x6f, 0x6f, 0x62, 0x61, 0x72] 0 0 = "MZXW6YTBOI".toList := by decide

/-! ## The accumulator as a word -/

variable {buffer d : UInt32} {w v r : ℕ} {ds out : List ℕ}

lemma shift_count (hw : w < 32) : (UInt32.ofNat w).toNat % 32 = w := by
  rw [UInt32.toNat_ofNat', Nat.mod_mod_of_dvd _ (by decide), Nat.mod_eq_of_lt hw]

lemma toNat_shift_left (hw : w < 32) :
    (buffer <<< UInt32.ofNat w).toNat = buffer.toNat * 2 ^ w % 2 ^ 32 := by
  rw [UInt32.toNat_shiftLeft, shift_count hw, Nat.shiftLeft_eq]

lemma toNat_shift_right (hr : r < 32) : (buffer >>> UInt32.ofNat r).toNat = buffer.toNat / 2 ^ r := by
  rw [UInt32.toNat_shiftRight, shift_count hr, Nat.shiftRight_eq_div_pow]

lemma toNat_shift_in (hw : w < 32) (hd : d.toNat < 2 ^ w) :
    ((buffer <<< UInt32.ofNat w) ||| d).toNat = (buffer.toNat * 2 ^ w + d.toNat) % 2 ^ 32 := by
  have hword : 2 ^ 32 = 2 ^ (32 - w + w) := by rw [Nat.sub_add_cancel hw.le]
  rw [UInt32.toNat_or, toNat_shift_left hw, hword, shifted_mod _ _ hd, Nat.pow_add, Nat.mul_mod_mul_right,
    Nat.mul_comm _ (2 ^ w), ← Nat.two_pow_add_eq_or_of_lt hd]

lemma held_shift_in (h : Held w v ds out r buffer.toNat) (hd : d.toNat < 2 ^ w) (hw : w < 32)
    (hfits : r + w ≤ 32) :
    Held w v (ds ++ [d.toNat]) out (r + w) ((buffer <<< UInt32.ofNat w) ||| d).toNat := by
  refine h.shift_in hd ?_
  rw [toNat_shift_in hw hd]
  exact Nat.mod_mod_of_dvd _ (Nat.pow_dvd_pow 2 hfits)

/-! ## The alphabet -/

def digitChar (n : ℕ) : Char := base32Alphabet.getD n 'A'

def digitChars (digits : List ℕ) : List Char := digits.map digitChar

lemma base32Char_eq (v : UInt32) : base32Char v = digitChar (v.toNat % 32) := by
  have hmask : (v &&& 31).toNat = v.toNat % 32 := by
    rw [UInt32.toNat_and]
    exact Nat.and_two_pow_sub_one_eq_mod v.toNat 5
  rw [base32Char, hmask, digitChar]

lemma digitChar_spec {n : ℕ} (hn : n < 32) :
    base32Alphabet.idxOf? (digitChar n) = some n ∧ (digitChar n).toUpper = digitChar n ∧
      (digitChar n).toLower.toUpper = digitChar n ∧ digitChar n ≠ '=' := by
  have hall : ∀ n < 32, base32Alphabet.idxOf? (digitChar n) = some n ∧ (digitChar n).toUpper = digitChar n ∧
      (digitChar n).toLower.toUpper = digitChar n ∧ digitChar n ≠ '=' := by decide
  exact hall n hn

/-! ## What the loops hold -/

variable {digits : List ℕ} {bits : ℕ}

lemma base32Groups_held (hbits : bits < 32) (h : Held 8 5 ds out bits buffer.toNat) :
    ∃ digits, (base32Groups buffer bits).1 = digitChars digits ∧ (∀ d ∈ digits, d < 2 ^ 5) ∧
      (base32Groups buffer bits).2 < 5 ∧
      Held 8 5 ds (out ++ digits) (base32Groups buffer bits).2 buffer.toNat := by
  induction bits using base32Groups.induct buffer generalizing out with
  | case1 bits ih =>
      obtain ⟨digits, hchars, hdigits, hleft, hheld⟩ := ih (by omega) h.take_out
      refine ⟨buffer.toNat / 2 ^ bits % 2 ^ 5 :: digits, ?_, ?_, hleft, ?_⟩
      · have hfirst : base32Char (buffer >>> UInt32.ofNat bits) =
            digitChar (buffer.toNat / 2 ^ bits % 2 ^ 5) := by
          rw [base32Char_eq, toNat_shift_right (by omega)]
          rfl
        show base32Char (buffer >>> UInt32.ofNat bits) :: (base32Groups buffer bits).1 = _
        rw [hchars, hfirst]
        rfl
      · exact List.forall_mem_cons.mpr ⟨Nat.mod_lt _ (by decide), hdigits⟩
      · rw [List.append_assoc, List.singleton_append] at hheld
        exact hheld
  | case2 bits hsmall =>
      have hlt : bits < 5 := by
        by_contra hge
        exact hsmall (bits - 5) (by omega)
      have heq : base32Groups buffer bits = ([], bits) := by
        rw [base32Groups.eq_def]
        split
        · omega
        · rfl
      rw [heq]
      exact ⟨[], rfl, fun _ hd => absurd hd List.not_mem_nil, hlt, by rw [List.append_nil]; exact h⟩

/-- What a byte string is for a codec of eight bit digits. -/
def octets (bytes : List UInt8) : List ℕ := bytes.map UInt8.toNat

lemma octets_lt (bytes : List UInt8) : ∀ d ∈ octets bytes, d < 2 ^ 8 := by
  intro d hd
  obtain ⟨b, -, rfl⟩ := List.mem_map.mp hd
  exact b.toNat_lt

lemma octets_injective : Function.Injective octets :=
  List.map_injective_iff.mpr fun _ _ h => UInt8.toNat_inj.mp h

lemma base32EncodeLoop_filled (bytes : List UInt8) (hbits : bits < 5)
    (h : Held 8 5 ds out bits buffer.toNat) :
    ∃ digits z, base32EncodeLoop bytes buffer bits = digitChars digits ∧ (∀ d ∈ digits, d < 2 ^ 5) ∧
      z < 8 ∧ Filled 8 5 (ds ++ octets bytes) (out ++ digits) z := by
  induction bytes generalizing ds out buffer bits with
  | nil =>
      have hds : ds ++ octets [] = ds := List.append_nil ds
      rw [hds]
      by_cases hpos : 0 < bits
      · refine ⟨[buffer.toNat * 2 ^ (5 - bits) % 2 ^ 5], 5 - bits, ?_, ?_, by omega, h.fill hbits.le⟩
        · have hlast : (buffer <<< UInt32.ofNat (5 - bits)).toNat % 2 ^ 5 =
              buffer.toNat * 2 ^ (5 - bits) % 2 ^ 5 := by
            rw [toNat_shift_left (by omega), Nat.mod_mod_of_dvd _ (by decide)]
          rw [base32EncodeLoop, if_pos hpos, base32Char_eq]
          exact congrArg (fun n => [digitChar n]) hlast
        · exact List.forall_mem_singleton.mpr (Nat.mod_lt _ (by decide))
      · have hzero : bits = 0 := by omega
        subst hzero
        exact ⟨[], 0, rfl, fun _ hd => absurd hd List.not_mem_nil, by decide, by
          rw [List.append_nil]; exact h.whole⟩
  | cons b bytes ih =>
      have hbyte : b.toUInt32.toNat = b.toNat := UInt8.toNat_toUInt32 b
      have hread : Held 8 5 (ds ++ [b.toNat]) out (bits + 8) ((buffer <<< 8) ||| b.toUInt32).toNat := by
        have hshift := held_shift_in h (by rw [hbyte]; exact b.toNat_lt) (by decide) (by omega)
        rw [hbyte] at hshift
        exact hshift
      obtain ⟨first, hfirst, hfirst_lt, hleft, hheld⟩ := base32Groups_held (by omega) hread
      obtain ⟨digits, z, hchars, hdigits, hz, hfilled⟩ := ih hleft hheld
      refine ⟨first ++ digits, z, ?_, ?_, hz, ?_⟩
      · show (base32Groups _ (bits + 8)).1 ++ base32EncodeLoop bytes _ (base32Groups _ (bits + 8)).2 = _
        rw [hfirst, hchars]
        exact List.map_append.symm
      · exact List.forall_mem_append.mpr ⟨hfirst_lt, hdigits⟩
      · rw [List.append_assoc, List.append_assoc] at hfilled
        exact hfilled

variable {cs : List Char} {bytes : List UInt8}

lemma base32Loop_held (hcs : cs.map Char.toUpper = digitChars digits)
    (hdigits : ∀ d ∈ digits, d < 2 ^ 5) (hbits : bits < 8) (h : Held 5 8 ds out bits buffer.toNat) :
    ∃ bytes r acc, base32Loop cs buffer bits = some bytes ∧ r < 8 ∧
      Held 5 8 (ds ++ digits) (out ++ octets bytes) r acc := by
  induction digits generalizing cs ds out buffer bits with
  | nil =>
      have hnil : cs = [] := List.map_eq_nil_iff.mp hcs
      subst hnil
      refine ⟨[], bits, buffer.toNat, rfl, hbits, ?_⟩
      rw [List.append_nil, octets, List.map_nil, List.append_nil]
      exact h
  | cons d digits ih =>
      obtain ⟨c, cs', rfl, hc, hcs'⟩ := List.map_eq_cons_iff.mp hcs
      have hd : d < 32 := hdigits d List.mem_cons_self
      have hfound : base32Alphabet.idxOf? c.toUpper = some d := by rw [hc]; exact (digitChar_spec hd).1
      have hvalue : (UInt32.ofNat d).toNat = d := by
        rw [UInt32.toNat_ofNat']
        exact Nat.mod_eq_of_lt (by omega)
      have hread : Held 5 8 (ds ++ [d]) out (bits + 5) ((buffer <<< 5) ||| UInt32.ofNat d).toNat := by
        have hshift := held_shift_in h (by rw [hvalue]; exact hd) (by decide) (by omega)
        rw [hvalue] at hshift
        exact hshift
      rw [base32Loop, hfound]
      dsimp only
      by_cases hwhole : 8 ≤ bits + 5
      · obtain ⟨left, hbits_eq⟩ : ∃ left, bits + 5 = left + 8 := ⟨bits + 5 - 8, by omega⟩
        rw [if_pos hwhole, hbits_eq, Nat.add_sub_cancel]
        rw [hbits_eq] at hread
        obtain ⟨bytes, r, acc, hloop, hr, hheld⟩ := ih hcs' (List.forall_mem_cons.mp hdigits).2 (by omega)
          hread.take_out
        refine ⟨_, r, acc, by rw [hloop]; rfl, hr, ?_⟩
        have hbyte : (((buffer <<< 5) ||| UInt32.ofNat d) >>> UInt32.ofNat left).toUInt8.toNat =
            ((buffer <<< 5) ||| UInt32.ofNat d).toNat / 2 ^ left % 2 ^ 8 := by
          rw [UInt32.toNat_toUInt8, toNat_shift_right (by omega)]
        rw [octets, List.map_cons, hbyte]
        rw [List.append_assoc, List.append_assoc] at hheld
        exact hheld
      · rw [if_neg hwhole]
        obtain ⟨bytes, r, acc, hloop, hr, hheld⟩ := ih hcs' (List.forall_mem_cons.mp hdigits).2 (by omega) hread
        rw [List.append_assoc] at hheld
        exact ⟨bytes, r, acc, hloop, hr, hheld⟩

/-! ## Reading back -/

lemma held_start (w v : ℕ) : Held w v [] [] 0 (0 : UInt32).toNat := Held.nil w v

lemma base32Encode_filled (bytes : List UInt8) :
    ∃ digits z, base32EncodeLoop bytes 0 0 = digitChars digits ∧ (∀ d ∈ digits, d < 2 ^ 5) ∧ z < 8 ∧
      Filled 8 5 (octets bytes) digits z :=
  base32EncodeLoop_filled bytes (by decide) (held_start 8 5)

/-- **Text that is the encoding in upper case is decoded to the bytes.** -/
theorem base32Loop_encode (bytes : List UInt8)
    (hcs : cs.map Char.toUpper = base32EncodeLoop bytes 0 0) : base32Loop cs 0 0 = some bytes := by
  obtain ⟨digits, z, hchars, hdigits, hz, hfilled⟩ := base32Encode_filled bytes
  obtain ⟨back, r, acc, hloop, hr, hheld⟩ :=
    base32Loop_held (hcs.trans hchars) hdigits (by decide) (held_start 5 8)
  have hback : octets back = octets bytes :=
    hfilled.regroup_back hheld hz hr (octets_lt bytes) (octets_lt back)
  rw [hloop, octets_injective hback]

lemma trimEndMatches_padded {c : Char} (hcs : ∀ a ∈ cs, a ≠ c) (n : ℕ) :
    (trimEndMatches (String.ofList (cs ++ List.replicate n c)) c).toList = cs := by
  have hhead : cs.reverse.dropWhile (· == c) = cs.reverse := by
    cases hreverse : cs.reverse with
    | nil => rfl
    | cons a rest =>
        have ha : a ∈ cs := List.mem_reverse.mp (hreverse ▸ List.mem_cons_self)
        rw [List.dropWhile_cons, if_neg (by simpa using hcs a ha)]
  have hpad : ((List.replicate n c).reverse ++ cs.reverse).dropWhile (· == c) = cs.reverse := by
    rw [List.reverse_replicate, List.dropWhile_append_of_pos (by simp), hhead]
  rw [trimEndMatches, String.toList_ofList, String.toList_ofList, List.reverse_append, hpad,
    List.reverse_reverse]

lemma upper_encode (bytes : List UInt8) :
    (base32EncodeLoop bytes 0 0).map Char.toUpper = base32EncodeLoop bytes 0 0 ∧
      ((base32EncodeLoop bytes 0 0).map Char.toLower).map Char.toUpper = base32EncodeLoop bytes 0 0 := by
  obtain ⟨digits, z, hchars, hdigits, -, -⟩ := base32Encode_filled bytes
  rw [hchars, digitChars, List.map_map, List.map_map, List.map_map]
  exact ⟨List.map_congr_left fun d hd => (digitChar_spec (hdigits d hd)).2.1,
    List.map_congr_left fun d hd => (digitChar_spec (hdigits d hd)).2.2.1⟩

/-- **An encoding is decoded in any case and with any padding.** -/
theorem base32Decode_of_upper (hcs : cs.map Char.toUpper = base32EncodeLoop bytes 0 0) (n : ℕ) :
    base32Decode (String.ofList (cs ++ List.replicate n '=')) = some bytes := by
  have hpad : ∀ c ∈ cs, c ≠ '=' := by
    obtain ⟨digits, z, hchars, hdigits, -, -⟩ := base32Encode_filled bytes
    rintro c hc rfl
    have hmem : '='.toUpper ∈ digitChars digits := by
      rw [← hchars, ← hcs]
      exact List.mem_map_of_mem hc
    obtain ⟨d, hd, heq⟩ := List.mem_map.mp hmem
    exact (digitChar_spec (hdigits d hd)).2.2.2 heq
  rw [base32Decode, trimEndMatches_padded hpad n]
  exact base32Loop_encode bytes hcs

/-- **A byte string is read again as it was written**, in upper or lower case and with any padding. -/
theorem base32Decode_base32Encode (bytes : List UInt8) :
    base32Decode (base32Encode bytes) = some bytes ∧
      ∀ n, base32Decode (base32Encode bytes ++ String.ofList (List.replicate n '=')) = some bytes ∧
        base32Decode (toAsciiLowercase (base32Encode bytes) ++ String.ofList (List.replicate n '=')) =
          some bytes := by
  obtain ⟨hupper, hlower⟩ := upper_encode bytes
  refine ⟨?_, fun n => ⟨?_, ?_⟩⟩
  · have hzero := base32Decode_of_upper hupper 0
    rw [List.replicate_zero, List.append_nil] at hzero
    exact hzero
  · rw [base32Encode, ← String.ofList_append]
    exact base32Decode_of_upper hupper n
  · rw [base32Encode, toAsciiLowercase, String.toList_ofList, ← String.ofList_append]
    exact base32Decode_of_upper hlower n

/-- **`build` takes every secret that is written**, if it has a byte. -/
theorem build_base32Encode (hne : bytes ≠ []) : build (base32Encode bytes) = .ok bytes := by
  rw [build, (base32Decode_base32Encode bytes).1]
  cases bytes with
  | nil => exact absurd rfl hne
  | cons b bytes => rfl

end Ridm.Totp
