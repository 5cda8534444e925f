import Ridm.Lib.BigEndian
import Ridm.Lib.BlockCipher
import Ridm.Lib.Checked
import Ridm.Core.Types

/-!
# The AES encryption types

`api/src/kerberos/aes.rs`: the keys of one usage derived from a base key, encryption with ciphertext stealing
and a checksum, and decryption.  AES of one block and HMAC are parameters; ECB and CBC are what is made of the
one block.  Slices and indices are checked where the source has them, and the `while` loops are given as many
turns as they can need.

* `nfold_spec`, `dk_spec`, `kdfHmacSha2_spec` — the loops end, with keys of the length asked for.
* `ctsEncrypt_steal`, `ctsDecrypt_unsteal` — the two functions are chaining with the end stolen, and that undone,
  wherever there is more than one block.
* `Profile.decrypt_encryptWith`, `Profile.returns` — the same key and usage decrypt what they encrypted, and
  nothing is sliced out of range.
-/

namespace Ridm.Kerberos.Aes

open Checked

def BLOCK : ℕ := 16

def CONFOUNDER_LEN : ℕ := BLOCK

/-- `hmac::Algorithm`. -/
inductive Algorithm
  | HMAC_SHA1_FOR_LEGACY_USE_ONLY
  | HMAC_SHA256
  | HMAC_SHA384

def Algorithm.digestLen : Algorithm → ℕ
  | HMAC_SHA1_FOR_LEGACY_USE_ONLY => 20
  | HMAC_SHA256 => 32
  | HMAC_SHA384 => 48

/-- What is not in this repository. -/
structure Primitives where
  aes : List UInt8 → BlockCipher UInt8 BLOCK
  hmac : Algorithm → List UInt8 → List UInt8 → List UInt8
  length_hmac : ∀ alg key message, (hmac alg key message).length = alg.digestLen

/-- The integrity check failed. -/
inductive Failed
  | failed
  deriving DecidableEq

/-- The two families of encryption types. -/
inductive Kind
  | sha1
  | sha2 (alg : Algorithm) (kiLen tagLen : ℕ)

/-- An encryption type. -/
structure Profile where
  keyLen : ℕ
  kind : Kind

/-- The keys of one usage. -/
structure UsageKeys where
  ke : List UInt8
  ki : List UInt8

/-- Bytes masked with bytes. -/
def xor : Mask UInt8 where
  add := (· ^^^ ·)
  zero := 0
  add_add a b := by rw [UInt8.xor_assoc, UInt8.xor_self, UInt8.xor_zero]
  zero_add _ := UInt8.zero_xor

/-! ## `aws_lc_rs` -/

variable (P : Primitives)

def hmacParts (alg : Algorithm) (key : List UInt8) (parts : List (List UInt8)) : List UInt8 :=
  P.hmac alg key parts.flatten

def cipherKey (key : List UInt8) : Checked Failed (BlockCipher UInt8 BLOCK) :=
  if key.length = 16 ∨ key.length = 32 then .ok (P.aes key) else fail .failed

/-- Blocks are whole. -/
def requireWhole (blocks : List UInt8) : Checked Failed Unit :=
  require (.error .failed) (blocks.length % BLOCK == 0)

def ecbEncrypt (key blocks : List UInt8) : Checked Failed (List UInt8) := do
  let c ← cipherKey P key
  requireWhole blocks
  .ok (BlockCipher.each BLOCK c.enc (blocks.length / BLOCK) blocks)

def ecbDecrypt (key blocks : List UInt8) : Checked Failed (List UInt8) := do
  let c ← cipherKey P key
  requireWhole blocks
  .ok (BlockCipher.each BLOCK c.dec (blocks.length / BLOCK) blocks)

def zeroIv : List UInt8 := List.replicate BLOCK 0

def cbcEncrypt (key blocks : List UInt8) : Checked Failed (List UInt8) := do
  let c ← cipherKey P key
  requireWhole blocks
  .ok (c.chain xor zeroIv (blocks.length / BLOCK) blocks)

def cbcDecrypt (key blocks : List UInt8) : Checked Failed (List UInt8) := do
  let c ← cipherKey P key
  requireWhole blocks
  .ok (c.unchain xor zeroIv (blocks.length / BLOCK) blocks)

/-! ## Ciphertext stealing -/

/-- `usize::div_ceil`. -/
def divCeil (n d : ℕ) : ℕ := (n + d - 1) / d

/-- `Vec::resize`. -/
def resize (l : List UInt8) (n : ℕ) (b : UInt8) : List UInt8 := l.take n ++ List.replicate (n - l.length) b

def ctsEncrypt (key plain : List UInt8) : Checked Failed (List UInt8) := do
  let len := plain.length
  require (.error .failed) (decide (BLOCK ≤ len))
  let blocks := divCeil len BLOCK
  let buf ← cbcEncrypt P key (resize plain (blocks * BLOCK) 0)
  if blocks = 1 then .ok buf
  else do
    let tail := len - (blocks - 1) * BLOCK
    let (head, lastTwo) ← splitAt buf (BLOCK * (blocks - 2))
    let last ← slice lastTwo BLOCK lastTwo.length
    let before ← slice lastTwo 0 tail
    .ok (head ++ last ++ before)

def ctsDecrypt (key cipher : List UInt8) : Checked Failed (List UInt8) := do
  let len := cipher.length
  require (.error .failed) (decide (BLOCK ≤ len))
  let blocks := divCeil len BLOCK
  if blocks = 1 then cbcDecrypt P key cipher
  else do
    let tail := len - (blocks - 1) * BLOCK
    let head ← slice cipher 0 (BLOCK * (blocks - 2))
    let last ← slice cipher (BLOCK * (blocks - 2)) (BLOCK * (blocks - 1))
    let part ← slice cipher (BLOCK * (blocks - 1)) cipher.length
    let x ← ecbDecrypt P key last
    let stolen ← slice x tail x.length
    let beforeLast := part ++ stolen
    let xHead ← slice x 0 tail
    let beforeHead ← slice beforeLast 0 tail
    let lastPlain := xor.words xHead beforeHead
    let buf ← cbcDecrypt P key (head ++ beforeLast)
    .ok (buf ++ lastPlain)

/-! ## Keys -/

def gcd (a b : ℕ) : ℕ := Nat.gcd a b

/-- One turn of the loop of `nfold`: byte `i` of the stream of rotated copies added to its place. -/
def nfoldByte (input out : List UInt8) (carry i : ℕ) : Checked Failed (List UInt8 × ℕ) := do
  let inLen := input.length
  let inBits := inLen * 8
  let msbit := ((inBits - 1) + (inBits + 13) * (i / inLen) + (inLen - i % inLen) * 8) % inBits
  let hi ← index input ((inLen - 1 - (msbit >>> 3)) % inLen)
  let lo ← index input ((inLen - (msbit >>> 3)) % inLen)
  let carry := carry + ((((hi.toNat <<< 8) ||| lo.toNat) >>> ((msbit &&& 7) + 1)) &&& 0xff)
  let b ← index out (i % out.length)
  let carry := carry + b.toNat
  .ok (out.set (i % out.length) (UInt8.ofNat (carry &&& 0xff)), carry >>> 8)

/-- The loop of `nfold`, from the last byte of the stream to the first. -/
def nfoldBytes (input : List UInt8) : ℕ → List UInt8 → ℕ → Checked Failed (List UInt8 × ℕ)
  | 0, out, carry => .ok (out, carry)
  | i + 1, out, carry => do
      let (out, carry) ← nfoldByte input out carry i
      nfoldBytes input i out carry

/-- One turn of the loop for the end-around carry. -/
def carryIn (out : List UInt8) (carry : ℕ) : List UInt8 × ℕ :=
  out.foldr (fun b s => (UInt8.ofNat ((s.2 + b.toNat) &&& 0xff) :: s.1, (s.2 + b.toNat) >>> 8)) ([], carry)

/-- The loop of `nfold` for the end-around carry. -/
def endAround (turns : ℕ) (out : List UInt8) (carry : ℕ) : Checked Failed (List UInt8 × ℕ) :=
  whileLoop (fun s => s.2 != 0) (fun s => .ok (carryIn s.1 s.2)) turns (out, carry)

def nfold (input : List UInt8) (outLen : ℕ) : Checked Failed (List UInt8) := do
  let lcm := outLen / gcd outLen input.length * input.length
  let (out, carry) ← nfoldBytes input lcm (List.replicate outLen 0) 0
  -- every turn lowers the number that the carry and the bytes stand for together
  let (out, _) ← endAround (carry * 256 ^ outLen + BigEndian.toNat out) out carry
  .ok out

/-- The loop of `dk`: the block and what has come out. -/
def dkLoop (base : List UInt8) (len : ℕ) (block : List UInt8) : Checked Failed (List UInt8 × List UInt8) :=
  whileLoop (fun s => decide (s.2.length < len))
    (fun s => do
      let block ← ecbEncrypt P base s.1
      .ok (block, s.2 ++ block))
    len (block, [])

def dk (base constant : List UInt8) (len : ℕ) : Checked Failed (List UInt8) := do
  let block ← nfold constant BLOCK
  let (_, out) ← dkLoop P base len block
  .ok (out.take len)

/-- `u32::try_from(n).expect(..).to_be_bytes()`. -/
def u32ToBytes (n : ℕ) : Checked Failed (List UInt8) :=
  if n < 2 ^ 32 then .ok (BigEndian.ofNat 4 n) else .error .outOfRange

/-- The loop of `kdf_hmac_sha2`: what has come out and the counter. -/
def kdfLoop (alg : Algorithm) (key label bits : List UInt8) (len : ℕ) : Checked Failed (List UInt8 × ℕ) :=
  whileLoop (fun s => decide (s.1.length < len))
    (fun s => .ok (s.1 ++ hmacParts P alg key [BigEndian.ofNat 4 s.2, label, [0], bits], s.2 + 1))
    len ([], 1)

def kdfHmacSha2 (alg : Algorithm) (key label : List UInt8) (len : ℕ) : Checked Failed (List UInt8) := do
  let bits ← u32ToBytes (len * 8)
  let (out, _) ← kdfLoop P alg key label bits len
  .ok (out.take len)

/-! ## `Profile` -/

namespace Profile

/-- `Profile::of`. -/
def of (etype : ℤ) : Option Profile :=
  if etype = 17 then some ⟨16, .sha1⟩
  else if etype = 18 then some ⟨32, .sha1⟩
  else if etype = 19 then some ⟨16, .sha2 .HMAC_SHA256 16 16⟩
  else if etype = 20 then some ⟨32, .sha2 .HMAC_SHA384 24 24⟩
  else none

/-- `Profile::tag_len`. -/
def tagLen (p : Profile) : ℕ :=
  match p.kind with
  | .sha1 => 12
  | .sha2 _ _ tagLen => tagLen

def constant (usage : ℤ) (suffix : UInt8) : List UInt8 := BigEndian.ofInt 4 usage ++ [suffix]

/-- `Profile::keys`. -/
def keys (p : Profile) (base : List UInt8) (usage : ℤ) : Checked Failed UsageKeys :=
  match p.kind with
  | .sha1 => do
      let ke ← dk P base (constant usage 0xAA) p.keyLen
      let ki ← dk P base (constant usage 0x55) p.keyLen
      .ok ⟨ke, ki⟩
  | .sha2 alg kiLen _ => do
      let ke ← kdfHmacSha2 P alg base (constant usage 0xAA) p.keyLen
      let ki ← kdfHmacSha2 P alg base (constant usage 0x55) kiLen
      .ok ⟨ke, ki⟩

/-- The checksum of `encrypt_with`, over the plain text or over the cipher text. -/
def checksum (p : Profile) (ki plain cipher : List UInt8) : List UInt8 :=
  match p.kind with
  | .sha1 => hmacParts P .HMAC_SHA1_FOR_LEGACY_USE_ONLY ki [plain]
  | .sha2 alg _ _ => hmacParts P alg ki [List.replicate BLOCK 0, cipher]

/-- `Profile::encrypt_with`. -/
def encryptWith (p : Profile) (key : List UInt8) (usage : ℤ)
    (confounder : { c : List UInt8 // c.length = CONFOUNDER_LEN }) (data : List UInt8) :
    Checked Failed (List UInt8) := do
  require (.error .failed) (key.length == p.keyLen)
  let k ← p.keys P key usage
  let plain := confounder.val ++ data
  let out ← ctsEncrypt P k.ke plain
  let tag ← slice (p.checksum P k.ki plain out) 0 p.tagLen
  .ok (out ++ tag)

/-- The checksum is the one expected, as far as it goes. -/
def requireTag (p : Profile) (expected tag : List UInt8) : Checked Failed Unit := do
  let expected ← slice expected 0 p.tagLen
  require (.error .failed) (expected == tag)

/-- Of an encryption type of RFC 8009, the checksum before anything is decrypted. -/
def checkCipher (p : Profile) (ki cipher tag : List UInt8) : Checked Failed Unit :=
  match p.kind with
  | .sha1 => .ok ()
  | .sha2 alg _ _ => p.requireTag (hmacParts P alg ki [List.replicate BLOCK 0, cipher]) tag

/-- Of an encryption type of RFC 3962, the checksum of what was decrypted. -/
def checkPlain (p : Profile) (ki plain tag : List UInt8) : Checked Failed Unit :=
  match p.kind with
  | .sha1 => p.requireTag (hmacParts P .HMAC_SHA1_FOR_LEGACY_USE_ONLY ki [plain]) tag
  | .sha2 _ _ _ => .ok ()

/-- `Profile::decrypt`. -/
def decrypt (p : Profile) (key : List UInt8) (usage : ℤ) (data : List UInt8) : Checked Failed (List UInt8) := do
  require (.error .failed) (key.length == p.keyLen && decide (CONFOUNDER_LEN + p.tagLen ≤ data.length))
  let k ← p.keys P key usage
  let (cipher, tag) ← splitAt data (data.length - p.tagLen)
  p.checkCipher P k.ki cipher tag
  let plain ← ctsDecrypt P k.ke cipher
  p.checkPlain P k.ki plain tag
  slice plain CONFOUNDER_LEN plain.length

end Profile

/-- RFC 3961, appendix A.1: the 64-fold of `012345`. -/
example : nfold [0x30, 0x31, 0x32, 0x33, 0x34, 0x35] 8 =
    .ok [0xbe, 0x07, 0x26, 0x31, 0x27, 0x6b, 0x19, 0x55] := by decide +kernel

/-! ## The keys of a usage -/

variable {P} {base constant input key l out : List UInt8} {carry i len n : ℕ}

lemma carryIn_spec (out : List UInt8) (carry : ℕ) :
    (carryIn out carry).1.length = out.length ∧
      BigEndian.toNat (carryIn out carry).1 + 256 ^ out.length * (carryIn out carry).2 =
        BigEndian.toNat out + carry := by
  induction out with
  | nil => simp [carryIn]
  | cons b bs ih =>
      obtain ⟨hlen, hsum⟩ := ih
      have hcons : carryIn (b :: bs) carry =
          (UInt8.ofNat (((carryIn bs carry).2 + b.toNat) &&& 0xff) :: (carryIn bs carry).1,
            ((carryIn bs carry).2 + b.toNat) >>> 8) := rfl
      generalize carryIn bs carry = s at hlen hsum hcons
      have hbyte : (UInt8.ofNat ((s.2 + b.toNat) &&& 0xff)).toNat = (s.2 + b.toNat) % 256 := by
        rw [UInt8.toNat_ofNat', Nat.and_two_pow_sub_one_eq_mod _ 8]
        omega
      have hshift : (s.2 + b.toNat) >>> 8 = (s.2 + b.toNat) / 256 := Nat.shiftRight_eq_div_pow _ 8
      rw [hcons]
      refine ⟨congrArg Nat.succ hlen, ?_⟩
      rw [BigEndian.toNat_cons, BigEndian.toNat_cons, hbyte, hlen, hshift, List.length_cons, Nat.pow_succ]
      calc (s.2 + b.toNat) % 256 * 256 ^ bs.length + BigEndian.toNat s.1 +
            256 ^ bs.length * 256 * ((s.2 + b.toNat) / 256)
          = 256 ^ bs.length * ((s.2 + b.toNat) % 256 + 256 * ((s.2 + b.toNat) / 256)) + BigEndian.toNat s.1 := by
            ring
        _ = 256 ^ bs.length * (s.2 + b.toNat) + BigEndian.toNat s.1 := by rw [Nat.mod_add_div]
        _ = b.toNat * 256 ^ bs.length + (BigEndian.toNat s.1 + 256 ^ bs.length * s.2) := by ring
        _ = b.toNat * 256 ^ bs.length + BigEndian.toNat bs + carry := by rw [hsum, Nat.add_assoc]

lemma carryIn_lt (hlen : 0 < out.length) (hcarry : carry ≠ 0) :
    (carryIn out carry).2 * 256 ^ out.length + BigEndian.toNat (carryIn out carry).1 <
      carry * 256 ^ out.length + BigEndian.toNat out := by
  have hsum := (carryIn_spec out carry).2
  rw [Nat.mul_comm] at hsum
  have hbig : 1 < 256 ^ out.length := Nat.one_lt_pow (Nat.ne_of_gt hlen) (by decide)
  have hgrows : carry * 1 < carry * 256 ^ out.length :=
    Nat.mul_lt_mul_of_pos_left hbig (Nat.pos_of_ne_zero hcarry)
  omega

lemma nfoldByte_spec (hin : 0 < input.length) (hout : 0 < out.length) (carry i : ℕ) :
    ∃ out' carry', nfoldByte input out carry i = .ok (out', carry') ∧ out'.length = out.length := by
  rw [nfoldByte, index_eq (Nat.mod_lt _ hin), index_eq (Nat.mod_lt _ hin), index_eq (Nat.mod_lt _ hout)]
  exact ⟨_, _, rfl, List.length_set⟩

lemma nfoldBytes_spec (hout : 0 < out.length) (hin : n ≠ 0 → 0 < input.length) (carry : ℕ) :
    ∃ out' carry', nfoldBytes input n out carry = .ok (out', carry') ∧ out'.length = out.length := by
  induction n generalizing out carry with
  | zero => exact ⟨out, carry, rfl, rfl⟩
  | succ n ih =>
      have hpos := hin (Nat.succ_ne_zero n)
      obtain ⟨out₁, carry₁, hbyte, hlen₁⟩ := nfoldByte_spec hpos hout carry n
      obtain ⟨out', carry', hrest, hlen⟩ := ih (hlen₁.symm ▸ hout) (fun _ => hpos) carry₁
      refine ⟨out', carry', ?_, hlen.trans hlen₁⟩
      rw [nfoldBytes, hbyte]
      exact hrest

lemma endAround_spec (hpos : 0 < out.length) (carry : ℕ) :
    ∃ s, endAround (carry * 256 ^ out.length + BigEndian.toNat out) out carry = .ok s ∧
      s.1.length = out.length := by
  have hturn : ∀ s : List UInt8 × ℕ, s.1.length = out.length → (s.2 != 0) = true →
      ∃ s', (.ok (carryIn s.1 s.2) : Checked Failed _) = .ok s' ∧ s'.1.length = out.length ∧
        s'.2 * 256 ^ out.length + BigEndian.toNat s'.1 < s.2 * 256 ^ out.length + BigEndian.toNat s.1 := by
    intro s hs hcarry
    have hlt := carryIn_lt (hs.symm ▸ hpos) (bne_iff_ne.mp hcarry)
    rw [hs] at hlt
    exact ⟨_, rfl, (carryIn_spec s.1 s.2).1.trans hs, hlt⟩
  obtain ⟨s, hloop, hs, -⟩ := whileLoop_spec hturn _ (out, carry) rfl (Nat.le_refl _)
  exact ⟨s, hloop, hs⟩

lemma nfold_spec (input : List UInt8) (hpos : 0 < n) : ∃ out, nfold input n = .ok out ∧ out.length = n := by
  have hin : n / gcd n input.length * input.length ≠ 0 → 0 < input.length :=
    fun h => Nat.pos_of_ne_zero fun hzero => h (by rw [hzero, Nat.mul_zero])
  have hzeros : (List.replicate n (0 : UInt8)).length = n := List.length_replicate
  obtain ⟨out, carry, hbytes, hlen⟩ := nfoldBytes_spec (hzeros.symm ▸ hpos) hin 0
  rw [hzeros] at hlen
  obtain ⟨s, hloop, hs⟩ := endAround_spec (hlen.symm ▸ hpos) carry
  rw [hlen] at hloop hs
  refine ⟨s.1, ?_, hs⟩
  rw [nfold, hbytes]
  show (endAround _ _ _ >>= _) = _
  rw [hloop]
  rfl

def AesKey (key : List UInt8) : Prop := key.length = 16 ∨ key.length = 32

instance (key : List UInt8) : Decidable (AesKey key) :=
  inferInstanceAs (Decidable (key.length = 16 ∨ key.length = 32))

lemma cipherKey_eq (hkey : AesKey key) : cipherKey P key = .ok (P.aes key) := if_pos hkey

lemma cipherKey_of_not (hkey : ¬ AesKey key) : cipherKey P key = fail .failed := if_neg hkey

lemma requireWhole_eq (h : l.length = BLOCK * n) : requireWhole l = .ok () := by
  rw [requireWhole, h, Nat.mul_mod_right]
  rfl

lemma blocks_eq (h : l.length = BLOCK * n) : l.length / BLOCK = n := by
  rw [h, Nat.mul_div_cancel_left n (by decide)]

lemma ecbEncrypt_block (hkey : AesKey key) (h : l.length = BLOCK) :
    ecbEncrypt P key l = .ok ((P.aes key).enc l) := by
  have hone : l.length = BLOCK * 1 := h
  rw [ecbEncrypt, cipherKey_eq hkey, requireWhole_eq hone, blocks_eq hone]
  exact congrArg Except.ok (BlockCipher.each_one h)

lemma ecbDecrypt_block (hkey : AesKey key) (h : l.length = BLOCK) :
    ecbDecrypt P key l = .ok ((P.aes key).dec l) := by
  have hone : l.length = BLOCK * 1 := h
  rw [ecbDecrypt, cipherKey_eq hkey, requireWhole_eq hone, blocks_eq hone]
  exact congrArg Except.ok (BlockCipher.each_one h)

lemma dk_spec (hkey : AesKey base) (constant : List UInt8) (len : ℕ) :
    ∃ out, dk P base constant len = .ok out ∧ out.length = len := by
  obtain ⟨block, hfold, hblock⟩ := nfold_spec constant (n := BLOCK) (by decide)
  have hturn : ∀ s : List UInt8 × List UInt8, s.1.length = BLOCK → decide (s.2.length < len) = true →
      ∃ s', (do
        let block ← ecbEncrypt P base s.1
        .ok (block, s.2 ++ block)) = .ok s' ∧ s'.1.length = BLOCK ∧ len - s'.2.length < len - s.2.length := by
    intro s hs hlt
    have hshort : s.2.length < len := of_decide_eq_true hlt
    have henc := (P.aes base).length_enc s.1 hs
    refine ⟨((P.aes base).enc s.1, s.2 ++ (P.aes base).enc s.1), ?_, henc, ?_⟩
    · rw [ecbEncrypt_block hkey hs]
      rfl
    · rw [List.length_append, henc, BLOCK]
      omega
  obtain ⟨s, hloop, -, hend⟩ := whileLoop_spec hturn len (block, []) hblock (Nat.sub_le _ _)
  refine ⟨s.2.take len, ?_, List.length_take_of_le (Nat.le_of_not_lt (of_decide_eq_false hend))⟩
  rw [dk, hfold]
  show (dkLoop P base len block >>= _) = _
  rw [dkLoop, hloop]
  rfl

lemma kdfHmacSha2_spec (alg : Algorithm) (key label : List UInt8) (hlen : len * 8 < 2 ^ 32) :
    ∃ out, kdfHmacSha2 P alg key label len = .ok out ∧ out.length = len := by
  have hbits : u32ToBytes (len * 8) = .ok (BigEndian.ofNat 4 (len * 8)) := if_pos hlen
  generalize BigEndian.ofNat 4 (len * 8) = bits at hbits
  have hdigest : 0 < alg.digestLen := by cases alg <;> decide
  have hturn : ∀ s : List UInt8 × ℕ, True → decide (s.1.length < len) = true →
      ∃ s', (.ok (s.1 ++ hmacParts P alg key [BigEndian.ofNat 4 s.2, label, [0], bits], s.2 + 1) :
        Checked Failed _) = .ok s' ∧ True ∧ len - s'.1.length < len - s.1.length := by
    intro s _ hlt
    have hshort : s.1.length < len := of_decide_eq_true hlt
    refine ⟨_, rfl, trivial, ?_⟩
    rw [List.length_append, hmacParts, P.length_hmac]
    omega
  obtain ⟨s, hloop, -, hend⟩ := whileLoop_spec hturn len ([], 1) trivial (Nat.sub_le _ _)
  refine ⟨s.1.take len, ?_, List.length_take_of_le (Nat.le_of_not_lt (of_decide_eq_false hend))⟩
  rw [kdfHmacSha2, hbits]
  show (kdfLoop P alg key label bits len >>= _) = _
  rw [kdfLoop, hloop]
  rfl

/-! ## Ciphertext stealing is undone -/

variable {cipher plain data : List UInt8} {k t : ℕ}

lemma length_zeroIv : zeroIv.length = BLOCK := rfl

lemma cbcEncrypt_eq (hkey : AesKey key) (h : l.length = BLOCK * n) :
    cbcEncrypt P key l = .ok ((P.aes key).chain xor zeroIv n l) := by
  rw [cbcEncrypt, cipherKey_eq hkey, requireWhole_eq h, blocks_eq h]
  rfl

lemma cbcDecrypt_eq (hkey : AesKey key) (h : l.length = BLOCK * n) :
    cbcDecrypt P key l = .ok ((P.aes key).unchain xor zeroIv n l) := by
  rw [cbcDecrypt, cipherKey_eq hkey, requireWhole_eq h, blocks_eq h]
  rfl

lemma exists_shape (h : BLOCK ≤ n) : n = BLOCK ∨ ∃ k t, n = BLOCK * (k + 1) + t ∧ 0 < t ∧ t ≤ BLOCK := by
  rw [BLOCK] at *
  by_cases hone : n = 16
  · exact .inl hone
  · exact .inr ⟨(n - 1) / 16 - 1, n - 16 * ((n - 1) / 16), by omega, by omega, by omega⟩

lemma divCeil_eq (h : n = BLOCK * (k + 1) + t) (hpos : 0 < t) (ht : t ≤ BLOCK) : divCeil n BLOCK = k + 2 := by
  rw [divCeil, h]
  rw [BLOCK] at *
  omega

lemma tail_eq (h : n = BLOCK * (k + 1) + t) : n - (k + 2 - 1) * BLOCK = t := by
  rw [h, show k + 2 - 1 = k + 1 from rfl, Nat.mul_comm BLOCK, Nat.add_sub_cancel_left]

lemma ctsEncrypt_one (hkey : AesKey key) (h : plain.length = BLOCK) :
    ctsEncrypt P key plain = .ok ((P.aes key).chain xor zeroIv 1 plain) := by
  have hone : plain.length = BLOCK * 1 := h
  have hbuf : resize plain (1 * BLOCK) 0 = plain := by
    rw [resize, h, List.take_of_length_le (by rw [h, Nat.one_mul]), Nat.one_mul, Nat.sub_self]
    exact List.append_nil plain
  have hceil : divCeil plain.length BLOCK = 1 := by rw [h]; rfl
  have hle : decide (BLOCK ≤ plain.length) = true := decide_eq_true (Nat.le_of_eq h.symm)
  rw [ctsEncrypt, hle, hceil]
  show (cbcEncrypt P key (resize plain (1 * BLOCK) 0) >>= _) = _
  rw [hbuf, cbcEncrypt_eq hkey hone]
  rfl

lemma ctsDecrypt_one (h : cipher.length = BLOCK) : ctsDecrypt P key cipher = cbcDecrypt P key cipher := by
  have hceil : divCeil cipher.length BLOCK = 1 := by rw [h]; rfl
  have hle : decide (BLOCK ≤ cipher.length) = true := decide_eq_true (Nat.le_of_eq h.symm)
  rw [ctsDecrypt, hle, hceil]
  rfl

lemma ctsEncrypt_steal (hkey : AesKey key) (h : plain.length = BLOCK * (k + 1) + t) (hpos : 0 < t)
    (ht : t ≤ BLOCK) : ctsEncrypt P key plain = .ok ((P.aes key).steal xor zeroIv k t plain) := by
  have hle : decide (BLOCK ≤ plain.length) = true := by
    rw [decide_eq_true_eq, h, BLOCK]
    omega
  have hbuf : resize plain ((k + 2) * BLOCK) 0 = plain ++ List.replicate (BLOCK - t) xor.zero := by
    have hlen : plain.length ≤ (k + 2) * BLOCK := by rw [h, BLOCK]; rw [BLOCK] at ht; omega
    have hfill : (k + 2) * BLOCK - plain.length = BLOCK - t := by rw [h, BLOCK]; omega
    rw [resize, List.take_of_length_le hlen, hfill]
    rfl
  have hwhole : (plain ++ List.replicate (BLOCK - t) xor.zero).length = BLOCK * (k + 2) := by
    rw [List.length_append, List.length_replicate, h, BLOCK]
    rw [BLOCK] at ht
    omega
  have hchain := BlockCipher.length_chain (M := xor) (C := P.aes key) length_zeroIv hwhole
  have hhead : BLOCK * k ≤ ((P.aes key).chain xor zeroIv (k + 2)
      (plain ++ List.replicate (BLOCK - t) xor.zero)).length := by
    rw [hchain]
    exact Nat.mul_le_mul_left BLOCK (Nat.le_add_right k 2)
  have htwo : (((P.aes key).chain xor zeroIv (k + 2)
      (plain ++ List.replicate (BLOCK - t) xor.zero)).drop (BLOCK * k)).length = 2 * BLOCK := by
    rw [List.length_drop, hchain, BLOCK]
    omega
  rw [ctsEncrypt, hle, divCeil_eq h hpos ht]
  show (cbcEncrypt P key (resize plain ((k + 2) * BLOCK) 0) >>= _) = _
  rw [hbuf, cbcEncrypt_eq hkey hwhole, tail_eq h]
  show (splitAt ((P.aes key).chain xor zeroIv (k + 2) _) (BLOCK * k) >>= _) = _
  rw [splitAt_eq hhead]
  show (slice (((P.aes key).chain xor zeroIv (k + 2) _).drop (BLOCK * k)) BLOCK _ >>= _) = _
  rw [slice_from (by rw [htwo]; decide), slice_to (by rw [htwo, BLOCK]; rw [BLOCK] at ht; omega)]
  rfl

lemma ctsDecrypt_unsteal (h : cipher.length = BLOCK * (k + 1) + t) (hpos : 0 < t) (ht : t ≤ BLOCK) :
    ctsDecrypt P key cipher =
      if AesKey key then .ok ((P.aes key).unsteal xor zeroIv k t cipher) else fail .failed := by
  have hle : decide (BLOCK ≤ cipher.length) = true := by
    rw [decide_eq_true_eq, h, BLOCK]
    omega
  have hinit : BLOCK * k ≤ BLOCK * (k + 1) := Nat.mul_le_mul_left BLOCK (Nat.le_succ k)
  have hblocks : BLOCK * (k + 1) ≤ cipher.length := h ▸ Nat.le_add_right _ t
  have hlast : (cipher.take (BLOCK * (k + 1))).drop (BLOCK * k) = (cipher.drop (BLOCK * k)).take BLOCK := by
    rw [List.drop_take, Nat.mul_succ, Nat.add_sub_cancel_left]
  have hlen : ((cipher.drop (BLOCK * k)).take BLOCK).length = BLOCK := by
    rw [List.length_take, List.length_drop, h, BLOCK]
    omega
  have hpart : (cipher.drop (BLOCK * (k + 1))).length = t := by
    rw [List.length_drop, h, Nat.add_sub_cancel_left]
  rw [ctsDecrypt, hle, divCeil_eq h hpos ht]
  show (slice cipher 0 (BLOCK * k) >>= _) = _
  rw [slice_to (Nat.le_trans hinit hblocks), tail_eq h]
  show (slice cipher (BLOCK * k) (BLOCK * (k + 1)) >>= _) = _
  rw [slice_eq hinit hblocks, hlast]
  show (slice cipher (BLOCK * (k + 1)) cipher.length >>= _) = _
  rw [slice_from hblocks]
  show (ecbDecrypt P key _ >>= _) = _
  split_ifs with hkey
  · have hx := (P.aes key).length_dec _ hlen
    have htx : t ≤ ((P.aes key).dec ((cipher.drop (BLOCK * k)).take BLOCK)).length := hx.symm ▸ ht
    have hbefore : t ≤ (cipher.drop (BLOCK * (k + 1)) ++
        ((P.aes key).dec ((cipher.drop (BLOCK * k)).take BLOCK)).drop t).length := by
      rw [List.length_append, hpart]
      exact Nat.le_add_right t _
    have hu : (cipher.take (BLOCK * k)).length = BLOCK * k :=
      List.length_take_of_le (Nat.le_trans hinit hblocks)
    have hwhole := BlockCipher.length_blocks hu hx hpart ht
    rw [ecbDecrypt_block hkey hlen]
    show (slice ((P.aes key).dec _) t _ >>= _) = _
    rw [slice_from htx]
    show (slice ((P.aes key).dec _) 0 t >>= _) = _
    rw [slice_to htx]
    show (slice (cipher.drop (BLOCK * (k + 1)) ++ _) 0 t >>= _) = _
    rw [slice_to hbefore]
    show (cbcDecrypt P key _ >>= _) = _
    rw [cbcDecrypt_eq hkey hwhole]
    rfl
  · rw [ecbDecrypt, cipherKey_of_not hkey]
    rfl

/-- **Stealing with a cipher.**  From a block on, decrypting undoes encrypting. -/
lemma ctsDecrypt_ctsEncrypt (hkey : AesKey key) (h : BLOCK ≤ plain.length) :
    ∃ cipher, cipher.length = plain.length ∧ ctsEncrypt P key plain = .ok cipher ∧
      ctsDecrypt P key cipher = .ok plain := by
  rcases exists_shape h with hone | ⟨k, t, hlen, hpos, ht⟩
  · have hblock : plain.length = BLOCK * 1 := hone
    have hc := BlockCipher.length_chain (M := xor) (C := P.aes key) length_zeroIv hblock
    refine ⟨_, hc.trans hblock.symm, ctsEncrypt_one hkey hone, ?_⟩
    rw [ctsDecrypt_one hc, cbcDecrypt_eq hkey hc, BlockCipher.unchain_chain length_zeroIv hblock]
  · have hc := BlockCipher.length_steal (M := xor) (C := P.aes key) length_zeroIv hlen ht
    refine ⟨_, hc, ctsEncrypt_steal hkey hlen hpos ht, ?_⟩
    rw [ctsDecrypt_unsteal (hc.trans hlen) hpos ht, if_pos hkey,
      BlockCipher.unsteal_steal length_zeroIv hlen ht]

lemma ctsEncrypt_ctsDecrypt (hkey : AesKey key) (h : BLOCK ≤ cipher.length) :
    ∃ plain, plain.length = cipher.length ∧ ctsDecrypt P key cipher = .ok plain ∧
      ctsEncrypt P key plain = .ok cipher := by
  rcases exists_shape h with hone | ⟨k, t, hlen, hpos, ht⟩
  · have hblock : cipher.length = BLOCK * 1 := hone
    have hp := BlockCipher.length_unchain (M := xor) (C := P.aes key) length_zeroIv hblock
    refine ⟨_, hp.trans hblock.symm, (ctsDecrypt_one hone).trans (cbcDecrypt_eq hkey hblock), ?_⟩
    rw [ctsEncrypt_one hkey hp, BlockCipher.chain_unchain length_zeroIv hblock]
  · have hp := BlockCipher.length_unsteal (M := xor) (C := P.aes key) length_zeroIv hlen ht
    refine ⟨_, hp, (ctsDecrypt_unsteal hlen hpos ht).trans (if_pos hkey), ?_⟩
    rw [ctsEncrypt_steal hkey (hp.trans hlen) hpos ht, BlockCipher.steal_unsteal length_zeroIv hlen ht]

lemma returns_ctsEncrypt (P : Primitives) (key plain : List UInt8) : Returns (ctsEncrypt P key plain) := by
  by_cases hlen : BLOCK ≤ plain.length
  · by_cases hkey : AesKey key
    · obtain ⟨cipher, -, hok, -⟩ := ctsDecrypt_ctsEncrypt (P := P) hkey hlen
      exact .of_eq_ok hok
    · have hcbc : ∀ buf, cbcEncrypt P key buf = fail .failed := by
        intro buf
        rw [cbcEncrypt, cipherKey_of_not hkey]
        rfl
      rw [ctsEncrypt, decide_eq_true hlen]
      show Returns (cbcEncrypt P key _ >>= _)
      rw [hcbc]
      exact .error _
  · rw [ctsEncrypt, decide_eq_false hlen]
    exact .error _

lemma returns_ctsDecrypt (P : Primitives) (key cipher : List UInt8) : Returns (ctsDecrypt P key cipher) := by
  by_cases hlen : BLOCK ≤ cipher.length
  · by_cases hkey : AesKey key
    · obtain ⟨plain, -, hok, -⟩ := ctsEncrypt_ctsDecrypt (P := P) hkey hlen
      exact .of_eq_ok hok
    · rcases exists_shape hlen with hone | ⟨k, t, hlen, hpos, ht⟩
      · rw [ctsDecrypt_one hone, cbcDecrypt, cipherKey_of_not hkey]
        exact .error _
      · rw [ctsDecrypt_unsteal hlen hpos ht, if_neg hkey]
        exact .error _
  · rw [ctsDecrypt, decide_eq_false hlen]
    exact .error _

/-! ## The encryption types -/

variable {p : Profile} {etype : ℤ}

lemma Profile.of_cases (h : Profile.of etype = some p) :
    p = ⟨16, .sha1⟩ ∨ p = ⟨32, .sha1⟩ ∨ p = ⟨16, .sha2 .HMAC_SHA256 16 16⟩ ∨
      p = ⟨32, .sha2 .HMAC_SHA384 24 24⟩ := by
  rw [Profile.of] at h
  split_ifs at h
  · exact .inl (Option.some.inj h).symm
  · exact .inr (.inl (Option.some.inj h).symm)
  · exact .inr (.inr (.inl (Option.some.inj h).symm))
  · exact .inr (.inr (.inr (Option.some.inj h).symm))

lemma Profile.aesKey_of (h : Profile.of etype = some p) (hkey : key.length = p.keyLen) : AesKey key := by
  rw [AesKey, hkey]
  rcases Profile.of_cases h with rfl | rfl | rfl | rfl <;> simp

lemma Profile.tagLen_le (h : Profile.of etype = some p) (ki plain cipher : List UInt8) :
    p.tagLen ≤ (p.checksum P ki plain cipher).length := by
  rcases Profile.of_cases h with rfl | rfl | rfl | rfl <;>
    simp [Profile.tagLen, Profile.checksum, hmacParts, P.length_hmac, Algorithm.digestLen]

variable {expected : List UInt8} {ke ki : List UInt8} {usage : ℤ}

lemma Profile.keys_sha1 (hke : dk P key (Profile.constant usage 0xAA) n = .ok ke)
    (hki : dk P key (Profile.constant usage 0x55) n = .ok ki) :
    (⟨n, .sha1⟩ : Profile).keys P key usage = .ok ⟨ke, ki⟩ := by
  rw [Profile.keys.eq_def]
  dsimp only
  rw [hke, hki]
  rfl

lemma Profile.keys_sha2 {alg : Algorithm} {kiLen tagLen : ℕ}
    (hke : kdfHmacSha2 P alg key (Profile.constant usage 0xAA) n = .ok ke)
    (hki : kdfHmacSha2 P alg key (Profile.constant usage 0x55) kiLen = .ok ki) :
    (⟨n, .sha2 alg kiLen tagLen⟩ : Profile).keys P key usage = .ok ⟨ke, ki⟩ := by
  rw [Profile.keys.eq_def]
  dsimp only
  rw [hke, hki]
  rfl

lemma Profile.keys_spec (h : Profile.of etype = some p) (hkey : key.length = p.keyLen) (usage : ℤ) :
    ∃ k, p.keys P key usage = .ok k ∧ AesKey k.ke := by
  have haes : AesKey key := Profile.aesKey_of h hkey
  obtain ⟨keyLen, kind⟩ := p
  cases kind with
  | sha1 =>
      obtain ⟨ke, hke, hlen⟩ := dk_spec (P := P) haes (Profile.constant usage 0xAA) keyLen
      obtain ⟨ki, hki, -⟩ := dk_spec (P := P) haes (Profile.constant usage 0x55) keyLen
      exact ⟨_, Profile.keys_sha1 hke hki, Profile.aesKey_of h hlen⟩
  | sha2 alg kiLen tagLen =>
      have hsmall : keyLen ≤ 32 ∧ kiLen ≤ 32 := by
        rcases Profile.of_cases h with hp | hp | hp | hp <;> cases hp <;> decide
      have hbits : keyLen * 8 < 2 ^ 32 ∧ kiLen * 8 < 2 ^ 32 := by omega
      obtain ⟨ke, hke, hlen⟩ := kdfHmacSha2_spec (P := P) alg key (Profile.constant usage 0xAA) hbits.1
      obtain ⟨ki, hki, -⟩ := kdfHmacSha2_spec (P := P) alg key (Profile.constant usage 0x55) hbits.2
      exact ⟨_, Profile.keys_sha2 hke hki, Profile.aesKey_of h hlen⟩

lemma Profile.requireTag_take (h : p.tagLen ≤ expected.length) :
    p.requireTag expected (expected.take p.tagLen) = .ok () := by
  rw [Profile.requireTag, slice_to h]
  show require (Fault.error Failed.failed) (expected.take p.tagLen == expected.take p.tagLen) = _
  rw [beq_self_eq_true]
  rfl

lemma Profile.check_checksum {ki : List UInt8} (h : p.tagLen ≤ (p.checksum P ki plain cipher).length) :
    p.checkCipher P ki cipher ((p.checksum P ki plain cipher).take p.tagLen) = .ok () ∧
      p.checkPlain P ki plain ((p.checksum P ki plain cipher).take p.tagLen) = .ok () := by
  obtain ⟨keyLen, kind⟩ := p
  cases kind with
  | sha1 => exact ⟨rfl, Profile.requireTag_take h⟩
  | sha2 alg kiLen tagLen => exact ⟨Profile.requireTag_take h, rfl⟩

lemma returns_requireTag (h : p.tagLen ≤ expected.length) (tag : List UInt8) :
    Returns (p.requireTag expected tag) := by
  rw [Profile.requireTag, slice_to h]
  show Returns (require (Fault.error Failed.failed) _)
  cases (expected.take p.tagLen == tag)
  · exact .error _
  · exact .ok ()

lemma returns_checks {ki : List UInt8} (h : p.tagLen ≤ (p.checksum P ki plain cipher).length)
    (tag : List UInt8) :
    Returns (p.checkCipher P ki cipher tag) ∧ Returns (p.checkPlain P ki plain tag) := by
  obtain ⟨keyLen, kind⟩ := p
  cases kind with
  | sha1 => exact ⟨.ok (), returns_requireTag h tag⟩
  | sha2 alg kiLen tagLen => exact ⟨returns_requireTag h tag, .ok ()⟩

/-- **Decrypting undoes encrypting.** -/
theorem Profile.decrypt_encryptWith (h : Profile.of etype = some p) (hkey : key.length = p.keyLen) (usage : ℤ)
    (confounder : { c : List UInt8 // c.length = CONFOUNDER_LEN }) (data : List UInt8) :
    ∃ cipher, p.encryptWith P key usage confounder data = .ok cipher ∧
      p.decrypt P key usage cipher = .ok data := by
  obtain ⟨k, hkeys, haes⟩ := Profile.keys_spec (P := P) h hkey usage
  have hplain : (confounder.val ++ data).length = CONFOUNDER_LEN + data.length := by
    rw [List.length_append, confounder.property]
  have hblock : BLOCK ≤ (confounder.val ++ data).length := hplain ▸ Nat.le_add_right _ _
  obtain ⟨out, hlen, henc, hdec⟩ := ctsDecrypt_ctsEncrypt (P := P) haes hblock
  have htag := Profile.tagLen_le (P := P) h k.ki (confounder.val ++ data) out
  obtain ⟨hcipher, hplainTag⟩ := Profile.check_checksum htag
  have htake := List.length_take_of_le htag
  have htagged : (slice (p.checksum P k.ki (confounder.val ++ data) out) 0 p.tagLen : Checked Failed _) =
      .ok _ := slice_to htag
  generalize (p.checksum P k.ki (confounder.val ++ data) out).take p.tagLen = tag at *
  have hlong : CONFOUNDER_LEN + p.tagLen ≤ (out ++ tag).length := by
    rw [List.length_append, hlen, hplain, htake]
    omega
  have hsplit : (out ++ tag).length - p.tagLen = out.length := by
    rw [List.length_append, htake, Nat.add_sub_cancel]
  have hbody : (confounder.val ++ data).drop CONFOUNDER_LEN = data := List.drop_left' confounder.property
  have hkeyLen : (key.length == p.keyLen) = true := beq_iff_eq.mpr hkey
  refine ⟨out ++ tag, ?_, ?_⟩
  · rw [Profile.encryptWith, hkeyLen]
    show (p.keys P key usage >>= _) = _
    rw [hkeys]
    show (ctsEncrypt P k.ke (confounder.val ++ data) >>= _) = _
    rw [henc]
    show (slice (p.checksum P k.ki (confounder.val ++ data) out) 0 p.tagLen >>= _) = _
    rw [htagged]
    rfl
  · rw [Profile.decrypt, hkeyLen, decide_eq_true hlong]
    show (p.keys P key usage >>= _) = _
    rw [hkeys]
    show (splitAt (out ++ tag) ((out ++ tag).length - p.tagLen) >>= _) = _
    rw [hsplit, splitAt_eq (by simp), List.take_left, List.drop_left]
    show (p.checkCipher P k.ki out tag >>= _) = _
    rw [hcipher]
    show (ctsDecrypt P k.ke out >>= _) = _
    rw [hdec]
    show (p.checkPlain P k.ki (confounder.val ++ data) tag >>= _) = _
    rw [hplainTag]
    show slice (confounder.val ++ data) CONFOUNDER_LEN _ = _
    rw [slice_from (hplain ▸ Nat.le_add_right _ _), hbody]

lemma Profile.returns (P : Primitives) (h : Profile.of etype = some p) (key : List UInt8) (usage : ℤ)
    (confounder : { c : List UInt8 // c.length = CONFOUNDER_LEN }) (data : List UInt8) :
    Returns (p.encryptWith P key usage confounder data) ∧ Returns (p.decrypt P key usage data) := by
  by_cases hkey : key.length = p.keyLen
  · obtain ⟨cipher, hok, -⟩ := Profile.decrypt_encryptWith (P := P) h hkey usage confounder data
    refine ⟨.of_eq_ok hok, ?_⟩
    obtain ⟨k, hkeys, haes⟩ := Profile.keys_spec (P := P) h hkey usage
    rw [Profile.decrypt, beq_iff_eq.mpr hkey]
    by_cases hlong : CONFOUNDER_LEN + p.tagLen ≤ data.length
    · have hcut : data.length - p.tagLen ≤ data.length := Nat.sub_le _ _
      have hblock : BLOCK ≤ (data.take (data.length - p.tagLen)).length := by
        rw [List.length_take_of_le hcut]
        rw [CONFOUNDER_LEN] at hlong
        omega
      obtain ⟨plain, hlen, hdec, -⟩ := ctsEncrypt_ctsDecrypt (P := P) haes hblock
      obtain ⟨hcipher, hplain⟩ := returns_checks (P := P)
        (Profile.tagLen_le h k.ki plain (data.take (data.length - p.tagLen))) (data.drop (data.length - p.tagLen))
      rw [decide_eq_true hlong]
      show Returns (p.keys P key usage >>= _)
      rw [hkeys]
      show Returns (splitAt data (data.length - p.tagLen) >>= _)
      rw [splitAt_eq hcut]
      refine hcipher.bind fun _ _ => ?_
      rw [hdec]
      exact hplain.bind fun _ _ => returns_slice (hlen.symm ▸ hblock) (Nat.le_refl _)
    · rw [decide_eq_false hlong]
      exact .error _
  · have hne : (key.length == p.keyLen) = false := beq_eq_false_iff_ne.mpr hkey
    rw [Profile.encryptWith, Profile.decrypt, hne]
    exact ⟨.error _, .error _⟩

/-- **Kerberos encryption inverts.**  Under every encryption type there is, every key of its length, every
usage and confounder, what is encrypted is decrypted again, whatever its length.  With a key that AES takes
`cts_encrypt` is a permutation of the byte strings of a block and more that keeps their lengths, and
`cts_decrypt` its inverse.  Nothing of this leaves the range of a list, whatever it is given. -/
theorem encryption_inverts (P : Primitives) :
    (∀ etype p, Profile.of etype = some p → ∀ key : List UInt8, key.length = p.keyLen →
      ∀ usage confounder data, ∃ cipher, p.encryptWith P key usage confounder data = .ok cipher ∧
        p.decrypt P key usage cipher = .ok data) ∧
    (∀ key, AesKey key → ∃ e : Equiv.Perm { l : List UInt8 // BLOCK ≤ l.length }, ∀ l,
      (e l).val.length = l.val.length ∧ ctsEncrypt P key l.val = .ok (e l).val ∧
        ctsDecrypt P key l.val = .ok (e.symm l).val) ∧
    (∀ key l, Returns (ctsEncrypt P key l) ∧ Returns (ctsDecrypt P key l)) ∧
    (∀ etype p, Profile.of etype = some p → ∀ key usage confounder data,
      Returns (p.encryptWith P key usage confounder data) ∧ Returns (p.decrypt P key usage data)) := by
  refine ⟨fun etype p h key hkey => Profile.decrypt_encryptWith h hkey, ?_,
    fun key l => ⟨returns_ctsEncrypt P key l, returns_ctsDecrypt P key l⟩,
    fun etype p h => Profile.returns P h⟩
  intro key hkey
  have henc : ∀ l : { l : List UInt8 // BLOCK ≤ l.length }, ∃ c : { l : List UInt8 // BLOCK ≤ l.length },
      c.val.length = l.val.length ∧ ctsEncrypt P key l.val = .ok c.val ∧ ctsDecrypt P key c.val = .ok l.val := by
    rintro ⟨l, hl⟩
    obtain ⟨c, hlen, hok⟩ := ctsDecrypt_ctsEncrypt (P := P) hkey hl
    exact ⟨⟨c, hlen.symm ▸ hl⟩, hlen, hok⟩
  have hdec : ∀ c : { l : List UInt8 // BLOCK ≤ l.length }, ∃ l : { l : List UInt8 // BLOCK ≤ l.length },
      ctsDecrypt P key c.val = .ok l.val ∧ ctsEncrypt P key l.val = .ok c.val := by
    rintro ⟨c, hc⟩
    obtain ⟨l, hlen, hok⟩ := ctsEncrypt_ctsDecrypt (P := P) hkey hc
    exact ⟨⟨l, hlen.symm ▸ hc⟩, hok⟩
  choose enc hlen henc hundo using henc
  choose dec hdec hredo using hdec
  refine ⟨⟨enc, dec, fun l => ?_, fun c => ?_⟩, fun l => ⟨hlen l, henc l, hdec l⟩⟩
  · exact Subtype.ext (Except.ok.inj ((hdec (enc l)).symm.trans (hundo l)))
  · exact Subtype.ext (Except.ok.inj ((henc (dec c)).symm.trans (hredo c)))

/-- A cipher of one key, from what it does to the blocks. -/
def ofPerm {n : ℕ} (e : Equiv.Perm { l : List UInt8 // l.length = n }) : BlockCipher UInt8 n where
  enc l := if h : l.length = n then e ⟨l, h⟩ else l
  dec l := if h : l.length = n then e.symm ⟨l, h⟩ else l
  length_enc l hl := by simp only [dif_pos hl, (e ⟨l, hl⟩).property]
  length_dec l hl := by simp only [dif_pos hl, (e.symm ⟨l, hl⟩).property]
  dec_enc l hl := by simp [hl, (e ⟨l, hl⟩).property]
  enc_dec l hl := by simp [hl, (e.symm ⟨l, hl⟩).property]

def bytes (w n : ℕ) : { c : List UInt8 // c.length = w } := ⟨BigEndian.ofNat w n, by simp⟩

def rfc8009Key : List UInt8 := BigEndian.ofNat 16 0x3705d96080c17728a0e800eab6e0d23c

def rfc8009Confounder : { c : List UInt8 // c.length = CONFOUNDER_LEN } :=
  bytes 16 0xa7a4e29a4728ce10664fb64e49ad3fac

/-- What becomes of the three blocks of the confounder and the text. -/
def rfc8009Blocks : Equiv.Perm { c : List UInt8 // c.length = BLOCK } :=
  let exchange (a b : ℕ) := Equiv.swap (bytes BLOCK a) (bytes BLOCK b)
  ((exchange 0xa7a4e29a4728ce10664fb64e49ad3fac 0x720f73b18d9859cd6ccb4346115cd336).trans
    (exchange 0x720e71b2899d5fca64c2494d1d51dd39 0xe1e6d072c1c5cfe66a17bb4d641c021c)).trans
    (exchange 0xf1f7c261d5c5cfe66a17bb4d641c021c 0xc70f58edc0c4437c5573544c31c813bc)

def rfc8009Hmac (message : List UInt8) : { c : List UInt8 // c.length = 32 } :=
  bytes 32 <|
    if message = [0, 0, 0, 1, 0, 0, 0, 2, 0xAA, 0, 0, 0, 0, 0x80] then
      0x9b197dd1e8c5609d6e67c3e37c62c72e86165fff45c059c5430c2cb28271c8e1
    else if message = [0, 0, 0, 1, 0, 0, 0, 2, 0x55, 0, 0, 0, 0, 0x80] then
      0x9fda0e56ab2d85e1569a688696c26a6c5a76939834fa73931ab260832012c15f
    else 0x86b39a413c2f92ca9b8334a287ffcbfc07943c0d65f1197a89640782996067f2

def rfc8009 : Primitives where
  aes _ := ofPerm rfc8009Blocks
  hmac alg _ message :=
    match alg with
    | .HMAC_SHA256 => rfc8009Hmac message
    | .HMAC_SHA1_FOR_LEGACY_USE_ONLY => List.replicate 20 0
    | .HMAC_SHA384 => List.replicate 48 0
  length_hmac alg _ message := by
    cases alg with
    | HMAC_SHA1_FOR_LEGACY_USE_ONLY => rfl
    | HMAC_SHA256 => exact (rfc8009Hmac message).property
    | HMAC_SHA384 => rfl

def rfc8009Text : List UInt8 := BigEndian.ofNat 21 0x0102030405060708090a0b0c0d0e0f1011121314

def rfc8009Cipher : List UInt8 :=
  BigEndian.ofNat 37 0x720f73b18d9859cd6ccb4346115cd336c70f58edc0c4437c5573544c31c813bce1e6d072c1 ++
    BigEndian.ofNat 16 0x86b39a413c2f92ca9b8334a287ffcbfc

/-- The cipher text of RFC 8009 comes out, its last block cut, and is decrypted. -/
theorem encryption_inverts_rfc8009 :
    let p : Profile := ⟨16, .sha2 .HMAC_SHA256 16 16⟩
    p.encryptWith rfc8009 rfc8009Key 2 rfc8009Confounder rfc8009Text = .ok rfc8009Cipher ∧
      p.decrypt rfc8009 rfc8009Key 2 rfc8009Cipher = .ok rfc8009Text := by
  intro p
  have hvector : p.encryptWith rfc8009 rfc8009Key 2 rfc8009Confounder rfc8009Text =
      .ok rfc8009Cipher := by decide +kernel
  obtain ⟨cipher, hok, hback⟩ := (encryption_inverts rfc8009).1 19 p rfl rfc8009Key
    (BigEndian.length_ofNat _ _) 2 rfc8009Confounder rfc8009Text
  rw [hvector] at hok
  rw [← Except.ok.inj hok] at hback
  exact ⟨hvector, hback⟩

end Ridm.Kerberos.Aes
