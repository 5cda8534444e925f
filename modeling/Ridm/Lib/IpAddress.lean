import Mathlib.Tactic.Common

/-!
# IP addresses and networks

Addresses of both versions by their bits, their text as a standard library reads it, and networks by an
address and the length of what their members share.  `readIpv4` and `readIpv6` take an address from the
front of a text; `parseIp` wants nothing behind it.  Octets have no leading zeros, an IPv6 address has
groups of up to four digits, may leave out one run of zeros (`::`) and may end in an IPv4 address.
-/

/-- An IP address, by its bits. -/
inductive IpAddr
  | v4 (bits : BitVec 32)
  | v6 (bits : BitVec 128)
  deriving DecidableEq

/-- A network: the addresses that agree with one on so many leading bits. -/
inductive IpNet
  | v4 (bits : BitVec 32) (prefixLen : ℕ)
  | v6 (bits : BitVec 128) (prefixLen : ℕ)
  deriving DecidableEq

namespace IpNet

/-- Whether an address is of a network. -/
def contains : IpNet → IpAddr → Bool
  | v4 net len, .v4 ip => net >>> (32 - len) == ip >>> (32 - len)
  | v6 net len, .v6 ip => net >>> (128 - len) == ip >>> (128 - len)
  | _, _ => false

/-- How many leading bits the addresses of a network share. -/
def prefixLen : IpNet → ℕ
  | v4 _ len => len
  | v6 _ len => len

/-- A network without the bits of its address that do not matter. -/
def trunc : IpNet → IpNet
  | v4 net len => v4 (net >>> (32 - len) <<< (32 - len)) len
  | v6 net len => v6 (net >>> (128 - len) <<< (128 - len)) len

def ofAddr : IpAddr → IpNet
  | .v4 ip => v4 ip 32
  | .v6 ip => v6 ip 128

lemma trunc_eq_of_contains {m n : IpNet} {ip : IpAddr} (hm : m.contains ip = true)
    (hn : n.contains ip = true) (hlen : m.prefixLen = n.prefixLen) : m.trunc = n.trunc := by
  cases ip with
  | v4 ip =>
      cases m with
      | v6 net len => cases hm
      | v4 net len =>
          cases n with
          | v6 net' len' => cases hn
          | v4 net' len' =>
              obtain rfl : len = len' := hlen
              rw [trunc, trunc, beq_iff_eq.mp hm, beq_iff_eq.mp hn]
  | v6 ip =>
      cases m with
      | v4 net len => cases hm
      | v6 net len =>
          cases n with
          | v4 net' len' => cases hn
          | v6 net' len' =>
              obtain rfl : len = len' := hlen
              rw [trunc, trunc, beq_iff_eq.mp hm, beq_iff_eq.mp hn]

lemma shiftRight_shiftLeft_self {w : ℕ} (x : BitVec w) (k : ℕ) :
    (x >>> k <<< k) >>> k <<< k = x >>> k <<< k := by
  ext i hi
  simp only [BitVec.getElem_shiftLeft, BitVec.getElem_ushiftRight, BitVec.getLsbD_shiftLeft,
    BitVec.getLsbD_ushiftRight]
  by_cases hik : i < k
  · simp [hik]
  · have hsub : k + (i - k) = i := Nat.add_sub_of_le (Nat.le_of_not_lt hik)
    simp [hik, hsub, hi]

@[simp] lemma trunc_trunc (n : IpNet) : n.trunc.trunc = n.trunc := by
  cases n with
  | v4 net len => rw [trunc, trunc, shiftRight_shiftLeft_self]
  | v6 net len => rw [trunc, trunc, shiftRight_shiftLeft_self]

end IpNet

namespace IpAddr

def digitValue (radix : ℕ) (c : Char) : Option ℕ :=
  let n := if 48 ≤ c.toNat ∧ c.toNat ≤ 57 then some (c.toNat - 48)
    else if 65 ≤ c.toNat ∧ c.toNat ≤ 90 then some (c.toNat - 55)
    else if 97 ≤ c.toNat ∧ c.toNat ≤ 122 then some (c.toNat - 87)
    else none
  n.filter (· < radix)

/-- A number of at most so many digits, below `limit`, from the front of a text. -/
def readNumber (radix maxDigits limit : ℕ) (leadingZeros : Bool) (l : List Char) : Option (ℕ × List Char) :=
  let digits := l.takeWhile fun c => (digitValue radix c).isSome
  let n := digits.foldl (fun n c => n * radix + (digitValue radix c).getD 0) 0
  if digits.isEmpty || maxDigits < digits.length then none
  else if !leadingZeros && digits.head? == some '0' && 1 < digits.length then none
  else if n < limit then some (n, l.drop digits.length)
  else none

/-- A character from the front of a text. -/
def readChar (c : Char) : List Char → Option (List Char)
  | d :: rest => if d = c then some rest else none
  | [] => none

/-- What is read behind a separator, or without one in the first place. -/
def readSeparated {α : Type} (sep : Char) (first : Bool) (inner : List Char → Option (α × List Char))
    (l : List Char) : Option (α × List Char) :=
  if first then inner l else (readChar sep l).bind inner

/-- An IPv4 address from the front of a text. -/
def readIpv4 (l : List Char) : Option (BitVec 32 × List Char) := do
  let (a, l) ← readNumber 10 3 256 false l
  let (b, l) ← readSeparated '.' false (readNumber 10 3 256 false) l
  let (c, l) ← readSeparated '.' false (readNumber 10 3 256 false) l
  let (d, l) ← readSeparated '.' false (readNumber 10 3 256 false) l
  some (BitVec.ofNat 32 (((a * 256 + b) * 256 + c) * 256 + d), l)

/-- Groups of an IPv6 address, for so many places: what was read, whether an IPv4 address ended it, and
what is left. -/
def readGroups : ℕ → Bool → List Char → List ℕ × Bool × List Char
  | 0, _, l => ([], false, l)
  | n + 1, first, l =>
      match if 1 ≤ n then readSeparated ':' first readIpv4 l else none with
      | some (ip, rest) => ([ip.toNat / 65536, ip.toNat % 65536], true, rest)
      | none =>
          match readSeparated ':' first (readNumber 16 4 65536 true) l with
          | some (group, rest) =>
              let (groups, ipv4, rest) := readGroups n false rest
              (group :: groups, ipv4, rest)
          | none => ([], false, l)

def ofGroups (groups : List ℕ) : BitVec 128 :=
  BitVec.ofNat 128 (groups.foldl (fun n group => n * 65536 + group) 0)

/-- An IPv6 address from the front of a text. -/
def readIpv6 (l : List Char) : Option (BitVec 128 × List Char) :=
  let (head, headIpv4, l) := readGroups 8 true l
  if head.length = 8 then some (ofGroups head, l)
  else if headIpv4 then none
  else
    match l with
    | ':' :: ':' :: l =>
        let (tail, _, l) := readGroups (8 - (head.length + 1)) true l
        some (ofGroups (head ++ List.replicate (8 - head.length - tail.length) 0 ++ tail), l)
    | _ => none

/-- An address and nothing else. -/
def parseIp (s : String) : Option IpAddr :=
  match readIpv4 s.toList with
  | some (ip, rest) => if rest.isEmpty then some (.v4 ip) else none
  | none => (readIpv6 s.toList).bind fun (ip, rest) => if rest.isEmpty then some (.v6 ip) else none

example : parseIp "198.51.100.7" = some (.v4 0xC6336407#32) := by decide
example : parseIp "2001:db8::1" = some (.v6 0x20010DB8000000000000000000000001#128) := by decide
example : parseIp "::ffff:10.0.0.1" = some (.v6 0xFFFF0A000001#128) := by decide
example : parseIp "10.0.0.01" = none ∧ parseIp "1:2:3" = none ∧ parseIp "1::2::3" = none := by decide

/-- The IPv6 address that an IPv4 address is mapped to. -/
def mapped (ip : BitVec 32) : IpAddr := .v6 (0xFFFF#96 ++ ip)

example : parseIp "::ffff:203.0.113.7" = some (mapped 0xCB007107#32) := by decide

end IpAddr

namespace IpNet

open IpAddr

def parse (s : String) : Option IpNet :=
  match readIpv4 s.toList with
  | some (ip, l) => do
      let (len, l) ← readSeparated '/' false (readNumber 10 2 33 true) l
      if l.isEmpty then some (v4 ip len) else none
  | none => do
      let (ip, l) ← readIpv6 s.toList
      let (len, l) ← readSeparated '/' false (readNumber 10 3 129 true) l
      if l.isEmpty then some (v6 ip len) else none

example : parse "203.0.113.0/24" = some (v4 0xCB007100#32 24) := by decide
example : parse "203.0.113.0" = none ∧ parse "203.0.113.0/33" = none := by decide

end IpNet
