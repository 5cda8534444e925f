import Mathlib.Tactic.Common

/-!
# Base64

The standard alphabet with padding: three bytes are written as four characters of six bits each, and one
or two bytes at the end are filled up with `=`.  Decoding is strict.  It takes whole groups only, padding
at the end only, and no bits beyond the last byte.

What is encoded is decoded again (`decode_encode`), and the encoding is made of `isBase64Char` only.
The URL-safe form has `-` and `_` in its alphabet and no padding (`decodeUrl_encodeUrl`).
-/

namespace Base64

/-- The character for a value below 64. -/
def sextetChar (n : ℕ) : Char :=
  Char.ofNat (if n < 26 then 65 + n else if n < 52 then 71 + n else if n < 62 then n - 4
    else if n = 62 then 43 else 47)

/-- The value of a character. -/
def sextet (c : Char) : Option ℕ :=
  if 65 ≤ c.toNat ∧ c.toNat ≤ 90 then some (c.toNat - 65)
  else if 97 ≤ c.toNat ∧ c.toNat ≤ 122 then some (c.toNat - 71)
  else if 48 ≤ c.toNat ∧ c.toNat ≤ 57 then some (c.toNat + 4)
  else if c = '+' then some 62
  else if c = '/' then some 63
  else none

/-- Bytes as text. -/
def encode : List UInt8 → List Char
  | [] => []
  | [a] => [sextetChar (a.toNat / 4), sextetChar (a.toNat % 4 * 16), '=', '=']
  | [a, b] => [sextetChar (a.toNat / 4), sextetChar (a.toNat % 4 * 16 + b.toNat / 16),
      sextetChar (b.toNat % 16 * 4), '=']
  | a :: b :: c :: rest => sextetChar (a.toNat / 4) :: sextetChar (a.toNat % 4 * 16 + b.toNat / 16) ::
      sextetChar (b.toNat % 16 * 4 + c.toNat / 64) :: sextetChar (c.toNat % 64) :: encode rest

/-- A last group, which ends in `=`. -/
def decodePadded (w x y : Char) : Option (List UInt8) := do
  let a ← sextet w
  let b ← sextet x
  if y = '=' then
    if b % 16 = 0 then some [.ofNat (a * 4 + b / 16)] else none
  else
    let c ← sextet y
    if c % 4 = 0 then some [.ofNat (a * 4 + b / 16), .ofNat (b % 16 * 16 + c / 4)] else none

/-- Text as bytes. -/
def decode : List Char → Option (List UInt8)
  | [] => some []
  | w :: x :: y :: z :: rest =>
      if z = '=' then
        if rest.isEmpty then decodePadded w x y else none
      else do
        let a ← sextet w
        let b ← sextet x
        let c ← sextet y
        let d ← sextet z
        let bytes ← decode rest
        some (.ofNat (a * 4 + b / 16) :: .ofNat (b % 16 * 16 + c / 4) :: .ofNat (c % 4 * 64 + d) :: bytes)
  | _ => none

/-- The characters of an encoding. -/
def isBase64Char (c : Char) : Bool := c.isAlphanum || c == '+' || c == '/' || c == '='

lemma sextet_sextetChar {n : ℕ} (h : n < 64) : sextet (sextetChar n) = some n := by
  have hall : ∀ n < 64, sextet (sextetChar n) = some n := by decide
  exact hall n h

lemma sextetChar_ne_pad {n : ℕ} (h : n < 64) : sextetChar n ≠ '=' := by
  have hall : ∀ n < 64, sextetChar n ≠ '=' := by decide
  exact hall n h

lemma isBase64Char_sextetChar {n : ℕ} (h : n < 64) : isBase64Char (sextetChar n) = true := by
  have hall : ∀ n < 64, isBase64Char (sextetChar n) = true := by decide
  exact hall n h

lemma ofNat_eq {a : UInt8} {n : ℕ} (h : n = a.toNat) : UInt8.ofNat n = a := by
  rw [h, UInt8.ofNat_toNat]

/-- **What is encoded is decoded again.** -/
theorem decode_encode (bytes : List UInt8) : decode (encode bytes) = some bytes := by
  induction bytes using encode.induct with
  | case1 => rfl
  | case2 a =>
      have ha := a.toNat_lt
      simp only [encode, decode, if_true, List.isEmpty_nil, decodePadded,
        sextet_sextetChar (show a.toNat / 4 < 64 by omega),
        sextet_sextetChar (show a.toNat % 4 * 16 < 64 by omega), Option.bind_eq_bind, Option.bind_some]
      rw [if_pos (by omega), ofNat_eq (a := a) (by omega)]
  | case3 a b =>
      have ha := a.toNat_lt
      have hb := b.toNat_lt
      simp only [encode, decode, if_true, List.isEmpty_nil, decodePadded,
        sextet_sextetChar (show a.toNat / 4 < 64 by omega),
        sextet_sextetChar (show a.toNat % 4 * 16 + b.toNat / 16 < 64 by omega),
        sextet_sextetChar (show b.toNat % 16 * 4 < 64 by omega),
        if_neg (sextetChar_ne_pad (show b.toNat % 16 * 4 < 64 by omega)),
        Option.bind_eq_bind, Option.bind_some]
      rw [if_pos (by omega), ofNat_eq (a := a) (by omega), ofNat_eq (a := b) (by omega)]
  | case4 a b c rest ih =>
      have ha := a.toNat_lt
      have hb := b.toNat_lt
      have hc := c.toNat_lt
      simp only [encode, decode, if_neg (sextetChar_ne_pad (show c.toNat % 64 < 64 by omega)),
        sextet_sextetChar (show a.toNat / 4 < 64 by omega),
        sextet_sextetChar (show a.toNat % 4 * 16 + b.toNat / 16 < 64 by omega),
        sextet_sextetChar (show b.toNat % 16 * 4 + c.toNat / 64 < 64 by omega),
        sextet_sextetChar (show c.toNat % 64 < 64 by omega), ih, Option.bind_eq_bind, Option.bind_some]
      rw [ofNat_eq (a := a) (by omega), ofNat_eq (a := b) (by omega), ofNat_eq (a := c) (by omega)]

lemma isBase64Char_encode {bytes : List UInt8} : ∀ c ∈ encode bytes, isBase64Char c = true := by
  induction bytes using encode.induct with
  | case1 => exact fun _ h => absurd h List.not_mem_nil
  | case2 a =>
      have ha := a.toNat_lt
      simp only [encode, List.forall_mem_cons]
      exact ⟨isBase64Char_sextetChar (by omega), isBase64Char_sextetChar (by omega), rfl, rfl,
        fun _ h => absurd h List.not_mem_nil⟩
  | case3 a b =>
      have ha := a.toNat_lt
      have hb := b.toNat_lt
      simp only [encode, List.forall_mem_cons]
      exact ⟨isBase64Char_sextetChar (by omega), isBase64Char_sextetChar (by omega),
        isBase64Char_sextetChar (by omega), rfl, fun _ h => absurd h List.not_mem_nil⟩
  | case4 a b c rest ih =>
      have ha := a.toNat_lt
      have hb := b.toNat_lt
      have hc := c.toNat_lt
      simp only [encode, List.forall_mem_cons]
      exact ⟨isBase64Char_sextetChar (by omega), isBase64Char_sextetChar (by omega),
        isBase64Char_sextetChar (by omega), isBase64Char_sextetChar (by omega), ih⟩

/-! ## The URL-safe alphabet -/

def toUrl (c : Char) : Char := if c = '+' then '-' else if c = '/' then '_' else c

def ofUrl (c : Char) : Option Char :=
  if c = '-' then some '+'
  else if c = '_' then some '/'
  else if c = '+' ∨ c = '/' ∨ c = '=' then none
  else some c

/-- Bytes as URL-safe text, without padding. -/
def encodeUrl (bytes : List UInt8) : List Char := ((encode bytes).filter (· != '=')).map toUrl

/-- The padding that text of a length is missing. -/
def padding (n : ℕ) : List Char := List.replicate ((4 - n % 4) % 4) '='

/-- URL-safe text as bytes; padding is refused. -/
def decodeUrl (text : List Char) : Option (List UInt8) :=
  (text.mapM ofUrl).bind fun l => decode (l ++ padding l.length)

lemma encode_eq_padded (bytes : List UInt8) :
    ∃ l, encode bytes = l ++ padding l.length ∧ ∀ c ∈ l, c ≠ '=' := by
  induction bytes using encode.induct with
  | case1 => exact ⟨[], rfl, fun _ h => absurd h List.not_mem_nil⟩
  | case2 a =>
      have ha := a.toNat_lt
      refine ⟨[_, _], rfl, ?_⟩
      simp only [List.forall_mem_cons, List.not_mem_nil, false_implies, implies_true, and_true]
      exact ⟨sextetChar_ne_pad (by omega), sextetChar_ne_pad (by omega)⟩
  | case3 a b =>
      have ha := a.toNat_lt
      have hb := b.toNat_lt
      refine ⟨[_, _, _], rfl, ?_⟩
      simp only [List.forall_mem_cons, List.not_mem_nil, false_implies, implies_true, and_true]
      exact ⟨sextetChar_ne_pad (by omega), sextetChar_ne_pad (by omega), sextetChar_ne_pad (by omega)⟩
  | case4 a b c rest ih =>
      have ha := a.toNat_lt
      have hb := b.toNat_lt
      have hc := c.toNat_lt
      obtain ⟨l, hl, hplain⟩ := ih
      refine ⟨sextetChar (a.toNat / 4) :: sextetChar (a.toNat % 4 * 16 + b.toNat / 16) ::
        sextetChar (b.toNat % 16 * 4 + c.toNat / 64) :: sextetChar (c.toNat % 64) :: l, ?_, ?_⟩
      · simp [encode, hl, padding, Nat.add_assoc]
      · simp only [List.forall_mem_cons]
        exact ⟨sextetChar_ne_pad (by omega), sextetChar_ne_pad (by omega), sextetChar_ne_pad (by omega),
          sextetChar_ne_pad (by omega), hplain⟩

lemma ofUrl_toUrl {c : Char} (h : isBase64Char c = true) (hpad : c ≠ '=') : ofUrl (toUrl c) = some c := by
  unfold toUrl
  split_ifs with hplus hslash
  · rw [hplus]
    rfl
  · rw [hslash]
    rfl
  · have hminus : c ≠ '-' := fun h' => by
      rw [h'] at h
      exact absurd h (by decide)
    have hline : c ≠ '_' := fun h' => by
      rw [h'] at h
      exact absurd h (by decide)
    simp [ofUrl, hplus, hslash, hminus, hline, hpad]

lemma mapM_ofUrl_toUrl {l : List Char} (h : ∀ c ∈ l, isBase64Char c = true ∧ c ≠ '=') :
    (l.map toUrl).mapM ofUrl = some l := by
  induction l with
  | nil => rfl
  | cons c l ih =>
      obtain ⟨⟨hc, hpad⟩, hl⟩ := List.forall_mem_cons.mp h
      rw [List.map_cons, List.mapM_cons, ofUrl_toUrl hc hpad, ih hl]
      rfl

/-- **What is encoded is decoded again**, in the URL-safe form too. -/
theorem decodeUrl_encodeUrl (bytes : List UInt8) : decodeUrl (encodeUrl bytes) = some bytes := by
  obtain ⟨l, hl, hplain⟩ := encode_eq_padded bytes
  have hfilter : (encode bytes).filter (· != '=') = l := by
    rw [hl, List.filter_append, List.filter_eq_self.mpr, List.filter_eq_nil_iff.mpr, List.append_nil]
    · intro c hc
      simp [List.eq_of_mem_replicate hc]
    · exact fun c hc => bne_iff_ne.mpr (hplain c hc)
  have hchars : ∀ c ∈ l, isBase64Char c = true ∧ c ≠ '=' := fun c hc =>
    ⟨isBase64Char_encode c (hl ▸ List.mem_append_left _ hc), hplain c hc⟩
  rw [decodeUrl, encodeUrl, hfilter, mapM_ofUrl_toUrl hchars, Option.bind_some, ← hl, decode_encode]

end Base64
