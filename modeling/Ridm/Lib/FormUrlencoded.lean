import Mathlib.Data.List.Basic
import Ridm.Lib.Utf8

/-!
# `application/x-www-form-urlencoded`

A form is names and values, `name=value` with `&` between them.  Letters, digits and `*-._` stand for
themselves, a space is written `+`, and every other byte of the UTF-8 text as `%` and two hexadecimal
digits.  Reading takes what is not an escape for itself, and puts replacement characters for what is not
UTF-8 (a parameter, `replaced`).

What is serialized is read again (`decodeText_byteSerialize`), and a serialized text has none of the
characters that end a name or a value (`isFormChar`).
-/

namespace FormUrlencoded

open Utf8 (utf8 fromUtf8 fromUtf8_utf8)

/-! ## Writing -/

/-- A byte that stands for itself. -/
def isUnchanged (b : UInt8) : Bool :=
  (48 ≤ b.toNat && b.toNat ≤ 57) || (65 ≤ b.toNat && b.toNat ≤ 90) || (97 ≤ b.toNat && b.toNat ≤ 122) ||
    b == 42 || b == 45 || b == 46 || b == 95

def hexDigit (n : ℕ) : Char := Char.ofNat (if n < 10 then 48 + n else 55 + n)

/-- One byte of a text. -/
def serializeByte (b : UInt8) : List Char :=
  if isUnchanged b then [Char.ofNat b.toNat]
  else if b = 32 then ['+']
  else ['%', hexDigit (b.toNat / 16), hexDigit (b.toNat % 16)]

/-- Bytes as they are written in a form. -/
def byteSerialize (bytes : List UInt8) : List Char := bytes.flatMap serializeByte

/-- The characters that `byteSerialize` writes. -/
def isFormChar (c : Char) : Bool :=
  c.isAlphanum || c == '*' || c == '-' || c == '.' || c == '_' || c == '+' || c == '%'

/-! ## Reading -/

/-- The value of a hexadecimal digit, of either case. -/
def hexValue (c : Char) : Option ℕ :=
  if 48 ≤ c.toNat ∧ c.toNat ≤ 57 then some (c.toNat - 48)
  else if 65 ≤ c.toNat ∧ c.toNat ≤ 70 then some (c.toNat - 55)
  else if 97 ≤ c.toNat ∧ c.toNat ≤ 102 then some (c.toNat - 87)
  else none

/-- The byte of two hexadecimal digits. -/
def escaped (h l : Char) : Option UInt8 :=
  match hexValue h, hexValue l with
  | some h, some l => some (.ofNat (16 * h + l))
  | _, _ => none

/-- The bytes a text stands for. -/
def percentDecode : List Char → List UInt8
  | '%' :: h :: l :: rest =>
      match escaped h l with
      | some b => b :: percentDecode rest
      | none => 37 :: percentDecode (h :: l :: rest)
  | '+' :: rest => 32 :: percentDecode rest
  | c :: rest => String.utf8EncodeChar c ++ percentDecode rest
  | [] => []

variable (replaced : List UInt8 → String)

/-- The text of a name or a value. -/
def decodeText (text : List Char) : String :=
  let bytes := percentDecode text
  (fromUtf8 bytes).getD (replaced bytes)

/-- The names and values of a form. -/
def parse (text : String) : List (String × String) :=
  ((text.toList.splitOn '&').filter (!·.isEmpty)).map fun pair =>
    (decodeText replaced (pair.takeWhile (· != '=')), decodeText replaced ((pair.dropWhile (· != '=')).drop 1))

/-! ## The round trip -/

lemma escaped_hexDigit (b : UInt8) : escaped (hexDigit (b.toNat / 16)) (hexDigit (b.toNat % 16)) = some b := by
  have hall : ∀ n < 16, hexValue (hexDigit n) = some n := by decide
  have hb := b.toNat_lt
  rw [escaped, hall _ (by omega), hall _ (by omega)]
  show some (UInt8.ofNat (16 * (b.toNat / 16) + b.toNat % 16)) = some b
  rw [Nat.div_add_mod, UInt8.ofNat_toNat]

lemma unchanged_char {b : UInt8} (h : isUnchanged b = true) :
    String.utf8EncodeChar (Char.ofNat b.toNat) = [b] ∧ Char.ofNat b.toNat ≠ '%' ∧
      Char.ofNat b.toNat ≠ '+' := by
  have hall : ∀ n < 256, isUnchanged (.ofNat n) = true →
      String.utf8EncodeChar (Char.ofNat n) = [UInt8.ofNat n] ∧ Char.ofNat n ≠ '%' ∧
        Char.ofNat n ≠ '+' := by decide +kernel
  have hb := hall b.toNat b.toNat_lt
  rw [UInt8.ofNat_toNat] at hb
  exact hb h

lemma percentDecode_cons {c : Char} (hpercent : c ≠ '%') (hplus : c ≠ '+') (rest : List Char) :
    percentDecode (c :: rest) = String.utf8EncodeChar c ++ percentDecode rest := by
  rw [percentDecode]
  · rintro h l rest' rfl
    exact absurd rfl hpercent
  · rintro rfl
    exact absurd rfl hplus

lemma percentDecode_serializeByte (b : UInt8) (rest : List Char) :
    percentDecode (serializeByte b ++ rest) = b :: percentDecode rest := by
  rw [serializeByte]
  split_ifs with hsame hspace
  · obtain ⟨hutf8, hpercent, hplus⟩ := unchanged_char hsame
    rw [List.singleton_append, percentDecode_cons hpercent hplus, hutf8, List.singleton_append]
  · rw [hspace, List.singleton_append, percentDecode]
  · show percentDecode ('%' :: hexDigit (b.toNat / 16) :: hexDigit (b.toNat % 16) :: rest) = _
    rw [percentDecode, escaped_hexDigit]

lemma percentDecode_byteSerialize (bytes : List UInt8) : percentDecode (byteSerialize bytes) = bytes := by
  induction bytes with
  | nil => rfl
  | cons b bytes ih =>
      have hcons : byteSerialize (b :: bytes) = serializeByte b ++ byteSerialize bytes := List.flatMap_cons
      rw [hcons, percentDecode_serializeByte, ih]

/-- **What is serialized is read again.** -/
theorem decodeText_byteSerialize (s : String) : decodeText replaced (byteSerialize (utf8 s)) = s := by
  simp [decodeText, percentDecode_byteSerialize]

lemma isFormChar_serializeByte {b : UInt8} {c : Char} (h : c ∈ serializeByte b) : isFormChar c = true := by
  have hall : ∀ n < 256, (serializeByte (.ofNat n)).all isFormChar = true := by decide +kernel
  refine List.all_eq_true.mp (hall b.toNat b.toNat_lt) c ?_
  rwa [UInt8.ofNat_toNat]

lemma isFormChar_byteSerialize {bytes : List UInt8} {c : Char} (h : c ∈ byteSerialize bytes) :
    isFormChar c = true := by
  obtain ⟨b, -, hc⟩ := List.mem_flatMap.mp h
  exact isFormChar_serializeByte hc

/-- **The first value of a form of one field**, whose text has nothing that ends a value. -/
lemma parse_field (name value : String) (hname : ∀ c ∈ name.toList, c ≠ '&' ∧ c ≠ '=')
    (hvalue : '&' ∉ value.toList) : parse replaced (name ++ "=" ++ value) =
      [(decodeText replaced name.toList, decodeText replaced value.toList)] := by
  have htext : (name ++ "=" ++ value).toList = name.toList ++ '=' :: value.toList := by simp
  have hamp : '&' ∉ name.toList ++ '=' :: value.toList := by
    rw [List.mem_append, List.mem_cons, not_or, not_or]
    exact ⟨fun h => (hname _ h).1 rfl, by decide, hvalue⟩
  have hbefore : ∀ c ∈ name.toList, (c != '=') = true := fun c hc => bne_iff_ne.mpr (hname c hc).2
  rw [parse, htext, List.splitOn_eq_singleton hamp, List.filter_cons_of_pos (by simp), List.filter_nil,
    List.map_singleton, List.takeWhile_append_of_pos hbefore, List.dropWhile_append_of_pos hbefore]
  simp

end FormUrlencoded
