import Mathlib.Tactic.Common

/-!
# Text as bytes

The UTF-8 bytes of a text, and the text of bytes where they are UTF-8.
-/

namespace Utf8

/-- The bytes of a text. -/
def utf8 (s : String) : List UInt8 := s.toByteArray.data.toList

/-- The text of bytes that are UTF-8. -/
def fromUtf8 (bytes : List UInt8) : Option String := String.fromUTF8? ⟨bytes.toArray⟩

@[simp] lemma fromUtf8_utf8 (s : String) : fromUtf8 (utf8 s) = some s := by
  have hvalid : s.toByteArray.IsValidUTF8 := s.isValidUTF8
  rw [fromUtf8, utf8, Array.toArray_toList, String.fromUTF8?, dif_pos hvalid]
  rfl

@[simp] lemma length_utf8 (s : String) : (utf8 s).length = s.utf8ByteSize := by
  rw [utf8, Array.length_toList]
  rfl

lemma utf8_injective : Function.Injective utf8 := fun s t h =>
  Option.some.inj (by rw [← fromUtf8_utf8 s, h, fromUtf8_utf8])

lemma utf8_ofList (l : List Char) : utf8 (String.ofList l) = l.flatMap String.utf8EncodeChar := by
  rw [utf8, String.toByteArray_ofList, List.utf8Encode]
  simp

lemma utf8_ofList_ascii {l : List Char} (h : ∀ c ∈ l, c.toNat < 128) :
    utf8 (String.ofList l) = l.map fun c => UInt8.ofNat c.toNat := by
  rw [utf8_ofList]
  induction l with
  | nil => rfl
  | cons c l ih =>
      have hbyte : String.utf8EncodeChar c = [UInt8.ofNat c.toNat] := by
        have hc := h c List.mem_cons_self
        show (if c.toNat ≤ 0x7f then _ else _) = _
        rw [if_pos (by omega)]
        rfl
      rw [List.flatMap_cons, hbyte, ih fun d hd => h d (List.mem_cons_of_mem _ hd)]
      rfl

end Utf8
