import Ridm.Core.JsonText
import Ridm.Core.Text

/-!
# UUIDs and their text

Code that prints or parses a UUID needs its bits: `Uuid128` is the 128-bit value, `text` the
hyphenated lowercase form (`Uuid`'s `Display`).  The text has 36 characters, hexadecimal digits
and hyphens, and determines the value.
-/

namespace Ridm

/-- A UUID, by its 128 bits. -/
abbrev Uuid128 := BitVec 128

instance : LawfulBEq Uuid128 := inferInstance

/-- `w` hexadecimal digits of `n`, the most significant first. -/
def hexFixed : ℕ → ℕ → List Char
  | 0, _ => []
  | w + 1, n => hexFixed w (n / 16) ++ [hexDigit (n % 16)]

@[simp] lemma length_hexFixed (w n : ℕ) : (hexFixed w n).length = w := by
  induction w generalizing n with
  | zero => rfl
  | succ w ih => simp [hexFixed, ih]

lemma hexDigit_inj {m n : ℕ} (hm : m < 16) (hn : n < 16) (h : hexDigit m = hexDigit n) :
    m = n := by
  have hall : ∀ a < 16, ∀ b < 16, hexDigit a = hexDigit b → a = b := by decide
  exact hall m hm n hn h

lemma hexFixed_inj : ∀ {w m n : ℕ}, m < 16 ^ w → n < 16 ^ w → hexFixed w m = hexFixed w n →
    m = n := by
  intro w
  induction w with
  | zero =>
      intro m n hm hn _
      rw [pow_zero] at hm hn
      omega
  | succ w ih =>
      intro m n hm hn h
      rw [pow_succ] at hm hn
      obtain ⟨hhigh, hlow⟩ := List.append_inj h (by simp)
      simp only [List.cons.injEq, and_true] at hlow
      have hdiv := ih (by omega) (by omega) hhigh
      have hmod := hexDigit_inj (Nat.mod_lt m (by decide)) (Nat.mod_lt n (by decide)) hlow
      omega

def isUuidChar (c : Char) : Bool :=
  c.isDigit || (97 ≤ c.toNat && c.toNat ≤ 102) || c == '-'

lemma isUuidChar_toNat {c : Char} (h : isUuidChar c = true) : c.toNat ≤ 102 := by
  simp only [isUuidChar, Char.isDigit, Bool.or_eq_true, Bool.and_eq_true, decide_eq_true_eq,
    beq_iff_eq] at h
  rcases h with (h | h) | rfl
  · have h57 : c.toNat ≤ 57 := h.2
    omega
  · exact h.2
  · decide

lemma isUuidChar_hexFixed {w n : ℕ} : ∀ c ∈ hexFixed w n, isUuidChar c = true := by
  induction w generalizing n with
  | zero =>
      intro c hc
      cases hc
  | succ w ih =>
      intro c hc
      rw [hexFixed, List.mem_append, List.mem_singleton] at hc
      rcases hc with hc | rfl
      · exact ih c hc
      · have hall : ∀ a < 16, isUuidChar (hexDigit a) = true := by decide
        exact hall _ (Nat.mod_lt n (by decide))

namespace Uuid128

/-- `Uuid::nil()`. -/
def nil : Uuid128 := 0#128

/-- `Uuid::to_string`. -/
def text (u : Uuid128) : List Char :=
  hexFixed 8 (u.toNat / 16 ^ 24) ++ ('-' :: (hexFixed 4 (u.toNat / 16 ^ 20 % 16 ^ 4) ++
    ('-' :: (hexFixed 4 (u.toNat / 16 ^ 16 % 16 ^ 4) ++
      ('-' :: (hexFixed 4 (u.toNat / 16 ^ 12 % 16 ^ 4) ++
        ('-' :: hexFixed 12 (u.toNat % 16 ^ 12))))))))

@[simp] lemma length_text (u : Uuid128) : u.text.length = 36 := by
  simp [text]

lemma head_text (u : Uuid128) : ∃ d < 16, u.text.head? = some (hexDigit d) := by
  refine ⟨u.toNat / 16 ^ 24 / 16 / 16 / 16 / 16 / 16 / 16 / 16 % 16, Nat.mod_lt _ (by decide), ?_⟩
  simp [text, hexFixed]

lemma isUuidChar_text (u : Uuid128) : ∀ c ∈ u.text, isUuidChar c = true := by
  intro c hc
  simp only [text, List.mem_append, List.mem_cons] at hc
  rcases hc with hc | rfl | hc | rfl | hc | rfl | hc | rfl | hc
  · exact isUuidChar_hexFixed c hc
  · rfl
  · exact isUuidChar_hexFixed c hc
  · rfl
  · exact isUuidChar_hexFixed c hc
  · rfl
  · exact isUuidChar_hexFixed c hc
  · rfl
  · exact isUuidChar_hexFixed c hc

lemma notMem_text (u : Uuid128) {c : Char} (hc : isUuidChar c = false) : c ∉ u.text := by
  intro h
  simp [isUuidChar_text u c h] at hc

/-- **A UUID's text determines it.** -/
theorem text_inj {u v : Uuid128} (h : u.text = v.text) : u = v := by
  have hu := u.isLt
  have hv := v.isLt
  obtain ⟨h1, h⟩ := List.append_inj h (by simp)
  obtain ⟨h2, h⟩ := List.append_inj (List.cons.inj h).2 (by simp)
  obtain ⟨h3, h⟩ := List.append_inj (List.cons.inj h).2 (by simp)
  obtain ⟨h4, h⟩ := List.append_inj (List.cons.inj h).2 (by simp)
  have g1 := hexFixed_inj (by omega) (by omega) h1
  have g2 := hexFixed_inj (Nat.mod_lt _ (by decide)) (Nat.mod_lt _ (by decide)) h2
  have g3 := hexFixed_inj (Nat.mod_lt _ (by decide)) (Nat.mod_lt _ (by decide)) h3
  have g4 := hexFixed_inj (Nat.mod_lt _ (by decide)) (Nat.mod_lt _ (by decide)) h4
  have g5 := hexFixed_inj (Nat.mod_lt _ (by decide)) (Nat.mod_lt _ (by decide)) (List.cons.inj h).2
  apply BitVec.eq_of_toNat_eq
  omega

/-- The value of a hexadecimal digit, of either case. -/
def hexValue (c : Char) : Option ℕ :=
  if 48 ≤ c.toNat && c.toNat ≤ 57 then some (c.toNat - 48)
  else if 97 ≤ c.toNat && c.toNat ≤ 102 then some (c.toNat - 87)
  else if 65 ≤ c.toNat && c.toNat ≤ 70 then some (c.toNat - 55)
  else none

/-- Hexadecimal digits, onto what was read before them. -/
def parseHex : ℕ → List Char → Option ℕ
  | n, [] => some n
  | n, c :: l => (hexValue c).bind fun d => parseHex (16 * n + d) l

/-- `parse_simple`: 32 digits. -/
def parseSimple (s : List Char) : Option Uuid128 :=
  if s.length = 32 then (parseHex 0 s).map (BitVec.ofNat 128) else none

/-- `parse_hyphenated`: 32 digits in five groups. -/
def parseHyphenated (s : List Char) : Option Uuid128 :=
  if s.length = 36 ∧ s[8]? = some '-' ∧ s[13]? = some '-' ∧ s[18]? = some '-' ∧ s[23]? = some '-' then
    parseSimple (s.take 8 ++ ((s.drop 9).take 4 ++ ((s.drop 14).take 4 ++
      ((s.drop 19).take 4 ++ s.drop 24))))
  else none

/-- `Uuid::parse_str`: plain digits, the hyphenated form, and that form in braces or as a URN. -/
def parseStr (s : String) : Option Uuid128 :=
  let cs := s.toList
  if cs.length = 32 then parseSimple cs
  else if cs.length = 36 then parseHyphenated cs
  else if cs.length = 38 ∧ cs[0]? = some '\x7b' ∧ cs[37]? = some '\x7d' then
    parseHyphenated ((cs.drop 1).take 36)
  else if cs.length = 45 ∧ cs.take 9 = "urn:uuid:".toList then parseHyphenated (cs.drop 9)
  else none

/-! ## Reading a UUID -/

lemma hexValue_toLower (c : Char) : hexValue c.toLower = hexValue c := by
  refine toLower_cases (p := fun c => hexValue c.toLower = hexValue c) ?_ (by decide) c
  intro c hc
  rw [hc]

lemma hexValue_hexDigit {d : ℕ} (hd : d < 16) : hexValue (hexDigit d) = some d := by
  have hall : ∀ a < 16, hexValue (hexDigit a) = some a := by decide
  exact hall d hd

lemma ascii_of_hexValue {c : Char} {d : ℕ} (h : hexValue c = some d) : c.toNat < 128 := by
  rw [hexValue] at h
  split_ifs at h with h1 h2 h3
  · simp only [Bool.and_eq_true, decide_eq_true_eq] at h1
    omega
  · simp only [Bool.and_eq_true, decide_eq_true_eq] at h2
    omega
  · simp only [Bool.and_eq_true, decide_eq_true_eq] at h3
    omega

lemma parseHex_toLower (l : List Char) : ∀ n, parseHex n (l.map Char.toLower) = parseHex n l := by
  induction l with
  | nil =>
      intro n
      rfl
  | cons c l ih =>
      intro n
      rw [List.map_cons, parseHex, parseHex, hexValue_toLower]
      exact congrArg _ (funext fun d => ih _)

lemma parseHex_ascii {l : List Char} : ∀ {n k : ℕ}, parseHex n l = some k →
    ∀ c ∈ l, c.toNat < 128 := by
  induction l with
  | nil =>
      intro n k _ c hc
      cases hc
  | cons x l ih =>
      intro n k h c hc
      rw [parseHex, Option.bind_eq_some_iff] at h
      obtain ⟨d, hd, hrest⟩ := h
      rcases List.mem_cons.mp hc with rfl | hc
      · exact ascii_of_hexValue hd
      · exact ih hrest c hc

lemma parseHex_append (a b : List Char) : ∀ n,
    parseHex n (a ++ b) = (parseHex n a).bind fun m => parseHex m b := by
  induction a with
  | nil =>
      intro n
      rfl
  | cons c a ih =>
      intro n
      rw [List.cons_append, parseHex, parseHex, Option.bind_assoc]
      exact congrArg _ (funext fun d => ih _)

lemma parseHex_hexFixed (w : ℕ) : ∀ n m, m < 16 ^ w → parseHex n (hexFixed w m) = some (16 ^ w * n + m) := by
  induction w with
  | zero =>
      intro n m hm
      rw [pow_zero] at hm ⊢
      rw [hexFixed, parseHex]
      congr 1
      omega
  | succ w ih =>
      intro n m hm
      rw [pow_succ] at hm ⊢
      rw [hexFixed, parseHex_append, ih n (m / 16) (by omega), Option.bind_some, parseHex,
        hexValue_hexDigit (Nat.mod_lt _ (by decide)), Option.bind_some, parseHex]
      congr 1
      have hdm := Nat.div_add_mod m 16
      calc 16 * (16 ^ w * n + m / 16) + m % 16 = 16 * (16 ^ w * n) + m := by omega
        _ = 16 ^ w * 16 * n + m := by rw [Nat.mul_comm (16 ^ w) 16, Nat.mul_assoc]

lemma hyphenated_split {s : List Char} (h8 : s[8]? = some '-')
    (h13 : s[13]? = some '-') (h18 : s[18]? = some '-') (h23 : s[23]? = some '-') :
    s = s.take 8 ++ ('-' :: ((s.drop 9).take 4 ++ ('-' :: ((s.drop 14).take 4 ++
      ('-' :: ((s.drop 19).take 4 ++ ('-' :: s.drop 24))))))) := by
  have hcut : ∀ i, s[i]? = some '-' → s.drop i = '-' :: s.drop (i + 1) := by
    intro i hi
    obtain ⟨hlt, hget⟩ := List.getElem?_eq_some_iff.mp hi
    rw [List.drop_eq_getElem_cons hlt, hget]
  have hgroup : ∀ i, s.drop i = (s.drop i).take 4 ++ s.drop (i + 4) := by
    intro i
    conv_lhs => rw [← List.take_append_drop 4 (s.drop i), List.drop_drop]
  conv_lhs => rw [← List.take_append_drop 8 s, hcut 8 h8, hgroup 9, hcut 13 h13, hgroup 14,
    hcut 18 h18, hgroup 19, hcut 23 h23]

lemma parseHyphenated_ascii {s : List Char} {id : Uuid128} (h : parseHyphenated s = some id) :
    ∀ c ∈ s, c.toNat < 128 := by
  rw [parseHyphenated] at h
  split_ifs at h with hform
  obtain ⟨-, h8, h13, h18, h23⟩ := hform
  rw [parseSimple] at h
  split_ifs at h with h32
  obtain ⟨n, hn, -⟩ := Option.map_eq_some_iff.mp h
  have hascii := parseHex_ascii hn
  intro c hc
  rw [hyphenated_split h8 h13 h18 h23] at hc
  simp only [List.mem_append, List.mem_cons] at hc hascii
  have hdash : ('-' : Char).toNat < 128 := by decide
  rcases hc with hc | rfl | hc | rfl | hc | rfl | hc | rfl | hc
  · exact hascii c (.inl hc)
  · exact hdash
  · exact hascii c (.inr (.inl hc))
  · exact hdash
  · exact hascii c (.inr (.inr (.inl hc)))
  · exact hdash
  · exact hascii c (.inr (.inr (.inr (.inl hc))))
  · exact hdash
  · exact hascii c (.inr (.inr (.inr (.inr hc))))

/-- The digits of a UUID, without the hyphens. -/
def digits (u : Uuid128) : List Char :=
  hexFixed 8 (u.toNat / 16 ^ 24) ++ (hexFixed 4 (u.toNat / 16 ^ 20 % 16 ^ 4) ++
    (hexFixed 4 (u.toNat / 16 ^ 16 % 16 ^ 4) ++ (hexFixed 4 (u.toNat / 16 ^ 12 % 16 ^ 4) ++
      hexFixed 12 (u.toNat % 16 ^ 12))))

lemma parseHex_digits (u : Uuid128) : parseHex 0 u.digits = some u.toNat := by
  have hu := u.isLt
  rw [digits, parseHex_append, parseHex_hexFixed 8 _ _ (by omega), Option.bind_some, parseHex_append,
    parseHex_hexFixed 4 _ _ (Nat.mod_lt _ (by decide)), Option.bind_some, parseHex_append,
    parseHex_hexFixed 4 _ _ (Nat.mod_lt _ (by decide)), Option.bind_some, parseHex_append,
    parseHex_hexFixed 4 _ _ (Nat.mod_lt _ (by decide)), Option.bind_some,
    parseHex_hexFixed 12 _ _ (Nat.mod_lt _ (by decide))]
  congr 1
  omega

lemma parseHyphenated_of_lower {s : List Char} {id u : Uuid128} (h : parseHyphenated s = some id)
    (hs : s.map Char.toLower = u.text) : id = u := by
  rw [parseHyphenated] at h
  split_ifs at h with hform
  obtain ⟨hlen, h8, h13, h18, h23⟩ := hform
  have hsplit := hyphenated_split h8 h13 h18 h23
  have hdash : Char.toLower '-' = '-' := by decide
  rw [hsplit] at hs
  simp only [List.map_append, List.map_cons, hdash, text] at hs
  obtain ⟨g1, hs⟩ := List.append_inj hs (by simp; omega)
  obtain ⟨g2, hs⟩ := List.append_inj (List.cons.inj hs).2 (by simp; omega)
  obtain ⟨g3, hs⟩ := List.append_inj (List.cons.inj hs).2 (by simp; omega)
  obtain ⟨g4, hs⟩ := List.append_inj (List.cons.inj hs).2 (by simp; omega)
  have g5 := (List.cons.inj hs).2
  rw [parseSimple] at h
  split_ifs at h
  have hvalue : parseHex 0 (s.take 8 ++ ((s.drop 9).take 4 ++ ((s.drop 14).take 4 ++
      ((s.drop 19).take 4 ++ s.drop 24)))) = some u.toNat := by
    rw [← parseHex_toLower, ← parseHex_digits]
    simp only [List.map_append, g1, g2, g3, g4, g5, digits]
  rw [hvalue, Option.map_some, Option.some.injEq] at h
  rw [← h]
  simp

lemma parseStr_ascii {s : String} {id : Uuid128} (h : parseStr s = some id) :
    ∀ c ∈ s.toList, c.toNat < 128 := by
  rw [parseStr] at h
  split_ifs at h with h32 h36 h38 h45
  · rw [parseSimple, if_pos h32] at h
    obtain ⟨n, hn, -⟩ := Option.map_eq_some_iff.mp h
    exact parseHex_ascii hn
  · exact parseHyphenated_ascii h
  · obtain ⟨hlen, hopen, hclose⟩ := h38
    intro c hc
    obtain ⟨i, hi⟩ := List.mem_iff_getElem?.mp hc
    by_cases hi0 : i = 0
    · rw [hi0, hopen] at hi
      cases hi
      decide
    by_cases hi37 : i = 37
    · rw [hi37, hclose] at hi
      cases hi
      decide
    -- every other character is one of the hyphenated form between the braces
    have hlt : i < 38 := by
      obtain ⟨hlt, -⟩ := List.getElem?_eq_some_iff.mp hi
      omega
    refine parseHyphenated_ascii h c (List.mem_iff_getElem?.mpr ⟨i - 1, ?_⟩)
    rw [List.getElem?_take_of_lt (by omega), List.getElem?_drop,
      show 1 + (i - 1) = i from by omega]
    exact hi
  · intro c hc
    rw [← List.take_append_drop 9 s.toList, h45.2, List.mem_append] at hc
    rcases hc with hc | hc
    · have hall : ("urn:uuid:".toList.all fun c => decide (c.toNat < 128)) = true := by decide
      exact of_decide_eq_true (List.all_eq_true.mp hall c hc)
    · exact parseHyphenated_ascii h c hc

/-- **A text that is a UUID's in lower case is parsed to that UUID.** -/
theorem parseStr_of_lower {s : String} {id u : Uuid128} (h : parseStr s = some id)
    (hs : s.toList.map Char.toLower = u.text) : id = u := by
  have hlen : s.toList.length = 36 := by
    have := congrArg List.length hs
    simpa using this
  rw [parseStr] at h
  simp only [hlen] at h
  exact parseHyphenated_of_lower (by simpa using h) hs

lemma parseHyphenated_text (u : Uuid128) : parseHyphenated u.text = some u := by
  have hdigits : u.text.take 8 ++ ((u.text.drop 9).take 4 ++ ((u.text.drop 14).take 4 ++
      ((u.text.drop 19).take 4 ++ u.text.drop 24))) = u.digits := by
    simp [text, digits, List.drop_append, List.drop_eq_nil_of_le]
  have hlength : u.digits.length = 32 := by simp [digits]
  rw [parseHyphenated, if_pos, hdigits, parseSimple, if_pos hlength, parseHex_digits]
  · simp
  · simp [text]

/-- **What is written is read back.** -/
theorem parseStr_text (u : Uuid128) : parseStr (String.ofList u.text) = some u := by
  simp [parseStr, parseHyphenated_text]

end Uuid128

end Ridm
