import Mathlib.Data.List.DropRight

/-!
# Text

The few operations on `str` that the modelled services use and that Lean's own strings do not
have under the same rules.  Full lower-casing (`str::to_lowercase`) needs the Unicode tables and is
a parameter wherever it is used; `LowerLaws` is what is known of it.
-/

namespace Ridm

/-- `char::is_whitespace`: the Unicode property `White_Space`. -/
def isWhitespace (c : Char) : Bool :=
  (9 ≤ c.toNat && c.toNat ≤ 13) || c.toNat == 0x20 || c.toNat == 0x85 || c.toNat == 0xA0 ||
    c.toNat == 0x1680 || (0x2000 ≤ c.toNat && c.toNat ≤ 0x200A) || c.toNat == 0x2028 ||
    c.toNat == 0x2029 || c.toNat == 0x202F || c.toNat == 0x205F || c.toNat == 0x3000

/-- `str::trim`. -/
def trim (s : String) : String :=
  String.ofList ((s.toList.dropWhile isWhitespace).reverse.dropWhile isWhitespace).reverse

/-- `str::trim_end_matches`, of one character. -/
def trimEndMatches (s : String) (c : Char) : String :=
  String.ofList (s.toList.reverse.dropWhile (· == c)).reverse

/-- `str::trim_start_matches`, of one character. -/
def trimStartMatches (s : String) (c : Char) : String :=
  String.ofList (s.toList.dropWhile (· == c))

/-- `str::to_ascii_lowercase`. -/
def toAsciiLowercase (s : String) : String := String.ofList (s.toList.map Char.toLower)

/-- `str::eq_ignore_ascii_case`. -/
def eqIgnoreAsciiCase (a b : String) : Bool := toAsciiLowercase a == toAsciiLowercase b

/-- `str::strip_prefix`. -/
def stripPrefix (s start : String) : Option String :=
  if start.toList.isPrefixOf s.toList then some (String.ofList (s.toList.drop start.toList.length))
  else none

/-- `str::split`, on one character: never empty. -/
def split (s : String) (c : Char) : List String := (s.toList.splitOn c).map String.ofList

/-- `str::split_once`, on one character. -/
def splitOnce (s : String) (c : Char) : Option (String × String) :=
  match s.toList.dropWhile (· != c) with
  | [] => none
  | _ :: rest => some (String.ofList (s.toList.takeWhile (· != c)), String.ofList rest)

/-- `str::rsplit_once`, on one character. -/
def rsplitOnce (s : String) (c : Char) : Option (String × String) :=
  match s.toList.reverse.dropWhile (· != c) with
  | [] => none
  | _ :: rest =>
      some (String.ofList rest.reverse, String.ofList (s.toList.reverse.takeWhile (· != c)).reverse)

/-- `str::trim_matches`, of one character. -/
def trimMatches (s : String) (c : Char) : String := trimEndMatches (trimStartMatches s c) c

/-- `char::is_ascii_digit`. -/
def isAsciiDigit (c : Char) : Bool := c.isDigit

/-- `char::is_ascii_alphanumeric`. -/
def isAsciiAlphanumeric (c : Char) : Bool := c.isAlphanum

lemma utf8ByteSize_ofList_of_ascii {l : List Char} (h : ∀ c ∈ l, c.toNat < 128) :
    (String.ofList l).utf8ByteSize = l.length := by
  induction l with
  | nil => rfl
  | cons c l ih =>
      have hc : c.utf8Size = 1 := by
        rw [Char.utf8Size_eq_one_iff, UInt32.le_iff_toNat_le]
        exact Nat.le_of_lt_succ (h c List.mem_cons_self)
      rw [String.ofList_cons, String.utf8ByteSize_append, String.utf8ByteSize_singleton, hc,
        ih fun d hd => h d (List.mem_cons_of_mem _ hd), List.length_cons, Nat.add_comm]

/-! ## Trimming -/

/-- The characters `trim` keeps. -/
def trimChars (l : List Char) : List Char :=
  ((l.dropWhile isWhitespace).reverse.dropWhile isWhitespace).reverse

lemma toList_trim (s : String) : (trim s).toList = trimChars s.toList := by
  rw [trim, String.toList_ofList, trimChars]

lemma trimChars_trimChars (l : List Char) : trimChars (trimChars l) = trimChars l := by
  -- what is kept is empty, or starts where the text without leading blanks starts
  have hkept : trimChars l <+: l.dropWhile isWhitespace := by
    have hsuffix := List.dropWhile_suffix isWhitespace (l := (l.dropWhile isWhitespace).reverse)
    rw [← List.reverse_prefix, List.reverse_reverse] at hsuffix
    exact hsuffix
  have hfront : (trimChars l).dropWhile isWhitespace = trimChars l := by
    rw [List.dropWhile_eq_self_iff]
    intro hpos
    have hself := List.dropWhile_idempotent (p := isWhitespace) l
    rw [List.dropWhile_eq_self_iff] at hself
    obtain ⟨rest, hrest⟩ := hkept
    have hlen : 0 < (l.dropWhile isWhitespace).length := by
      rw [← hrest, List.length_append]
      omega
    have hnot := hself hlen
    simp only [← hrest] at hnot
    rwa [List.getElem_append_left hpos] at hnot
  show ((((trimChars l).dropWhile isWhitespace).reverse).dropWhile isWhitespace).reverse = _
  rw [hfront]
  show ((trimChars l).reverse.dropWhile isWhitespace).reverse = _
  rw [trimChars, List.reverse_reverse, List.dropWhile_idempotent]

lemma trim_trim (s : String) : trim (trim s) = trim s := by
  rw [← String.toList_inj, toList_trim, toList_trim, trimChars_trimChars]

/-! ## Lower-casing -/

/-- What is known of `str::to_lowercase`: doing it twice is doing it once, it neither makes nor
removes white space, and of ASCII text it is `to_ascii_lowercase`. -/
structure LowerLaws (lower : String → String) : Prop where
  idem : ∀ s, lower (lower s) = lower s
  trim : ∀ s, lower (Ridm.trim s) = Ridm.trim (lower s)
  ascii : ∀ s, (∀ c ∈ s.toList, c.toNat < 128) → lower s = toAsciiLowercase s

namespace LowerLaws

variable {lower : String → String}

lemma trim_lower (h : LowerLaws lower) (s : String) :
    Ridm.trim (lower (Ridm.trim s)) = lower (Ridm.trim s) := by
  rw [h.trim, trim_trim]

end LowerLaws

lemma toList_toAsciiLowercase (s : String) :
    (toAsciiLowercase s).toList = s.toList.map Char.toLower := by
  rw [toAsciiLowercase, String.toList_ofList]

lemma toLower_cases {p : Char → Prop} (hsame : ∀ c : Char, c.toLower = c → p c)
    (hcapital : ∀ n < 26, p (Char.ofNat (65 + n))) (c : Char) : p c := by
  by_cases hupper : c.val ≥ 'A'.val ∧ c.val ≤ 'Z'.val
  · have hlow : 65 ≤ c.toNat := hupper.1
    have hhigh : c.toNat ≤ 90 := hupper.2
    have hc : Char.ofNat (65 + (c.toNat - 65)) = c := by
      rw [show 65 + (c.toNat - 65) = c.toNat from by omega, Char.ofNat_toNat]
    rw [← hc]
    exact hcapital _ (by omega)
  · exact hsame c (dif_neg hupper)

lemma toLower_toLower (c : Char) : c.toLower.toLower = c.toLower := by
  refine toLower_cases (p := fun c => c.toLower.toLower = c.toLower) ?_ (by decide) c
  intro c hc
  rw [hc, hc]

lemma isWhitespace_toLower (c : Char) : isWhitespace c.toLower = isWhitespace c := by
  refine toLower_cases (p := fun c => isWhitespace c.toLower = isWhitespace c) ?_ (by decide) c
  intro c hc
  rw [hc]

lemma lowerLaws_ascii : LowerLaws toAsciiLowercase := by
  refine ⟨?_, ?_, fun _ _ => rfl⟩
  · intro s
    rw [← String.toList_inj, toList_toAsciiLowercase, toList_toAsciiLowercase, List.map_map]
    exact List.map_congr_left fun c _ => toLower_toLower c
  · intro s
    have hws : isWhitespace ∘ Char.toLower = isWhitespace := funext isWhitespace_toLower
    rw [← String.toList_inj, toList_toAsciiLowercase, toList_trim, toList_trim,
      toList_toAsciiLowercase, trimChars, trimChars, List.dropWhile_map, hws, ← List.map_reverse,
      List.dropWhile_map, hws, List.map_reverse]

/-! ## Splitting -/

lemma notMem_of_mem_splitOn {c : Char} {l piece : List Char} (h : piece ∈ l.splitOn c) : c ∉ piece := by
  induction l generalizing piece with
  | nil =>
      rw [List.splitOn_nil, List.mem_singleton] at h
      rw [h]
      exact List.not_mem_nil
  | cons d l ih =>
      rw [List.splitOn_cons_eq_if_modifyHead] at h
      split_ifs at h with hd
      · rcases List.mem_cons.mp h with rfl | h
        · exact List.not_mem_nil
        · exact ih h
      · cases hsplit : l.splitOn c with
        | nil => exact absurd hsplit (List.splitOn_ne_nil c l)
        | cons first rest =>
            rw [hsplit] at h ih
            rcases List.mem_cons.mp h with rfl | h
            · rw [List.mem_cons, not_or]
              exact ⟨fun hc => hd (by simp [hc]), ih List.mem_cons_self⟩
            · exact ih (List.mem_cons_of_mem _ h)

lemma split_ne_nil (s : String) (c : Char) : split s c ≠ [] :=
  fun h => List.splitOn_ne_nil c s.toList (List.map_eq_nil_iff.mp h)

lemma split_intercalate {c : Char} {l : List String} (hne : l ≠ []) (hl : ∀ s ∈ l, c ∉ s.toList) :
    split (String.intercalate (String.singleton c) l) c = l := by
  rw [split, String.toList_intercalate, String.toList_singleton, List.splitOn_intercalate]
  · simp
  · intro piece hpiece
    obtain ⟨s, hs, rfl⟩ := List.mem_map.mp hpiece
    exact hl s hs
  · simpa using hne

lemma split_append (a b : String) (c : Char) :
    split (a ++ String.singleton c ++ b) c = split a c ++ split b c := by
  simp [split, List.splitOn_append_cons_self]

lemma splitOnce_append {before after : String} {c : Char} (h : c ∉ before.toList) :
    splitOnce (before ++ String.singleton c ++ after) c = some (before, after) := by
  have htext : (before ++ String.singleton c ++ after).toList = before.toList ++ c :: after.toList := by
    simp
  have hbefore : ∀ d ∈ before.toList, (d != c) = true := by
    intro d hd
    rw [bne_iff_ne]
    rintro rfl
    exact h hd
  rw [splitOnce, htext, List.dropWhile_append_of_pos hbefore, List.takeWhile_append_of_pos hbefore]
  simp

lemma splitOnce_of_notMem {s : String} {c : Char} (h : c ∉ s.toList) : splitOnce s c = none := by
  have hnone : s.toList.dropWhile (· != c) = [] := by
    rw [List.dropWhile_eq_nil_iff]
    intro d hd
    rw [bne_iff_ne]
    rintro rfl
    exact h hd
  rw [splitOnce, hnone]

lemma mem_of_mem_trimChars {l : List Char} {c : Char} (h : c ∈ trimChars l) : c ∈ l := by
  rw [trimChars, List.mem_reverse] at h
  have := List.mem_reverse.mp ((List.dropWhile_suffix _).mem h)
  exact (List.dropWhile_suffix _).mem this

/-! ## Numbers -/

lemma natRepr_toList (n : ℕ) : n.repr.toList = Nat.toDigits 10 n := by
  simp [Nat.repr]

lemma isDigit_natRepr {n : ℕ} {c : Char} (h : c ∈ n.repr.toList) : c.isDigit = true := by
  rw [natRepr_toList] at h
  exact Nat.isDigit_of_mem_toDigits (by decide) (by decide) h

lemma intText_toList (n : ℤ) : (toString n).toList =
    if 0 ≤ n then n.toNat.repr.toList else '-' :: (-n).toNat.repr.toList := by
  rw [Int.toString_eq_repr, Int.repr_eq_if]
  split_ifs with hn
  · rfl
  · simp

end Ridm
