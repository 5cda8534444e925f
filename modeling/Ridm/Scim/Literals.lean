import Ridm.Core.JsonText
import Ridm.Scim.Filter

/-!
# String literals of a filter

RFC 7644 takes the string literals of a filter from JSON.  RFC 8259 lets every character be written in
several ways: as it is, behind a backslash, by a letter behind a backslash, or by the hexadecimal digits of
its UTF-16 units.  `tokenize` has a table of its own, with `\n` and `\t`, and takes any other escaped
character for itself.

`json_literal_iff` says which literals it reads as the strings they are for, and which strings a client can
send that encodes like `serde_json`; `carriage_return_lost` is one it cannot.
-/

namespace Ridm.Scim

/-! ## How a string may be written -/

/-- The escapes of two characters. -/
def shortEscapes : List (Char × Char) :=
  [('"', '"'), ('\\', '\\'), ('/', '/'), ('b', '\x08'), ('f', '\x0c'), ('n', '\n'), ('r', '\r'), ('t', '\t')]

def hexValue (c : Char) : Option ℕ :=
  if c.isDigit then some (c.toNat - 48)
  else if 'a' ≤ c ∧ c ≤ 'f' then some (c.toNat - 87)
  else if 'A' ≤ c ∧ c ≤ 'F' then some (c.toNat - 55)
  else none

def codeUnit : List Char → Option ℕ
  | [a, b, c, d] => do
      return (((← hexValue a) * 16 + (← hexValue b)) * 16 + (← hexValue c)) * 16 + (← hexValue d)
  | _ => none

/-- The ways RFC 8259 has to write a character in a string. -/
inductive Spells : Char → List Char → Prop
  | plain {c} : 32 ≤ c.toNat → c ≠ '"' → c ≠ '\\' → Spells c [c]
  | short {c k} : (k, c) ∈ shortEscapes → Spells c ['\\', k]
  | unit {c ds} : codeUnit ds = some c.toNat → Spells c ('\\' :: 'u' :: ds)
  | pair {c ds ds'} : 0x10000 ≤ c.toNat → codeUnit ds = some (0xD800 + (c.toNat - 0x10000) / 0x400) →
        codeUnit ds' = some (0xDC00 + (c.toNat - 0x10000) % 0x400) →
          Spells c ('\\' :: 'u' :: ds ++ '\\' :: 'u' :: ds')

/-- A character of a string, as it is written in a literal. -/
structure Spelling where
  char : Char
  text : List Char
  spells : Spells char text

/-- The string of a literal. -/
def Spelling.value (l : List Spelling) : String := String.ofList (l.map (·.char))

def Spelling.literal (l : List Spelling) : String :=
  String.ofList ('"' :: (l.flatMap (·.text) ++ ['"']))

/-- The condition: a character is written as it is, or by an escape that `tokenize` knows, or that stands
for the character behind the backslash. -/
def understood : List Char → Bool
  | [_] => true
  | ['\\', k] => k ∉ ['b', 'f', 'r']
  | _ => false

/-! ## What the tokenizer reads -/

def readAs : List Char → List Char
  | '\\' :: k :: cs => unescape k :: readAs cs
  | c :: cs => c :: readAs cs
  | [] => []

variable {P : Platform} {c : Char} {text : List Char}

lemma scan_plain (P : Platform) (hquote : c ≠ '"') (hslash : c ≠ '\\') (buf rest : List Char) :
    scan P (.str buf) (c :: rest) = scan P (.str (buf ++ [c])) rest := by
  rw [scan, if_neg hquote, if_neg hslash]

lemma scan_escape (P : Platform) (k : Char) (buf rest : List Char) :
    scan P (.str buf) ('\\' :: k :: rest) = scan P (.str (buf ++ [unescape k])) rest := by
  rw [scan, if_neg (by decide), if_pos rfl, scan]

variable {ds : List Char} {n : ℕ}

lemma hexValue_plain {d : Char} (h : hexValue d = some n) : d ≠ '"' ∧ d ≠ '\\' := by
  constructor
  · rintro rfl
    cases h
  · rintro rfl
    cases h

lemma codeUnit_digits (h : codeUnit ds = some n) :
    ds.length = 4 ∧ ∀ d ∈ ds, d ≠ '"' ∧ d ≠ '\\' := by
  rw [codeUnit.eq_def] at h
  split at h
  · rename_i x y z w
    simp only [bind, pure, Option.bind_eq_some_iff] at h
    obtain ⟨a, ha, b, hb, e, he, f, hf, -⟩ := h
    refine ⟨rfl, fun d hd => ?_⟩
    simp only [List.mem_cons, List.not_mem_nil, or_false] at hd
    rcases hd with rfl | rfl | rfl | rfl
    · exact hexValue_plain ha
    · exact hexValue_plain hb
    · exact hexValue_plain he
    · exact hexValue_plain hf
  · cases h

lemma scan_plains (P : Platform) (rest : List Char) : ∀ (ds buf : List Char),
    (∀ d ∈ ds, d ≠ '"' ∧ d ≠ '\\') →
      scan P (.str buf) (ds ++ rest) = scan P (.str (buf ++ ds)) rest := by
  intro ds
  induction ds with
  | nil =>
      intro buf _
      rw [List.nil_append, List.append_nil]
  | cons d ds ih =>
      intro buf hds
      obtain ⟨hquote, hslash⟩ := hds d List.mem_cons_self
      rw [List.cons_append, scan_plain P hquote hslash, ih _ fun d' hd' => hds d' (List.mem_cons_of_mem _ hd'),
        List.append_assoc, List.singleton_append]

lemma readAs_plains (rest : List Char) : ∀ ds : List Char, (∀ d ∈ ds, d ≠ '"' ∧ d ≠ '\\') →
    readAs (ds ++ rest) = ds ++ readAs rest := by
  intro ds
  induction ds with
  | nil => exact fun _ => rfl
  | cons d ds ih =>
      intro hds
      have hrest := ih fun d' hd' => hds d' (List.mem_cons_of_mem _ hd')
      rw [List.cons_append, readAs, hrest, List.cons_append]
      exact fun k cs hd => absurd hd (hds d List.mem_cons_self).2

lemma scan_unit (P : Platform) (hds : ∀ d ∈ ds, d ≠ '"' ∧ d ≠ '\\') (buf rest : List Char) :
    scan P (.str buf) ('\\' :: 'u' :: ds ++ rest) = scan P (.str (buf ++ 'u' :: ds)) rest := by
  rw [List.cons_append, List.cons_append, scan_escape, scan_plains P rest ds _ hds, List.append_assoc,
    List.singleton_append]
  rfl

lemma readAs_unit (hds : ∀ d ∈ ds, d ≠ '"' ∧ d ≠ '\\') (rest : List Char) :
    readAs ('\\' :: 'u' :: ds ++ rest) = 'u' :: ds ++ readAs rest := by
  rw [List.cons_append, List.cons_append, readAs, readAs_plains rest ds hds]
  rfl

lemma readAs_last (hds : ∀ d ∈ ds, d ≠ '"' ∧ d ≠ '\\') :
    readAs ('\\' :: 'u' :: ds) = 'u' :: ds := by
  have hread := readAs_unit hds []
  rwa [List.append_nil, show readAs [] = [] from rfl, List.append_nil] at hread

lemma not_understood_unit (hlen : ds.length = 4) (rest : List Char) :
    understood ('\\' :: 'u' :: ds ++ rest) = false := by
  match ds with
  | [_, _, _, _] => rfl

/-- **How one character is read**, as one or more, and as itself where its text is understood. -/
lemma scan_spelling (P : Platform) (s : Spelling) :
    (∀ buf rest, scan P (.str buf) (s.text ++ rest) = scan P (.str (buf ++ readAs s.text)) rest) ∧
      1 ≤ (readAs s.text).length ∧ (readAs s.text = [s.char] ↔ understood s.text = true) := by
  obtain ⟨c, text, hspells⟩ := s
  dsimp only
  cases hspells with
  | plain _ hquote hslash =>
      have hread : readAs [c] = [c] := readAs_plains [] [c] (by
        intro d hd
        rw [List.mem_singleton.mp hd]
        exact ⟨hquote, hslash⟩)
      have hunderstood : understood [c] = true := by simp [understood]
      rw [hread]
      exact ⟨fun buf rest => scan_plain P hquote hslash buf rest, Nat.le_refl _, iff_of_true rfl hunderstood⟩
  | @short k hshort =>
      refine ⟨fun buf rest => scan_escape P k buf rest, Nat.le_refl _, ?_⟩
      simp only [shortEscapes, List.mem_cons, List.not_mem_nil, or_false, Prod.mk.injEq] at hshort
      rcases hshort with ⟨rfl, rfl⟩ | ⟨rfl, rfl⟩ | ⟨rfl, rfl⟩ | ⟨rfl, rfl⟩ | ⟨rfl, rfl⟩ | ⟨rfl, rfl⟩ |
        ⟨rfl, rfl⟩ | ⟨rfl, rfl⟩ <;> decide
  | @unit ds hunit =>
      obtain ⟨hlen, hplain⟩ := codeUnit_digits hunit
      have hnot := not_understood_unit hlen []
      rw [List.append_nil] at hnot
      rw [readAs_last hplain, hnot]
      refine ⟨fun buf rest => scan_unit P hplain buf rest, Nat.le_add_left _ _, ?_⟩
      refine iff_of_false (fun heq => ?_) Bool.false_ne_true
      have hlens := congrArg List.length heq
      simp only [List.length_cons, List.length_nil, hlen] at hlens
      omega
  | @pair ds ds' _ hunit hunit' =>
      obtain ⟨hlen, hplain⟩ := codeUnit_digits hunit
      obtain ⟨_, hplain'⟩ := codeUnit_digits hunit'
      rw [readAs_unit hplain, readAs_last hplain', not_understood_unit hlen]
      refine ⟨fun buf rest => ?_, Nat.le_add_left _ _, ?_⟩
      · rw [List.append_assoc, scan_unit P hplain, scan_unit P hplain', List.append_assoc]
      · refine iff_of_false (fun heq => ?_) Bool.false_ne_true
        have hlens := congrArg List.length heq
        simp only [List.length_append, List.length_cons, List.length_nil, hlen] at hlens
        omega

lemma scan_spellings (P : Platform) : ∀ (l : List Spelling) (buf rest : List Char),
    scan P (.str buf) (l.flatMap (·.text) ++ rest) =
      scan P (.str (buf ++ l.flatMap (readAs ·.text))) rest := by
  intro l
  induction l with
  | nil =>
      intro buf rest
      rw [List.flatMap_nil, List.nil_append, List.flatMap_nil, List.append_nil]
  | cons s l ih =>
      intro buf rest
      rw [List.flatMap_cons, List.append_assoc, (scan_spelling P s).1, ih, List.flatMap_cons,
        List.append_assoc]

/-- **The token of a literal.** -/
lemma tokenize_literal (P : Platform) (l : List Spelling) :
    tokenize P (Spelling.literal l) = .ok [.str (String.ofList (l.flatMap (readAs ·.text)))] := by
  have hstart : tokenize P (Spelling.literal l) = scan P (.str []) (l.flatMap (·.text) ++ ['"']) := by
    rw [tokenize, Spelling.literal, String.toList_ofList]
    rfl
  rw [hstart, scan_spellings]
  rfl

lemma pieces_eq_iff (P : Platform) : ∀ l : List Spelling,
    l.length ≤ (l.flatMap (readAs ·.text)).length ∧
      (l.flatMap (readAs ·.text) = l.map (·.char) ↔ ∀ s ∈ l, understood s.text = true) := by
  intro l
  induction l with
  | nil => exact ⟨Nat.le_refl _, iff_of_true rfl fun s hs => absurd hs List.not_mem_nil⟩
  | cons s l ih =>
      obtain ⟨hle, hiff⟩ := ih
      obtain ⟨-, hone, hread⟩ := scan_spelling P s
      rw [List.flatMap_cons, List.map_cons, List.forall_mem_cons, ← hread, ← hiff, List.length_append,
        List.length_cons]
      refine ⟨by omega, fun heq => ?_, ?_⟩
      · have hlens := congrArg List.length heq
        simp only [List.length_append, List.length_cons, List.length_map] at hlens
        have hpiece : (readAs s.text).length = [s.char].length := by
          simp only [List.length_cons, List.length_nil]
          omega
        exact List.append_inj heq hpiece
      · rintro ⟨hs, hl⟩
        rw [hs, hl]
        rfl

/-! ## The literals of a client -/

/-- The characters that `serde_json` writes in a way the tokenizer reads: all but the controls that are no
line feed and no tab. -/
def survives (c : Char) : Bool := 32 ≤ c.toNat || c == '\n' || c == '\t'

lemma control_spelling (n : ℕ) (hn : n < 32) :
    Spells (Char.ofNat n) (escapeChar (Char.ofNat n)) ∧
      understood (escapeChar (Char.ofNat n)) = survives (Char.ofNat n) := by
  interval_cases n <;> exact ⟨by first | exact .short (by decide) | exact .unit rfl, rfl⟩

lemma escapeChar_spelling (c : Char) :
    Spells c (escapeChar c) ∧ understood (escapeChar c) = survives c := by
  by_cases hquote : c = '"'
  · subst hquote
    exact ⟨.short (by decide), rfl⟩
  by_cases hslash : c = '\\'
  · subst hslash
    exact ⟨.short (by decide), rfl⟩
  by_cases hcontrol : c.toNat < 32
  · have hspelling := control_spelling c.toNat hcontrol
    rwa [Char.ofNat_toNat] at hspelling
  · rw [escapeChar_of_ge hquote hslash (Nat.le_of_not_lt hcontrol)]
    refine ⟨.plain (Nat.le_of_not_lt hcontrol) hquote hslash, ?_⟩
    simp [understood, survives, Nat.le_of_not_lt hcontrol]

/-- A character, as `serde_json` writes it. -/
def encoding (c : Char) : Spelling := ⟨c, escapeChar c, (escapeChar_spelling c).1⟩

lemma stringBody_eq_literal (v : List Char) :
    String.ofList ('"' :: stringBody v) = Spelling.literal (v.map encoding) := by
  have hbody : stringBody v = (v.map encoding).flatMap (·.text) ++ ['"'] := by
    induction v with
    | nil => rfl
    | cons c v ih =>
        rw [stringBody, ih, List.map_cons, List.flatMap_cons, List.append_assoc]
        rfl
  rw [Spelling.literal, hbody]

lemma value_encoding (v : String) : Spelling.value (v.toList.map encoding) = v := by
  have hchars : (v.toList.map encoding).map (·.char) = v.toList := by
    rw [List.map_map]
    exact List.map_id _
  rw [Spelling.value, hchars, String.ofList_toList]

/-- **The literals that are JSON strings.**  Of all the ways to write a string in JSON, the tokenizer reads
those as the string that write every character as it is, or behind a backslash by itself, by `n` or by `t`.
What `serde_json` writes for a string is read back exactly if it has no control characters but line feeds
and tabs. -/
theorem json_literal_iff (P : Platform) :
    (∀ l : List Spelling, tokenize P (Spelling.literal l) = .ok [.str (Spelling.value l)] ↔
      ∀ s ∈ l, understood s.text = true) ∧
    ∀ v : String, tokenize P (String.ofList ('"' :: stringBody v.toList)) = .ok [.str v] ↔
      ∀ c ∈ v.toList, survives c = true := by
  have hliteral : ∀ l : List Spelling, tokenize P (Spelling.literal l) = .ok [.str (Spelling.value l)] ↔
      ∀ s ∈ l, understood s.text = true := by
    intro l
    rw [tokenize_literal, ← (pieces_eq_iff P l).2]
    constructor
    · intro heq
      simp only [Except.ok.injEq, List.cons.injEq, Tok.str.injEq, and_true] at heq
      exact String.ofList_injective heq
    · intro heq
      rw [heq]
      rfl
  refine ⟨hliteral, fun v => ?_⟩
  have hv := hliteral (v.toList.map encoding)
  rw [value_encoding, ← stringBody_eq_literal] at hv
  rw [hv, List.forall_mem_map]
  refine forall₂_congr fun c _ => ?_
  rw [← (escapeChar_spelling c).2]
  rfl

/-- A carriage return, which `serde_json` writes as `\r`, is read as the letter. -/
theorem carriage_return_lost :
    String.ofList ('"' :: stringBody "\r".toList) = "\"\\r\"" ∧
      (∀ P, tokenize P "\"\\r\"" = .ok [.str "r"]) ∧ ¬ ∃ P, tokenize P "\"\\r\"" = .ok [.str "\r"] := by
  refine ⟨rfl, fun P => rfl, ?_⟩
  rintro ⟨P, hread⟩
  have hlost : tokenize P "\"\\r\"" = .ok [.str "r"] := rfl
  rw [hlost] at hread
  simp only [Except.ok.injEq, List.cons.injEq, Tok.str.injEq, and_true] at hread
  exact absurd hread (by decide)

end Ridm.Scim
