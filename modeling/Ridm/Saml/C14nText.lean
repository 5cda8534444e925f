import Ridm.Lib.Forest
import Ridm.Lib.PrefixCode
import Ridm.Saml.C14n

/-!
# Reading a canonical form

The canonical form is a word of tokens: start tags, end tags, characters and processing instructions, with
nothing between them.  No token begins another (`reads_token`), since names stop at a blank or a bracket,
values at a quote that is escaped within them, and instructions at the first `?>`.
-/

namespace Ridm.Saml

open PrefixCode

/-! ## Characters -/

/-- A character of an attribute value, as `xml::escape_attr` writes it. -/
def escapeAttrChar : Char → String
  | '&' => "&amp;"
  | '<' => "&lt;"
  | '"' => "&quot;"
  | '\t' => "&#x9;"
  | '\n' => "&#xA;"
  | '\r' => "&#xD;"
  | c => c.toString

/-- A character or a reference to one, at the head of a text. -/
def readChar : List Char → Option (Char × List Char)
  | '&' :: 'a' :: 'm' :: 'p' :: ';' :: s => some ('&', s)
  | '&' :: 'l' :: 't' :: ';' :: s => some ('<', s)
  | '&' :: 'g' :: 't' :: ';' :: s => some ('>', s)
  | '&' :: 'q' :: 'u' :: 'o' :: 't' :: ';' :: s => some ('"', s)
  | '&' :: '#' :: 'x' :: '9' :: ';' :: s => some ('\t', s)
  | '&' :: '#' :: 'x' :: 'A' :: ';' :: s => some ('\n', s)
  | '&' :: '#' :: 'x' :: 'D' :: ';' :: s => some ('\r', s)
  | c :: s => some (c, s)
  | [] => none

lemma readChar_cons {c : Char} (hc : c ≠ '&') (s : List Char) : readChar (c :: s) = some (c, s) := by
  unfold readChar
  split <;> simp_all

lemma toString_toList (c : Char) : c.toString.toList = [c] := by
  simp [Char.toString]

lemma readChar_escapeTextChar (c : Char) (s : List Char) :
    readChar ((escapeTextChar c).toList ++ s) = some (c, s) := by
  unfold escapeTextChar
  split
  · rfl
  · rfl
  · rfl
  · rfl
  · rename_i hamp _ _ _
    rw [toString_toList]
    exact readChar_cons hamp s

lemma readChar_escapeAttrChar (c : Char) (s : List Char) :
    readChar ((escapeAttrChar c).toList ++ s) = some (c, s) := by
  unfold escapeAttrChar
  split
  · rfl
  · rfl
  · rfl
  · rfl
  · rfl
  · rfl
  · rename_i hamp _ _ _ _ _
    rw [toString_toList]
    exact readChar_cons hamp s

lemma escapeAttr_toList (s : String) :
    (escapeAttr s).toList = s.toList.flatMap fun c => (escapeAttrChar c).toList := by
  have hmap : escapeAttr s = String.join (s.toList.map escapeAttrChar) := rfl
  rw [hmap, String.toList_join]
  simp [List.flatMap_def, Function.comp_def]

lemma reads_textChar : Reads (fun _ => True) fun c => (escapeTextChar c).toList :=
  Reads.of_read readChar fun c _ s => readChar_escapeTextChar c s

lemma reads_attrChar : Reads (fun _ => True) fun c => (escapeAttrChar c).toList :=
  Reads.of_read readChar fun c _ s => readChar_escapeAttrChar c s

lemma escapeAttrChar_not_quote (c : Char) (s t : List Char) : (escapeAttrChar c).toList ++ s ≠ '"' :: t := by
  intro h
  have hread := readChar_escapeAttrChar c s
  rw [h, readChar_cons (by decide)] at hread
  obtain ⟨rfl, -⟩ := Prod.mk.inj (Option.some.inj hread)
  have hcode : '&' :: ("quot;".toList ++ s) = '"' :: t := h
  exact absurd (List.cons.inj hcode).1 (by decide)

lemma escapeTextChar_not_tag (c : Char) (s t : List Char) : (escapeTextChar c).toList ++ s ≠ '<' :: t := by
  intro h
  have hread := readChar_escapeTextChar c s
  rw [h, readChar_cons (by decide)] at hread
  obtain ⟨rfl, -⟩ := Prod.mk.inj (Option.some.inj hread)
  have hcode : '&' :: ("lt;".toList ++ s) = '<' :: t := h
  exact absurd (List.cons.inj hcode).1 (by decide)

/-! ## Names and attributes -/

def isQNameChar (c : Char) : Bool := isNameChar c || c == ':'

/-- A text of such characters. -/
def IsWritten (s : String) : Prop := ∀ c ∈ s.toList, isQNameChar c = true

lemma IsWritten.not_stop {s : String} (h : IsWritten s) {stop : Char → Bool}
    (hstop : ∀ c, stop c = true → isQNameChar c = false) : ∀ c ∈ s.toList, stop c = false := by
  intro c hc
  by_contra hs
  rw [Bool.not_eq_false] at hs
  have hname := h c hc
  rw [hstop c hs] at hname
  cases hname

lemma writePair_toList (a : String × String) (s : List Char) : (writePair a).toList ++ s =
    ' ' :: (a.1.toList ++ '=' :: '"' ::
      ((a.2.toList.flatMap fun c => (escapeAttrChar c).toList) ++ '"' :: s)) := by
  simp [writePair, escapeAttr_toList]

lemma reads_pair : Reads (fun a => IsWritten a.1) fun a => (writePair a).toList := by
  intro a b ha hb s t h
  rw [writePair_toList, writePair_toList] at h
  have hstop : ∀ c : Char, (c == '=') = true → isQNameChar c = false := by
    intro c hc
    rw [beq_iff_eq.mp hc]
    decide
  obtain ⟨hname, -, hvalue⟩ := append_stop (ha.not_stop hstop) (hb.not_stop hstop) rfl rfl
    (List.cons.inj h).2
  obtain ⟨hvalue, hrest⟩ := reads_attrChar.flatMap_stop (fun c _ => escapeAttrChar_not_quote c)
    (fun _ _ => trivial) (fun _ _ => trivial) (List.cons.inj hvalue).2
  exact ⟨Prod.ext (String.toList_inj.mp hname) (String.toList_inj.mp hvalue), hrest⟩

/-! ## Tokens -/

/-- What stands between tags. -/
inductive Atom
  | char (c : Char)
  | instruction (i : Instruction)
  deriving DecidableEq

/-- A start tag as it is printed: its name and what looks like an attribute. -/
structure CanonTag where
  name : String
  pairs : List (String × String)

/-- The tokens of canonical text. -/
abbrev CanonToken := Forest.Token CanonTag Atom String

/-- How a token is printed. -/
def writeToken : CanonToken → String
  | .opening t => "<" ++ t.name ++ String.join (t.pairs.map writePair) ++ ">"
  | .leaf (.char c) => escapeTextChar c
  | .leaf (.instruction i) => writeInstruction i
  | .closing name => "</" ++ name ++ ">"

/-- The names of a token hold nothing that stops them. -/
def WrittenToken : CanonToken → Prop
  | .opening t => IsWritten t.name ∧ ∀ a ∈ t.pairs, IsWritten a.1
  | .leaf _ => True
  | .closing name => IsWritten name

lemma opening_toList (t : CanonTag) (s : List Char) : (writeToken (.opening t)).toList ++ s =
    '<' :: (t.name.toList ++ ((t.pairs.flatMap fun a => (writePair a).toList) ++ '>' :: s)) := by
  simp [writeToken, String.toList_join, List.flatMap_def, Function.comp_def]

lemma closing_toList (name : String) (s : List Char) : (writeToken (.closing name)).toList ++ s =
    '<' :: '/' :: (name.toList ++ '>' :: s) := by
  simp [writeToken]

lemma instruction_toList (i : Instruction) (s : List Char) :
    (writeToken (.leaf (.instruction i))).toList ++ s = '<' :: '?' ::
      (i.target.text.toList ++ ((i.value.elim [] fun v => ' ' :: v.toList) ++ '?' :: '>' :: s)) := by
  obtain ⟨target, value, hclosed⟩ := i
  cases value <;> simp [writeToken, writeInstruction]

lemma stopsName (pairs : List (String × String)) (s : List Char) :
    ∃ c u, (c == ' ' || c == '>') = true ∧
      (pairs.flatMap fun a => (writePair a).toList) ++ '>' :: s = c :: u := by
  cases pairs with
  | nil => exact ⟨'>', s, rfl, rfl⟩
  | cons a pairs =>
      rw [List.flatMap_cons, List.append_assoc, writePair_toList]
      exact ⟨' ', _, rfl, rfl⟩

lemma read_opening {t t' : CanonTag} (ht : WrittenToken (.opening t)) (ht' : WrittenToken (.opening t'))
    {s s' : List Char}
    (h : (writeToken (.opening t)).toList ++ s = (writeToken (.opening t')).toList ++ s') :
    t = t' ∧ s = s' := by
  obtain ⟨name, pairs⟩ := t
  obtain ⟨name', pairs'⟩ := t'
  rw [opening_toList, opening_toList] at h
  have hstop : ∀ c : Char, (c == ' ' || c == '>') = true → isQNameChar c = false := by
    intro c hc
    rw [Bool.or_eq_true, beq_iff_eq, beq_iff_eq] at hc
    rcases hc with rfl | rfl <;> decide
  obtain ⟨c, u, hc, hu⟩ := stopsName pairs s
  obtain ⟨c', u', hc', hu'⟩ := stopsName pairs' s'
  have hrest := (List.cons.inj h).2
  rw [hu, hu'] at hrest
  obtain ⟨hname, hcc, huu⟩ := append_stop (ht.1.not_stop hstop) (ht'.1.not_stop hstop) hc hc' hrest
  rw [← hcc, ← huu, ← hu] at hu'
  obtain ⟨rfl, rfl⟩ := reads_pair.flatMap_stop
    (fun a _ s t heq => by
      rw [writePair_toList] at heq
      exact absurd (List.cons.inj heq).1 (by decide)) ht.2 ht'.2 hu'.symm
  obtain rfl : name = name' := String.toList_inj.mp hname
  exact ⟨rfl, rfl⟩

lemma read_closing {name name' : String} (h₁ : IsWritten name) (h₂ : IsWritten name') {s s' : List Char}
    (h : (writeToken (.closing name)).toList ++ s = (writeToken (.closing name')).toList ++ s') :
    name = name' ∧ s = s' := by
  rw [closing_toList, closing_toList] at h
  have hstop : ∀ c : Char, (c == '>') = true → isQNameChar c = false := by
    intro c hc
    rw [beq_iff_eq.mp hc]
    decide
  obtain ⟨hname, -, hrest⟩ := append_stop (h₁.not_stop hstop) (h₂.not_stop hstop) rfl rfl
    (List.cons.inj (List.cons.inj h).2).2
  exact ⟨String.toList_inj.mp hname, hrest⟩

lemma read_closed {v v' s s' : List Char} (hv : ¬ ['?', '>'] <:+: v) (hv' : ¬ ['?', '>'] <:+: v')
    (h : v ++ '?' :: '>' :: s = v' ++ '?' :: '>' :: s') : v = v' ∧ s = s' := by
  induction v generalizing v' with
  | nil =>
      cases v' with
      | nil => exact ⟨rfl, (List.cons.inj (List.cons.inj h).2).2⟩
      | cons c v' =>
          obtain ⟨rfl, hrest⟩ := List.cons.inj h
          cases v' with
          | nil => exact absurd (List.cons.inj hrest).1 (by decide)
          | cons c v' =>
              obtain ⟨rfl, -⟩ := List.cons.inj hrest
              exact absurd ⟨[], v', rfl⟩ hv'
  | cons c v ih =>
      cases v' with
      | nil =>
          obtain ⟨rfl, hrest⟩ := List.cons.inj h
          cases v with
          | nil => exact absurd (List.cons.inj hrest).1 (by decide)
          | cons c v =>
              obtain ⟨rfl, -⟩ := List.cons.inj hrest
              exact absurd ⟨[], v, rfl⟩ hv
      | cons c' v' =>
          obtain ⟨rfl, hrest⟩ := List.cons.inj h
          obtain ⟨rfl, hs⟩ := ih (fun hin => hv (hin.trans (List.suffix_cons c v).isInfix))
            (fun hin => hv' (hin.trans (List.suffix_cons c v').isInfix)) hrest
          exact ⟨rfl, hs⟩

lemma read_instruction {i i' : Instruction} {s s' : List Char}
    (h : (writeToken (.leaf (.instruction i))).toList ++ s =
      (writeToken (.leaf (.instruction i'))).toList ++ s') : i = i' ∧ s = s' := by
  obtain ⟨target, value, hclosed⟩ := i
  obtain ⟨target', value', hclosed'⟩ := i'
  rw [instruction_toList, instruction_toList] at h
  have hstop : ∀ c : Char, (c == ' ' || c == '?') = true → isNameChar c = false := by
    intro c hc
    rw [Bool.or_eq_true, beq_iff_eq, beq_iff_eq] at hc
    rcases hc with rfl | rfl <;> decide
  have hplain : ∀ n : NCName, ∀ c ∈ n.text.toList, (c == ' ' || c == '?') = false := by
    intro n c hc
    by_contra hs
    rw [Bool.not_eq_false] at hs
    exact n.not_mem (hstop c hs) hc
  have hrest := (List.cons.inj (List.cons.inj h).2).2
  have hsame : ∀ {n n' : NCName}, n.text.toList = n'.text.toList → n = n' := by
    rintro ⟨a, _⟩ ⟨b, _⟩ hab
    obtain rfl : a = b := String.toList_inj.mp hab
    rfl
  cases value with
  | none =>
      cases value' with
      | none =>
          obtain ⟨hname, -, htail⟩ := append_stop (hplain target) (hplain target') rfl rfl hrest
          obtain rfl := hsame hname
          exact ⟨rfl, (List.cons.inj htail).2⟩
      | some v' =>
          obtain ⟨-, hmark, -⟩ := append_stop (hplain target) (hplain target') rfl rfl hrest
          exact absurd hmark (by decide)
  | some v =>
      cases value' with
      | none =>
          obtain ⟨-, hmark, -⟩ := append_stop (hplain target) (hplain target') rfl rfl hrest
          exact absurd hmark (by decide)
      | some v' =>
          obtain ⟨hname, -, htail⟩ := append_stop (hplain target) (hplain target') rfl rfl hrest
          obtain rfl := hsame hname
          obtain ⟨hv, hs⟩ := read_closed (hclosed v rfl) (hclosed' v' rfl) htail
          obtain rfl : v = v' := String.toList_inj.mp hv
          exact ⟨rfl, hs⟩

lemma opening_mark {t : CanonTag} (ht : WrittenToken (.opening t)) {c : Char}
    (hc : c = '/' ∨ c = '?') (s u : List Char) : (writeToken (.opening t)).toList ++ s ≠ '<' :: c :: u := by
  intro h
  rw [opening_toList] at h
  have hrest := (List.cons.inj h).2
  cases hname : t.name.toList with
  | nil =>
      obtain ⟨d, v, hd, hv⟩ := stopsName t.pairs s
      rw [hname, List.nil_append, hv] at hrest
      obtain ⟨rfl, -⟩ := List.cons.inj hrest
      rcases hc with rfl | rfl <;> exact absurd hd (by decide)
  | cons d l =>
      rw [hname] at hrest
      obtain ⟨rfl, -⟩ := List.cons.inj hrest
      have hd := ht.1 d (by rw [hname]; exact List.mem_cons_self)
      rcases hc with rfl | rfl <;> exact absurd hd (by decide)

lemma char_not_tag (c : Char) (s u : List Char) : (writeToken (.leaf (.char c))).toList ++ s ≠ '<' :: u :=
  escapeTextChar_not_tag c s u

lemma writeToken_cases (x : CanonToken) (s : List Char) : (∃ c, x = .leaf (.char c)) ∨
    (∃ t u, x = .opening t ∧ (writeToken x).toList ++ s = '<' :: u) ∨
    (∃ i u, x = .leaf (.instruction i) ∧ (writeToken x).toList ++ s = '<' :: '?' :: u) ∨
    ∃ name u, x = .closing name ∧ (writeToken x).toList ++ s = '<' :: '/' :: u := by
  cases x with
  | opening t => exact .inr (.inl ⟨t, _, rfl, opening_toList t s⟩)
  | closing name => exact .inr (.inr (.inr ⟨name, _, rfl, closing_toList name s⟩))
  | leaf a =>
      cases a with
      | char c => exact .inl ⟨c, rfl⟩
      | instruction i => exact .inr (.inr (.inl ⟨i, _, rfl, instruction_toList i s⟩))

/-- **No token begins another.** -/
theorem reads_token : Reads WrittenToken fun x => (writeToken x).toList := by
  intro x y hx hy s t h
  rcases writeToken_cases x s with ⟨c, rfl⟩ | ⟨a, u, rfl, hu⟩ | ⟨i, u, rfl, hu⟩ | ⟨n, u, rfl, hu⟩
  · rcases writeToken_cases y t with ⟨c', rfl⟩ | ⟨a', u', rfl, hu'⟩ | ⟨i', u', rfl, hu'⟩ | ⟨n', u', rfl, hu'⟩
    · obtain ⟨rfl, hs⟩ := reads_textChar c c' trivial trivial s t h
      exact ⟨rfl, hs⟩
    all_goals exact absurd (h.trans hu') (char_not_tag c s _)
  · rcases writeToken_cases y t with ⟨c', rfl⟩ | ⟨a', u', rfl, hu'⟩ | ⟨i', u', rfl, hu'⟩ | ⟨n', u', rfl, hu'⟩
    · exact absurd (h.symm.trans hu) (char_not_tag c' t _)
    · obtain ⟨rfl, hs⟩ := read_opening hx hy h
      exact ⟨rfl, hs⟩
    · exact absurd (h.trans hu') (opening_mark hx (.inr rfl) s _)
    · exact absurd (h.trans hu') (opening_mark hx (.inl rfl) s _)
  · rcases writeToken_cases y t with ⟨c', rfl⟩ | ⟨a', u', rfl, hu'⟩ | ⟨i', u', rfl, hu'⟩ | ⟨n', u', rfl, hu'⟩
    · exact absurd (h.symm.trans hu) (char_not_tag c' t _)
    · exact absurd (h.symm.trans hu) (opening_mark hy (.inr rfl) t _)
    · obtain ⟨rfl, hs⟩ := read_instruction h
      exact ⟨rfl, hs⟩
    · rw [hu, hu'] at h
      exact absurd (List.cons.inj (List.cons.inj h).2).1 (by decide)
  · rcases writeToken_cases y t with ⟨c', rfl⟩ | ⟨a', u', rfl, hu'⟩ | ⟨i', u', rfl, hu'⟩ | ⟨n', u', rfl, hu'⟩
    · exact absurd (h.symm.trans hu) (char_not_tag c' t _)
    · exact absurd (h.symm.trans hu) (opening_mark hy (.inl rfl) t _)
    · rw [hu, hu'] at h
      exact absurd (List.cons.inj (List.cons.inj h).2).1 (by decide)
    · obtain ⟨rfl, hs⟩ := read_closing hx hy h
      exact ⟨rfl, hs⟩

/-- **No token is empty.** -/
lemma writeToken_ne_nil (x : CanonToken) : (writeToken x).toList ≠ [] := by
  intro h
  rcases writeToken_cases x [] with ⟨c, rfl⟩ | ⟨t, u, -, hu⟩ | ⟨i, u, -, hu⟩ | ⟨name, u, -, hu⟩
  · have hread := readChar_escapeTextChar c []
    have hnil : (escapeTextChar c).toList = [] := h
    rw [hnil] at hread
    cases hread
  all_goals
    rw [h] at hu
    cases hu

end Ridm.Saml
