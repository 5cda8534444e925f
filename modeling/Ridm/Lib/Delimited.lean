import Mathlib.Data.List.Basic

/-!
# Texts joined by a delimiter

Keys, paths and header values are words with one character between them.  `join` writes them and `words`
takes a text apart.  A text is its words joined (`join_words`), and joining texts that have words of their
own strings the words together (`words_join`), so a text without the delimiter is one word
(`words_of_plain`) and free text may stand at the end: it is joined from its words again.
-/

namespace Delimited

variable (d : Char)

def words (s : String) : List String := (s.toList.splitOn d).map String.ofList

/-- The words with the delimiter between them. -/
def join (l : List String) : String := String.ofList ([d].intercalate (l.map String.toList))

/-- The delimiter does not occur. -/
def plain (s : String) : Bool := s.toList.all (· != d)

variable {d}

lemma words_ne_nil (s : String) : words d s ≠ [] := by
  simp [words, List.splitOn_ne_nil]

lemma exists_words (s : String) : ∃ w l, words d s = w :: l :=
  List.exists_cons_of_ne_nil (words_ne_nil s)

@[simp] lemma join_words (s : String) : join d (words d s) = s := by
  simp [join, words, Function.comp_def]

lemma join_singleton (s : String) : join d [s] = s := by
  simp [join]

lemma join_cons (s : String) {l : List String} (hl : l ≠ []) :
    join d (s :: l) = s ++ String.ofList [d] ++ join d l := by
  obtain ⟨s', l, rfl⟩ := List.exists_cons_of_ne_nil hl
  apply String.toList_inj.mp
  simp [join]

lemma join_append_join (l : List String) {l' : List String} (hl' : l' ≠ []) :
    join d (l ++ [join d l']) = join d (l ++ l') := by
  induction l with
  | nil => simp [join_singleton]
  | cons s l ih =>
      rw [List.cons_append, List.cons_append, join_cons s (by simp), join_cons s (by simp [hl']), ih]

lemma words_inj {s s' : String} (h : words d s = words d s') : s = s' := by
  rw [← join_words (d := d) s, h, join_words]

lemma not_mem_of_plain {s : String} (h : plain d s = true) : d ∉ s.toList := by
  intro hd
  simpa using List.all_eq_true.mp h d hd

lemma words_of_plain {s : String} (h : plain d s = true) : words d s = [s] := by
  rw [words, List.splitOn_eq_singleton (not_mem_of_plain h)]
  simp

/-- **The words of a join** are the words of what was joined, in order. -/
theorem words_join {l : List String} (hl : l ≠ []) : words d (join d l) = l.flatMap (words d) := by
  induction l with
  | nil => exact absurd rfl hl
  | cons s l ih =>
      cases l with
      | nil => simp [join]
      | cons s' l =>
          have hrest := ih (List.cons_ne_nil s' l)
          rw [List.flatMap_cons, ← hrest]
          simp [join, words, List.splitOn_append_cons_self]

end Delimited
