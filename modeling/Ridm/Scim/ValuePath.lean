import Ridm.Scim.Printing

/-!
# Value paths

In a filter `a[g].s op v` the bracket picks elements of the attribute, and what comes behind it is asked of
those.  `Parser::term` flattens it into a conjunction over dotted paths, and `select` fans each path out over
all elements.

* `flat_iff` — what one test says behind the path: some element passes it, or, for `ne`, every element.
* `value_path_iff` — at which documents the conjunction is the value path, for every `g`: where an element
  that satisfies the comparison passes every test that any element passes.
* `two_emails_combined` — a document that satisfies the filter with two elements, and with none of them.
-/

namespace Ridm.Scim

/-! ## Elements -/

/-- The filter that `a[g].s op v` is parsed to. -/
def valuePath (a : String) (g : Filter) (s : String) (op : CmpOp) (v : Value) : Filter :=
  .and (prefixFilter a g) (.cmp (a ++ "." ++ s) op v)

/-- The values along a path, arrays as they are. -/
def along (current : List Value) (parts : List String) : List Value :=
  parts.foldl (fun current part => current.flatMap (selectStep part)) current

/-- An element of an attribute.  An array within the array has no sub-attributes. -/
def asElement : Value → Value
  | .array _ => .null
  | v => v

/-- The elements of a value, which is one itself if it is no array. -/
def elementsOf : Value → List Value
  | .array items => items.map asElement
  | v => [v]

def elements (doc : Value) (a : String) : List Value :=
  (along [doc] (split a '.')).flatMap elementsOf

/-- An element has a sub-attribute that compares true. -/
def compares (P : Platform) (s : String) (op : CmpOp) (v : Value) (e : Value) : Bool :=
  (select e s).any (compare P op · v)

def Filter.isTest : Filter → Bool
  | .cmp _ _ _ => true
  | .present _ => true
  | _ => false

/-- The test is passed with a value that passes it, as all but `ne` are. -/
def Filter.isPositive : Filter → Bool
  | .cmp _ .ne _ => false
  | _ => true

def Filter.tests : Filter → List Filter
  | .and a b => a.tests ++ b.tests
  | .or a b => a.tests ++ b.tests
  | .not a => a.tests
  | t => [t]

/-- The condition on two elements and a test: a value of `e` that decides it is outdone by one of `k`. -/
def Covers (P : Platform) (k e : Value) (t : Filter) : Prop :=
  if t.isPositive then t.matches P e = true → t.matches P k = true
  else t.matches P k = true → t.matches P e = true

/-- The condition on the comparison, for `ne` only: an element has a value that differs exactly if no element
has one that does not. -/
def Told (P : Platform) (doc : Value) (a s : String) (op : CmpOp) (v : Value) : Prop :=
  op = .ne → ((∃ e ∈ elements doc a, compares P s op v e = true) ↔
    ∀ e ∈ elements doc a, ∀ x ∈ select e s, compare P .ne x v = true)

variable {P : Platform}

/-! ## Paths through an attribute -/

variable {t : Filter} {doc k : Value} {α : Type}

lemma along_flatMap (l : List α) (f : α → List Value) (parts : List String) :
    along (l.flatMap f) parts = l.flatMap fun x => along (f x) parts := by
  induction parts generalizing f with
  | nil => rfl
  | cons part parts ih =>
      show along ((l.flatMap f).flatMap (selectStep part)) parts = _
      rw [List.flatMap_assoc]
      exact ih fun x => (f x).flatMap (selectStep part)

lemma selectStep_asElement (part : String) (x : Value) :
    selectStep part (asElement x) = (getCi x part).toList := by
  cases x <;> rfl

lemma selectStep_elements (part : String) (v : Value) :
    selectStep part v = (elementsOf v).flatMap (selectStep part) := by
  cases v with
  | array items =>
      rw [elementsOf, List.flatMap_map]
      simp only [selectStep_asElement]
      exact List.filterMap_eq_flatMap_toList _ _
  | _ => exact (List.append_nil _).symm

/-- **A path through an attribute is the path from each of its elements.** -/
lemma select_through (doc : Value) (a s : String) :
    select doc (a ++ "." ++ s) = (elements doc a).flatMap (select · s) := by
  have hsplit : split (a ++ "." ++ s) '.' = split a '.' ++ split s '.' := split_append a s '.'
  obtain ⟨part, parts, hparts⟩ := List.exists_cons_of_ne_nil (split_ne_nil s '.')
  have hwalk : along [doc] (split a '.' ++ split s '.') =
      (elements doc a).flatMap fun e => along [e] (split s '.') := by
    rw [along, List.foldl_append, hparts]
    show along ((along [doc] (split a '.')).flatMap (selectStep part)) parts = _
    have hstep : (along [doc] (split a '.')).flatMap (selectStep part) =
        (elements doc a).flatMap (selectStep part) := by
      rw [elements, List.flatMap_assoc]
      exact List.flatMap_congr fun v _ => selectStep_elements part v
    rw [hstep, along_flatMap]
    refine List.flatMap_congr fun e _ => ?_
    show _ = along ([e].flatMap (selectStep part)) parts
    rw [List.flatMap_cons, List.flatMap_nil, List.append_nil]
  show (along [doc] (split (a ++ "." ++ s) '.')).flatMap selectLeaves = _
  rw [hsplit, hwalk, List.flatMap_assoc]
  rfl

/-! ## What a test says -/

lemma isEmpty_or_all (l : List α) (p : α → Bool) : (l.isEmpty || l.all p) = l.all p := by
  cases l <;> rfl

lemma cmp_matches {op : CmpOp} (hop : op ≠ .ne) (p : String) (v e : Value) :
    (Filter.cmp p op v).matches P e = (select e p).any (compare P op · v) := by
  rw [Filter.matches]
  exact if_neg hop

lemma ne_matches (p : String) (v e : Value) :
    (Filter.cmp p .ne v).matches P e = (select e p).all (compare P .ne · v) := by
  rw [Filter.matches]
  exact (if_pos rfl).trans (isEmpty_or_all _ _)

/-- **A test behind the path** is passed where some element passes it, and `ne` where every element does. -/
lemma flat_test (doc : Value) (a : String) (ht : t.isTest = true) :
    (prefixFilter a t).matches P doc =
      if t.isPositive then (elements doc a).any (t.matches P ·) else (elements doc a).all (t.matches P ·) := by
  cases t with
  | cmp p op v =>
      rw [prefixFilter]
      by_cases hop : op = .ne
      · subst hop
        rw [ne_matches, select_through, List.all_flatMap]
        simp only [ne_matches]
        rfl
      · have hpositive : (Filter.cmp p op v).isPositive = true := by
          cases op <;> first | rfl | exact absurd rfl hop
        rw [cmp_matches hop, select_through, List.any_flatMap, hpositive]
        simp only [cmp_matches hop]
        rfl
  | present p =>
      rw [prefixFilter, Filter.matches, select_through, List.any_flatMap]
      rfl
  | and _ _ => cases ht
  | or _ _ => cases ht
  | not _ => cases ht

lemma flat_filter {a : String} : ∀ g : Filter,
    (∀ t ∈ g.tests, (prefixFilter a t).matches P doc = t.matches P k) →
      (prefixFilter a g).matches P doc = g.matches P k := by
  intro g
  induction g with
  | cmp p op v => exact fun h => h _ List.mem_cons_self
  | present p => exact fun h => h _ List.mem_cons_self
  | and f g ihf ihg =>
      intro h
      rw [prefixFilter, Filter.matches, Filter.matches,
        ihf fun t ht => h t (List.mem_append_left _ ht), ihg fun t ht => h t (List.mem_append_right _ ht)]
  | or f g ihf ihg =>
      intro h
      rw [prefixFilter, Filter.matches, Filter.matches,
        ihf fun t ht => h t (List.mem_append_left _ ht), ihg fun t ht => h t (List.mem_append_right _ ht)]
  | not f ih =>
      intro h
      rw [prefixFilter, Filter.matches, Filter.matches, ih h]

lemma isTest_of_mem : ∀ g : Filter, t ∈ g.tests → t.isTest = true := by
  intro g
  induction g with
  | cmp p op v =>
      intro ht
      rw [List.mem_singleton.mp ht]
      rfl
  | present p =>
      intro ht
      rw [List.mem_singleton.mp ht]
      rfl
  | and f g ihf ihg => exact fun ht => (List.mem_append.mp ht).elim ihf ihg
  | or f g ihf ihg => exact fun ht => (List.mem_append.mp ht).elim ihf ihg
  | not f ih => exact ih

lemma flat_iff {a : String} (hk : k ∈ elements doc a) (ht : t.isTest = true) :
    (prefixFilter a t).matches P doc = t.matches P k ↔ ∀ e ∈ elements doc a, Covers P k e t := by
  rw [flat_test doc a ht]
  unfold Covers
  cases t.isPositive with
  | true =>
      simp only [if_true]
      rw [Bool.eq_iff_iff, List.any_eq_true]
      exact ⟨fun h e he hpass => h.mp ⟨e, he, hpass⟩, fun h => ⟨fun ⟨e, he, hpass⟩ => h e he hpass,
        fun hpass => ⟨k, hk, hpass⟩⟩⟩
  | false =>
      simp only [Bool.false_eq_true, if_false]
      rw [Bool.eq_iff_iff, List.all_eq_true]
      exact ⟨fun h e he hpass => h.mpr hpass e he, fun h => ⟨fun hall => hall k hk,
        fun hpass e he => h e he hpass⟩⟩

lemma told_iff (doc : Value) (a s : String) (op : CmpOp) (v : Value) :
    ((Filter.cmp (a ++ "." ++ s) op v).matches P doc = true ↔
        ∃ e ∈ elements doc a, compares P s op v e = true) ↔ Told P doc a s op v := by
  unfold Told compares
  by_cases hop : op = .ne
  · subst hop
    rw [ne_matches, select_through]
    simp only [List.all_flatMap, List.all_eq_true, List.any_eq_true, true_imp_iff]
    exact Iff.comm
  · rw [cmp_matches hop, select_through, List.any_flatMap, List.any_eq_true]
    exact iff_of_true Iff.rfl fun h => absurd h hop

/-- A filter that every document satisfies. -/
def always : Filter := .or (.present "value") (.not (.present "value"))

lemma always_matches (doc : Value) : always.matches P doc = true := by
  rw [always, Filter.matches, Filter.matches.eq_5, Bool.or_not_self]

lemma flat_always (doc : Value) (a : String) : (prefixFilter a always).matches P doc = true := by
  rw [always, prefixFilter, prefixFilter.eq_5, Filter.matches, Filter.matches.eq_5, Bool.or_not_self]

/-- A value path whose elements that satisfy the comparison cover all elements on its tests binds one
element. -/
theorem value_path_of_covers {doc v : Value} {a s : String} {op : CmpOp} {g : Filter}
    (htold : Told P doc a s op v)
    (hcovers : ∀ k ∈ elements doc a, compares P s op v k = true →
      ∀ e ∈ elements doc a, ∀ t ∈ g.tests, Covers P k e t) :
    (valuePath a g s op v).matches P doc = true ↔
      ∃ e ∈ elements doc a, g.matches P e = true ∧ compares P s op v e = true := by
  have hinner : ∀ k ∈ elements doc a, compares P s op v k = true →
      (prefixFilter a g).matches P doc = g.matches P k := by
    intro k hk hcmp
    exact flat_filter g fun t ht =>
      (flat_iff hk (isTest_of_mem g ht)).mpr fun e he => hcovers k hk hcmp e he t ht
  rw [valuePath, Filter.matches, Bool.and_eq_true, (told_iff doc a s op v).mpr htold]
  constructor
  · rintro ⟨hg, k, hk, hcmp⟩
    rw [hinner k hk hcmp] at hg
    exact ⟨k, hk, hg, hcmp⟩
  · rintro ⟨k, hk, hg, hcmp⟩
    rw [hinner k hk hcmp]
    exact ⟨hg, k, hk, hcmp⟩

/-- **When a value path binds one element.**  A comparison behind a bracket means for every filter in the
bracket that some single element satisfies both, exactly if each element that satisfies the comparison
passes all the tests that any element passes, and only `ne` tests that every element passes; and, for a
comparison by `ne`, an element has a differing value exactly if no element has another. -/
theorem value_path_iff (P : Platform) (doc : Value) (a s : String) (op : CmpOp) (v : Value) :
    (∀ g : Filter, (valuePath a g s op v).matches P doc = true ↔
      ∃ e ∈ elements doc a, g.matches P e = true ∧ compares P s op v e = true) ↔
    Told P doc a s op v ∧
      ∀ k ∈ elements doc a, compares P s op v k = true →
        ∀ e ∈ elements doc a, ∀ t : Filter, t.isTest = true → Covers P k e t := by
  constructor
  · intro h
    have htold : Told P doc a s op v := by
      refine (told_iff doc a s op v).mp ?_
      have halways := h always
      rw [valuePath, Filter.matches, flat_always, Bool.true_and] at halways
      simpa only [always_matches, true_and] using halways
    refine ⟨htold, fun k hk hcmp => ?_⟩
    have hcmp' := ((told_iff doc a s op v).mpr htold).mpr ⟨k, hk, hcmp⟩
    -- behind the path a filter holds where one of these elements satisfies it, and so does its negation
    have hinner : ∀ g : Filter, g.matches P k = true → (prefixFilter a g).matches P doc = true := by
      intro g hg
      have hpath := (h g).mpr ⟨k, hk, hg, hcmp⟩
      rw [valuePath, Filter.matches, Bool.and_eq_true] at hpath
      exact hpath.1
    have hsame : ∀ g : Filter, (prefixFilter a g).matches P doc = g.matches P k := by
      intro g
      cases hg : g.matches P k with
      | true => exact hinner g hg
      | false =>
          have hnot := hinner (.not g) (by rw [Filter.matches, hg]; rfl)
          rw [prefixFilter, Filter.matches, Bool.not_eq_true'] at hnot
          exact hnot
    exact fun e he t ht => (flat_iff hk ht).mp (hsame t) e he
  · rintro ⟨htold, hcovers⟩ g
    exact value_path_of_covers htold fun k hk hcmp e he t ht =>
      hcovers k hk hcmp e he t (isTest_of_mem g ht)

/-! ## What the parser makes of the text -/

def valuePathText (a : String) (g : Filter) (s : String) (op : CmpOp) (v : Value) : List Char :=
  a.toList ++ '[' :: (g.print ++ ']' :: (("." ++ s).toList ++ ' ' :: (op.name.toList ++ ' ' :: printValue v)))

def valuePathTokens (a : String) (g : Filter) (s : String) (op : CmpOp) (v : Value) : List Tok :=
  .word a :: .lbracket :: (g.tokens ++ [.rbracket, .word ("." ++ s), .word op.name, valueTok v])

variable {a s : String} {g : Filter} {op : CmpOp} {v : Value}

lemma delimited_lbracket (rest : List Char) : Delimited ('[' :: rest) := by
  intro c hc
  cases hc
  exact Or.inr rfl

lemma delimited_rbracket (rest : List Char) : Delimited (']' :: rest) := by
  intro c hc
  cases hc
  exact Or.inr rfl

lemma lexes_subAttribute (P : Platform) (hs : s.toList.all wordChar = true) :
    Lexes P ("." ++ s).toList [.word ("." ++ s)] := by
  have hchars : ("." ++ s).toList = '.' :: s.toList := String.toList_append
  have hnumber : numberLike P ("." ++ s) = false := by
    rw [numberLike, hchars]
    exact Bool.and_false _
  have hword := lexes_word P (w := ("." ++ s).toList) (by rw [hchars]; exact List.cons_ne_nil _ _)
    (by rw [hchars]; exact Bool.and_eq_true_iff.mpr ⟨rfl, hs⟩)
  rwa [wordTok_word hnumber] at hword

lemma tokenize_valuePath (ha : attributeName P a = true) (hg : g.printable P = true)
    (hs : s.toList.all wordChar = true) (hv : plainValue v = true) :
    tokenize P (String.ofList (valuePathText a g s op v)) = .ok (valuePathTokens a g s op v) := by
  have hend := ((lexes_subAttribute P hs).blank ((lexes_keyword P _ op.name_mem).blank (lexes_value P hv))) []
    (fun c hc => by cases hc)
  rw [List.append_nil] at hend
  rw [tokenize, String.toList_ofList, valuePathText, lexes_attribute ha _ (delimited_lbracket _)]
  have hopen : ∀ rest, scan P .between ('[' :: rest) = (scan P .between rest).map ([.lbracket] ++ ·) :=
    fun _ => rfl
  have hclose : ∀ rest, scan P .between (']' :: rest) = (scan P .between rest).map ([.rbracket] ++ ·) :=
    fun _ => rfl
  rw [hopen, lexes_print P g hg _ (delimited_rbracket _), hclose, hend]
  exact congrArg Except.ok (by simp [valuePathTokens])

lemma term_valuePath (ha : attributeName P a = true) (hg : g.printable P = true) (hv : plainValue v = true)
    {n : ℕ} (hn : 2 * g.tokens.length ≤ n) :
    term P (n + 1) (valuePathTokens a g s op v) = .ok (valuePath a g s op v, []) := by
  have hnot : ∀ rest, peekWord (.word a :: rest) "not" = false := by
    intro rest
    simp only [attributeName, Bool.and_eq_true, Bool.not_eq_true'] at ha
    exact ha.1.1.2
  have hinner := expr_tokens P g n [.rbracket, .word ("." ++ s), .word op.name, valueTok v] hg ⟨rfl, rfl⟩ hn
  have hsub : stripPrefix ("." ++ s) "." = some s := by
    simp [stripPrefix]
  rw [term.eq_def, valuePathTokens]
  dsimp only
  rw [hnot, stripSchema_attribute ha]
  simp only [Bool.false_eq_true, if_false, bind, Except.bind, hinner, rbracket, subAttribute, hsub,
    comparison_print _ op hv]
  rfl

/-- **The text of a value path is parsed to it.** -/
theorem parseFilter_valuePath (P : Platform) (ha : attributeName P a = true) (hg : g.printable P = true)
    (hs : s.toList.all wordChar = true) (hv : plainValue v = true)
    (hsize : (String.ofList (valuePathText a g s op v)).utf8ByteSize ≤ 2048) :
    parseFilter P (String.ofList (valuePathText a g s op v)) = .ok (valuePath a g s op v) := by
  have hterm : term P (2 * (valuePathTokens a g s op v).length + 1) (valuePathTokens a g s op v) =
      .ok (valuePath a g s op v, []) := by
    refine term_valuePath ha hg hv ?_
    simp only [valuePathTokens, List.length_cons, List.length_append]
    omega
  have hne : (valuePathTokens a g s op v).isEmpty = false := rfl
  rw [parseFilter, if_neg (Nat.not_lt.mpr hsize), tokenize_valuePath ha hg hs hv]
  simp only [bind, Except.bind, hne, expr_of_term ⟨rfl, rfl⟩ hterm]
  rfl

def twoEmails : Value :=
  .object [("emails", .array [.object [("type", .string "work"), ("value", .string "a@example.com")],
    .object [("type", .string "home"), ("value", .string "b@example.com")]])]

/-- **Two elements are combined.**  A user with a work address and another one is found by a filter for the
other one as the work address. -/
theorem two_emails_combined :
    parseFilter samplePlatform "emails[type eq \"work\"].value eq \"b@example.com\"" =
        .ok (valuePath "emails" (.cmp "type" .eq (.string "work")) "value" .eq (.string "b@example.com")) ∧
      (valuePath "emails" (.cmp "type" .eq (.string "work")) "value" .eq (.string "b@example.com")).matches
        samplePlatform twoEmails = true ∧
      ¬ ∃ e ∈ elements twoEmails "emails",
        (Filter.cmp "type" .eq (.string "work")).matches samplePlatform e = true ∧
          compares samplePlatform "value" .eq (.string "b@example.com") e = true := by
  have htext : "emails[type eq \"work\"].value eq \"b@example.com\"" =
      String.ofList (valuePathText "emails" (.cmp "type" .eq (.string "work")) "value" .eq
        (.string "b@example.com")) := by decide +kernel
  refine ⟨?_, by decide +kernel, by decide +kernel⟩
  rw [htext]
  refine parseFilter_valuePath samplePlatform (by decide) (by decide) (by decide) (by decide) ?_
  rw [← htext]
  decide

end Ridm.Scim
