import Ridm.Lib.Connectives
import Ridm.Scim.Filter

/-!
# The precedence of `and` and `or`

RFC 7644 gives `and` precedence over `or`: an unparenthesised filter is a disjunction of
conjunctions.  `Parser::expr` takes both operators in one loop, from left to right, each with
everything before it as its left side.

`precedence_iff` says exactly for which chains of attribute expressions, and at which documents, a
filter means what the RFC says, and `and_binds_too_late` gives one for which it does not.
-/

namespace Ridm.Scim

open Connective

/-! ## Chains of attribute expressions -/

/-- An attribute expression as it is written: an attribute, an operator and, unless that is `pr`, a
value; with blanks anywhere around them. -/
structure AttrExpr (P : Platform) where
  text : String
  attr : String
  operands : List Tok
  filter : Filter
  tokens : tokenize P text = .ok (.word attr :: operands)
  reads : comparison P (stripSchema attr) operands = .ok (filter, [])

def keyword : Connective → String
  | .and => "and"
  | .or => "or"

/-- A connective as it is written, in upper or lower case. -/
structure Joiner where
  kind : Connective
  word : String
  spelled : toAsciiLowercase word = keyword kind

variable {P : Platform}

/-- A chain as it is written. -/
def joinText : AttrExpr P → List (Joiner × AttrExpr P) → String
  | e, [] => e.text
  | e, (j, e') :: l => e.text ++ (" " ++ (j.word ++ (" " ++ joinText e' l)))

def chain (l : List (Joiner × AttrExpr P)) : List (Connective × AttrExpr P) :=
  l.map fun p => (p.1.kind, p.2)

/-- What an attribute expression says of a document. -/
def AttrExpr.holds (e : AttrExpr P) (doc : Value) : Bool := e.filter.matches P doc

/-- The attribute is called `not`, which the parser takes for the operator. -/
def AttrExpr.isNot (e : AttrExpr P) : Bool := eqIgnoreAsciiCase e.attr "not"

/-! ## Tokens of a chain -/

/-- A text is scanned on its own up to a blank. -/
lemma scan_append (P : Platform) (a b : List Char) : ∀ (m : Mode) (ts : List Tok),
    scan P m a = .ok ts → scan P m (a ++ ' ' :: b) = (scan P .between b).map (ts ++ ·) := by
  -- what a step puts in front stays in front
  have hmap : ∀ {r : ScimResult (List Tok)} {g : List Tok → List Tok} {ts : List Tok}
      {m' : Mode} {cs : List Char}, r.map g = .ok ts →
      (∀ ts', r = .ok ts' → scan P m' cs = (scan P .between b).map (ts' ++ ·)) →
      (∀ x y, g (x ++ y) = g x ++ y) →
      (scan P m' cs).map g = (scan P .between b).map (ts ++ ·) := by
    intro r g ts m' cs hr hrest hg
    cases r with
    | error e => cases hr
    | ok ts' =>
        rw [Except.map, Except.ok.injEq] at hr
        rw [hrest ts' rfl, ← hr]
        cases scan P .between b with
        | error e => rfl
        | ok tb => exact congrArg Except.ok (hg ts' tb)
  induction a with
  | nil =>
      intro m ts h
      cases m with
      | between =>
          cases h
          cases hb : scan P .between b with
          | error e => simp [scan, isBlank, hb, Except.map]
          | ok tb => simp [scan, isBlank, hb, Except.map]
      | word w =>
          cases h
          simp [scan, isBlank]
      | str buf => cases h
      | escape buf => cases h
  | cons c a ih =>
      intro m ts h
      cases m with
      | between =>
          rw [scan] at h
          rw [List.cons_append, scan]
          by_cases hblank : isBlank c = true
          · rw [if_pos hblank] at h ⊢
            exact ih _ _ h
          · rw [if_neg hblank] at h ⊢
            cases hp : punctuation c with
            | some t =>
                simp only [hp] at h ⊢
                exact hmap h (fun ts' h' => ih _ _ h') (fun _ _ => rfl)
            | none =>
                simp only [hp] at h ⊢
                split_ifs at h ⊢
                · exact ih _ _ h
                · exact ih _ _ h
      | word w =>
          rw [scan] at h
          rw [List.cons_append, scan]
          by_cases hblank : isBlank c = true
          · rw [if_pos hblank] at h ⊢
            exact hmap h (fun ts' h' => ih _ _ h') (fun _ _ => rfl)
          · rw [if_neg hblank] at h ⊢
            cases hp : punctuation c with
            | some t =>
                simp only [hp] at h ⊢
                exact hmap h (fun ts' h' => ih _ _ h') (fun _ _ => rfl)
            | none =>
                simp only [hp] at h ⊢
                exact ih _ _ h
      | str buf =>
          rw [scan] at h
          rw [List.cons_append, scan]
          split_ifs at h ⊢
          · exact hmap h (fun ts' h' => ih _ _ h') (fun _ _ => rfl)
          · exact ih _ _ h
          · exact ih _ _ h
      | escape buf =>
          rw [scan] at h
          rw [List.cons_append, scan]
          exact ih _ _ h

lemma tokenize_append {a b : String} {ta tb : List Tok} (ha : tokenize P a = .ok ta)
    (hb : tokenize P b = .ok tb) : tokenize P (a ++ (" " ++ b)) = .ok (ta ++ tb) := by
  rw [tokenize] at ha hb ⊢
  have htext : (a ++ (" " ++ b)).toList = a.toList ++ ' ' :: b.toList := by simp
  rw [htext, scan_append P a.toList b.toList _ _ ha, hb]
  rfl

lemma mem_keyword_letters {c : Char} (h : c.toLower ∈ ['a', 'n', 'd', 'o', 'r']) :
    c ∈ ['a', 'n', 'd', 'o', 'r', 'A', 'N', 'D', 'O', 'R'] := by
  revert h
  refine toLower_cases (p := fun c => c.toLower ∈ ['a', 'n', 'd', 'o', 'r'] →
    c ∈ ['a', 'n', 'd', 'o', 'r', 'A', 'N', 'D', 'O', 'R']) ?_ (by decide) c
  intro c hc h
  rw [hc] at h
  exact List.mem_append_left ['A', 'N', 'D', 'O', 'R'] h

lemma letter_plain {c : Char} (h : c.toLower ∈ ['a', 'n', 'd', 'o', 'r']) :
    isBlank c = false ∧ punctuation c = none ∧ c ≠ '"' ∧ (isAsciiDigit c || c == '-') = false := by
  have hc := mem_keyword_letters h
  simp only [List.mem_cons, List.not_mem_nil, or_false] at hc
  rcases hc with rfl | rfl | rfl | rfl | rfl | rfl | rfl | rfl | rfl | rfl <;>
    exact ⟨rfl, rfl, by decide, rfl⟩

lemma scan_letters (P : Platform) (cs : List Char)
    (h : ∀ c ∈ cs, c.toLower ∈ ['a', 'n', 'd', 'o', 'r']) :
    ∀ w, scan P (.word w) cs = .ok [wordTok P (w ++ cs)] := by
  induction cs with
  | nil =>
      intro w
      rw [scan, List.append_nil]
  | cons c cs ih =>
      intro w
      obtain ⟨hblank, hpunct, -, -⟩ := letter_plain (h c List.mem_cons_self)
      rw [scan, hblank, hpunct]
      have hrest := ih (fun c' hc' => h c' (List.mem_cons_of_mem _ hc')) (w ++ [c])
      rw [List.append_assoc, List.singleton_append] at hrest
      exact hrest

lemma tokenize_joiner (P : Platform) (j : Joiner) : tokenize P j.word = .ok [.word j.word] := by
  have hlower : j.word.toList.map Char.toLower = (keyword j.kind).toList := by
    rw [← j.spelled, toAsciiLowercase, String.toList_ofList]
  have hletters : ∀ c ∈ j.word.toList, c.toLower ∈ ['a', 'n', 'd', 'o', 'r'] := by
    intro c hc
    have hmem : c.toLower ∈ (keyword j.kind).toList := by
      rw [← hlower]
      exact List.mem_map_of_mem hc
    cases hkind : j.kind with
    | and =>
        rw [hkind] at hmem
        exact List.mem_append_left ['o', 'r'] hmem
    | or =>
        rw [hkind] at hmem
        exact List.mem_append_right ['a', 'n', 'd'] hmem
  have hne : j.word.toList ≠ [] := by
    intro hnil
    rw [hnil] at hlower
    cases hkind : j.kind with
    | and =>
        rw [hkind] at hlower
        cases hlower
    | or =>
        rw [hkind] at hlower
        cases hlower
  obtain ⟨c, cs, hcs⟩ := List.exists_cons_of_ne_nil hne
  obtain ⟨hblank, hpunct, hquote, hnumber⟩ := letter_plain (hletters c (by simp [hcs]))
  have hword : wordTok P (c :: cs) = .word j.word := by
    have htext : String.ofList (c :: cs) = j.word := by rw [← hcs, String.ofList_toList]
    rw [wordTok.eq_def, htext]
    cases P.parseF64 j.word with
    | none => rfl
    | some n =>
        dsimp only
        rw [hnumber]
        rfl
  rw [tokenize, hcs, scan, hblank, hpunct]
  dsimp only
  rw [if_neg hquote, scan_letters P cs (fun c' hc' => hletters c' (by simp [hcs, hc']))]
  exact congrArg (fun t => Except.ok [t]) hword

/-- The tokens behind the first expression of a chain. -/
def chainToks (l : List (Joiner × AttrExpr P)) : List Tok :=
  l.flatMap fun p => .word p.1.word :: .word p.2.attr :: p.2.operands

lemma tokenize_joinText (e : AttrExpr P) (l : List (Joiner × AttrExpr P)) :
    tokenize P (joinText e l) = .ok (.word e.attr :: (e.operands ++ chainToks l)) := by
  induction l generalizing e with
  | nil => simpa [joinText, chainToks] using e.tokens
  | cons p l ih =>
      obtain ⟨j, e'⟩ := p
      have hrest := tokenize_append (tokenize_joiner P j) (ih e')
      rw [joinText, tokenize_append e.tokens hrest]
      simp [chainToks]

/-! ## Parsing a chain -/

lemma comparison_append {attr : String} {operands : List Tok} {f : Filter}
    (h : comparison P attr operands = .ok (f, [])) :
    ∃ w tail, operands = .word w :: tail ∧
      ∀ more, comparison P attr (operands ++ more) = .ok (f, more) := by
  rw [comparison.eq_def] at h
  split at h
  · rename_i w rest
    refine ⟨w, rest, rfl, ?_⟩
    intro more
    rw [List.cons_append, comparison.eq_def]
    dsimp only at h ⊢
    split_ifs at h ⊢ with hpr
    · cases h
      rfl
    · cases hop : CmpOp.parse (toAsciiLowercase w) with
      | none =>
          simp only [hop] at h
          cases h
      | some o =>
          simp only [hop] at h ⊢
          cases rest with
          | nil => cases h
          | cons t rest =>
              dsimp only [List.cons_append] at h ⊢
              cases hvalue : literal P t with
              | none =>
                  simp only [hvalue] at h
                  cases h
              | some value =>
                  simp only [hvalue] at h ⊢
                  cases h
                  rfl
  · cases h

lemma term_attrExpr (e : AttrExpr P) (n : ℕ) (more : List Tok) :
    term P (n + 1) (.word e.attr :: (e.operands ++ more)) =
      if e.isNot then invalidFilter "not must be followed by (" else .ok (e.filter, more) := by
  obtain ⟨w, tail, hoperands, hmore⟩ := comparison_append e.reads
  rw [term.eq_def]
  dsimp only
  show (if e.isNot = true then _ else _) = _
  by_cases hnot : e.isNot = true
  · rw [if_pos hnot, if_pos hnot, hoperands]
    rfl
  · rw [if_neg hnot, if_neg hnot, hoperands]
    rw [hoperands] at hmore
    exact hmore more

lemma peekWord_joiner (j : Joiner) (more : List Tok) (c : Connective) :
    peekWord (.word j.word :: more) (keyword c) = decide (j.kind = c) := by
  show eqIgnoreAsciiCase j.word (keyword c) = _
  rw [eqIgnoreAsciiCase, j.spelled]
  cases j.kind with
  | and => cases c <;> rfl
  | or => cases c <;> rfl

/-- The filter a connective makes. -/
def combine : Connective → Filter → Filter → Filter
  | .and => .and
  | .or => .or

lemma exprLoop_turn (n : ℕ) (left : Filter) (j : Joiner) (more : List Tok) :
    exprLoop P (n + 1) left (.word j.word :: more) =
      (term P n more >>= fun p => exprLoop P n (combine j.kind left p.1) p.2) := by
  have hand := peekWord_joiner j more .and
  have hor := peekWord_joiner j more .or
  rw [keyword.eq_def] at hand hor
  rw [exprLoop, hand, hor]
  cases j.kind with
  | and => rfl
  | or => rfl

lemma exprLoop_chain (l : List (Joiner × AttrExpr P)) : ∀ (left : Filter) (n : ℕ), l.length < n →
    (∀ p ∈ l, p.2.isNot = false) →
    exprLoop P n left (chainToks l) =
      .ok (l.foldl (fun f p => combine p.1.kind f p.2.filter) left, []) := by
  induction l with
  | nil =>
      intro left n hn _
      cases n with
      | zero => cases hn
      | succ n => rfl
  | cons p l ih =>
      obtain ⟨j, e⟩ := p
      intro left n hn hnot
      simp only [List.length_cons] at hn
      obtain ⟨k, rfl⟩ : ∃ k, n = k + 1 + 1 := ⟨n - 2, by omega⟩
      have he : ¬ e.isNot = true := by
        rw [hnot (j, e) List.mem_cons_self]
        exact Bool.false_ne_true
      have hrest := ih (combine j.kind left e.filter) (k + 1) (by omega)
        (fun p hp => hnot p (List.mem_cons_of_mem _ hp))
      have htoks : chainToks ((j, e) :: l) =
          .word j.word :: .word e.attr :: (e.operands ++ chainToks l) := rfl
      rw [htoks, exprLoop_turn, term_attrExpr, if_neg he]
      exact hrest

lemma exprLoop_chain_not (l : List (Joiner × AttrExpr P)) : ∀ (left : Filter) (n : ℕ),
    (∃ p ∈ l, p.2.isNot = true) → ∃ err, exprLoop P n left (chainToks l) = .error err := by
  induction l with
  | nil =>
      rintro left n ⟨p, hp, -⟩
      cases hp
  | cons p l ih =>
      obtain ⟨j, e⟩ := p
      intro left n hnot
      cases n with
      | zero => exact ⟨_, rfl⟩
      | succ n =>
          have htoks : chainToks ((j, e) :: l) =
              .word j.word :: .word e.attr :: (e.operands ++ chainToks l) := rfl
          rw [htoks, exprLoop_turn]
          cases n with
          | zero => exact ⟨_, rfl⟩
          | succ n =>
              rw [term_attrExpr]
              by_cases he : e.isNot = true
              · rw [if_pos he]
                exact ⟨_, rfl⟩
              · rw [if_neg he]
                obtain ⟨p, hp, hpnot⟩ := hnot
                rcases List.mem_cons.mp hp with rfl | hp
                · exact absurd hpnot he
                · exact ih _ (n + 1) ⟨p, hp, hpnot⟩

/-- **What a chain is parsed to.** -/
theorem parseFilter_joinText (e : AttrExpr P) (l : List (Joiner × AttrExpr P))
    (hlen : (joinText e l).utf8ByteSize ≤ 2048) (he : e.isNot = false)
    (hl : ∀ p ∈ l, p.2.isNot = false) :
    parseFilter P (joinText e l) =
      .ok (l.foldl (fun f p => combine p.1.kind f p.2.filter) e.filter) := by
  have hle : l.length ≤ (chainToks l).length := by
    clear hlen hl
    induction l with
    | nil => exact Nat.le_refl _
    | cons p l ih =>
        have hcons : chainToks (p :: l) =
            (.word p.1.word :: .word p.2.attr :: p.2.operands) ++ chainToks l := rfl
        rw [hcons, List.length_append, List.length_cons, List.length_cons, List.length_cons]
        omega
  rw [parseFilter, if_neg (by omega), tokenize_joinText]
  show (expr P _ _ >>= _) = _
  rw [show 2 * (Tok.word e.attr :: (e.operands ++ chainToks l)).length + 2 =
    2 * (e.operands ++ chainToks l).length + 3 + 1 from by rw [List.length_cons]; omega, expr,
    term_attrExpr, if_neg (by rw [he]; exact Bool.false_ne_true)]
  show (exprLoop P _ e.filter (chainToks l) >>= _) = _
  rw [exprLoop_chain l e.filter _ (by rw [List.length_append]; omega) hl]
  rfl

lemma parseFilter_joinText_not (e : AttrExpr P) (l : List (Joiner × AttrExpr P))
    (hnot : e.isNot = true ∨ ∃ p ∈ l, p.2.isNot = true) :
    ∃ err, parseFilter P (joinText e l) = .error err := by
  rw [parseFilter]
  by_cases hlen : 2048 < (joinText e l).utf8ByteSize
  · rw [if_pos hlen]
    exact ⟨_, rfl⟩
  · rw [if_neg hlen, tokenize_joinText]
    show ∃ err, (expr P _ _ >>= _) = _
    rw [show 2 * (Tok.word e.attr :: (e.operands ++ chainToks l)).length + 2 =
      2 * (e.operands ++ chainToks l).length + 3 + 1 from by rw [List.length_cons]; omega, expr,
      term_attrExpr]
    by_cases he : e.isNot = true
    · rw [if_pos he]
      exact ⟨_, rfl⟩
    · rw [if_neg he]
      rcases hnot with hnot | hnot
      · exact absurd hnot he
      · obtain ⟨err, herr⟩ := exprLoop_chain_not l e.filter
          (2 * (e.operands ++ chainToks l).length + 3) hnot
        refine ⟨err, ?_⟩
        show (exprLoop P _ e.filter (chainToks l) >>= _) = _
        rw [herr]
        rfl

/-! ## What a chain means -/

lemma matches_chain (doc : Value) (l : List (Joiner × AttrExpr P)) : ∀ left : Filter,
    (l.foldl (fun f p => combine p.1.kind f p.2.filter) left).matches P doc =
      leftToRight (·.holds doc) (left.matches P doc) (chain l) := by
  induction l with
  | nil =>
      intro left
      rfl
  | cons p l ih =>
      obtain ⟨j, e⟩ := p
      intro left
      rw [List.foldl_cons, ih]
      show _ = leftToRight _ (j.kind.apply (left.matches P doc) (e.holds doc)) (chain l)
      cases j.kind with
      | and => rfl
      | or => rfl

/-- **When a chain means what the RFC says.**  An unparenthesised chain of attribute expressions is
accepted and evaluates, at a document, to the disjunction of its `or`-separated conjunctions exactly
when it is short enough, none of its attributes is called `not`, and at that document behind each
group that holds comes another one that does, or no `and`-joined expression that fails. -/
theorem precedence_iff (P : Platform) (e : AttrExpr P) (l : List (Joiner × AttrExpr P))
    (doc : Value) :
    (∃ f, parseFilter P (joinText e l) = .ok f ∧
        f.matches P doc = disjunction (·.holds doc) (groups e (chain l))) ↔
      (joinText e l).utf8ByteSize ≤ 2048 ∧ (e.isNot = false ∧ ∀ p ∈ l, p.2.isNot = false) ∧
        Undisturbed (·.holds doc) (groups e (chain l)) := by
  constructor
  · rintro ⟨f, hf, hvalue⟩
    have hlen : (joinText e l).utf8ByteSize ≤ 2048 := by
      by_contra hlong
      rw [parseFilter, if_pos (by omega)] at hf
      cases hf
    have hnot : ¬ (e.isNot = true ∨ ∃ p ∈ l, p.2.isNot = true) := by
      intro hnot
      obtain ⟨err, herr⟩ := parseFilter_joinText_not e l hnot
      rw [herr] at hf
      cases hf
    simp only [not_or, not_exists, not_and, Bool.not_eq_true] at hnot
    rw [parseFilter_joinText e l hlen hnot.1 hnot.2, Except.ok.injEq] at hf
    rw [← hf, matches_chain] at hvalue
    exact ⟨hlen, hnot, (leftToRight_eq_iff _ e (chain l)).mp hvalue⟩
  · rintro ⟨hlen, ⟨he, hl⟩, hundisturbed⟩
    refine ⟨_, parseFilter_joinText e l hlen he hl, ?_⟩
    rw [matches_chain]
    exact (leftToRight_eq_iff _ e (chain l)).mpr hundisturbed

/-- With every `and` in front of every `or` a chain means what the RFC says, at every document. -/
theorem precedence_of_ors_last (P : Platform) (e : AttrExpr P) {ands ors : List (Joiner × AttrExpr P)}
    (hands : ∀ p ∈ ands, p.1.kind = .and) (hors : ∀ p ∈ ors, p.1.kind = .or)
    (hlen : (joinText e (ands ++ ors)).utf8ByteSize ≤ 2048) (he : e.isNot = false)
    (hnot : ∀ p ∈ ands ++ ors, p.2.isNot = false) (doc : Value) :
    ∃ f, parseFilter P (joinText e (ands ++ ors)) = .ok f ∧
      f.matches P doc = disjunction (·.holds doc) (groups e (chain (ands ++ ors))) := by
  refine ⟨_, parseFilter_joinText e _ hlen he hnot, ?_⟩
  rw [matches_chain]
  refine (leftToRight_eq_iff _ e _).mpr ?_
  rw [chain, List.map_append]
  refine undisturbed_of_ors_last _ e ?_ ?_
  · intro q hq
    obtain ⟨p, hp, rfl⟩ := List.mem_map.mp hq
    exact hands p hp
  · intro q hq
    obtain ⟨p, hp, rfl⟩ := List.mem_map.mp hq
    exact hors p hp

def samplePlatform : Platform where
  toLowercase := toAsciiLowercase
  parseF64 _ := none
  f64Value _ := .null
  asF64 _ := 0

def aPresent : AttrExpr samplePlatform := ⟨"a pr", "a", [.word "pr"], .present "a", rfl, rfl⟩

def bPresent : AttrExpr samplePlatform := ⟨"b pr", "b", [.word "pr"], .present "b", rfl, rfl⟩

def cPresent : AttrExpr samplePlatform := ⟨"c pr", "c", [.word "pr"], .present "c", rfl, rfl⟩

def orAnd : List (Joiner × AttrExpr samplePlatform) :=
  [(⟨.or, "or", rfl⟩, bPresent), (⟨.and, "and", rfl⟩, cPresent)]

/-- **`and` binds too late.**  `a pr or b pr and c pr` is not satisfied by a document that has
`a`. -/
theorem and_binds_too_late :
    joinText aPresent orAnd = "a pr or b pr and c pr" ∧
      ∃ f, parseFilter samplePlatform (joinText aPresent orAnd) = .ok f ∧
        f.matches samplePlatform (.object [("a", .string "x")]) = false ∧
        disjunction (·.holds (.object [("a", .string "x")])) (groups aPresent (chain orAnd)) =
          true := by
  refine ⟨by decide, _, parseFilter_joinText _ _ (by decide) (by decide) (by decide), ?_, by decide⟩
  rw [matches_chain]
  decide

end Ridm.Scim
