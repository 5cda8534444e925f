import Ridm.Scim.Precedence

/-!
# Printing filters

A filter printed with every operand in parentheses and its strings quoted.  `parse_filter` reads it back:
the tokenizer cuts the text into the tokens the printer meant, whatever stands in the strings, and the
parser makes them the same tree.

* `Lexes` says that a text is cut into tokens whatever comes behind it; it is kept by blanks between texts
  and by parentheses around one, so that a printed filter lexes by induction on the tree.
* `expr_tokens` is the parser's part, with as many calls as `parse_filter` allows.
-/

namespace Ridm.Scim

/-! ## The printer -/

def CmpOp.name : CmpOp → String
  | .eq => "eq"
  | .ne => "ne"
  | .co => "co"
  | .sw => "sw"
  | .ew => "ew"
  | .gt => "gt"
  | .ge => "ge"
  | .lt => "lt"
  | .le => "le"

def quoteChar (c : Char) : List Char := if c = '"' ∨ c = '\\' then ['\\', c] else [c]

def quoted (s : String) : List Char := '"' :: (s.toList.flatMap quoteChar ++ ['"'])

/-- A value as it is written; a filter that is printed has no others. -/
def printValue : Value → List Char
  | .string s => quoted s
  | .bool b => (if b then "true" else "false").toList
  | _ => "null".toList

def parens (text : List Char) : List Char := '(' :: (text ++ [')'])

/-- A filter with its operands in parentheses. -/
def Filter.print : Filter → List Char
  | .cmp attr op value => attr.toList ++ ' ' :: (op.name.toList ++ ' ' :: printValue value)
  | .present attr => attr.toList ++ ' ' :: "pr".toList
  | .and a b => parens a.print ++ ' ' :: ("and".toList ++ ' ' :: parens b.print)
  | .or a b => parens a.print ++ ' ' :: ("or".toList ++ ' ' :: parens b.print)
  | .not a => "not".toList ++ ' ' :: parens a.print

/-! ## The filters it is for -/

def wordChar (c : Char) : Bool := !isBlank c && (punctuation c).isNone && c ≠ '"'

/-- The tokenizer takes the word for a number. -/
def numberLike (P : Platform) (w : String) : Bool :=
  (P.parseF64 w).isSome && w.toList.head?.any fun c => isAsciiDigit c || c == '-'

/-- The name of an attribute is one word: of characters of a word, and not `not`, a number or behind the
URN of a schema. -/
def attributeName (P : Platform) (w : String) : Bool :=
  !w.toList.isEmpty && w.toList.all wordChar && !numberLike P w && !eqIgnoreAsciiCase w "not" &&
    (stripPrefix w userSchema).isNone && (stripPrefix w groupSchema).isNone

/-- A string, a boolean or null. -/
def plainValue : Value → Bool
  | .string _ => true
  | .bool _ => true
  | .null => true
  | _ => false

/-- The attributes of a filter are single words, its values strings, booleans or null. -/
def Filter.printable (P : Platform) : Filter → Bool
  | .cmp attr _ value => attributeName P attr && plainValue value
  | .present attr => attributeName P attr
  | .and a b => a.printable P && b.printable P
  | .or a b => a.printable P && b.printable P
  | .not a => a.printable P

/-! ## The tokens of a text -/

/-- What may stand behind a word. -/
def Delimited (rest : List Char) : Prop :=
  ∀ c ∈ rest.head?, isBlank c = true ∨ (punctuation c).isSome = true

/-- A text is cut into these tokens, whatever stands behind it. -/
def Lexes (P : Platform) (text : List Char) (toks : List Tok) : Prop :=
  ∀ rest, Delimited rest → scan P .between (text ++ rest) = (scan P .between rest).map (toks ++ ·)

variable {P : Platform} {a b : List Char} {ta tb : List Tok}

lemma delimited_blank (rest : List Char) : Delimited (' ' :: rest) := by
  intro c hc
  cases hc
  exact Or.inl rfl

lemma delimited_rparen (rest : List Char) : Delimited (')' :: rest) := by
  intro c hc
  cases hc
  exact Or.inr rfl

lemma map_map_append (r : ScimResult (List Tok)) (ta tb : List Tok) :
    (r.map (tb ++ ·)).map (ta ++ ·) = r.map ((ta ++ tb) ++ ·) := by
  cases r with
  | error e => rfl
  | ok ts => exact congrArg Except.ok (List.append_assoc ta tb ts).symm

lemma Lexes.blank (ha : Lexes P a ta) (hb : Lexes P b tb) : Lexes P (a ++ ' ' :: b) (ta ++ tb) := by
  intro rest hrest
  rw [List.append_assoc, List.cons_append, ha _ (delimited_blank _)]
  have hskip : scan P .between (' ' :: (b ++ rest)) = scan P .between (b ++ rest) := rfl
  rw [hskip, hb rest hrest, map_map_append]

lemma Lexes.parens (ha : Lexes P a ta) : Lexes P (parens a) (.lparen :: (ta ++ [.rparen])) := by
  intro rest _
  have hopen : scan P .between (Scim.parens a ++ rest) =
      (scan P .between (a ++ (')' :: rest))).map (.lparen :: ·) := by
    rw [Scim.parens, List.cons_append, List.append_assoc]
    rfl
  have hclose : scan P .between (')' :: rest) = (scan P .between rest).map ([.rparen] ++ ·) := rfl
  rw [hopen, ha _ (delimited_rparen _), hclose, map_map_append]
  exact map_map_append (scan P .between rest) [.lparen] _

lemma punctuation_not_blank {c : Char} (h : (punctuation c).isSome = true) : isBlank c = false := by
  rw [punctuation.eq_def] at h
  split at h
  · rfl
  · rfl
  · rfl
  · rfl
  · cases h

lemma scan_word (P : Platform) {rest : List Char} (hrest : Delimited rest) :
    ∀ cs w : List Char, cs.all wordChar = true →
      scan P (.word w) (cs ++ rest) = (scan P .between rest).map ([wordTok P (w ++ cs)] ++ ·) := by
  intro cs
  induction cs with
  | nil =>
      intro w _
      rw [List.nil_append, List.append_nil]
      cases rest with
      | nil => rfl
      | cons c rest =>
          rw [scan, scan]
          rcases hrest c rfl with hblank | hpunct
          · rw [if_pos hblank, if_pos hblank]
            rfl
          · rw [punctuation_not_blank hpunct]
            obtain ⟨t, ht⟩ := Option.isSome_iff_exists.mp hpunct
            simp only [ht, Bool.false_eq_true, if_false]
            exact (map_map_append (scan P .between rest) [_] [t]).symm
  | cons c cs ih =>
      intro w hcs
      obtain ⟨hc, hcs⟩ := Bool.and_eq_true_iff.mp hcs
      simp only [wordChar, Bool.and_eq_true, Bool.not_eq_true', Option.isNone_iff_eq_none] at hc
      rw [List.cons_append, scan, hc.1.1, hc.1.2]
      have hword := ih (w ++ [c]) hcs
      rw [List.append_assoc, List.singleton_append] at hword
      exact hword

lemma lexes_word (P : Platform) {w : List Char} (hne : w ≠ []) (hw : w.all wordChar = true) :
    Lexes P w [wordTok P w] := by
  intro rest hrest
  obtain ⟨c, cs, rfl⟩ := List.exists_cons_of_ne_nil hne
  obtain ⟨hc, hcs⟩ := Bool.and_eq_true_iff.mp hw
  simp only [wordChar, Bool.and_eq_true, Bool.not_eq_true', Option.isNone_iff_eq_none,
    decide_eq_true_eq] at hc
  rw [List.cons_append, scan, hc.1.1, hc.1.2]
  dsimp only
  rw [if_neg Bool.false_ne_true, if_neg hc.2, scan_word P hrest cs [c] hcs]
  rfl

variable {toks rest : List Tok} {f : Filter} {w : String} {n : ℕ} {v : Value}

lemma wordTok_word (h : numberLike P w = false) : wordTok P w.toList = .word w := by
  rw [wordTok.eq_def, String.ofList_toList]
  split
  · rename_i n c cs hn hcs
    rw [numberLike, hn, hcs] at h
    have hc : (isAsciiDigit c || c == '-') = false := h
    rw [hc]
    rfl
  · rfl

lemma lexes_keyword (P : Platform) (w : String)
    (hw : w ∈ ["eq", "ne", "co", "sw", "ew", "gt", "ge", "lt", "le", "pr", "and", "or", "not", "true", "false",
      "null"]) : Lexes P w.toList [.word w] := by
  have hplain : w.toList ≠ [] ∧ w.toList.all wordChar = true ∧
      (w.toList.head?.any fun c => isAsciiDigit c || c == '-') = false := by
    revert w
    decide
  have hnumber : numberLike P w = false := by rw [numberLike, hplain.2.2, Bool.and_false]
  rw [← wordTok_word hnumber]
  exact lexes_word P hplain.1 hplain.2.1

lemma scan_quoted (P : Platform) (rest : List Char) : ∀ cs buf : List Char,
    scan P (.str buf) (cs.flatMap quoteChar ++ rest) = scan P (.str (buf ++ cs)) rest := by
  intro cs
  induction cs with
  | nil =>
      intro buf
      rw [List.flatMap_nil, List.nil_append, List.append_nil]
  | cons c cs ih =>
      intro buf
      have hc : scan P (.str buf) (quoteChar c ++ (cs.flatMap quoteChar ++ rest)) =
          scan P (.str (buf ++ [c])) (cs.flatMap quoteChar ++ rest) := by
        by_cases hquote : c = '"'
        · subst hquote
          rfl
        · by_cases hslash : c = '\\'
          · subst hslash
            rfl
          · rw [quoteChar, if_neg (by rintro (h | h) <;> contradiction), List.singleton_append, scan,
              if_neg hquote, if_neg hslash]
      rw [List.flatMap_cons, List.append_assoc, hc, ih, List.append_assoc, List.singleton_append]

lemma lexes_quoted (P : Platform) (s : String) : Lexes P (quoted s) [.str s] := by
  intro rest _
  have hopen : scan P .between (quoted s ++ rest) =
      scan P (.str []) (s.toList.flatMap quoteChar ++ ('"' :: rest)) := by
    rw [quoted, List.cons_append, List.append_assoc]
    rfl
  rw [hopen, scan_quoted, List.nil_append, scan, if_pos rfl, String.ofList_toList]
  rfl

/-! ## The tokens of a filter -/

def valueTok : Value → Tok
  | .string s => .str s
  | .bool b => .word (if b then "true" else "false")
  | _ => .word "null"

/-- The tokens of a filter, as it is printed. -/
def Filter.tokens : Filter → List Tok
  | .cmp attr op value => [.word attr, .word op.name, valueTok value]
  | .present attr => [.word attr, .word "pr"]
  | .and a b => .lparen :: (a.tokens ++ .rparen :: .word "and" :: .lparen :: (b.tokens ++ [.rparen]))
  | .or a b => .lparen :: (a.tokens ++ .rparen :: .word "or" :: .lparen :: (b.tokens ++ [.rparen]))
  | .not a => .word "not" :: .lparen :: (a.tokens ++ [.rparen])

lemma lexes_value (P : Platform) (hv : plainValue v = true) :
    Lexes P (printValue v) [valueTok v] := by
  cases v with
  | string s => exact lexes_quoted P s
  | bool b =>
      cases b
      · exact lexes_keyword P "false" (by decide)
      · exact lexes_keyword P "true" (by decide)
  | null => exact lexes_keyword P "null" (by decide)
  | _ => cases hv

lemma CmpOp.name_mem (op : CmpOp) : op.name ∈ ["eq", "ne", "co", "sw", "ew", "gt", "ge", "lt", "le", "pr",
    "and", "or", "not", "true", "false", "null"] := by
  cases op <;> decide

lemma lexes_attribute (hw : attributeName P w = true) : Lexes P w.toList [.word w] := by
  simp only [attributeName, Bool.and_eq_true, Bool.not_eq_true', List.isEmpty_eq_false_iff] at hw
  obtain ⟨⟨⟨⟨⟨hne, hchars⟩, hnumber⟩, -⟩, -⟩, -⟩ := hw
  rw [← wordTok_word hnumber]
  exact lexes_word P hne hchars

/-- **A printed filter is cut into its tokens.** -/
lemma lexes_print (P : Platform) : ∀ f : Filter, f.printable P = true → Lexes P f.print f.tokens := by
  intro f
  induction f with
  | cmp attr op value =>
      intro hf
      obtain ⟨hattr, hvalue⟩ := Bool.and_eq_true_iff.mp hf
      exact (lexes_attribute hattr).blank ((lexes_keyword P _ op.name_mem).blank (lexes_value P hvalue))
  | present attr => exact fun hf => (lexes_attribute hf).blank (lexes_keyword P "pr" (by decide))
  | and a b iha ihb =>
      intro hf
      obtain ⟨ha, hb⟩ := Bool.and_eq_true_iff.mp hf
      have hlexes := (iha ha).parens.blank ((lexes_keyword P "and" (by decide)).blank (ihb hb).parens)
      rwa [List.cons_append, List.append_assoc] at hlexes
  | or a b iha ihb =>
      intro hf
      obtain ⟨ha, hb⟩ := Bool.and_eq_true_iff.mp hf
      have hlexes := (iha ha).parens.blank ((lexes_keyword P "or" (by decide)).blank (ihb hb).parens)
      rwa [List.cons_append, List.append_assoc] at hlexes
  | not a iha => exact fun hf => (lexes_keyword P "not" (by decide)).blank (iha hf).parens

lemma tokenize_print (hf : f.printable P = true) :
    tokenize P (String.ofList f.print) = .ok f.tokens := by
  have hlexes := lexes_print P f hf [] (fun c hc => by cases hc)
  rw [List.append_nil] at hlexes
  rw [tokenize, String.toList_ofList, hlexes]
  exact congrArg Except.ok (List.append_nil _)

/-! ## The parser -/

/-- The loop of `expr` ends here. -/
def Ends (rest : List Tok) : Prop := peekWord rest "and" = false ∧ peekWord rest "or" = false

lemma exprLoop_ends (P : Platform) (n : ℕ) (f : Filter) {rest : List Tok} (hrest : Ends rest) :
    exprLoop P (n + 1) f rest = .ok (f, rest) := by
  rw [exprLoop, hrest.1, hrest.2]
  rfl

lemma stripSchema_attribute (hw : attributeName P w = true) : stripSchema w = w := by
  simp only [attributeName, Bool.and_eq_true, Option.isNone_iff_eq_none] at hw
  rw [stripSchema, hw.1.2, hw.2]

lemma comparison_print (attr : String) (op : CmpOp) (hv : plainValue v = true) (rest : List Tok) :
    comparison P attr (.word op.name :: valueTok v :: rest) = .ok (.cmp attr op v, rest) := by
  have hlower : toAsciiLowercase op.name = op.name := by cases op <;> rfl
  have hpr : op.name ≠ "pr" := by cases op <;> decide
  have hop : CmpOp.parse op.name = some op := by cases op <;> rfl
  have hliteral : literal P (valueTok v) = some v := by
    cases v with
    | string s => rfl
    | bool b => cases b <;> rfl
    | null => rfl
    | _ => cases hv
  rw [comparison]
  dsimp only
  rw [hlower, if_neg hpr, hop]
  dsimp only
  rw [hliteral]

lemma term_attribute {w op : String} (hw : attributeName P w = true) (n : ℕ) (rest : List Tok) :
    term P (n + 1) (.word w :: .word op :: rest) = comparison P w (.word op :: rest) := by
  have hnot : peekWord (.word w :: .word op :: rest) "not" = false := by
    simp only [attributeName, Bool.and_eq_true, Bool.not_eq_true'] at hw
    exact hw.1.1.2
  rw [term.eq_def]
  dsimp only
  rw [hnot, stripSchema_attribute hw]
  rfl

lemma term_parens (hexpr : expr P n (toks ++ .rparen :: rest) = .ok (f, .rparen :: rest)) :
    term P (n + 1) (.lparen :: (toks ++ .rparen :: rest)) = .ok (f, rest) := by
  rw [term.eq_def]
  dsimp only [peekWord]
  rw [hexpr]
  rfl

lemma term_not (hexpr : expr P n (toks ++ .rparen :: rest) = .ok (f, .rparen :: rest)) :
    term P (n + 1) (.word "not" :: .lparen :: (toks ++ .rparen :: rest)) = .ok (.not f, rest) := by
  have hnot : peekWord (.word "not" :: .lparen :: (toks ++ .rparen :: rest)) "not" = true := rfl
  rw [term.eq_def]
  dsimp only
  rw [hnot]
  dsimp only [List.tail_cons]
  rw [if_pos rfl, hexpr]
  rfl

lemma expr_of_term (hrest : Ends rest)
    (hterm : term P (n + 1) toks = .ok (f, rest)) : expr P (n + 2) toks = .ok (f, rest) := by
  rw [expr, hterm]
  exact exprLoop_ends P n f hrest

lemma ends_rparen (rest : List Tok) : Ends (.rparen :: rest) := ⟨rfl, rfl⟩

lemma expr_of_terms (make : Filter → Filter → Filter) {word : String} {toks toks' rest : List Tok}
    {f g : Filter} (hrest : Ends rest)
    (hturn : ∀ m, exprLoop P (m + 1) f (.word word :: toks') =
      (term P m toks' >>= fun p => exprLoop P m (make f p.1) p.2))
    (hterm : term P (n + 2) toks = .ok (f, .word word :: toks'))
    (hterm' : term P (n + 1) toks' = .ok (g, rest)) :
    expr P (n + 3) toks = .ok (make f g, rest) := by
  rw [expr, hterm]
  show exprLoop P (n + 2) f (.word word :: toks') = _
  rw [hturn, hterm']
  exact exprLoop_ends P n _ hrest

/-- **The parser reads the tokens of a filter back**, with two calls for each of them. -/
lemma expr_tokens (P : Platform) : ∀ (f : Filter) (n : ℕ) (rest : List Tok), f.printable P = true →
    Ends rest → 2 * f.tokens.length ≤ n → expr P n (f.tokens ++ rest) = .ok (f, rest) := by
  intro f
  induction f with
  | cmp attr op value =>
      intro n rest hf hrest hn
      obtain ⟨hattr, hvalue⟩ := Bool.and_eq_true_iff.mp hf
      obtain ⟨k, rfl⟩ : ∃ k, n = k + 2 := ⟨n - 2, by simp only [Filter.tokens, List.length_cons] at hn; omega⟩
      refine expr_of_term hrest ?_
      exact (term_attribute hattr k _).trans (comparison_print attr op hvalue rest)
  | present attr =>
      intro n rest hf hrest hn
      obtain ⟨k, rfl⟩ : ∃ k, n = k + 2 := ⟨n - 2, by simp only [Filter.tokens, List.length_cons] at hn; omega⟩
      refine expr_of_term hrest ?_
      exact (term_attribute hf k _).trans rfl
  | and a b iha ihb =>
      intro n rest hf hrest hn
      obtain ⟨ha, hb⟩ := Bool.and_eq_true_iff.mp hf
      simp only [Filter.tokens, List.length_cons, List.length_append, List.length_nil] at hn
      obtain ⟨k, rfl⟩ : ∃ k, n = k + 3 := ⟨n - 3, by omega⟩
      have hleft := iha (k + 1) (.rparen :: .word "and" :: .lparen :: (b.tokens ++ .rparen :: rest)) ha
        (ends_rparen _) (by omega)
      have hright := ihb k (.rparen :: rest) hb (ends_rparen _) (by omega)
      have hexpr := expr_of_terms .and hrest (fun m => rfl) (term_parens hleft) (term_parens hright)
      simpa [Filter.tokens] using hexpr
  | or a b iha ihb =>
      intro n rest hf hrest hn
      obtain ⟨ha, hb⟩ := Bool.and_eq_true_iff.mp hf
      simp only [Filter.tokens, List.length_cons, List.length_append, List.length_nil] at hn
      obtain ⟨k, rfl⟩ : ∃ k, n = k + 3 := ⟨n - 3, by omega⟩
      have hleft := iha (k + 1) (.rparen :: .word "or" :: .lparen :: (b.tokens ++ .rparen :: rest)) ha
        (ends_rparen _) (by omega)
      have hright := ihb k (.rparen :: rest) hb (ends_rparen _) (by omega)
      have hexpr := expr_of_terms .or hrest (fun m => rfl) (term_parens hleft) (term_parens hright)
      simpa [Filter.tokens] using hexpr
  | not a iha =>
      intro n rest hf hrest hn
      simp only [Filter.tokens, List.length_cons, List.length_append, List.length_nil] at hn
      obtain ⟨k, rfl⟩ : ∃ k, n = k + 2 := ⟨n - 2, by omega⟩
      have hinner := iha k (.rparen :: rest) hf (ends_rparen _) (by omega)
      have hexpr := expr_of_term hrest (term_not hinner)
      simpa [Filter.tokens] using hexpr

/-- **Round trip.**  A printed filter of at most 2048 bytes is parsed to the filter. -/
theorem parseFilter_print (P : Platform) (f : Filter) (hf : f.printable P = true)
    (hsize : (String.ofList f.print).utf8ByteSize ≤ 2048) :
    parseFilter P (String.ofList f.print) = .ok f := by
  have hexpr := expr_tokens P f (2 * f.tokens.length + 2) [] hf ⟨rfl, rfl⟩ (Nat.le_add_right _ _)
  rw [List.append_nil] at hexpr
  have hne : f.tokens.isEmpty = false := by cases f <;> rfl
  rw [parseFilter, if_neg (Nat.not_lt.mpr hsize), tokenize_print hf]
  simp only [bind, Except.bind, hne, hexpr]
  rfl

/-- A filter whose string holds quotes, a parenthesis and a keyword. -/
theorem parseFilter_print_nested :
    parseFilter samplePlatform
      (String.ofList (Filter.or (.not (.cmp "name.familyName" .co (.string "\") or \\(")))
        (.and (.present "emails.value") (.cmp "active" .eq (.bool true)))).print) =
      .ok (.or (.not (.cmp "name.familyName" .co (.string "\") or \\(")))
        (.and (.present "emails.value") (.cmp "active" .eq (.bool true)))) :=
  parseFilter_print samplePlatform _ (by decide) (by decide)

end Ridm.Scim
