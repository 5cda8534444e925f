import Mathlib.Data.List.Infix
import Ridm.Core.Json
import Ridm.Core.Text

/-!
# SCIM filters

The filters of `api/src/services/scim.rs`: `tokenize` cuts a text into tokens, the recursive
descent of `Parser` turns them into a `Filter`, and `matches` evaluates it on a document.

The parser is bounded by a number of calls here, which its own tokens make large enough:
`parseFilter_ne_exhausted`.
-/

namespace Ridm.Scim

/-- Unicode lower-casing and floating point, which come from the platform. -/
structure Platform where
  /-- `str::to_lowercase`. -/
  toLowercase : String → String
  /-- `str::parse::<f64>`. -/
  parseF64 : String → Option Float
  f64Value : Float → Value
  /-- `Number::as_f64`, of a number by its text. -/
  asF64 : String → Float

/-! ## Errors -/

/-- A refusal in SCIM's terms. -/
structure ScimError where
  status : ℕ
  scimType : Option String
  detail : String
  deriving DecidableEq

/-- `ScimError::bad`. -/
def ScimError.bad (scimType detail : String) : ScimError := ⟨400, some scimType, detail⟩

/-- A value or a refusal. -/
abbrev ScimResult := Except ScimError

/-- A refused filter. -/
def invalidFilter {α : Type} (detail : String) : ScimResult α := .error (.bad "invalidFilter" detail)

/-! ## Names -/

def userSchema : String := "urn:ietf:params:scim:schemas:core:2.0:User"

def groupSchema : String := "urn:ietf:params:scim:schemas:core:2.0:Group"

def stripSchema (path : String) : String :=
  match stripPrefix path userSchema with
  | some rest => trimStartMatches rest ':'
  | none =>
      match stripPrefix path groupSchema with
      | some rest => trimStartMatches rest ':'
      | none => path

/-- The first member of that name, schema and case aside; members stand in the order of the
map. -/
def findCi (m : Members) (key : String) : Option Value :=
  (m.find? fun e => eqIgnoreAsciiCase (stripSchema e.1) (stripSchema key)).map (·.2)

def getCi (obj : Value) (key : String) : Option Value :=
  match obj with
  | .object m => findCi m key
  | _ => none

def asBool : Value → Option Bool
  | .bool b => some b
  | .string s =>
      if toAsciiLowercase s = "true" then some true
      else if toAsciiLowercase s = "false" then some false
      else none
  | _ => none

/-! ## Filters -/

/-- The comparison operators a filter may have. -/
inductive CmpOp
  | eq | ne | co | sw | ew | gt | ge | lt | le
  deriving DecidableEq

/-- The operator of a (lower-case) word. -/
def CmpOp.parse : String → Option CmpOp
  | "eq" => some .eq
  | "ne" => some .ne
  | "co" => some .co
  | "sw" => some .sw
  | "ew" => some .ew
  | "gt" => some .gt
  | "ge" => some .ge
  | "lt" => some .lt
  | "le" => some .le
  | _ => none

/-- A filter as it is parsed. -/
inductive Filter
  | cmp (attr : String) (op : CmpOp) (value : Value)
  | present (attr : String)
  | and (a b : Filter)
  | or (a b : Filter)
  | not (a : Filter)

/-- The tokens of a filter. -/
inductive Tok
  | lparen
  | rparen
  | lbracket
  | rbracket
  | word (w : String)
  | str (s : String)
  | num (n : Float)

/-! ## Tokens -/

def isBlank (c : Char) : Bool := c == ' ' || c == '\t' || c == '\n' || c == '\r'

/-- The tokens of one character. -/
def punctuation : Char → Option Tok
  | '(' => some .lparen
  | ')' => some .rparen
  | '[' => some .lbracket
  | ']' => some .rbracket
  | _ => none

/-- A word that is a number, when it starts like one. -/
def wordTok (P : Platform) (w : List Char) : Tok :=
  match P.parseF64 (String.ofList w), w with
  | some n, c :: _ => if isAsciiDigit c || c == '-' then .num n else .word (String.ofList w)
  | _, _ => .word (String.ofList w)

/-- What an escaped character of a string stands for. -/
def unescape : Char → Char
  | 'n' => '\n'
  | 't' => '\t'
  | c => c

/-- Where the loop of `tokenize` is: between tokens, in a word, in a string or behind its
backslash, with what it has read of them. -/
inductive Mode
  | between
  | word (w : List Char)
  | str (buf : List Char)
  | escape (buf : List Char)

/-- The loop of `tokenize`. -/
def scan (P : Platform) : Mode → List Char → ScimResult (List Tok)
  | .between, [] => .ok []
  | .between, c :: cs =>
      if isBlank c then scan P .between cs
      else
        match punctuation c with
        | some t => (scan P .between cs).map (t :: ·)
        | none => if c = '"' then scan P (.str []) cs else scan P (.word [c]) cs
  | .word w, [] => .ok [wordTok P w]
  | .word w, c :: cs =>
      if isBlank c then (scan P .between cs).map (wordTok P w :: ·)
      else
        match punctuation c with
        | some t => (scan P .between cs).map fun ts => wordTok P w :: t :: ts
        | none => scan P (.word (w ++ [c])) cs
  | .str _, [] => invalidFilter "unterminated string"
  | .str buf, c :: cs =>
      if c = '"' then (scan P .between cs).map (.str (String.ofList buf) :: ·)
      else if c = '\\' then scan P (.escape buf) cs
      else scan P (.str (buf ++ [c])) cs
  | .escape _, [] => invalidFilter "bad escape"
  | .escape buf, c :: cs => scan P (.str (buf ++ [unescape c])) cs

def tokenize (P : Platform) (s : String) : ScimResult (List Tok) := scan P .between s.toList

/-! ## The parser

A parser answers the filter and the tokens it left.  `expr` and `term` call each other; the number
bounds how often, and `exhausted` is what they answer past it. -/

/-- A filter and the tokens after it. -/
abbrev Parsed := ScimResult (Filter × List Tok)

/-- Out of calls. -/
def exhausted : ScimError := ⟨500, none, ""⟩

def peekWord (toks : List Tok) (w : String) : Bool :=
  match toks with
  | .word x :: _ => eqIgnoreAsciiCase x w
  | _ => false

def prefixFilter (start : String) : Filter → Filter
  | .cmp attr op value => .cmp (start ++ "." ++ attr) op value
  | .present a => .present (start ++ "." ++ a)
  | .and a b => .and (prefixFilter start a) (prefixFilter start b)
  | .or a b => .or (prefixFilter start a) (prefixFilter start b)
  | .not a => .not (prefixFilter start a)

/-- The value a comparison ends in. -/
def literal (P : Platform) : Tok → Option Value
  | .str s => some (.string s)
  | .num n => some (P.f64Value n)
  | .word w =>
      if eqIgnoreAsciiCase w "true" then some (.bool true)
      else if eqIgnoreAsciiCase w "false" then some (.bool false)
      else if eqIgnoreAsciiCase w "null" then some .null
      else none
  | _ => none

/-- The operator and the value behind an attribute. -/
def comparison (P : Platform) (attr : String) : List Tok → Parsed
  | .word w :: rest =>
      let op := toAsciiLowercase w
      if op = "pr" then .ok (.present attr, rest)
      else
        match CmpOp.parse op with
        | none => invalidFilter ("unknown operator `" ++ op ++ "`")
        | some o =>
            match rest with
            | [] => invalidFilter "expected a value"
            | t :: rest =>
                match literal P t with
                | some value => .ok (.cmp attr o value, rest)
                | none => invalidFilter "expected a value"
  | _ => invalidFilter "expected an operator"

def subAttribute (attr : String) : List Tok → String × List Tok
  | .word w :: rest =>
      match stripPrefix w "." with
      | some sub => (attr ++ "." ++ sub, rest)
      | none => (attr, .word w :: rest)
  | toks => (attr, toks)

/-- The closing parenthesis. -/
def rparen : List Tok → ScimResult (List Tok)
  | .rparen :: rest => .ok rest
  | _ => invalidFilter "missing )"

/-- The closing bracket. -/
def rbracket : List Tok → ScimResult (List Tok)
  | .rbracket :: rest => .ok rest
  | _ => invalidFilter "missing ]"

mutual

/-- `Parser::expr`. -/
def expr (P : Platform) : ℕ → List Tok → Parsed
  | 0, _ => .error exhausted
  | n + 1, toks => do
      let (left, rest) ← term P n toks
      exprLoop P n left rest

/-- The loop of `expr`. -/
def exprLoop (P : Platform) : ℕ → Filter → List Tok → Parsed
  | 0, _, _ => .error exhausted
  | n + 1, left, toks =>
      if peekWord toks "and" then do
        let (right, rest) ← term P n toks.tail
        exprLoop P n (.and left right) rest
      else if peekWord toks "or" then do
        let (right, rest) ← term P n toks.tail
        exprLoop P n (.or left right) rest
      else .ok (left, toks)

/-- `Parser::term`. -/
def term (P : Platform) : ℕ → List Tok → Parsed
  | 0, _ => .error exhausted
  | n + 1, toks =>
      if peekWord toks "not" then
        match toks.tail with
        | .lparen :: rest => do
            let (inner, rest) ← expr P n rest
            let rest ← rparen rest
            .ok (.not inner, rest)
        | _ => invalidFilter "not must be followed by ("
      else
        match toks with
        | .lparen :: rest => do
            let (inner, rest) ← expr P n rest
            let rest ← rparen rest
            .ok (inner, rest)
        | .word w :: .lbracket :: rest => do
            let (inner, rest) ← expr P n rest
            let rest ← rbracket rest
            let (attr, rest) := subAttribute (stripSchema w) rest
            let (f, rest) ← comparison P attr rest
            .ok (.and (prefixFilter (stripSchema w) inner) f, rest)
        | .word w :: rest => comparison P (stripSchema w) rest
        | _ => invalidFilter "expected an attribute"

end

def parseFilter (P : Platform) (s : String) : ScimResult Filter :=
  if 2048 < s.utf8ByteSize then invalidFilter "filter too long"
  else do
    let toks ← tokenize P s
    if toks.isEmpty then invalidFilter "empty filter"
    else do
      let (f, rest) ← expr P (2 * toks.length + 2) toks
      if rest.isEmpty then .ok f else invalidFilter "unexpected trailing input"

/-! ## Evaluation -/

/-- One step of a dotted path. -/
def selectStep (part : String) : Value → List Value
  | .array items => items.filterMap (getCi · part)
  | v => (getCi v part).toList

/-- A multi-valued attribute compared as a whole is compared on its values. -/
def selectLeaves : Value → List Value
  | .array items => items.map fun i => (getCi i "value").getD i
  | v => [v]

def select (doc : Value) (path : String) : List Value :=
  ((split path '.').foldl (fun current part => current.flatMap (selectStep part)) [doc]).flatMap
    selectLeaves

def compareText (op : CmpOp) (a w : String) : Bool :=
  match op with
  | .eq => a == w
  | .ne => a != w
  | .co => decide (w.toList <:+: a.toList)
  | .sw => w.toList.isPrefixOf a.toList
  | .ew => w.toList.isSuffixOf a.toList
  | .gt => decide (w < a)
  | .ge => !decide (a < w)
  | .lt => decide (a < w)
  | .le => !decide (w < a)

/-- How two numbers compare. -/
def compareF64 (op : CmpOp) (a w : Float) : Bool :=
  match op with
  | .eq => a == w
  | .ne => a != w
  | .gt => decide (w < a)
  | .ge => decide (w ≤ a)
  | .lt => decide (a < w)
  | .le => decide (a ≤ w)
  | _ => false

def compare (P : Platform) (op : CmpOp) : Value → Value → Bool
  | .string a, .string w => compareText op (P.toLowercase a) (P.toLowercase w)
  | .bool a, w =>
      match op, asBool w with
      | .eq, some b => a == b
      | .ne, some b => a != b
      | _, _ => false
  | .number a, .number w => compareF64 op (P.asF64 a) (P.asF64 w)
  | .number a, .string w => compareText op (P.toLowercase a) (P.toLowercase w)
  | .null, .string w => compareText op (P.toLowercase "null") (P.toLowercase w)
  | _, _ => false

def Filter.matches (P : Platform) : Filter → Value → Bool
  | .cmp attr op value, doc =>
      let found := select doc attr
      if op = .ne then found.isEmpty || found.all (compare P .ne · value)
      else found.any (compare P op · value)
  | .present attr, doc => (select doc attr).any (· != .null)
  | .and a b, doc => a.matches P doc && b.matches P doc
  | .or a b, doc => a.matches P doc || b.matches P doc
  | .not a, doc => !a.matches P doc

/-! ## The calls are enough -/

/-- A parser that did not run out of calls and left fewer than `k` tokens. -/
def Settled (r : Parsed) (k : ℕ) : Prop :=
  match r with
  | .ok (_, rest) => rest.length < k
  | .error e => e ≠ exhausted

lemma bad_ne_exhausted (scimType detail : String) : ScimError.bad scimType detail ≠ exhausted := by
  intro h
  have hstatus : 400 = 500 := congrArg ScimError.status h
  omega

lemma invalid_ne_exhausted {α : Type} (detail : String) :
    (invalidFilter detail : ScimResult α) ≠ .error exhausted :=
  fun h => bad_ne_exhausted _ _ (Except.error.inj h)

lemma settled_invalid (detail : String) (k : ℕ) : Settled (invalidFilter detail) k :=
  bad_ne_exhausted _ _

lemma Settled.bind {r : Parsed} {k k' : ℕ} {g : Filter × List Tok → Parsed} (h : Settled r k)
    (hg : ∀ f rest, rest.length < k → Settled (g (f, rest)) k') : Settled (r >>= g) k' := by
  cases r with
  | error e => exact h
  | ok p =>
      obtain ⟨f, rest⟩ := p
      exact hg f rest h

lemma Settled.mono {r : Parsed} {k k' : ℕ} (h : Settled r k) (hk : k ≤ k') : Settled r k' := by
  cases r with
  | error e => exact h
  | ok p => exact Nat.lt_of_lt_of_le h hk

lemma settled_comparison (P : Platform) (attr : String) (toks : List Tok) :
    Settled (comparison P attr toks) (toks.length + 1) := by
  rw [comparison.eq_def]
  split
  · rename_i w rest
    dsimp only
    split_ifs
    · show rest.length < rest.length + 1 + 1
      omega
    · cases CmpOp.parse (toAsciiLowercase w) with
      | none => exact settled_invalid _ _
      | some o =>
          cases rest with
          | nil => exact settled_invalid _ _
          | cons t rest =>
              dsimp only
              cases literal P t with
              | none => exact settled_invalid _ _
              | some value =>
                  show rest.length < rest.length + 1 + 1 + 1
                  omega
  · exact settled_invalid _ _

lemma settled_rparen (f : Filter) (toks : List Tok) :
    Settled (rparen toks >>= fun rest => .ok (f, rest)) toks.length := by
  rw [rparen.eq_def]
  split
  · exact Nat.lt_succ_self _
  · exact settled_invalid _ _

lemma settled_rbracket {toks : List Tok} {k : ℕ} {g : List Tok → Parsed}
    (hg : ∀ rest, toks = .rbracket :: rest → Settled (g rest) k) :
    Settled (rbracket toks >>= g) k := by
  rw [rbracket.eq_def]
  split
  · exact hg _ rfl
  · exact settled_invalid _ _

lemma length_subAttribute (attr : String) (toks : List Tok) :
    (subAttribute attr toks).2.length ≤ toks.length := by
  rw [subAttribute.eq_def]
  split
  · rename_i word more
    cases stripPrefix word "." with
    | none => exact Nat.le_refl _
    | some sub => exact Nat.le_succ _
  · exact Nat.le_refl _

/-- Every call of the parser stands for a token: `2 * toks.length + 2` of them are enough. -/
theorem settled_calls (P : Platform) (n : ℕ) :
    (∀ toks, 2 * toks.length + 2 ≤ n → Settled (expr P n toks) toks.length.succ) ∧
      (∀ left toks, 2 * toks.length + 2 ≤ n →
        Settled (exprLoop P n left toks) toks.length.succ) ∧
      (∀ toks, 2 * toks.length + 1 ≤ n → Settled (term P n toks) toks.length) := by
  induction n with
  | zero =>
      refine ⟨?_, ?_, ?_⟩
      · intro toks h
        omega
      · intro left toks h
        omega
      · intro toks h
        omega
  | succ n ih =>
      obtain ⟨ihExpr, ihLoop, ihTerm⟩ := ih
      -- an operator of the loop is a token of its own, in front of a term
      have hturn : ∀ (toks : List Tok) (w : String) (f : Filter → Filter), peekWord toks w = true →
          2 * toks.length + 2 ≤ n + 1 →
          Settled (term P n toks.tail >>= fun p => exprLoop P n (f p.1) p.2) toks.length.succ := by
        intro toks w f hpeek h
        cases toks with
        | nil => cases hpeek
        | cons t toks =>
            simp only [List.length_cons] at h
            refine (ihTerm toks (by omega)).bind ?_
            intro g rest hrest
            refine (ihLoop (f g) rest (by omega)).mono ?_
            simp only [List.length_cons]
            omega
      have hparen : ∀ (toks : List Tok) (f : Filter → Filter), 2 * toks.length + 2 ≤ n →
          Settled (expr P n toks >>= fun p => rparen p.2 >>= fun rest => .ok (f p.1, rest))
            toks.length.succ := by
        intro toks f h
        refine (ihExpr toks h).bind ?_
        intro g rest hrest
        exact (settled_rparen (f g) rest).mono (by omega)
      refine ⟨?_, ?_, ?_⟩
      · intro toks h
        rw [expr]
        refine (ihTerm toks (by omega)).bind ?_
        intro left rest hrest
        exact (ihLoop left rest (by omega)).mono (by omega)
      · intro left toks h
        rw [exprLoop]
        split_ifs with hand hor
        · exact hturn toks "and" (.and left) hand h
        · exact hturn toks "or" (.or left) hor h
        · exact Nat.lt_succ_self _
      · intro toks h
        rw [term.eq_def]
        dsimp only
        split_ifs with hnot
        · cases toks with
          | nil => cases hnot
          | cons t toks =>
              simp only [List.length_cons, List.tail_cons] at h ⊢
              split
              · rename_i rest
                simp only [List.length_cons] at h ⊢
                exact (hparen rest .not (by omega)).mono (by omega)
              · exact settled_invalid _ _
        · split
          · rename_i rest
            simp only [List.length_cons] at h ⊢
            exact hparen rest id (by omega)
          · rename_i w rest
            simp only [List.length_cons] at h ⊢
            refine (ihExpr rest (by omega)).bind ?_
            intro inner rest' hrest'
            refine settled_rbracket ?_
            rintro behind rfl
            simp only [List.length_cons] at hrest'
            refine (settled_comparison P _ _).bind ?_
            intro f more hmore
            have hsub := length_subAttribute (stripSchema w) behind
            show more.length < _
            omega
          · rename_i w rest hbracket
            exact settled_comparison P _ rest
          · exact settled_invalid _ _

lemma scan_ne_exhausted (P : Platform) (cs : List Char) :
    ∀ m, scan P m cs ≠ .error exhausted := by
  have hmap : ∀ {r : ScimResult (List Tok)} {g : List Tok → List Tok},
      r ≠ .error exhausted → r.map g ≠ .error exhausted := by
    intro r g hr h
    cases r with
    | error e =>
        rw [Except.map, Except.error.injEq] at h
        exact hr (by rw [h])
    | ok ts => cases h
  induction cs with
  | nil =>
      intro m
      cases m with
      | between => exact nofun
      | word w => exact nofun
      | str buf => exact invalid_ne_exhausted _
      | escape buf => exact invalid_ne_exhausted _
  | cons c cs ih =>
      intro m
      cases m with
      | between =>
          rw [scan]
          by_cases hblank : isBlank c = true
          · rw [if_pos hblank]
            exact ih _
          · rw [if_neg hblank]
            cases punctuation c with
            | some t => exact hmap (ih _)
            | none =>
                dsimp only
                split_ifs
                · exact ih _
                · exact ih _
      | word w =>
          rw [scan]
          split_ifs
          · exact hmap (ih _)
          · cases punctuation c with
            | some t => exact hmap (ih _)
            | none => exact ih _
      | str buf =>
          rw [scan]
          split_ifs
          · exact hmap (ih _)
          · exact ih _
          · exact ih _
      | escape buf => exact ih _

/-- **The parser never runs out of calls**: no filter is refused for that. -/
theorem parseFilter_ne_exhausted (P : Platform) (s : String) :
    parseFilter P s ≠ .error exhausted := by
  rw [parseFilter]
  split_ifs
  · exact invalid_ne_exhausted _
  · have hscan := scan_ne_exhausted P s.toList .between
    rw [← tokenize] at hscan
    cases htoks : tokenize P s with
    | error e =>
        rw [htoks] at hscan
        exact fun h => hscan (congrArg Except.error (Except.error.inj h))
    | ok toks =>
        show (if toks.isEmpty then _ else _) ≠ _
        split_ifs
        · exact invalid_ne_exhausted _
        · have hsettled := (settled_calls P (2 * toks.length + 2)).1 toks (Nat.le_refl _)
          cases hexpr : expr P (2 * toks.length + 2) toks with
          | error e =>
              rw [hexpr] at hsettled
              exact fun h => hsettled (Except.error.inj h)
          | ok p =>
              show (if p.2.isEmpty then _ else _) ≠ _
              split_ifs
              · exact nofun
              · exact invalid_ne_exhausted _

end Ridm.Scim
