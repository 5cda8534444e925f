import Ridm.Core.Json
import Mathlib.Data.List.Basic
import Mathlib.Tactic.IntervalCases

/-!
# The compact text of a JSON value

What `serde_json` prints for a value without whitespace (`Value`'s `Display`): literals, numbers
as they are kept, strings between quotes with `"`, `\` and the control characters escaped, items
and members separated by commas.

Two facts about these texts carry everything else.  A text determines its value, also with more
characters behind it (`Value.text_append_inj`).  And a scanner that only follows quotes and
backslashes ends every text outside of strings, and meets a `|` only inside of one
(`Value.scan_text`), so a text cannot be cut in two at a `|` that is not its own
(`Value.bar_text_inj`).
-/

namespace Ridm

def hexDigit (n : ℕ) : Char := Char.ofNat (if n < 10 then 48 + n else 87 + n)

/-- One character of a JSON string, escaped where `serde_json` escapes it. -/
def escapeChar (c : Char) : List Char :=
  if c = '"' then ['\\', '"']
  else if c = '\\' then ['\\', '\\']
  else if c = '\x08' then ['\\', 'b']
  else if c = '\x0c' then ['\\', 'f']
  else if c = '\n' then ['\\', 'n']
  else if c = '\r' then ['\\', 'r']
  else if c = '\t' then ['\\', 't']
  else if c.toNat < 32 then ['\\', 'u', '0', '0', hexDigit (c.toNat / 16), hexDigit (c.toNat % 16)]
  else [c]

/-- The body of a JSON string, up to and with its closing quote. -/
def stringBody : List Char → List Char
  | [] => ['"']
  | c :: s => escapeChar c ++ stringBody s

def isNumberChar (c : Char) : Bool :=
  c.isDigit || c == '-' || c == '+' || c == '.' || c == 'e' || c == 'E'

/-- A number as it is kept: not empty, and of the characters a number has. -/
def plainNumber (t : String) : Bool := !t.toList.isEmpty && t.toList.all isNumberChar

namespace Value

mutual

/-- `Value::to_string`. -/
def text : Value → List Char
  | .null => ['n', 'u', 'l', 'l']
  | .bool true => ['t', 'r', 'u', 'e']
  | .bool false => ['f', 'a', 'l', 's', 'e']
  | .number t => t.toList
  | .string s => '"' :: stringBody s.toList
  | .array xs => '[' :: itemsText true xs
  | .object ms => '{' :: membersText true ms

/-- The items of an array and its closing bracket; a comma stands before all but the first. -/
def itemsText : Bool → List Value → List Char
  | _, [] => [']']
  | first, x :: xs => (if first then [] else [',']) ++ (x.text ++ itemsText false xs)

/-- The members of an object and its closing brace. -/
def membersText : Bool → List (String × Value) → List Char
  | _, [] => ['}']
  | first, (k, v) :: ms =>
      (if first then [] else [',']) ++
        ('"' :: (stringBody k.toList ++ (':' :: (v.text ++ membersText false ms))))

end

mutual

/-- Every number of the value is kept as a number's text. -/
def numbersPlain : Value → Bool
  | .number t => plainNumber t
  | .array xs => itemsPlain xs
  | .object ms => membersPlain ms
  | _ => true

/-- The same for the items of an array. -/
def itemsPlain : List Value → Bool
  | [] => true
  | x :: xs => x.numbersPlain && itemsPlain xs

/-- The same for the members of an object. -/
def membersPlain : List (String × Value) → Bool
  | [] => true
  | (_, v) :: ms => v.numbersPlain && membersPlain ms

end

end Value

/-- A `serde_json::Value` whose numbers are numbers. -/
@[ext] structure JsonValue where
  value : Value
  numbersPlain : value.numbersPlain = true

instance : DecidableEq JsonValue := fun a b =>
  decidable_of_iff (a.value = b.value) (by cases a; cases b; simp)

/-! ## A text determines its value -/

/-- Reads back one escaped character. -/
def unescape : List Char → Option (Char × List Char)
  | '\\' :: '"' :: s => some ('"', s)
  | '\\' :: '\\' :: s => some ('\\', s)
  | '\\' :: 'b' :: s => some ('\x08', s)
  | '\\' :: 'f' :: s => some ('\x0c', s)
  | '\\' :: 'n' :: s => some ('\n', s)
  | '\\' :: 'r' :: s => some ('\r', s)
  | '\\' :: 't' :: s => some ('\t', s)
  | '\\' :: 'u' :: '0' :: '0' :: a :: b :: s =>
      some (Char.ofNat (16 * (a.toNat - 48) + (if b.toNat < 58 then b.toNat - 48 else b.toNat - 87)), s)
  | '\\' :: _ => none
  | c :: s => some (c, s)
  | [] => none

lemma unescape_control (s : List Char) (n : ℕ) (hn : n < 32) :
    unescape (escapeChar (Char.ofNat n) ++ s) = some (Char.ofNat n, s) := by
  interval_cases n <;> rfl

variable {c : Char} {x : Value}

lemma escapeChar_of_ge (hq : c ≠ '"') (hb : c ≠ '\\') (hc : 32 ≤ c.toNat) :
    escapeChar c = [c] := by
  have hne : ∀ d : Char, d.toNat < 32 → c ≠ d := by
    rintro d hd rfl
    omega
  rw [escapeChar, if_neg hq, if_neg hb, if_neg (hne _ (by decide)), if_neg (hne _ (by decide)),
    if_neg (hne _ (by decide)), if_neg (hne _ (by decide)), if_neg (hne _ (by decide)),
    if_neg (by omega)]

lemma unescape_escapeChar (c : Char) (s : List Char) :
    unescape (escapeChar c ++ s) = some (c, s) := by
  by_cases hq : c = '"'
  · subst hq
    rfl
  by_cases hb : c = '\\'
  · subst hb
    rfl
  by_cases hc : c.toNat < 32
  · have hof : Char.ofNat c.toNat = c := Char.ofNat_toNat c
    have h := unescape_control s c.toNat hc
    rwa [hof] at h
  · rw [escapeChar_of_ge hq hb (by omega)]
    simp [unescape, hb]

lemma escapeChar_ne_quote (c : Char) : ∃ d l, escapeChar c = d :: l ∧ d ≠ '"' := by
  by_cases hq : c = '"'
  · exact ⟨'\\', ['"'], by rw [escapeChar, if_pos hq], by decide⟩
  · unfold escapeChar
    split_ifs <;> exact ⟨_, _, rfl, by first | decide | exact hq⟩

lemma stringBody_append_inj : ∀ {s t : List Char} {u w : List Char},
    stringBody s ++ u = stringBody t ++ w → s = t ∧ u = w := by
  intro s
  induction s with
  | nil =>
      intro t u w h
      cases t with
      | nil => simpa [stringBody] using h
      | cons d t =>
          obtain ⟨e, l, he, hne⟩ := escapeChar_ne_quote d
          simp only [stringBody, he, List.cons_append, List.nil_append, List.cons.injEq] at h
          exact absurd h.1.symm hne
  | cons c s ih =>
      intro t u w h
      cases t with
      | nil =>
          obtain ⟨e, l, he, hne⟩ := escapeChar_ne_quote c
          simp only [stringBody, he, List.cons_append, List.nil_append, List.cons.injEq] at h
          exact absurd h.1 hne
      | cons d t =>
          have hread := congrArg unescape h
          simp only [stringBody, List.append_assoc, unescape_escapeChar, Option.some.injEq,
            Prod.mk.injEq] at hread
          obtain ⟨rfl, hrest⟩ := hread
          obtain ⟨rfl, rfl⟩ := ih hrest
          exact ⟨rfl, rfl⟩

/-- What may follow a value's text: nothing, or a character no number has. -/
def Follows (s : List Char) : Prop := ∀ c ∈ s.head?, isNumberChar c = false

lemma follows_cons (s : List Char) (h : isNumberChar c = false) : Follows (c :: s) := by
  intro d hd
  simp only [List.head?_cons, Option.mem_def, Option.some.injEq] at hd
  exact hd ▸ h

lemma number_append_inj {a b s t : List Char} (ha : a.all isNumberChar = true)
    (hb : b.all isNumberChar = true) (hs : Follows s) (ht : Follows t)
    (h : a ++ s = b ++ t) : a = b ∧ s = t := by
  induction a generalizing b with
  | nil =>
      cases b with
      | nil => exact ⟨rfl, h⟩
      | cons d b =>
          subst h
          have hd : isNumberChar d = true := by
            simp only [List.all_cons, Bool.and_eq_true] at hb
            exact hb.1
          simp [hs d rfl] at hd
  | cons c a ih =>
      simp only [List.all_cons, Bool.and_eq_true] at ha
      cases b with
      | nil =>
          rw [List.nil_append] at h
          subst h
          have hc := ht c rfl
          simp [ha.1] at hc
      | cons d b =>
          simp only [List.all_cons, Bool.and_eq_true] at hb
          simp only [List.cons_append, List.cons.injEq] at h
          obtain ⟨rfl, hst⟩ := ih ha.2 hb.2 h.2
          exact ⟨by rw [h.1], hst⟩

namespace Value

/-- The kinds of JSON value, as their first character tells them apart. -/
inductive Kind
  | null
  | bool (b : Bool)
  | number
  | string
  | array
  | object

def kind : Value → Kind
  | .null => .null
  | .bool b => .bool b
  | .number _ => .number
  | .string _ => .string
  | .array _ => .array
  | .object _ => .object

/-- The kind a first character announces. -/
def leadKind (c : Char) : Kind :=
  if c = 'n' then .null
  else if c = 't' then .bool true
  else if c = 'f' then .bool false
  else if c = '"' then .string
  else if c = '[' then .array
  else if c = '{' then .object
  else .number

lemma leadKind_number (h : isNumberChar c = true) : leadKind c = .number := by
  have hne : ∀ d : Char, isNumberChar d = false → c ≠ d := by
    rintro d hd rfl
    simp [h] at hd
  rw [leadKind, if_neg (hne _ (by decide)), if_neg (hne _ (by decide)),
    if_neg (hne _ (by decide)), if_neg (hne _ (by decide)), if_neg (hne _ (by decide)),
    if_neg (hne _ (by decide))]

/-- The characters a text may start with. -/
def isLead (c : Char) : Bool :=
  c == 'n' || c == 't' || c == 'f' || c == '"' || c == '[' || c == '{' || isNumberChar c

lemma text_lead (x : Value) (hx : x.numbersPlain = true) :
    ∃ c l, x.text = c :: l ∧ leadKind c = x.kind ∧ isLead c = true := by
  cases x with
  | null => exact ⟨_, _, by rw [text], rfl, by decide⟩
  | bool b =>
      cases b with
      | true => exact ⟨_, _, by rw [text], rfl, by decide⟩
      | false => exact ⟨_, _, by rw [text], rfl, by decide⟩
  | number n =>
      simp only [numbersPlain, plainNumber, Bool.and_eq_true, Bool.not_eq_true'] at hx
      cases hn : n.toList with
      | nil => simp [hn] at hx
      | cons c l =>
          refine ⟨c, l, by rw [text, hn], ?_⟩
          simp only [hn, List.all_cons, Bool.and_eq_true] at hx
          exact ⟨leadKind_number hx.2.1, by simp [isLead, hx.2.1]⟩
  | string s => exact ⟨_, _, by rw [text], rfl, by decide⟩
  | array xs => exact ⟨_, _, by rw [text], rfl, by decide⟩
  | object ms => exact ⟨_, _, by rw [text], rfl, by decide⟩

lemma text_ne_of_lead {s t : List Char} (hx : x.numbersPlain = true)
    (hc : isLead c = false) : x.text ++ s ≠ c :: t := by
  intro h
  obtain ⟨d, l, hd, -, hlead⟩ := text_lead x hx
  simp only [hd, List.cons_append, List.cons.injEq] at h
  rw [h.1] at hlead
  simp [hlead] at hc

lemma kind_eq_of_text {x y : Value} {s t : List Char} (hx : x.numbersPlain = true)
    (hy : y.numbersPlain = true) (h : x.text ++ s = y.text ++ t) : x.kind = y.kind := by
  obtain ⟨c, l, hc, hck, -⟩ := text_lead x hx
  obtain ⟨d, m, hd, hdk, -⟩ := text_lead y hy
  rw [hc, hd] at h
  simp only [List.cons_append, List.cons.injEq] at h
  rw [← hck, ← hdk, h.1]

lemma itemsText_cons_ne (x : Value) (xs : List Value) (b : Bool) (s t : List Char)
    (hx : x.numbersPlain = true) : itemsText b (x :: xs) ++ s ≠ ']' :: t := by
  intro h
  cases b with
  | true =>
      simp only [itemsText, if_true, List.nil_append, List.append_assoc] at h
      exact text_ne_of_lead hx rfl h
  | false => simp [itemsText] at h

lemma follows_itemsText (xs : List Value) (s : List Char) :
    Follows (itemsText false xs ++ s) := by
  cases xs with
  | nil => exact follows_cons _ rfl
  | cons x xs => exact follows_cons _ rfl

lemma follows_membersText (ms : List (String × Value)) (s : List Char) :
    Follows (membersText false ms ++ s) := by
  cases ms with
  | nil => exact follows_cons _ rfl
  | cons m ms => exact follows_cons _ rfl

mutual

/-- **A text determines its value**, also with more characters behind it. -/
theorem text_append_inj : ∀ (x y : Value) {s t : List Char}, x.numbersPlain = true →
    y.numbersPlain = true → Follows s → Follows t → x.text ++ s = y.text ++ t → x = y ∧ s = t
  | x, y, s, t, hx, hy, hs, ht, h => by
      have hk := kind_eq_of_text hx hy h
      cases x with
      | null =>
          cases y <;> simp only [kind, reduceCtorEq] at hk
          simpa [text] using h
      | bool b =>
          cases y <;> simp only [kind, reduceCtorEq, Kind.bool.injEq] at hk
          subst hk
          cases b <;> simpa [text] using h
      | number n =>
          cases y <;> simp only [kind, reduceCtorEq] at hk
          rename_i m
          simp only [numbersPlain, plainNumber, Bool.and_eq_true] at hx hy
          rw [text, text] at h
          obtain ⟨hnm, hst⟩ := number_append_inj hx.2 hy.2 hs ht h
          exact ⟨by rw [String.toList_inj.mp hnm], hst⟩
      | string a =>
          cases y <;> simp only [kind, reduceCtorEq] at hk
          rename_i b
          simp only [text, List.cons_append, List.cons.injEq, true_and] at h
          obtain ⟨hab, hst⟩ := stringBody_append_inj h
          exact ⟨by rw [String.toList_inj.mp hab], hst⟩
      | array xs =>
          cases y <;> simp only [kind, reduceCtorEq] at hk
          rename_i ys
          simp only [text, List.cons_append, List.cons.injEq, true_and] at h
          simp only [numbersPlain] at hx hy
          obtain ⟨rfl, hst⟩ := itemsText_append_inj xs ys true hx hy h
          exact ⟨rfl, hst⟩
      | object ms =>
          cases y <;> simp only [kind, reduceCtorEq] at hk
          rename_i ns
          simp only [text, List.cons_append, List.cons.injEq, true_and] at h
          simp only [numbersPlain] at hx hy
          obtain ⟨rfl, hst⟩ := membersText_append_inj ms ns true hx hy h
          exact ⟨rfl, hst⟩

theorem itemsText_append_inj : ∀ (xs ys : List Value) (b : Bool) {s t : List Char},
    itemsPlain xs = true → itemsPlain ys = true →
    itemsText b xs ++ s = itemsText b ys ++ t → xs = ys ∧ s = t
  | [], [], b, s, t, _, _, h => by simpa [itemsText] using h
  | [], y :: ys, b, s, t, _, hy, h => by
      simp only [itemsPlain, Bool.and_eq_true] at hy
      exact absurd h.symm (itemsText_cons_ne y ys b t s hy.1)
  | x :: xs, [], b, s, t, hx, _, h => by
      simp only [itemsPlain, Bool.and_eq_true] at hx
      exact absurd h (itemsText_cons_ne x xs b s t hx.1)
  | x :: xs, y :: ys, b, s, t, hx, hy, h => by
      simp only [itemsPlain, Bool.and_eq_true] at hx hy
      simp only [itemsText, List.append_assoc, List.append_cancel_left_eq] at h
      obtain ⟨rfl, hrest⟩ := text_append_inj x y hx.1 hy.1 (follows_itemsText xs s)
        (follows_itemsText ys t) h
      obtain ⟨rfl, hst⟩ := itemsText_append_inj xs ys false hx.2 hy.2 hrest
      exact ⟨rfl, hst⟩

theorem membersText_append_inj : ∀ (ms ns : List (String × Value)) (b : Bool) {s t : List Char},
    membersPlain ms = true → membersPlain ns = true →
    membersText b ms ++ s = membersText b ns ++ t → ms = ns ∧ s = t
  | [], [], b, s, t, _, _, h => by simpa [membersText] using h
  | [], (k, v) :: ns, b, s, t, _, hn, h => by
      cases b <;> simp [membersText] at h
  | (k, v) :: ms, [], b, s, t, hm, _, h => by
      cases b <;> simp [membersText] at h
  | (k, v) :: ms, (k', v') :: ns, b, s, t, hm, hn, h => by
      simp only [membersPlain, Bool.and_eq_true] at hm hn
      simp only [membersText, List.append_assoc, List.append_cancel_left_eq, List.cons_append,
        List.cons.injEq, true_and] at h
      obtain ⟨hk, hrest⟩ := stringBody_append_inj h
      simp only [List.cons.injEq, true_and] at hrest
      obtain ⟨rfl, htail⟩ := text_append_inj v v' hm.1 hn.1 (follows_membersText ms s)
        (follows_membersText ns t) hrest
      obtain ⟨rfl, hst⟩ := membersText_append_inj ms ns false hm.2 hn.2 htail
      exact ⟨by rw [String.toList_inj.mp hk], hst⟩

end

end Value

/-! ## Quotes and bars -/

/-- Where a reader that only follows quotes and backslashes stands. -/
inductive Scan
  | plain
  | quoted
  | escaped
  deriving DecidableEq

/-- One character; outside of strings a backslash or a `|` is refused. -/
def Scan.step : Scan → Char → Option Scan
  | .plain, c => if c = '"' then some .quoted else if c = '\\' ∨ c = '|' then none else some .plain
  | .quoted, c => if c = '"' then some .plain else if c = '\\' then some .escaped else some .quoted
  | .escaped, _ => some .quoted

/-- Reads a text. -/
def scan (q : Scan) : List Char → Option Scan
  | [] => some q
  | c :: l => (q.step c).bind (scan · l)

lemma scan_append (q : Scan) (a b : List Char) :
    scan q (a ++ b) = (scan q a).bind (scan · b) := by
  induction a generalizing q with
  | nil => rfl
  | cons c a ih =>
      simp only [List.cons_append, scan, Option.bind_assoc]
      congr 1
      funext q'
      exact ih q'

lemma scan_opposite : ∀ (l : List Char) {p q : Scan}, scan .plain l = some p →
    scan .quoted l = some q → (p = .plain ∧ q = .quoted) ∨ (p = .quoted ∧ q = .plain) := by
  intro l
  induction l with
  | nil =>
      intro p q hp hq
      simp only [scan, Option.some.injEq] at hp hq
      exact .inl ⟨hp.symm, hq.symm⟩
  | cons c l ih =>
      intro p q hp hq
      simp only [scan, Scan.step] at hp hq
      by_cases hc : c = '"'
      · simp only [hc, if_true, Option.bind_some] at hp hq
        rcases ih hq hp with ⟨rfl, rfl⟩ | ⟨rfl, rfl⟩
        · exact .inr ⟨rfl, rfl⟩
        · exact .inl ⟨rfl, rfl⟩
      · by_cases hb : c = '\\'
        · simp [hb] at hp
        · by_cases hv : c = '|'
          · simp [hv] at hp
          · simp only [if_neg hc, hb, hv, or_self, if_false, Option.bind_some] at hp hq
            exact ih hp hq

lemma scan_escapeChar (c : Char) : scan .quoted (escapeChar c) = some .quoted := by
  by_cases hq : c = '"'
  · subst hq
    rfl
  by_cases hb : c = '\\'
  · subst hb
    rfl
  by_cases hc : c.toNat < 32
  · have hall : ∀ n < 32, scan .quoted (escapeChar (Char.ofNat n)) = some .quoted := by decide
    have h := hall c.toNat hc
    rwa [Char.ofNat_toNat] at h
  · rw [escapeChar_of_ge hq hb (by omega)]
    simp [scan, Scan.step, hq, hb]

lemma scan_stringBody (s : List Char) : scan .quoted (stringBody s) = some .plain := by
  induction s with
  | nil => rfl
  | cons c s ih => rw [stringBody, scan_append, scan_escapeChar, Option.bind_some, ih]

lemma scan_number {l : List Char} (h : l.all isNumberChar = true) :
    scan .plain l = some .plain := by
  induction l with
  | nil => rfl
  | cons c l ih =>
      simp only [List.all_cons, Bool.and_eq_true] at h
      have hne : ∀ d : Char, isNumberChar d = false → c ≠ d := by
        rintro d hd rfl
        simp [h.1] at hd
      rw [scan, Scan.step, if_neg (hne _ (by decide)),
        if_neg (not_or.mpr ⟨hne _ (by decide), hne _ (by decide)⟩), Option.bind_some, ih h.2]

namespace Value

mutual

/-- **The scanner ends every text outside of strings.** -/
theorem scan_text : ∀ (x : Value), x.numbersPlain = true → scan .plain x.text = some .plain
  | .null, _ => rfl
  | .bool true, _ => rfl
  | .bool false, _ => rfl
  | .number n, h => by
      simp only [numbersPlain, plainNumber, Bool.and_eq_true] at h
      exact scan_number h.2
  | .string s, _ => scan_stringBody s.toList
  | .array xs, h => scan_itemsText xs true h
  | .object ms, h => scan_membersText ms true h

theorem scan_itemsText : ∀ (xs : List Value) (b : Bool), itemsPlain xs = true →
    scan .plain (itemsText b xs) = some .plain
  | [], _, _ => rfl
  | x :: xs, b, h => by
      simp only [itemsPlain, Bool.and_eq_true] at h
      have hsep : scan .plain (if b then [] else [',']) = some .plain := by cases b <;> rfl
      rw [itemsText, scan_append, hsep, Option.bind_some, scan_append, scan_text x h.1,
        Option.bind_some, scan_itemsText xs false h.2]

theorem scan_membersText : ∀ (ms : List (String × Value)) (b : Bool), membersPlain ms = true →
    scan .plain (membersText b ms) = some .plain
  | [], _, _ => rfl
  | (k, v) :: ms, b, h => by
      simp only [membersPlain, Bool.and_eq_true] at h
      have hsep : scan .plain (if b then [] else [',']) = some .plain := by cases b <;> rfl
      have hrest : scan .plain (':' :: (v.text ++ membersText false ms)) = some .plain := by
        rw [show ':' :: (v.text ++ membersText false ms) = [':'] ++ (v.text ++ membersText false ms)
          from rfl, scan_append]
        show scan .plain (v.text ++ membersText false ms) = some .plain
        rw [scan_append, scan_text v h.1, Option.bind_some, scan_membersText ms false h.2]
      rw [membersText, scan_append, hsep, Option.bind_some]
      show scan .quoted (stringBody k.toList ++ (':' :: (v.text ++ membersText false ms))) = _
      rw [scan_append, scan_stringBody, Option.bind_some, hrest]

end

lemma scan_behind_bar {a rest : List Char} (hx : x.numbersPlain = true)
    (h : x.text = a ++ '|' :: rest) : scan .quoted rest = some .plain := by
  have hscan := scan_text x hx
  rw [h, scan_append] at hscan
  cases ha : scan .plain a with
  | none => simp [ha] at hscan
  | some q =>
      simp only [ha, Option.bind_some, scan] at hscan
      cases q with
      | plain => simp [Scan.step] at hscan
      | quoted => simpa [Scan.step] using hscan
      | escaped => simpa [Scan.step] using hscan

/-- **A text is not cut at a `|` that is not its own.**  Whatever stands before the last field,
the field that is a JSON text is the same. -/
theorem bar_text_inj {x y : Value} {a b : List Char} (hx : x.numbersPlain = true)
    (hy : y.numbersPlain = true) (h : a ++ '|' :: x.text = b ++ '|' :: y.text) :
    a = b ∧ x = y := by
  -- one text is the other's tail behind a bar inside of a string: the scanner cannot end both
  have key : ∀ {x y : Value} {c : List Char}, x.numbersPlain = true → y.numbersPlain = true →
      x.text ≠ c ++ '|' :: y.text := by
    intro x y c hx hy h
    have hq := scan_behind_bar hx h
    rcases scan_opposite y.text (scan_text y hy) hq with ⟨-, h'⟩ | ⟨h', -⟩
    · exact absurd h' (by decide)
    · exact absurd h' (by decide)
  rcases List.append_eq_append_iff.mp h with ⟨c, rfl, hc⟩ | ⟨c, rfl, hc⟩
  · cases c with
    | nil =>
        simp only [List.nil_append, List.cons.injEq, true_and] at hc
        refine ⟨(List.append_nil _).symm, ?_⟩
        exact (text_append_inj x y (s := []) (t := []) hx hy (by simp [Follows])
          (by simp [Follows]) (by simpa using hc)).1
    | cons d c =>
        simp only [List.cons_append, List.cons.injEq] at hc
        exact absurd hc.2 (key hx hy)
  · cases c with
    | nil =>
        simp only [List.nil_append, List.cons.injEq, true_and] at hc
        refine ⟨List.append_nil _, ?_⟩
        exact (text_append_inj x y (s := []) (t := []) hx hy (by simp [Follows])
          (by simp [Follows]) (by simpa using hc.symm)).1
    | cons d c =>
        simp only [List.cons_append, List.cons.injEq] at hc
        exact absurd hc.2 (key hy hx)

/-- No text ends with a `|` and plain characters behind it. -/
theorem text_ne_bar_suffix {a rest : List Char} (hx : x.numbersPlain = true)
    (hrest : ∀ c ∈ rest, c ≠ '"' ∧ c ≠ '\\') : x.text ≠ a ++ '|' :: rest := by
  intro h
  have hq := scan_behind_bar hx h
  have hstay : ∀ l : List Char, (∀ c ∈ l, c ≠ '"' ∧ c ≠ '\\') →
      scan .quoted l = some .quoted := by
    intro l
    induction l with
    | nil =>
        intro _
        rfl
    | cons c l ih =>
        intro hl
        have hc := hl c List.mem_cons_self
        rw [scan, Scan.step, if_neg hc.1, if_neg hc.2, Option.bind_some]
        exact ih (fun d hd => hl d (List.mem_cons_of_mem _ hd))
  rw [hstay rest hrest] at hq
  exact absurd hq (by decide)

end Value

end Ridm
