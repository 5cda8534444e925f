import Ridm.Kerberos.Acceptor
import Ridm.Users.ProfileSchema

/-!
# The text of a principal

`Principal::parse` and `Display` of `api/src/kerberos/principal.rs`.

What `Display` writes is read back character by character (`parseChars_chars`), whatever the names contain but
control characters, so no two principals have one text (`text_injective`).  `parse` trims the whole text first,
though, and white space is not escaped: of a first component that begins with it, and of a realm that ends with
it, the ends are lost (`trim_text`), and what is read is another principal.
-/

namespace Ridm.Kerberos.Principal

open Users (isControl)

def MAX_LEN : ℕ := 512

/-- What has been read: the components before the last, the last, and the realm. -/
structure Reading where
  done : List String
  last : String
  realm : Option String

/-- A character is put where the reading is. -/
def Reading.push (r : Reading) (c : Char) : Reading :=
  match r.realm with
  | some realm => { r with realm := some (realm.push c) }
  | none => { r with last := r.last.push c }

def Reading.component (r : Reading) : Reading := { r with done := r.done ++ [r.last], last := "" }

/-- A character of a name. -/
def readChar (r : Reading) (c : Char) : Except String Reading :=
  if isControl c then .error "contains a control character" else .ok (r.push c)

/-- The loop of `Principal::parse`. -/
def parseChars (r : Reading) : List Char → Except String Reading
  | [] => .ok r
  | c :: rest =>
      if c = '\\' then
        match rest with
        | [] => .error "ends with a lone backslash"
        | c :: rest => (readChar r c).bind fun r => parseChars r rest
      else if c = '/' ∧ r.realm = none then parseChars r.component rest
      else if c = '@' then
        if r.realm = none then parseChars { r with realm := some "" } rest
        else .error "has more than one unescaped @"
      else (readChar r c).bind fun r => parseChars r rest

/-- `Principal::parse`. -/
def parse (raw : String) : Except String Principal := do
  let raw := trim raw
  require "must be 1-512 characters" (!raw.isEmpty && decide (raw.utf8ByteSize ≤ MAX_LEN))
  let r ← parseChars ⟨[], "", none⟩ raw.toList
  let realm ← orError "needs a realm: name@REALM" r.realm
  require "has an empty realm" (!realm.isEmpty)
  require "has an empty name component" (!(r.done ++ [r.last]).any String.isEmpty)
  pure ⟨r.done ++ [r.last], realm⟩

/-! ## What `Display` writes -/

/-- The characters of a name, escaped. -/
def escapeChars (l : List Char) : List Char :=
  l.flatMap fun c => if c = '/' ∨ c = '@' ∨ c = '\\' then ['\\', c] else [c]

/-- The characters of the components. -/
def nameChars (c : String) : List String → List Char
  | [] => escapeChars c.toList
  | c' :: cs => escapeChars c.toList ++ '/' :: nameChars c' cs

lemma toList_escape (s : String) : (escape s).toList = escapeChars s.toList := by
  rw [escape, String.toList_join, escapeChars, List.flatMap_map]
  congr 1
  funext c
  split_ifs <;> simp

lemma toList_names (c : String) (cs : List String) :
    (String.intercalate "/" ((c :: cs).map escape)).toList = nameChars c cs := by
  induction cs generalizing c with
  | nil => rw [List.map_singleton, String.intercalate_singleton, toList_escape, nameChars]
  | cons c' cs ih =>
      have hrest := ih c'
      rw [List.map_cons] at hrest
      rw [List.map_cons, List.map_cons, String.intercalate_cons_cons, String.toList_append, String.toList_append,
        toList_escape, hrest, nameChars, List.append_assoc]
      rfl

variable {p : Principal} {c : Char} {cs : List String} {r : Reading}

lemma toList_text {c : String} (h : p.components = c :: cs) :
    p.text.toList = nameChars c cs ++ '@' :: escapeChars p.realm.toList := by
  rw [text, h, String.toList_append, String.toList_append, toList_names, toList_escape, List.append_assoc]
  rfl

/-! ## Reading it back -/

/-- Characters put one after another. -/
def Reading.pushAll (r : Reading) (l : List Char) : Reading := l.foldl Reading.push r

lemma pushAll_name (l : List Char) (done : List String) (last : String) :
    Reading.pushAll ⟨done, last, none⟩ l = ⟨done, last ++ String.ofList l, none⟩ := by
  induction l generalizing last with
  | nil => simp [Reading.pushAll]
  | cons c l ih =>
      have hpush : last.push c ++ String.ofList l = last ++ String.ofList (c :: l) := by
        simp [← String.toList_inj]
      rw [← hpush, ← ih]
      rfl

lemma pushAll_realm (l : List Char) (done : List String) (last realm : String) :
    Reading.pushAll ⟨done, last, some realm⟩ l = ⟨done, last, some (realm ++ String.ofList l)⟩ := by
  induction l generalizing realm with
  | nil => simp [Reading.pushAll]
  | cons c l ih =>
      have hpush : realm.push c ++ String.ofList l = realm ++ String.ofList (c :: l) := by
        simp [← String.toList_inj]
      rw [← hpush, ← ih]
      rfl

/-- No control characters. -/
def Plain (s : String) : Prop := ∀ c ∈ s.toList, isControl c = false

lemma parseChars_escaped (r : Reading) (c : Char) (rest : List Char) :
    parseChars r ('\\' :: c :: rest) = (readChar r c).bind fun r => parseChars r rest := rfl

lemma parseChars_plain (hslash : c ≠ '/') (hat : c ≠ '@') (hescape : c ≠ '\\') (r : Reading)
    (rest : List Char) : parseChars r (c :: rest) = (readChar r c).bind fun r => parseChars r rest := by
  rw [parseChars.eq_def]
  dsimp only
  rw [if_neg hescape, if_neg fun h => hslash h.1, if_neg hat]

lemma parseChars_component (h : r.realm = none) (rest : List Char) :
    parseChars r ('/' :: rest) = parseChars r.component rest := by
  rw [parseChars.eq_def]
  dsimp only
  rw [if_neg (by decide), if_pos ⟨rfl, h⟩]

lemma parseChars_realm (h : r.realm = none) (rest : List Char) :
    parseChars r ('@' :: rest) = parseChars { r with realm := some "" } rest := by
  rw [parseChars.eq_def]
  dsimp only
  rw [if_neg (by decide), if_neg (by simp), if_pos rfl, if_pos h]

/-- **An escaped name** is read as the name. -/
lemma parseChars_escapeChars {l : List Char} (h : ∀ c ∈ l, isControl c = false) (r : Reading) (rest : List Char) :
    parseChars r (escapeChars l ++ rest) = parseChars (r.pushAll l) rest := by
  induction l generalizing r with
  | nil => rfl
  | cons c l ih =>
      obtain ⟨hc, hl⟩ := List.forall_mem_cons.mp h
      have hread : readChar r c = .ok (r.push c) := by rw [readChar, hc, if_neg Bool.false_ne_true]
      have hsplit : escapeChars (c :: l) ++ rest =
          (if c = '/' ∨ c = '@' ∨ c = '\\' then ['\\', c] else [c]) ++ (escapeChars l ++ rest) := by
        simp [escapeChars]
      rw [hsplit]
      split_ifs with hspecial
      · show parseChars r ('\\' :: c :: (escapeChars l ++ rest)) = _
        rw [parseChars_escaped, hread]
        exact ih hl (r.push c)
      · rw [not_or, not_or] at hspecial
        rw [List.singleton_append, parseChars_plain hspecial.1 hspecial.2.1 hspecial.2.2, hread]
        exact ih hl (r.push c)

lemma parseChars_nameChars {c : String} (h : ∀ s ∈ c :: cs, Plain s) (done : List String)
    (rest : List Char) : ∃ done' last, done' ++ [last] = done ++ c :: cs ∧
      parseChars ⟨done, "", none⟩ (nameChars c cs ++ '@' :: rest) = parseChars ⟨done', last, some ""⟩ rest := by
  induction cs generalizing c done with
  | nil =>
      refine ⟨done, c, rfl, ?_⟩
      have hc : Plain c := h c List.mem_cons_self
      rw [nameChars, parseChars_escapeChars hc, pushAll_name, parseChars_realm rfl]
      simp
  | cons c' cs ih =>
      obtain ⟨hc, hcs⟩ := List.forall_mem_cons.mp h
      obtain ⟨done', last, hlist, hparse⟩ := ih hcs (done ++ [c])
      refine ⟨done', last, by rw [hlist, List.append_assoc]; rfl, ?_⟩
      rw [nameChars, List.append_assoc, parseChars_escapeChars hc, pushAll_name, List.cons_append,
        parseChars_component rfl, ← hparse]
      simp [Reading.component]

/-- **The text of a principal** is read as its components and its realm. -/
lemma parseChars_text (hne : p.components ≠ []) (hplain : ∀ s ∈ p.components, Plain s)
    (hrealm : Plain p.realm) : ∃ done last, done ++ [last] = p.components ∧
      parseChars ⟨[], "", none⟩ p.text.toList = .ok ⟨done, last, some p.realm⟩ := by
  obtain ⟨c, cs, hcs⟩ := List.exists_cons_of_ne_nil hne
  rw [hcs] at hplain
  obtain ⟨done, last, hlist, hparse⟩ := parseChars_nameChars hplain [] (escapeChars p.realm.toList)
  refine ⟨done, last, by rw [hlist, hcs]; rfl, ?_⟩
  have hread := parseChars_escapeChars hrealm ⟨done, last, some ""⟩ []
  rw [List.append_nil, pushAll_realm] at hread
  rw [toList_text hcs, hparse, hread, parseChars]
  simp

/-! ## Trimming -/

/-- What is left of a principal whose text is trimmed. -/
def trimmed (p : Principal) : Principal where
  components := match p.components with
    | [] => []
    | c :: cs => String.ofList (c.toList.dropWhile isWhitespace) :: cs
  realm := String.ofList (p.realm.toList.rdropWhile isWhitespace)

/-- Neither the first component begins with white space, nor does the realm end with it. -/
def Tight (p : Principal) : Prop :=
  (∀ c ∈ p.components.head?, (c.toList.head?.any isWhitespace) = false) ∧
    p.realm.toList.getLast?.any isWhitespace = false

instance : DecidablePred Tight := fun _ => inferInstanceAs (Decidable (_ ∧ _))

lemma not_whitespace_of_special (h : c = '/' ∨ c = '@' ∨ c = '\\') : isWhitespace c = false := by
  rcases h with rfl | rfl | rfl
  · decide
  · decide
  · decide

lemma dropWhile_escapeChars (l : List Char) :
    (escapeChars l).dropWhile isWhitespace = escapeChars (l.dropWhile isWhitespace) := by
  induction l with
  | nil => rfl
  | cons c l ih =>
      have hsplit : escapeChars (c :: l) =
          (if c = '/' ∨ c = '@' ∨ c = '\\' then ['\\', c] else [c]) ++ escapeChars l := by
        simp [escapeChars]
      cases hc : isWhitespace c with
      | true =>
          have hspecial : ¬ (c = '/' ∨ c = '@' ∨ c = '\\') := fun h => by
            rw [not_whitespace_of_special h] at hc
            cases hc
          rw [List.dropWhile_cons_of_pos hc, hsplit, if_neg hspecial, List.singleton_append,
            List.dropWhile_cons_of_pos hc, ih]
      | false =>
          rw [List.dropWhile_cons_of_neg (by simp [hc]), hsplit]
          split_ifs with hspecial
          · exact List.dropWhile_cons_of_neg (by decide)
          · exact List.dropWhile_cons_of_neg (by simp [hc])

lemma escapeChars_concat (l : List Char) (c : Char) : escapeChars (l ++ [c]) =
    escapeChars l ++ (if c = '/' ∨ c = '@' ∨ c = '\\' then ['\\', c] else [c]) := by
  simp [escapeChars]

lemma rdropWhile_escapeChars (l : List Char) :
    (escapeChars l).rdropWhile isWhitespace = escapeChars (l.rdropWhile isWhitespace) := by
  induction l using List.reverseRecOn with
  | nil => rfl
  | append_singleton l c ih =>
      cases hc : isWhitespace c with
      | true =>
          have hspecial : ¬ (c = '/' ∨ c = '@' ∨ c = '\\') := fun h => by
            rw [not_whitespace_of_special h] at hc
            cases hc
          rw [List.rdropWhile_concat_pos isWhitespace l c hc, escapeChars_concat, if_neg hspecial,
            List.rdropWhile_concat_pos isWhitespace _ c hc, ih]
      | false =>
          rw [List.rdropWhile_concat_neg isWhitespace l c (by simp [hc]), escapeChars_concat]
          split_ifs with hspecial
          · have happend : escapeChars l ++ ['\\', c] = (escapeChars l ++ ['\\']) ++ [c] := by simp
            rw [happend, List.rdropWhile_concat_neg isWhitespace _ c (by simp [hc])]
          · rw [List.rdropWhile_concat_neg isWhitespace _ c (by simp [hc])]

lemma dropWhile_append_cons (l : List Char) (hc : isWhitespace c = false) (rest : List Char) :
    (l ++ c :: rest).dropWhile isWhitespace = l.dropWhile isWhitespace ++ c :: rest := by
  rw [List.dropWhile_append]
  split_ifs with hempty
  · rw [List.isEmpty_iff.mp hempty, List.dropWhile_cons_of_neg (by simp [hc])]
    rfl
  · rfl

lemma rdropWhile_append_cons (l : List Char) (hc : isWhitespace c = false) (rest : List Char) :
    (l ++ c :: rest).rdropWhile isWhitespace = l ++ c :: rest.rdropWhile isWhitespace := by
  rw [List.rdropWhile, List.reverse_append, List.reverse_cons, List.append_assoc, List.singleton_append,
    dropWhile_append_cons _ hc, List.reverse_append, List.reverse_cons, List.reverse_reverse, List.append_assoc]
  rfl

/-- **Trimming the text** trims the first component in front and the realm at its end. -/
lemma trim_text (hne : p.components ≠ []) : trim p.text = p.trimmed.text := by
  obtain ⟨c, cs, hcs⟩ := List.exists_cons_of_ne_nil hne
  have htrimmed : p.trimmed.components = String.ofList (c.toList.dropWhile isWhitespace) :: cs := by
    rw [trimmed, hcs]
  have hfront : ∀ rest, (nameChars c cs ++ '@' :: rest).dropWhile isWhitespace =
      nameChars (String.ofList (c.toList.dropWhile isWhitespace)) cs ++ '@' :: rest := by
    intro rest
    cases cs with
    | nil =>
        rw [nameChars, nameChars, dropWhile_append_cons _ (by decide), dropWhile_escapeChars, String.toList_ofList]
    | cons c' cs =>
        rw [nameChars, nameChars, List.append_assoc, List.append_assoc, List.cons_append,
          dropWhile_append_cons _ (by decide), dropWhile_escapeChars, String.toList_ofList]
  rw [← String.toList_inj, toList_trim, toList_text htrimmed, toList_text hcs]
  show ((nameChars c cs ++ '@' :: escapeChars p.realm.toList).dropWhile isWhitespace).rdropWhile isWhitespace = _
  rw [hfront, rdropWhile_append_cons _ (by decide), rdropWhile_escapeChars, trimmed, String.toList_ofList]

lemma dropWhile_eq_self_iff (l : List Char) :
    l.dropWhile isWhitespace = l ↔ l.head?.any isWhitespace = false := by
  cases l with
  | nil => exact iff_of_true rfl rfl
  | cons c l =>
      rw [List.head?_cons, Option.any_some]
      cases hc : isWhitespace c with
      | true =>
          rw [List.dropWhile_cons_of_pos hc]
          refine iff_of_false (fun h => ?_) (by simp)
          have hlength := (List.dropWhile_suffix isWhitespace (l := l)).length_le
          rw [h, List.length_cons] at hlength
          omega
      | false => exact iff_of_true (List.dropWhile_cons_of_neg (by simp [hc])) rfl

lemma rdropWhile_eq_self_iff (l : List Char) :
    l.rdropWhile isWhitespace = l ↔ l.getLast?.any isWhitespace = false := by
  rw [List.rdropWhile, List.reverse_eq_iff, dropWhile_eq_self_iff, List.head?_reverse]

lemma trimmed_eq_self_iff : p.trimmed = p ↔ Tight p := by
  obtain ⟨components, realm⟩ := p
  have hrealm : String.ofList (realm.toList.rdropWhile isWhitespace) = realm ↔
      realm.toList.getLast?.any isWhitespace = false := by
    rw [← rdropWhile_eq_self_iff, ← String.toList_inj, String.toList_ofList]
  cases components with
  | nil => simp [trimmed, Tight, hrealm]
  | cons c cs =>
      have hc : String.ofList (c.toList.dropWhile isWhitespace) = c ↔
          c.toList.head?.any isWhitespace = false := by
        rw [← dropWhile_eq_self_iff, ← String.toList_inj, String.toList_ofList]
      simp [trimmed, Tight, hrealm, hc]

/-! ## The round trip -/

/-- A principal with components, none of them empty, and a realm, without control characters. -/
structure Named (p : Principal) : Prop where
  components : p.components ≠ []
  component : ∀ c ∈ p.components, c ≠ ""
  realm : p.realm ≠ ""
  plain : ∀ c ∈ p.components, Plain c
  plain_realm : Plain p.realm

lemma plain_trimmed (h : Named p) : (∀ c ∈ p.trimmed.components, Plain c) ∧ Plain p.trimmed.realm := by
  obtain ⟨components, realm⟩ := p
  constructor
  · intro c hc d hd
    cases components with
    | nil => cases hc
    | cons c' cs =>
        rcases List.mem_cons.mp hc with rfl | hc
        · rw [String.toList_ofList] at hd
          exact h.plain c' List.mem_cons_self d ((List.dropWhile_suffix isWhitespace).subset hd)
        · exact h.plain c (List.mem_cons_of_mem _ hc) d hd
  · intro d hd
    have hd' : d ∈ (String.ofList (realm.toList.rdropWhile isWhitespace)).toList := hd
    rw [String.toList_ofList] at hd'
    exact h.plain_realm d ((List.rdropWhile_prefix isWhitespace _).subset hd')

lemma parse_eq_ok_iff {raw : String} {q r : Principal} (h : trim raw = q.text) (hne : q.components ≠ [])
    (hplain : ∀ c ∈ q.components, Plain c) (hrealm : Plain q.realm) : parse raw = .ok r ↔
      (q.text.isEmpty = false ∧ q.text.utf8ByteSize ≤ MAX_LEN) ∧ q.realm.isEmpty = false ∧
        q.components.any String.isEmpty = false ∧ q = r := by
  obtain ⟨done, last, hlist, hparse⟩ := parseChars_text hne hplain hrealm
  obtain ⟨components, realm⟩ := q
  obtain rfl : done ++ [last] = components := hlist
  rw [parse, h]
  simp [bind_eq_ok, hparse, pure, Except.pure]

lemma text_ne_empty (h : p.components ≠ []) : p.text.isEmpty = false := by
  obtain ⟨c, cs, hcs⟩ := List.exists_cons_of_ne_nil h
  rw [← Bool.not_eq_true, String.isEmpty_iff, ← String.toList_inj, toList_text hcs]
  simp

/-- **The text of a principal is read as it**, exactly when it neither begins nor ends with white space. -/
lemma parse_text_iff (h : Named p) (hlength : p.text.utf8ByteSize ≤ MAX_LEN) :
    parse p.text = .ok p ↔ Tight p := by
  have hne : p.trimmed.components ≠ [] := by
    obtain ⟨c, cs, hcs⟩ := List.exists_cons_of_ne_nil h.components
    rw [trimmed, hcs]
    exact List.cons_ne_nil _ _
  obtain ⟨hplain, hrealm⟩ := plain_trimmed h
  rw [parse_eq_ok_iff (trim_text h.components) hne hplain hrealm, ← trimmed_eq_self_iff]
  constructor
  · exact fun hread => hread.2.2.2
  · intro hsame
    rw [hsame]
    have hrealm' : p.realm.isEmpty = false := by
      rw [← Bool.not_eq_true, String.isEmpty_iff]
      exact h.realm
    have hcomponents : p.components.any String.isEmpty = false := by
      rw [List.any_eq_false]
      intro c hc
      rw [String.isEmpty_iff]
      exact h.component c hc
    exact ⟨⟨text_ne_empty h.components, hlength⟩, hrealm', hcomponents, rfl⟩

/-- **No two principals have one text.** -/
theorem text_injective {p q : Principal} (hp : Named p) (hq : Named q) (h : p.text = q.text) : p = q := by
  obtain ⟨done, last, hlist, hparse⟩ := parseChars_text hp.components hp.plain hp.plain_realm
  obtain ⟨done', last', hlist', hparse'⟩ := parseChars_text hq.components hq.plain hq.plain_realm
  rw [h, hparse', Except.ok.injEq, Reading.mk.injEq, Option.some.injEq] at hparse
  obtain ⟨rfl, rfl, hrealm⟩ := hparse
  obtain ⟨components, realm⟩ := p
  obtain ⟨components', realm'⟩ := q
  exact (congrArg₂ Principal.mk (hlist'.symm.trans hlist) hrealm).symm

/-- **The text of a principal names it**: it is read as the principal, unless white space stands at one of its
ends, and it is no other principal's. -/
theorem text_names_one (p : Principal) (hp : Named p) :
    (p.text.utf8ByteSize ≤ MAX_LEN → (parse p.text = .ok p ↔ Tight p)) ∧
      ∀ q, Named q → q.text = p.text → q = p :=
  ⟨fun hlength => parse_text_iff hp hlength, fun _ hq h => text_injective hq hp h⟩

def service : Principal := ⟨["HTTP", "sso/a"], "EXAMPLE.COM"⟩

def spaced : Principal := ⟨[" alice"], "EXAMPLE.COM"⟩

lemma plain_of_all {s : String} (h : (s.toList.all fun c => !isControl c) = true) : Plain s := by
  intro c hc
  simpa using List.all_eq_true.mp h c hc

lemma named_service : Named service where
  components := by decide
  component := by decide
  realm := by decide
  plain := List.forall_mem_cons.mpr ⟨plain_of_all (by decide), List.forall_mem_singleton.mpr (plain_of_all (by decide))⟩
  plain_realm := plain_of_all (by decide)

lemma named_spaced : Named spaced where
  components := by decide
  component := by decide
  realm := by decide
  plain := List.forall_mem_singleton.mpr (plain_of_all (by decide))
  plain_realm := plain_of_all (by decide)

lemma text_service : service.text = "HTTP/sso\\/a@EXAMPLE.COM" := by
  rw [← String.toList_inj, toList_text rfl]
  decide

lemma text_spaced : spaced.text = " alice@EXAMPLE.COM" := by
  rw [← String.toList_inj, toList_text rfl]
  decide

theorem text_names_one_service : parse "HTTP/sso\\/a@EXAMPLE.COM" = .ok service ∧
    (spaced.text = service.text → spaced = service) := by
  have hlength : service.text.utf8ByteSize ≤ MAX_LEN := by
    rw [text_service]
    decide
  rw [← text_service]
  obtain ⟨hread, hunique⟩ := text_names_one service named_service
  exact ⟨(hread hlength).mpr (by decide), hunique spaced named_spaced⟩

/-- **A name that begins with a space** is read as another one. -/
theorem spaced_read_as_another : Named spaced ∧ spaced.text.utf8ByteSize ≤ MAX_LEN ∧
    parse spaced.text = .ok ⟨["alice"], "EXAMPLE.COM"⟩ ∧ spaced ≠ ⟨["alice"], "EXAMPLE.COM"⟩ := by
  obtain ⟨hplain, hrealm⟩ := plain_trimmed named_spaced
  have htrimmed : spaced.trimmed = ⟨["alice"], "EXAMPLE.COM"⟩ := by decide
  have htext : spaced.trimmed.text = "alice@EXAMPLE.COM" := by
    rw [← String.toList_inj, toList_text rfl]
    decide
  refine ⟨named_spaced, by rw [text_spaced]; decide, ?_, by decide⟩
  rw [parse_eq_ok_iff (trim_text named_spaced.components) (by decide) hplain hrealm, htext]
  exact ⟨⟨by decide, by decide⟩, by decide, by decide, htrimmed⟩

end Ridm.Kerberos.Principal
