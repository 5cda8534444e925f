import Mathlib.Data.Prod.Lex
import Mathlib.Data.List.Sort
import Mathlib.Data.String.Basic
import Ridm.Lib.SortedMap
import Ridm.Saml.XmlTree

/-!
# Exclusive canonicalization

`canonicalize` of `api/src/saml/c14n.rs`, with what it takes from `api/src/saml/xml.rs`: an element is
printed with its attributes in order and with the namespace declarations that it visibly uses, each where it
is first needed.  `render` passes the declarations printed so far down the tree.  The names of elements are
not kept by the parser and are read again from the text of the document (`elementQname`), up to the first
blank.
-/

namespace Ridm.Saml

/-! ## Names as they are written -/

/-- Where `xml::element_qname` stops. -/
def endsName (c : Char) : Bool := isWhitespace c || c == '/' || c == '>'

/-- What `xml::element_qname` takes for the name of an element written so. -/
def cutName (written : String) : String := String.ofList (written.toList.takeWhile fun c => !endsName c)

/-- `xml::element_qname`. -/
def elementQname (t : XmlTag) : String := cutName t.qname.written

/-- `xml::element_prefix`. -/
def elementPrefix (t : XmlTag) : Option String := (splitOnce (elementQname t) ':').map Prod.fst

/-- A character of a text, as `xml::escape_text` writes it. -/
def escapeTextChar : Char → String
  | '&' => "&amp;"
  | '<' => "&lt;"
  | '>' => "&gt;"
  | '\r' => "&#xD;"
  | c => c.toString

/-- `xml::escape_text`. -/
def escapeText (s : String) : String := String.join (s.toList.map escapeTextChar)

/-- One attribute in a start tag. -/
def writePair (a : String × String) : String := " " ++ a.1 ++ "=\"" ++ escapeAttr a.2 ++ "\""

/-! ## Namespaces to declare -/

/-- Prefixes with their namespaces; the default namespace has the empty prefix. -/
abbrev Declarations := SortedMap String String

def elementUsed (t : XmlTag) : Declarations :=
  match elementPrefix t with
  | some p => SortedMap.empty.insert p ((t.lookupNamespaceUri p).getD "")
  | none => SortedMap.empty.insert "" (t.ns.getD "")

/-- And the prefix of an attribute. -/
def attributeUsed (used : Declarations) (a : XmlAttribute) : Declarations :=
  match splitOnce a.qname.written ':' with
  | some (p, _) => if p = "xml" then used else used.insert p (a.ns.getD "")
  | none => used

/-- And a prefix of the `InclusiveNamespaces`, where it is bound. -/
def inclusiveUsed (t : XmlTag) (used : Declarations) (p : String) : Declarations :=
  if p = "#default" then
    match t.defaultNamespace with
    | some uri => used.orInsert "" uri
    | none => used
  else
    match t.lookupNamespaceUri p with
    | some uri => used.orInsert p uri
    | none => used

/-- `used`: the namespaces an element is printed with. -/
def usedNamespaces (inclusive : List String) (t : XmlTag) : Declarations :=
  inclusive.foldl (inclusiveUsed t) (t.attributes.foldl attributeUsed (elementUsed t))

/-- Whether a declaration is missing from those printed above. -/
def declNeeded (rendered : Declarations) (b : String × String) : Bool :=
  if b.1 = "" then (rendered.get "").getD "" != b.2 else rendered.get b.1 != some b.2

/-- `decls`: the declarations printed with an element. -/
def declsOf (inclusive : List String) (rendered : Declarations) (t : XmlTag) : List (String × String) :=
  (usedNamespaces inclusive t).entries.filter (declNeeded rendered)

/-- `scope`: with more declarations. -/
def scopeWith (rendered : Declarations) (decls : List (String × String)) : Declarations :=
  decls.foldl (fun scope b => scope.insert b.1 b.2) rendered

/-- A declaration, as an attribute. -/
def declPair (b : String × String) : String × String :=
  (if b.1 = "" then "xmlns" else "xmlns:" ++ b.1, b.2)

/-! ## Attributes in order -/

/-- What is sorted of an attribute: the namespace, the name, the name as written and the value. -/
structure CanonAttribute where
  ns : String
  name : String
  qname : String
  value : String
  deriving DecidableEq

/-- An attribute, to be sorted. -/
def XmlAttribute.canon (a : XmlAttribute) : CanonAttribute where
  ns := a.ns.getD ""
  name := a.name
  qname := a.qname.written
  value := a.value

/-- What attributes are sorted by. -/
def CanonAttribute.key (a : CanonAttribute) : String ×ₗ String := toLex (a.ns, a.name)

/-- `attrs`, sorted. -/
def sortedAttributes (t : XmlTag) : List CanonAttribute :=
  (t.attributes.map XmlAttribute.canon).insertionSort fun a b => a.key ≤ b.key

/-- What a start tag holds: the declarations, and the attributes behind them. -/
def pairsOf (inclusive : List String) (rendered : Declarations) (t : XmlTag) : List (String × String) :=
  (declsOf inclusive rendered t).map declPair ++ (sortedAttributes t).map fun a => (a.qname, a.value)

/-! ## Printing -/

/-- A processing instruction. -/
def writeInstruction (i : Instruction) : String :=
  "<?" ++ i.target.text ++ (match i.value with
    | some v => " " ++ v
    | none => "") ++ "?>"

mutual

def render (exclude : Option ℕ) (inclusive : List String) (rendered : Declarations) (n : XmlNode) :
    String :=
  if some n.id = exclude then ""
  else
    match n with
    | .element _ t content =>
        "<" ++ elementQname t ++ String.join ((pairsOf inclusive rendered t).map writePair) ++ ">" ++
          renderAll exclude inclusive (scopeWith rendered (declsOf inclusive rendered t)) content ++
          "</" ++ elementQname t ++ ">"
    | .text _ s => escapeText s
    | .pi _ i => writeInstruction i
    | .comment _ _ => ""

/-- `render`, of the children. -/
def renderAll (exclude : Option ℕ) (inclusive : List String) (rendered : Declarations) :
    List XmlNode → String
  | [] => ""
  | n :: rest => render exclude inclusive rendered n ++ renderAll exclude inclusive rendered rest

end

def canonicalize (n : XmlNode) (exclude : Option ℕ) (inclusive : List String) : String :=
  render exclude inclusive SortedMap.empty n

/-! ## Names split at the colon -/

lemma isNameChar_colon : isNameChar ':' = false := by decide

lemma splitOnce_written (q : QName) :
    splitOnce q.written ':' = q.pre.map fun p => (p.text, q.name.text) := by
  obtain ⟨pre, name⟩ := q
  cases pre with
  | none => exact splitOnce_of_notMem (name.not_mem isNameChar_colon)
  | some p => exact splitOnce_append (p.not_mem isNameChar_colon)

lemma NCName.ext_text {n n' : NCName} (h : n.text = n'.text) : n = n' := by
  obtain ⟨text, _⟩ := n
  obtain ⟨text', _⟩ := n'
  obtain rfl : text = text' := h
  rfl

lemma pre_of_splitOnce_cut {q : QName} {p rest : String}
    (h : splitOnce (cutName q.written) ':' = some (p, rest)) : q.pre.map NCName.text = some p := by
  obtain ⟨pre, name⟩ := q
  have hnone : ∀ s : String, ':' ∉ s.toList → splitOnce (cutName s) ':' = none := by
    intro s hs
    refine splitOnce_of_notMem fun hmem => hs ?_
    rw [cutName, String.toList_ofList] at hmem
    exact (List.takeWhile_prefix _).subset hmem
  cases pre with
  | none =>
      have hcut : splitOnce (cutName (QName.mk none name).written) ':' = none :=
        hnone name.text (name.not_mem isNameChar_colon)
      rw [hcut] at h
      cases h
  | some n =>
      have hwritten : (QName.mk (some n) name).written.toList = n.text.toList ++ ':' :: name.text.toList := by
        simp [QName.written]
      by_cases hall : ∀ c ∈ n.text.toList, (!endsName c) = true
      · have hcut : cutName (QName.mk (some n) name).written =
            n.text ++ String.singleton ':' ++ cutName name.text := by
          apply String.toList_inj.mp
          have hcolon : (':' :: name.text.toList).takeWhile (fun c => !endsName c) =
              ':' :: name.text.toList.takeWhile fun c => !endsName c :=
            List.takeWhile_cons_of_pos (by decide)
          rw [cutName, String.toList_ofList, hwritten, List.takeWhile_append_of_pos hall, hcolon]
          simp [cutName]
        rw [hcut, splitOnce_append (n.not_mem isNameChar_colon)] at h
        exact congrArg some (Prod.mk.inj (Option.some.inj h)).1
      · have hcut : cutName (QName.mk (some n) name).written = cutName n.text := by
          rw [cutName, cutName, hwritten, List.takeWhile_append, if_neg]
          intro hlen
          refine hall fun c hc => ?_
          have heq := List.IsPrefix.eq_of_length (List.takeWhile_prefix _) hlen
          rw [← heq] at hc
          exact List.mem_takeWhile_imp (p := fun c => !endsName c) hc
        rw [hcut, hnone _ (n.not_mem isNameChar_colon)] at h
        cases h

/-! ## Namespaces in use -/

/-- A prefix that is not empty is a name, and stands for what is in scope. -/
def Faithful (t : XmlTag) (used : Declarations) : Prop :=
  ∀ k uri, used.get k = some uri → k ≠ "" →
    isNCName k = true ∧ uri = (t.lookupNamespaceUri k).getD ""

lemma ne_empty_of_isNCName {s : String} (h : isNCName s = true) : s ≠ "" :=
  NCName.text_ne_empty ⟨s, h⟩

/-- One step of collecting the namespaces: what is there stays. -/
structure Collects (t : XmlTag) (used used' : Declarations) : Prop where
  faithful : Faithful t used'
  kept : ∀ k uri, used.get k = some uri → used'.get k = some uri

variable {used : Declarations} {t : XmlTag}

lemma Collects.refl (h : Faithful t used) : Collects t used used :=
  ⟨h, fun _ _ h => h⟩

lemma collects_insert (h : Faithful t used) {p : String} (hp : isNCName p = true) :
    Collects t used (used.insert p ((t.lookupNamespaceUri p).getD "")) where
  faithful := by
    intro k uri hget hk
    rw [SortedMap.get_insert] at hget
    split_ifs at hget with heq
    · rw [heq, Option.some.inj hget]
      exact ⟨hp, rfl⟩
    · exact h k uri hget hk
  kept := by
    intro k uri hget
    rw [SortedMap.get_insert]
    split_ifs with heq
    · subst heq
      rw [(h k uri hget (ne_empty_of_isNCName hp)).2]
    · exact hget

lemma collects_orInsert (h : Faithful t used) {p uri : String}
    (hp : p ≠ "" → isNCName p = true ∧ uri = (t.lookupNamespaceUri p).getD "") :
    Collects t used (used.orInsert p uri) where
  faithful := by
    intro k v hget hk
    rw [SortedMap.get_orInsert] at hget
    split_ifs at hget with heq
    · subst heq
      cases hold : used.get k with
      | none =>
          rw [hold, Option.getD_none] at hget
          rw [← Option.some.inj hget]
          exact hp hk
      | some w =>
          rw [hold, Option.getD_some] at hget
          rw [← Option.some.inj hget]
          exact h k w hold hk
    · exact h k v hget hk
  kept := by
    intro k v hget
    rw [SortedMap.get_orInsert]
    split_ifs with heq
    · subst heq
      rw [hget, Option.getD_some]
    · exact hget

lemma collects_foldl {α : Type} {step : Declarations → α → Declarations} {l : List α}
    (hstep : ∀ used, ∀ a ∈ l, Faithful t used → Collects t used (step used a))
    (h : Faithful t used) : Collects t used (l.foldl step used) := by
  induction l generalizing used with
  | nil => exact .refl h
  | cons a l ih =>
      have hfirst := hstep used a List.mem_cons_self h
      have hrest := ih (fun u b hb => hstep u b (List.mem_cons_of_mem _ hb)) hfirst.faithful
      exact ⟨hrest.faithful, fun k uri hk => hrest.kept k uri (hfirst.kept k uri hk)⟩

/-- The prefix of an attribute, less `xml`, with its namespace. -/
def attributeKey (a : CanonAttribute) : Option (String × String) :=
  match splitOnce a.qname ':' with
  | some (p, _) => if p = "xml" then none else some (p, a.ns)
  | none => none

lemma attributeUsed_eq (used : Declarations) (a : XmlAttribute) :
    attributeUsed used a = (attributeKey a.canon).elim used fun b => used.insert b.1 b.2 := by
  unfold attributeUsed attributeKey
  rw [show a.canon.qname = a.qname.written from rfl]
  cases splitOnce a.qname.written ':' with
  | none => rfl
  | some q =>
      simp only
      split_ifs <;> rfl

lemma attributeKey_faithful {a : XmlAttribute} (ha : a ∈ t.attributes) {p uri : String}
    (h : attributeKey a.canon = some (p, uri)) :
    isNCName p = true ∧ uri = (t.lookupNamespaceUri p).getD "" := by
  have hresolved := t.wellFormed.attributed a ha
  unfold attributeKey at h
  rw [show a.canon.qname = a.qname.written from rfl, splitOnce_written] at h
  unfold XmlAttribute.Resolved at hresolved
  cases hpre : a.qname.pre with
  | none =>
      rw [hpre] at h
      cases h
  | some n =>
      rw [hpre] at h hresolved
      simp only [Option.map_some] at h
      split_ifs at h with hxml
      obtain ⟨rfl, rfl⟩ := Prod.mk.inj (Option.some.inj h)
      have hbound : boundTo t.namespaces (some n.text) = t.lookupNamespaceUri n.text :=
        if_neg fun heq => hxml (Option.some.inj heq)
      refine ⟨n.valid, ?_⟩
      rw [← hbound, ← hresolved.1]
      rfl

lemma collects_attributeUsed (h : Faithful t used) {a : XmlAttribute}
    (ha : a ∈ t.attributes) : Collects t used (attributeUsed used a) := by
  rw [attributeUsed_eq]
  cases hkey : attributeKey a.canon with
  | none => exact .refl h
  | some b =>
      obtain ⟨hp, huri⟩ := attributeKey_faithful ha hkey
      rw [Option.elim_some, huri]
      exact collects_insert h hp

lemma collects_inclusiveUsed (h : Faithful t used) (p : String) :
    Collects t used (inclusiveUsed t used p) := by
  unfold inclusiveUsed
  split_ifs with hp
  · cases t.defaultNamespace with
    | none => exact .refl h
    | some uri => exact collects_orInsert h fun hne => absurd rfl hne
  · cases huri : t.lookupNamespaceUri p with
    | none => exact .refl h
    | some uri =>
        refine collects_orInsert h fun _ => ⟨(t.declared_of_lookup huri p rfl).1, ?_⟩
        rw [huri, Option.getD_some]

/-- The prefix an element is printed with, and what it stands for there. -/
def elementKey (t : XmlTag) : String × String :=
  match elementPrefix t with
  | some p => (p, (t.lookupNamespaceUri p).getD "")
  | none => ("", t.ns.getD "")

lemma elementUsed_eq (t : XmlTag) :
    elementUsed t = SortedMap.empty.insert (elementKey t).1 (elementKey t).2 := by
  unfold elementUsed elementKey
  cases elementPrefix t <;> rfl

lemma isNCName_of_elementPrefix {p : String} (h : elementPrefix t = some p) :
    isNCName p = true := by
  obtain ⟨⟨q, rest⟩, hsplit, rfl⟩ := Option.map_eq_some_iff.mp h
  obtain ⟨n, -, rfl⟩ := Option.map_eq_some_iff.mp (pre_of_splitOnce_cut hsplit)
  exact n.valid

lemma faithful_elementUsed (t : XmlTag) : Faithful t (elementUsed t) := by
  intro k uri hget hk
  rw [elementUsed_eq, SortedMap.get_insert] at hget
  split_ifs at hget with heq
  · have huri := Option.some.inj hget
    unfold elementKey at heq huri
    cases hp : elementPrefix t with
    | none =>
        rw [hp] at heq
        exact absurd heq hk
    | some p =>
        rw [hp] at heq huri
        rw [← huri, heq]
        exact ⟨isNCName_of_elementPrefix hp, rfl⟩
  · cases hget

/-- **The namespaces in use** hold those of the element and of its attributes, whatever is added. -/
theorem collects_usedNamespaces (inclusive : List String) (t : XmlTag) :
    Collects t (t.attributes.foldl attributeUsed (elementUsed t)) (usedNamespaces inclusive t) :=
  collects_foldl (fun _ p _ h => collects_inclusiveUsed h p)
    (collects_foldl (fun _ _ ha h => collects_attributeUsed h ha) (faithful_elementUsed t)).faithful

lemma collects_attributes (t : XmlTag) :
    Collects t (elementUsed t) (t.attributes.foldl attributeUsed (elementUsed t)) :=
  collects_foldl (fun _ _ ha h => collects_attributeUsed h ha) (faithful_elementUsed t)

lemma get_attributesUsed {l : List XmlAttribute} (hl : ∀ a ∈ l, a ∈ t.attributes)
    (h : Faithful t used) (k uri : String) :
    (l.foldl attributeUsed used).get k = some uri ↔
      used.get k = some uri ∨ ∃ a ∈ l, attributeKey a.canon = some (k, uri) := by
  induction l generalizing used with
  | nil => simp
  | cons a l ih =>
      have ha := hl a List.mem_cons_self
      rw [List.foldl_cons, ih (fun b hb => hl b (List.mem_cons_of_mem _ hb))
        (collects_attributeUsed h ha).faithful]
      have hstep : (attributeUsed used a).get k = some uri ↔
          used.get k = some uri ∨ attributeKey a.canon = some (k, uri) := by
        refine ⟨fun hget => ?_, ?_⟩
        · rw [attributeUsed_eq] at hget
          cases hkey : attributeKey a.canon with
          | none =>
              rw [hkey] at hget
              exact .inl hget
          | some b =>
              rw [hkey, Option.elim_some, SortedMap.get_insert] at hget
              split_ifs at hget with heq
              · rw [heq, ← Option.some.inj hget]
                exact .inr rfl
              · exact .inl hget
        · rintro (hold | hkey)
          · exact (collects_attributeUsed h ha).kept k uri hold
          · rw [attributeUsed_eq, hkey, Option.elim_some, SortedMap.get_insert, if_pos rfl]
      rw [hstep, or_assoc]
      simp

/-! ## Namespaces as they are printed -/

lemma get_scopeWith (rendered : Declarations) {decls : List (String × String)}
    (h : decls.Pairwise fun x y => x.1 < y.1) (k : String) :
    (scopeWith rendered decls).get k = (decls.lookup k).or (rendered.get k) := by
  induction decls generalizing rendered with
  | nil => rfl
  | cons b decls ih =>
      obtain ⟨hb, hdecls⟩ := List.pairwise_cons.mp h
      rw [scopeWith, List.foldl_cons]
      refine (ih (rendered.insert b.1 b.2) hdecls).trans ?_
      rw [SortedMap.lookup_cons_eq, SortedMap.get_insert]
      split_ifs with hk
      · subst hk
        have hnone : decls.lookup b.1 = none := by
          rw [List.lookup_eq_none_iff]
          intro x hx
          simpa using (hb x hx).ne
        rw [hnone, Option.none_or, Option.some_or]
      · rfl

/-- **Each namespace used is in scope** behind a start tag; the default one may be none. -/
theorem get_scope_of_used {inclusive : List String} {rendered : Declarations} {k uri : String}
    (h : (usedNamespaces inclusive t).get k = some uri) :
    ((scopeWith rendered (declsOf inclusive rendered t)).get k).getD "" = uri := by
  have hsorted : (declsOf inclusive rendered t).Pairwise fun x y => x.1 < y.1 :=
    (usedNamespaces inclusive t).sorted.filter _
  have hmem := (SortedMap.get_eq_some_iff _).mp h
  rw [get_scopeWith rendered hsorted]
  have hlookup : ∀ v, (declsOf inclusive rendered t).lookup k = some v → v = uri := by
    intro v hv
    have hin : (k, v) ∈ declsOf inclusive rendered t :=
      (SortedMap.get_eq_some_iff ⟨_, hsorted⟩).mp hv
    have hget := (SortedMap.get_eq_some_iff _).mpr (List.mem_filter.mp hin).1
    rw [h] at hget
    exact (Option.some.inj hget).symm
  cases hdecl : (declsOf inclusive rendered t).lookup k with
  | some v => rw [Option.some_or, Option.getD_some, hlookup v hdecl]
  | none =>
      rw [Option.none_or]
      by_cases hneeded : declNeeded rendered (k, uri) = true
      · have hin : (k, uri) ∈ declsOf inclusive rendered t := List.mem_filter.mpr ⟨hmem, hneeded⟩
        have hget : (declsOf inclusive rendered t).lookup k = some uri :=
          (SortedMap.get_eq_some_iff ⟨_, hsorted⟩).mpr hin
        rw [hdecl] at hget
        cases hget
      · unfold declNeeded at hneeded
        split_ifs at hneeded with hk
        · rw [show k = "" from hk]
          simpa using hneeded
        · have hget : rendered.get k = some uri := by simpa using hneeded
          rw [hget, Option.getD_some]

end Ridm.Saml
