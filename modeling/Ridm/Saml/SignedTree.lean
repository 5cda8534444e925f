import Mathlib.Data.Finset.Image
import Ridm.Saml.C14nText

/-!
# What a canonical form says

The tree of an element is what is left of it without comments, without the signature, and with its text as
single characters, so that adjacent texts are one (`XmlNode.tree`).  A canonical form gives the tree back but
for the names of elements, which `element_qname` cuts at a blank (`cut_tree_of_canonicalize`), and with no
inclusive prefixes it depends on nothing else (`canonicalize_of_cut_tree`).
-/

namespace Ridm.Saml

/-! ## Trees -/

/-- An element without its content: its name as written, its namespace, and its attributes as a set. -/
structure TreeTag where
  name : String
  ns : String
  attributes : Finset CanonAttribute
  deriving DecidableEq

/-- The tag of an element. -/
def treeTag (t : XmlTag) : TreeTag where
  name := t.qname.written
  ns := t.ns.getD ""
  attributes := (t.attributes.map XmlAttribute.canon).toFinset

/-- A tag, with as much of its name as `element_qname` takes. -/
def TreeTag.cut (t : TreeTag) : TreeTag := { t with name := cutName t.name }

namespace XmlNode

mutual

/-- The tags and characters of a node before those behind it. -/
def items (exclude : Option ℕ) (n : XmlNode) (rest : Forest XmlTag Atom) : Forest XmlTag Atom :=
  if some n.id = exclude then rest
  else
    match n with
    | element _ tag content => .branch tag (itemsAll exclude content .nil) rest
    | text _ s => s.toList.foldr (fun c => .leaf (.char c)) rest
    | pi _ i => .leaf (.instruction i) rest
    | comment _ _ => rest

def itemsAll (exclude : Option ℕ) : List XmlNode → Forest XmlTag Atom → Forest XmlTag Atom
  | [], rest => rest
  | n :: l, rest => items exclude n (itemsAll exclude l rest)

end

/-- The tree of a node, less what is excluded. -/
def tree (exclude : Option ℕ) (n : XmlNode) : Forest TreeTag Atom := (n.items exclude .nil).map treeTag

end XmlNode

/-! ## Canonical forms as forests -/

/-- What is printed of a tag, and what is in scope behind it. -/
def canonTag (inclusive : List String) (rendered : Declarations) (t : XmlTag) : Declarations × CanonTag :=
  (scopeWith rendered (declsOf inclusive rendered t), ⟨elementQname t, pairsOf inclusive rendered t⟩)

def canonTokens (inclusive : List String) (rendered : Declarations) (f : Forest XmlTag Atom) :
    List CanonToken :=
  (f.retag (canonTag inclusive) rendered).tokens CanonTag.name

/-- The tokens as printed. -/
def writeTokens (l : List CanonToken) : String := String.join (l.map writeToken)

@[simp] lemma writeTokens_nil : writeTokens [] = "" := rfl

@[simp] lemma writeTokens_cons (x : CanonToken) (l : List CanonToken) :
    writeTokens (x :: l) = writeToken x ++ writeTokens l := by
  apply String.toList_inj.mp
  simp [writeTokens, String.toList_join]

@[simp] lemma writeTokens_append (l l' : List CanonToken) :
    writeTokens (l ++ l') = writeTokens l ++ writeTokens l' := by
  apply String.toList_inj.mp
  simp [writeTokens, String.toList_join]

lemma writeTokens_text (inclusive : List String) (rendered : Declarations) (l : List Char)
    (rest : Forest XmlTag Atom) :
    writeTokens (canonTokens inclusive rendered (l.foldr (fun c => .leaf (.char c)) rest)) =
      String.join (l.map escapeTextChar) ++ writeTokens (canonTokens inclusive rendered rest) := by
  induction l with
  | nil => apply String.toList_inj.mp; simp
  | cons c l ih =>
      have hcons : canonTokens inclusive rendered
          ((c :: l).foldr (fun c => .leaf (.char c)) rest) = .leaf (.char c) ::
            canonTokens inclusive rendered (l.foldr (fun c => .leaf (.char c)) rest) := rfl
      rw [hcons, writeTokens_cons, ih]
      apply String.toList_inj.mp
      simp [String.toList_join, writeToken]

lemma canonTokens_branch (inclusive : List String) (rendered : Declarations) (t : XmlTag)
    (content rest : Forest XmlTag Atom) :
    canonTokens inclusive rendered (.branch t content rest) =
      .opening ⟨elementQname t, pairsOf inclusive rendered t⟩ ::
        (canonTokens inclusive (scopeWith rendered (declsOf inclusive rendered t)) content ++
          .closing (elementQname t) :: canonTokens inclusive rendered rest) := rfl

mutual

/-- **`render` prints the tokens.** -/
theorem writeTokens_items (exclude : Option ℕ) (inclusive : List String) (rendered : Declarations)
    (n : XmlNode) (rest : Forest XmlTag Atom) :
    writeTokens (canonTokens inclusive rendered (n.items exclude rest)) =
      render exclude inclusive rendered n ++ writeTokens (canonTokens inclusive rendered rest) := by
  rw [XmlNode.items.eq_def, render.eq_def]
  split_ifs with hid
  · simp
  · cases n with
    | element id tag content =>
        have hcontent := writeTokens_itemsAll exclude inclusive
          (scopeWith rendered (declsOf inclusive rendered tag)) content .nil
        have hempty : writeTokens (canonTokens inclusive
            (scopeWith rendered (declsOf inclusive rendered tag)) .nil) = "" := rfl
        rw [hempty, String.append_empty] at hcontent
        rw [canonTokens_branch, writeTokens_cons, writeTokens_append, writeTokens_cons, hcontent]
        simp [writeToken, String.append_assoc]
    | text id s => exact writeTokens_text inclusive rendered s.toList rest
    | pi id i => exact writeTokens_cons _ _
    | comment id s => simp

theorem writeTokens_itemsAll (exclude : Option ℕ) (inclusive : List String) (rendered : Declarations)
    (l : List XmlNode) (rest : Forest XmlTag Atom) :
    writeTokens (canonTokens inclusive rendered (XmlNode.itemsAll exclude l rest)) =
      renderAll exclude inclusive rendered l ++ writeTokens (canonTokens inclusive rendered rest) := by
  cases l with
  | nil => rw [XmlNode.itemsAll, renderAll, String.empty_append]
  | cons n l =>
      rw [XmlNode.itemsAll, renderAll, writeTokens_items exclude inclusive rendered n,
        writeTokens_itemsAll exclude inclusive rendered l, String.append_assoc]

end

/-! ## The names of the tokens -/

lemma isWritten_of_isNCName {s : String} (h : isNCName s = true) : IsWritten s := by
  intro c hc
  rw [isQNameChar, NCName.nameChar ⟨s, h⟩ hc, Bool.true_or]

lemma isWritten_qname (q : QName) : IsWritten q.written := by
  obtain ⟨pre, name⟩ := q
  cases pre with
  | none => exact isWritten_of_isNCName name.valid
  | some p =>
      intro c hc
      have hmem : c ∈ p.text.toList ∨ c = ':' ∨ c ∈ name.text.toList := by
        simpa [QName.written] using hc
      rcases hmem with h | rfl | h
      · exact isWritten_of_isNCName p.valid c h
      · rfl
      · exact isWritten_of_isNCName name.valid c h

lemma isWritten_elementQname (t : XmlTag) : IsWritten (elementQname t) := by
  intro c hc
  rw [elementQname, cutName, String.toList_ofList] at hc
  exact isWritten_qname t.qname c ((List.takeWhile_prefix _).subset hc)

lemma isWritten_declPair {b : String × String} (h : b.1 ≠ "" → isNCName b.1 = true) :
    IsWritten (declPair b).1 := by
  rw [declPair]
  split_ifs with hb
  · exact isWritten_of_isNCName (s := "xmlns") (by decide)
  · intro c hc
    have hmem : c ∈ "xmlns:".toList ∨ c ∈ b.1.toList := by
      rwa [String.toList_append, List.mem_append] at hc
    rcases hmem with hx | hx
    · have hall : "xmlns:".toList.all isQNameChar = true := by decide
      exact List.all_eq_true.mp hall c hx
    · exact isWritten_of_isNCName (h hb) c hx

lemma sortedAttributes_perm (t : XmlTag) :
    (sortedAttributes t).Perm (t.attributes.map XmlAttribute.canon) := List.perm_insertionSort _ _

lemma isWritten_pairsOf {inclusive : List String} {rendered : Declarations} {t : XmlTag}
    {a : String × String} (ha : a ∈ pairsOf inclusive rendered t) : IsWritten a.1 := by
  rcases List.mem_append.mp ha with hdecl | hattr
  · obtain ⟨b, hb, rfl⟩ := List.mem_map.mp hdecl
    have hget := (SortedMap.get_eq_some_iff _).mpr (List.mem_filter.mp hb).1
    exact isWritten_declPair fun hne => ((collects_usedNamespaces inclusive t).faithful _ _ hget hne).1
  · obtain ⟨c, hc, rfl⟩ := List.mem_map.mp hattr
    obtain ⟨x, -, rfl⟩ := List.mem_map.mp ((sortedAttributes_perm t).mem_iff.mp hc)
    exact isWritten_qname x.qname

lemma written_canonTokens (inclusive : List String) (rendered : Declarations) (f : Forest XmlTag Atom) :
    ∀ x ∈ canonTokens inclusive rendered f, WrittenToken x := by
  induction f generalizing rendered with
  | nil =>
      intro x hx
      cases hx
  | branch t content rest ihc ihr =>
      intro x hx
      rw [canonTokens_branch] at hx
      rcases List.mem_cons.mp hx with rfl | hx
      · exact ⟨isWritten_elementQname t, fun a ha => isWritten_pairsOf ha⟩
      · rcases List.mem_append.mp hx with hx | hx
        · exact ihc _ x hx
        · rcases List.mem_cons.mp hx with rfl | hx
          · exact isWritten_elementQname t
          · exact ihr _ x hx
  | leaf a rest ih =>
      intro x hx
      rcases List.mem_cons.mp hx with rfl | hx
      · trivial
      · exact ih _ x hx

/-- **The printed tokens give the forest.** -/
theorem retag_eq_of_writeTokens {inclusive inclusive' : List String} {rendered rendered' : Declarations}
    {f f' : Forest XmlTag Atom}
    (h : writeTokens (canonTokens inclusive rendered f) = writeTokens (canonTokens inclusive' rendered' f')) :
    f.retag (canonTag inclusive) rendered = f'.retag (canonTag inclusive') rendered' := by
  have hlist := congrArg String.toList h
  rw [writeTokens, writeTokens, String.toList_join, String.toList_join, List.flatMap_map, List.flatMap_map]
    at hlist
  have htokens := reads_token.flatMap_inj (fun x _ => writeToken_ne_nil x)
    (written_canonTokens inclusive rendered f) (written_canonTokens inclusive' rendered' f') hlist
  have hends : (f.retag (canonTag inclusive) rendered).tokens CanonTag.name ++ [] =
      (f'.retag (canonTag inclusive') rendered').tokens CanonTag.name ++ [] := by
    rw [List.append_nil, List.append_nil]
    exact htokens
  exact (Forest.tokens_inj (s := []) (t := []) trivial trivial hends).1

/-! ## A start tag read again -/

/-- The declaration that an attribute of a start tag is. -/
def declOf (a : String × String) : Option (String × String) :=
  match splitOnce a.1 ':' with
  | none => if a.1 = "xmlns" then some ("", a.2) else none
  | some (p, k) => if p = "xmlns" then some (k, a.2) else none

/-- What a prefix stands for among declarations. -/
def declaredAs (scope : Declarations) (p : String) : String :=
  if p = "xml" then XML_NS else (scope.get p).getD ""

/-- An attribute of a start tag, with what its prefix stands for. -/
def resolvePair (scope : Declarations) (a : String × String) : CanonAttribute :=
  match splitOnce a.1 ':' with
  | none => ⟨"", a.1, a.1, a.2⟩
  | some (p, k) => ⟨declaredAs scope p, k, a.1, a.2⟩

/-- The namespace of an element with this name. -/
def resolveName (scope : Declarations) (name : String) : String :=
  match splitOnce name ':' with
  | none => (scope.get "").getD ""
  | some (p, _) => declaredAs scope p

/-- A printed start tag read again, among the declarations printed above it. -/
def resolveTag (rendered : Declarations) (t : CanonTag) : Declarations × TreeTag :=
  let scope := scopeWith rendered (t.pairs.filterMap declOf)
  (scope, { name := t.name
            ns := resolveName scope t.name
            attributes := ((t.pairs.filter fun a => (declOf a).isNone).map (resolvePair scope)).toFinset })

lemma declOf_declPair (b : String × String) : declOf (declPair b) = some b := by
  obtain ⟨p, uri⟩ := b
  rw [declPair]
  split_ifs with hp
  · obtain rfl : p = "" := hp
    have hnone : splitOnce "xmlns" ':' = none := splitOnce_of_notMem (by decide)
    rw [declOf, hnone]
    rfl
  · have happend : splitOnce ("xmlns" ++ String.singleton ':' ++ p) ':' = some ("xmlns", p) :=
      splitOnce_append (by decide)
    have hsplit : splitOnce ("xmlns:" ++ p) ':' = some ("xmlns", p) := happend
    rw [declOf, hsplit]
    rfl

variable {exclude exclude' : Option ℕ} {a : XmlAttribute} {n n' : XmlNode}

lemma declOf_attribute {t : XmlTag} (ha : a ∈ t.attributes) :
    declOf (a.qname.written, a.value) = none := by
  have hresolved := t.wellFormed.attributed a ha
  unfold XmlAttribute.Resolved at hresolved
  rw [declOf, splitOnce_written]
  cases hpre : a.qname.pre with
  | none =>
      rw [hpre] at hresolved
      have hname : a.qname.written = a.name := by rw [QName.written, hpre]; rfl
      rw [Option.map_none]
      simp only [hname]
      exact if_neg hresolved.2
  | some n =>
      rw [hpre] at hresolved
      rw [Option.map_some]
      simp only
      refine if_neg fun hn => ?_
      obtain ⟨hns, hsome⟩ := hresolved
      rw [hns, boundTo, hn, if_neg (by decide)] at hsome
      obtain ⟨uri, huri⟩ := Option.isSome_iff_exists.mp hsome
      exact (t.declared_of_lookup huri "xmlns" rfl).2.2.1 rfl

lemma filterMap_pairsOf (inclusive : List String) (rendered : Declarations) (t : XmlTag) :
    (pairsOf inclusive rendered t).filterMap declOf = declsOf inclusive rendered t := by
  have hattrs : ((sortedAttributes t).map fun a => (a.qname, a.value)).filterMap declOf = [] := by
    rw [List.filterMap_eq_nil_iff]
    intro a ha
    obtain ⟨c, hc, rfl⟩ := List.mem_map.mp ha
    obtain ⟨x, hx, rfl⟩ := List.mem_map.mp ((sortedAttributes_perm t).mem_iff.mp hc)
    exact declOf_attribute hx
  rw [pairsOf, List.filterMap_append, hattrs, List.append_nil, List.filterMap_map]
  rw [show declOf ∘ declPair = some from funext declOf_declPair, List.filterMap_some]

lemma filter_pairsOf (inclusive : List String) (rendered : Declarations) (t : XmlTag) :
    (pairsOf inclusive rendered t).filter (fun a => (declOf a).isNone) =
      (sortedAttributes t).map fun a => (a.qname, a.value) := by
  have hdecls : ((declsOf inclusive rendered t).map declPair).filter (fun a => (declOf a).isNone) = [] := by
    rw [List.filter_eq_nil_iff]
    intro a ha
    obtain ⟨b, -, rfl⟩ := List.mem_map.mp ha
    rw [declOf_declPair]
    exact Bool.false_ne_true
  have hattrs : ((sortedAttributes t).map fun a => (a.qname, a.value)).filter
      (fun a => (declOf a).isNone) = (sortedAttributes t).map fun a => (a.qname, a.value) := by
    rw [List.filter_eq_self]
    intro a ha
    obtain ⟨c, hc, rfl⟩ := List.mem_map.mp ha
    obtain ⟨x, hx, rfl⟩ := List.mem_map.mp ((sortedAttributes_perm t).mem_iff.mp hc)
    rw [show (x.canon.qname, x.canon.value) = (x.qname.written, x.value) from rfl, declOf_attribute hx]
    rfl
  rw [pairsOf, List.filter_append, hdecls, hattrs, List.nil_append]

section Scope

variable {inclusive : List String} {rendered : Declarations} {t : XmlTag}

/-- **A namespace in use is what is declared** where the tag is printed. -/
lemma get_scope {k uri : String}
    (h : (t.attributes.foldl attributeUsed (elementUsed t)).get k = some uri) :
    ((scopeWith rendered (declsOf inclusive rendered t)).get k).getD "" = uri :=
  get_scope_of_used ((collects_usedNamespaces inclusive t).kept k uri h)

lemma resolvePair_attribute (ha : a ∈ t.attributes) :
    resolvePair (scopeWith rendered (declsOf inclusive rendered t)) (a.qname.written, a.value) = a.canon := by
  have hresolved := t.wellFormed.attributed a ha
  unfold XmlAttribute.Resolved at hresolved
  rw [resolvePair, splitOnce_written]
  cases hpre : a.qname.pre with
  | none =>
      rw [hpre] at hresolved
      have hname : a.qname.written = a.name := by rw [QName.written, hpre]; rfl
      rw [XmlAttribute.canon, hresolved.1, hname]
      rfl
  | some n =>
      rw [hpre] at hresolved
      rw [XmlAttribute.canon, Option.map_some]
      simp only [declaredAs]
      congr 1
      split_ifs with hxml
      · rw [hresolved.1, boundTo, if_pos (congrArg some hxml)]
        rfl
      · have hkey : attributeKey a.canon = some (n.text, a.ns.getD "") := by
          rw [attributeKey, show a.canon.qname = a.qname.written from rfl, splitOnce_written, hpre]
          exact if_neg hxml
        have hget := (get_attributesUsed (fun _ h => h) (faithful_elementUsed t) n.text
          (a.ns.getD "")).mpr (.inr ⟨a, ha, hkey⟩)
        exact get_scope hget

lemma resolveName_element :
    resolveName (scopeWith rendered (declsOf inclusive rendered t)) (elementQname t) = t.ns.getD "" := by
  have hget : (t.attributes.foldl attributeUsed (elementUsed t)).get (elementKey t).1 =
      some (elementKey t).2 := by
    refine (collects_attributes t).kept _ _ ?_
    rw [elementUsed_eq, SortedMap.get_insert, if_pos rfl]
  have hscope : ((scopeWith rendered (declsOf inclusive rendered t)).get (elementKey t).1).getD "" =
      (elementKey t).2 := get_scope hget
  unfold elementKey elementPrefix at hscope
  unfold resolveName
  cases hsplit : splitOnce (elementQname t) ':' with
  | none =>
      rw [hsplit] at hscope
      exact hscope
  | some q =>
      obtain ⟨p, rest⟩ := q
      have hpre := pre_of_splitOnce_cut hsplit
      have hns := t.wellFormed.element
      rw [hpre] at hns
      rw [hsplit] at hscope
      simp only [declaredAs]
      split_ifs with hxml
      · rw [hns, boundTo, if_pos (congrArg some hxml), Option.getD_some]
      · rw [hns, boundTo, if_neg fun heq => hxml (Option.some.inj heq)]
        exact hscope

/-- **A start tag read again** gives the tag, but for the end of its name. -/
theorem resolveTag_canonTag :
    resolveTag rendered (canonTag inclusive rendered t).2 =
      ((canonTag inclusive rendered t).1, (treeTag t).cut) := by
  have hattrs : (((sortedAttributes t).map fun a => (a.qname, a.value)).map
      (resolvePair (scopeWith rendered (declsOf inclusive rendered t)))) = sortedAttributes t := by
    rw [List.map_map]
    refine (List.map_congr_left fun c hc => ?_).trans (List.map_id _)
    obtain ⟨x, hx, rfl⟩ := List.mem_map.mp ((sortedAttributes_perm t).mem_iff.mp hc)
    exact resolvePair_attribute hx
  have hset : (sortedAttributes t).toFinset = (t.attributes.map XmlAttribute.canon).toFinset :=
    List.toFinset_eq_of_perm _ _ (sortedAttributes_perm t)
  simp only [resolveTag, canonTag, filterMap_pairsOf, filter_pairsOf, hattrs, hset, resolveName_element]
  rfl

end Scope

/-- **What a canonical form says of its tree**: all but the ends of names. -/
theorem cut_tree_of_canonicalize {inclusive : List String}
    (h : canonicalize n exclude inclusive = canonicalize n' exclude' inclusive) :
    (n.tree exclude).map TreeTag.cut = (n'.tree exclude').map TreeTag.cut := by
  have hempty : ∀ rendered, writeTokens (canonTokens inclusive rendered .nil) = "" := fun _ => rfl
  have hprint : ∀ (n : XmlNode) (exclude : Option ℕ), writeTokens (canonTokens inclusive SortedMap.empty
      (n.items exclude .nil)) = canonicalize n exclude inclusive := by
    intro n exclude
    rw [writeTokens_items, hempty, String.append_empty]
    rfl
  have hforest := retag_eq_of_writeTokens ((hprint n exclude).trans (h.trans (hprint n' exclude').symm))
  have hback := congrArg (Forest.retag resolveTag SortedMap.empty) hforest
  have hstep : ∀ s t, resolveTag s (canonTag inclusive s t).2 =
      ((canonTag inclusive s t).1, (treeTag t).cut) := fun _ _ => resolveTag_canonTag
  rw [Forest.retag_retag (g := fun t => (treeTag t).cut) hstep,
    Forest.retag_retag (g := fun t => (treeTag t).cut) hstep] at hback
  rw [XmlNode.tree, XmlNode.tree, Forest.map_map, Forest.map_map]
  exact hback

/-! ## Without inclusive prefixes -/

/-- The prefix an element is printed with, by what is kept of its tag. -/
def TreeTag.key (t : TreeTag) : String × String :=
  match splitOnce t.name ':' with
  | some (p, _) => (p, if p = "xml" then "" else t.ns)
  | none => ("", t.ns)

lemma elementKey_eq (t : XmlTag) : elementKey t = (treeTag t).cut.key := by
  unfold elementKey elementPrefix TreeTag.key
  rw [show (treeTag t).cut.name = elementQname t from rfl]
  cases hsplit : splitOnce (elementQname t) ':' with
  | none => rfl
  | some q =>
      obtain ⟨p, rest⟩ := q
      have hpre := pre_of_splitOnce_cut hsplit
      have hns := t.wellFormed.element
      rw [hpre] at hns
      refine Prod.ext rfl ?_
      simp only [Option.map_some, TreeTag.cut, treeTag]
      split_ifs with hxml
      · rw [t.lookupNamespaceUri_eq_none fun _ => hxml, Option.getD_none]
      · rw [hns, boundTo, if_neg fun heq => hxml (Option.some.inj heq)]
        rfl

lemma get_usedNamespaces_nil (t : XmlTag) (k uri : String) :
    (usedNamespaces [] t).get k = some uri ↔
      (treeTag t).cut.key = (k, uri) ∨ ∃ a ∈ (treeTag t).cut.attributes, attributeKey a = some (k, uri) := by
  rw [usedNamespaces, List.foldl_nil, get_attributesUsed (fun _ h => h) (faithful_elementUsed t),
    elementUsed_eq, SortedMap.get_insert, ← elementKey_eq]
  refine or_congr ?_ ?_
  · rw [Prod.ext_iff]
    split_ifs with hk
    · simp [hk]
    · simp [Ne.symm hk]
  · simp [TreeTag.cut, treeTag]

lemma attribute_ns_ne_empty {t : XmlTag} (ha : a ∈ t.attributes) {uri : String}
    (huri : a.ns = some uri) : uri ≠ "" := by
  have hresolved := t.wellFormed.attributed a ha
  unfold XmlAttribute.Resolved at hresolved
  cases hpre : a.qname.pre with
  | none =>
      rw [hpre] at hresolved
      rw [hresolved.1] at huri
      cases huri
  | some n =>
      rw [hpre] at hresolved
      have hbound := hresolved.1.symm.trans huri
      rw [boundTo] at hbound
      split_ifs at hbound
      · rw [← Option.some.inj hbound]
        decide
      · exact (t.declared_of_lookup hbound n.text rfl).2.2.2

lemma nodup_canon_key (t : XmlTag) : ((t.attributes.map XmlAttribute.canon).map CanonAttribute.key).Nodup := by
  rw [List.map_map]
  refine List.Nodup.map_on (fun a ha b hb hkey => ?_) (List.Nodup.of_map _ t.wellFormed.distinct)
  have hpair : a.canon.ns = b.canon.ns ∧ a.name = b.name := by
    simpa [CanonAttribute.key, XmlAttribute.canon] using hkey
  refine List.inj_on_of_nodup_map t.wellFormed.distinct ha hb (Prod.ext ?_ (NCName.ext_text hpair.2))
  have hns : a.ns.getD "" = b.ns.getD "" := hpair.1
  cases hna : a.ns with
  | none =>
      cases hnb : b.ns with
      | none => rfl
      | some v =>
          rw [hna, hnb] at hns
          exact absurd hns.symm (attribute_ns_ne_empty hb hnb)
  | some u =>
      cases hnb : b.ns with
      | none =>
          rw [hna, hnb] at hns
          exact absurd hns (attribute_ns_ne_empty ha hna)
      | some v =>
          rw [hna, hnb] at hns
          exact congrArg some hns

instance : Std.Total fun a b : CanonAttribute => a.key ≤ b.key := ⟨fun a b => le_total a.key b.key⟩

instance : IsTrans CanonAttribute fun a b => a.key ≤ b.key := ⟨fun _ _ _ => le_trans⟩

lemma sortedAttributes_congr {t t' : XmlTag} (h : (treeTag t).attributes = (treeTag t').attributes) :
    sortedAttributes t = sortedAttributes t' := by
  have hperm : (sortedAttributes t).Perm (sortedAttributes t') :=
    (sortedAttributes_perm t).trans ((List.perm_of_nodup_nodup_toFinset_eq
      (nodup_canon_key t).of_map (nodup_canon_key t').of_map h).trans (sortedAttributes_perm t').symm)
  refine hperm.eq_of_pairwise (fun a b ha hb hab hba => ?_) (List.pairwise_insertionSort _ _)
    (List.pairwise_insertionSort _ _)
  have hb' := (sortedAttributes_perm t).mem_iff.mp (hperm.mem_iff.mpr hb)
  exact List.inj_on_of_nodup_map (nodup_canon_key t) ((sortedAttributes_perm t).mem_iff.mp ha) hb'
    (le_antisymm hab hba)

lemma canonTag_congr (rendered : Declarations) {t t' : XmlTag}
    (h : (treeTag t).cut = (treeTag t').cut) : canonTag [] rendered t = canonTag [] rendered t' := by
  have hused : usedNamespaces [] t = usedNamespaces [] t' := by
    refine SortedMap.ext_get fun k => Option.ext fun uri => ?_
    rw [get_usedNamespaces_nil, get_usedNamespaces_nil, h]
  have hname : elementQname t = elementQname t' := congrArg TreeTag.name h
  have hattributes := congrArg TreeTag.attributes h
  rw [canonTag, canonTag, pairsOf, pairsOf, declsOf, declsOf, hused, hname, sortedAttributes_congr hattributes]

/-- **And nothing else is in it**, without inclusive prefixes. -/
theorem canonicalize_of_cut_tree
    (h : (n.tree exclude).map TreeTag.cut = (n'.tree exclude').map TreeTag.cut) :
    canonicalize n exclude [] = canonicalize n' exclude' [] := by
  rw [XmlNode.tree, XmlNode.tree, Forest.map_map, Forest.map_map] at h
  have hforest := Forest.retag_congr (fun rendered _ _ => canonTag_congr rendered) SortedMap.empty h
  have hempty : writeTokens (canonTokens [] SortedMap.empty .nil) = "" := rfl
  have hprint := writeTokens_items exclude [] SortedMap.empty n .nil
  have hprint' := writeTokens_items exclude' [] SortedMap.empty n' .nil
  rw [hempty, String.append_empty] at hprint hprint'
  rw [canonicalize, canonicalize, ← hprint, ← hprint', canonTokens, canonTokens, hforest]

end Ridm.Saml
