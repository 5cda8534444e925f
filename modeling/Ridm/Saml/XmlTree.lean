import Ridm.Saml.Response

/-!
# Parsed XML

A document as `roxmltree` gives it: elements, texts, processing instructions and comments, each with the
number that `Node::id` tells them apart by, and elements with the names they are written with and the
namespaces in scope.  Names are XML names and a tag keeps the rules of *Namespaces in XML* as a field, so
what is not well-formed is not a tree.  `XmlNode.view` is what the readers of `saml::sp` see of it.
-/

namespace Ridm.Saml

/-! ## Names -/

def inRanges (ranges : List (ℕ × ℕ)) (c : Char) : Bool :=
  ranges.any fun r => decide (r.1 ≤ c.toNat) && decide (c.toNat ≤ r.2)

/-- `NameStartChar` of XML, less the colon. -/
def isNameStart (c : Char) : Bool :=
  inRanges [(0x41, 0x5A), (0x5F, 0x5F), (0x61, 0x7A), (0xC0, 0xD6), (0xD8, 0xF6), (0xF8, 0x2FF),
    (0x370, 0x37D), (0x37F, 0x1FFF), (0x200C, 0x200D), (0x2070, 0x218F), (0x2C00, 0x2FEF),
    (0x3001, 0xD7FF), (0xF900, 0xFDCF), (0xFDF0, 0xFFFD), (0x10000, 0xEFFFF)] c

/-- `NameChar` of XML, less the colon. -/
def isNameChar (c : Char) : Bool :=
  isNameStart c ||
    inRanges [(0x2D, 0x2E), (0x30, 0x39), (0xB7, 0xB7), (0x300, 0x36F), (0x203F, 0x2040)] c

/-- A name without a colon. -/
def isNCName (s : String) : Bool := (s.toList.head?.any isNameStart) && s.toList.all isNameChar

/-- A name without a colon. -/
structure NCName where
  text : String
  valid : isNCName text = true
  deriving DecidableEq

/-- `QName`: a name with or without a prefix. -/
structure QName where
  pre : Option NCName
  name : NCName

def QName.written (q : QName) : String :=
  match q.pre with
  | none => q.name.text
  | some p => p.text ++ ":" ++ q.name.text

def OGHAM_SPACE : Char := Char.ofNat 0x1680

lemma NCName.text_ne_empty (n : NCName) : n.text ≠ "" := by
  intro h
  have hv := n.valid
  rw [h] at hv
  cases hv

lemma NCName.nameChar (n : NCName) {c : Char} (hc : c ∈ n.text.toList) : isNameChar c = true := by
  have hv := n.valid
  rw [isNCName, Bool.and_eq_true] at hv
  exact List.all_eq_true.mp hv.2 c hc

lemma NCName.not_mem (n : NCName) {c : Char} (hc : isNameChar c = false) : c ∉ n.text.toList := by
  intro hmem
  rw [n.nameChar hmem] at hc
  cases hc

lemma eq_ogham_of_isWhitespace {c : Char} (hc : isNameChar c = true) (hw : isWhitespace c = true) :
    c = OGHAM_SPACE := by
  suffices h : c.toNat = 0x1680 by rw [OGHAM_SPACE, ← h, Char.ofNat_toNat]
  simp only [isNameChar, isNameStart, inRanges, List.any_cons, List.any_nil, Bool.or_eq_true,
    Bool.and_eq_true, decide_eq_true_eq, Bool.or_false] at hc
  simp only [isWhitespace, Bool.or_eq_true, Bool.and_eq_true, decide_eq_true_eq, beq_iff_eq] at hw
  omega

/-! ## Namespaces -/

/-- The namespaces in scope: a prefix, or `none` for the default one. -/
abbrev Namespaces := List (Option String × String)

/-- The namespace of the prefix `xml`, which no document declares. -/
def XML_NS : String := "http://www.w3.org/XML/1998/namespace"

/-- The namespace a prefix stands for, or that of a name without one. -/
def boundTo (namespaces : Namespaces) (p : Option String) : Option String :=
  if p = some "xml" then some XML_NS else namespaces.lookup p

/-- `roxmltree::Attribute`, with the name it is written with. -/
structure XmlAttribute where
  qname : QName
  ns : Option String
  value : String

/-- `Attribute::name`. -/
def XmlAttribute.name (a : XmlAttribute) : String := a.qname.name.text

/-- An attribute's namespace is what its prefix stands for; without a prefix it has none. -/
def XmlAttribute.Resolved (namespaces : Namespaces) (a : XmlAttribute) : Prop :=
  match a.qname.pre with
  | none => a.ns = none ∧ a.name ≠ "xmlns"
  | some p => a.ns = boundTo namespaces (some p.text) ∧ a.ns.isSome

instance (namespaces : Namespaces) (a : XmlAttribute) : Decidable (a.Resolved namespaces) := by
  unfold XmlAttribute.Resolved
  split <;> infer_instance

/-- A declared prefix is a name of its own, and stands for something. -/
def Declared (b : Option String × String) : Prop :=
  ∀ p ∈ b.1, isNCName p = true ∧ p ≠ "xml" ∧ p ≠ "xmlns" ∧ b.2 ≠ ""

instance (b : Option String × String) : Decidable (Declared b) :=
  inferInstanceAs (Decidable (∀ p ∈ b.1, _))

/-- A start tag that keeps *Namespaces in XML*. -/
structure NamespaceWellFormed (qname : QName) (ns : Option String) (attributes : List XmlAttribute)
    (namespaces : Namespaces) : Prop where
  declared : ∀ b ∈ namespaces, Declared b
  element : ns = boundTo namespaces (qname.pre.map NCName.text)
  prefixed : qname.pre.isSome = true → ns.isSome = true
  attributed : ∀ a ∈ attributes, a.Resolved namespaces
  distinct : (attributes.map fun a => (a.ns, a.qname.name)).Nodup

instance (qname : QName) (ns : Option String) (attributes : List XmlAttribute) (namespaces : Namespaces) :
    Decidable (NamespaceWellFormed qname ns attributes namespaces) :=
  decidable_of_iff
    ((∀ b ∈ namespaces, Declared b) ∧ ns = boundTo namespaces (qname.pre.map NCName.text) ∧
      (qname.pre.isSome = true → ns.isSome = true) ∧ (∀ a ∈ attributes, a.Resolved namespaces) ∧
      (attributes.map fun a => (a.ns, a.qname.name)).Nodup)
    ⟨fun ⟨h₁, h₂, h₃, h₄, h₅⟩ => ⟨h₁, h₂, h₃, h₄, h₅⟩,
      fun h => ⟨h.declared, h.element, h.prefixed, h.attributed, h.distinct⟩⟩

/-- An element without its content. -/
structure XmlTag where
  qname : QName
  ns : Option String
  attributes : List XmlAttribute
  namespaces : Namespaces
  wellFormed : NamespaceWellFormed qname ns attributes namespaces

namespace XmlTag

variable (t : XmlTag)

/-- `Node::lookup_namespace_uri`. -/
def lookupNamespaceUri (p : String) : Option String := t.namespaces.lookup (some p)

/-- `Node::default_namespace`. -/
def defaultNamespace : Option String := t.namespaces.lookup none

lemma declared_of_lookup {p uri : String} (h : t.lookupNamespaceUri p = some uri) :
    Declared (some p, uri) := by
  have hmem : (some p, uri) ∈ t.namespaces := by
    obtain ⟨before, after, heq, -⟩ := List.lookup_eq_some_iff.mp h
    simp [heq]
  exact t.wellFormed.declared _ hmem

lemma lookupNamespaceUri_eq_none {p : String} (h : isNCName p = true → p = "xml") :
    t.lookupNamespaceUri p = none := by
  cases hp : t.lookupNamespaceUri p with
  | none => rfl
  | some uri =>
      obtain ⟨hname, hxml, -⟩ := t.declared_of_lookup hp p rfl
      exact absurd (h hname) hxml

end XmlTag

/-! ## Nodes -/

/-- A processing instruction.  What closes it does not occur in it. -/
structure Instruction where
  target : NCName
  value : Option String
  closed : ∀ v ∈ value, ¬ ['?', '>'] <:+: v.toList
  deriving DecidableEq

/-- `roxmltree::Node`, below the document. -/
inductive XmlNode
  | element (id : ℕ) (tag : XmlTag) (content : List XmlNode)
  | text (id : ℕ) (s : String)
  | pi (id : ℕ) (i : Instruction)
  | comment (id : ℕ) (s : String)

namespace XmlNode

/-- `Node::id`. -/
def id : XmlNode → ℕ
  | element id _ _ => id
  | text id _ => id
  | pi id _ => id
  | comment id _ => id

/-- What is read of a tag. -/
def viewTag (t : XmlTag) : Tag where
  ns := t.ns
  name := t.qname.name.text
  attributes := (t.attributes.filter fun a => a.ns == none).map fun a => (a.name, a.value)
  namespaces := t.namespaces

mutual

/-- What is read of a node. -/
def view : XmlNode → Node
  | element _ tag content => .element (viewTag tag) (views content)
  | text _ s => .text s
  | pi _ _ => .other
  | comment _ _ => .other

def views : List XmlNode → List Node
  | [] => []
  | n :: rest => view n :: views rest

end

lemma views_eq_map (l : List XmlNode) : views l = l.map view := by
  induction l with
  | nil => rfl
  | cons n l ih => rw [views, ih, List.map_cons]

mutual

/-- `Node::descendants`. -/
def descendants : XmlNode → List XmlNode
  | element id tag content => element id tag content :: descendantsAll content
  | text id s => [text id s]
  | pi id i => [pi id i]
  | comment id s => [comment id s]

def descendantsAll : List XmlNode → List XmlNode
  | [] => []
  | n :: rest => descendants n ++ descendantsAll rest

end

end XmlNode

end Ridm.Saml
