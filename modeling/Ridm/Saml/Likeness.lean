import Mathlib.Data.List.Forall2
import Ridm.Saml.Response

/-!
# What an assertion is read by

`read_assertion` looks at an element in three ways: its attributes by name, its text, and its children by
name in the assertion namespace.  A relation that these respect (`Likeness`) is respected by all it reads, so
two assertions that are alike give the same, as long as their signatures are taken alike.
-/

namespace Ridm.Saml

/-- A relation that cannot be told from equality by reading attributes, text and children. -/
structure Likeness (R : Node → Node → Prop) : Prop where
  attr : ∀ {a b}, R a b → ∀ name, a.attr name = b.attr name
  text : ∀ {a b}, R a b → a.textOf = b.textOf
  children : ∀ {a b}, R a b → ∀ name,
    List.Forall₂ R (a.children ASSERTION name) (b.children ASSERTION name)

lemma map_eq_of_forall₂ {α β : Type} {R : α → α → Prop} {f : α → β} {l l' : List α}
    (h : List.Forall₂ R l l') (hf : ∀ {a b}, R a b → f a = f b) : l.map f = l'.map f := by
  induction h with
  | nil => rfl
  | cons hab _ ih => rw [List.map_cons, List.map_cons, hf hab, ih]

namespace Likeness

variable {R : Node → Node → Prop} (hR : Likeness R)

section Steps

variable {a b : Node} (h : R a b) (name : String)

include hR h

lemma child_cases :
    (∃ e, a.child ASSERTION name = .error e ∧ b.child ASSERTION name = .error e) ∨
      (a.child ASSERTION name = .ok none ∧ b.child ASSERTION name = .ok none) ∨
      ∃ x y, a.child ASSERTION name = .ok (some x) ∧ b.child ASSERTION name = .ok (some y) ∧ R x y := by
  have hchildren := hR.children h name
  unfold Node.child
  generalize a.children ASSERTION name = la at hchildren ⊢
  generalize b.children ASSERTION name = lb at hchildren ⊢
  cases hchildren with
  | nil => exact .inr (.inl ⟨rfl, rfl⟩)
  | @cons x y l l' hxy hrest =>
      cases hrest with
      | nil => exact .inr (.inr ⟨x, y, rfl, rfl, hxy⟩)
      | cons => exact .inl ⟨_, rfl, rfl⟩

lemma needed_cases (message : String) :
    (∃ e, needed message a ASSERTION name = .error e ∧ needed message b ASSERTION name = .error e) ∨
      ∃ x y, needed message a ASSERTION name = .ok x ∧ needed message b ASSERTION name = .ok y ∧ R x y := by
  unfold needed
  rcases hR.child_cases h name with ⟨e, ha, hb⟩ | ⟨ha, hb⟩ | ⟨x, y, ha, hb, hxy⟩
  · rw [ha, hb]
    exact .inl ⟨e, rfl, rfl⟩
  · rw [ha, hb]
    exact .inl ⟨_, rfl, rfl⟩
  · rw [ha, hb]
    exact .inr ⟨x, y, rfl, rfl, hxy⟩

lemma time_eq (P : Platform) : time P a name = time P b name := by
  rw [time, time, hR.attr h]

lemma checkIssuer_eq (expected : String) (required : Bool) :
    checkIssuer a expected required = checkIssuer b expected required := by
  unfold checkIssuer
  rcases hR.child_cases h "Issuer" with ⟨e, ha, hb⟩ | ⟨ha, hb⟩ | ⟨x, y, ha, hb, hxy⟩
  · rw [ha, hb]
  · rw [ha, hb]
  · rw [ha, hb]
    simp only [bind, Except.bind, hR.attr hxy, hR.text hxy]

lemma checkBearer_eq (P : Platform) (e : Expected) (now : Instant) :
    checkBearer P e now a = checkBearer P e now b := by
  unfold checkBearer
  rcases hR.needed_cases h "SubjectConfirmationData"
    "a bearer confirmation has no SubjectConfirmationData" with ⟨e, ha, hb⟩ | ⟨x, y, ha, hb, hxy⟩
  · rw [ha, hb]
  · rw [ha, hb]
    simp only [bind, Except.bind, hR.attr hxy, hR.time_eq hxy]

end Steps

include hR

lemma confirm_eq (P : Platform) (e : Expected) (now : Instant) {l l' : List Node}
    (h : List.Forall₂ R l l') (reasons : List SamlError) :
    confirm P e now l reasons = confirm P e now l' reasons := by
  induction h generalizing reasons with
  | nil => rfl
  | cons hab _ ih =>
      unfold confirm
      rw [hR.attr hab, hR.checkBearer_eq hab]
      split_ifs
      · split
        · rfl
        · exact ih _
      · exact ih _

variable {a b : Node} (h : R a b)

include h

lemma readSubject_eq (P : Platform) (e : Expected) (now : Instant) :
    readSubject P e now a = readSubject P e now b := by
  unfold readSubject
  rcases hR.needed_cases h "Subject" "Subject is missing" with ⟨err, ha, hb⟩ | ⟨x, y, ha, hb, hxy⟩
  · rw [ha, hb]
  · have hconfirm := hR.confirm_eq P e now (hR.children hxy "SubjectConfirmation") []
    rw [ha, hb]
    simp only [bind, Except.bind, hconfirm]
    rcases hR.child_cases hxy "EncryptedID" with ⟨err, hx, hy⟩ | ⟨hx, hy⟩ | ⟨u, v, hx, hy, -⟩
    · rw [hx, hy]
    · rw [hx, hy]
      rcases hR.needed_cases hxy "NameID" "NameID is missing" with ⟨err, hx, hy⟩ | ⟨u, v, hx, hy, huv⟩
      · rw [hx, hy]
      · rw [hx, hy]
        simp only [hR.attr huv, hR.text huv]
    · rw [hx, hy]
      rfl

lemma checkConditions_eq (P : Platform) (e : Expected) (now confirmed : Instant) :
    checkConditions P e now a confirmed = checkConditions P e now b confirmed := by
  unfold checkConditions
  rcases hR.needed_cases h "Conditions" "Conditions are missing" with ⟨err, ha, hb⟩ | ⟨x, y, ha, hb, hxy⟩
  · rw [ha, hb]
  · have hrestrictions := map_eq_of_forall₂ (hR.children hxy "AudienceRestriction")
      (f := fun r => (r.children ASSERTION "Audience").map Node.textOf)
      fun {u v} huv => map_eq_of_forall₂ (hR.children huv "Audience") hR.text
    have hall : ∀ l : List Node,
        (l.all fun r => (r.children ASSERTION "Audience").any fun au => au.textOf == e.spEntityId) =
          (l.map fun r => (r.children ASSERTION "Audience").map Node.textOf).all fun texts =>
            texts.any fun text => text == e.spEntityId := by
      intro l
      simp [List.all_map, List.any_map, Function.comp_def]
    have hempty : ∀ l : List Node, l.isEmpty =
        (l.map fun r => (r.children ASSERTION "Audience").map Node.textOf).isEmpty := by
      intro l
      cases l <;> rfl
    rw [ha, hb]
    simp only [bind, Except.bind, hR.time_eq hxy, hall, hempty, hrestrictions]

lemma authnContext_eq : authnContext a = authnContext b := by
  unfold authnContext
  rcases hR.child_cases h "AuthnContext" with ⟨e, ha, hb⟩ | ⟨ha, hb⟩ | ⟨x, y, ha, hb, hxy⟩
  · rw [ha, hb]
  · rw [ha, hb]
  · rw [ha, hb]
    simp only [bind, Except.bind, Option.bind_some]
    rcases hR.child_cases hxy "AuthnContextClassRef" with ⟨e, hx, hy⟩ | ⟨hx, hy⟩ | ⟨u, v, hx, hy, huv⟩
    · rw [hx, hy]
    · rw [hx, hy]
    · rw [hx, hy]
      have htext := hR.text huv
      simp [Except.toOption, htext]

lemma readAttributes_eq : readAttributes a = readAttributes b := by
  have hattributes : List.Forall₂ R
      ((a.children ASSERTION "AttributeStatement").flatMap fun s => s.children ASSERTION "Attribute")
      ((b.children ASSERTION "AttributeStatement").flatMap fun s => s.children ASSERTION "Attribute") :=
    List.rel_flatMap (hR.children h "AttributeStatement") fun _ _ huv => hR.children huv "Attribute"
  unfold readAttributes
  generalize ((a.children ASSERTION "AttributeStatement").flatMap fun s => s.children ASSERTION "Attribute")
    = la at hattributes ⊢
  generalize ((b.children ASSERTION "AttributeStatement").flatMap fun s => s.children ASSERTION "Attribute")
    = lb at hattributes ⊢
  induction hattributes with
  | nil => rfl
  | cons huv _ ih =>
      have hvalues := map_eq_of_forall₂ (hR.children huv "AttributeValue") hR.text
      rw [List.mapM_cons, List.mapM_cons, ih]
      simp only [hR.attr huv, hvalues]

/-- **Alike assertions give the same**, when their signatures are taken alike. -/
theorem readAssertion_eq (P : Platform) {d d' : Document} {r r' : Bool} (e : Expected) (now : Instant)
    (ha : checkSignature P d a e = .ok true) (hb : checkSignature P d' b e = .ok true) :
    readAssertion P d a r e now = readAssertion P d' b r' e now := by
  have hstatements := hR.children h "AuthnStatement"
  unfold readAssertion
  rw [ha, hb, hR.readAttributes_eq h]
  simp only [bind, Except.bind, hR.attr h, hR.checkIssuer_eq h, hR.readSubject_eq h,
    hR.checkConditions_eq h, Bool.or_true, Bool.true_or]
  generalize a.children ASSERTION "AuthnStatement" = la at hstatements ⊢
  generalize b.children ASSERTION "AuthnStatement" = lb at hstatements ⊢
  cases hstatements with
  | nil => rfl
  | cons hxy _ =>
      simp only [List.head?_cons, orError, hR.attr hxy, hR.time_eq hxy, hR.authnContext_eq hxy]

end Likeness

end Ridm.Saml
