import Ridm.Users.Identifiers

/-!
# What an editor of attributes may do

`validate_attributes` (`api/src/services/profile_schema.rs`) over whole histories of a document.
Every document that validation produced is settled (`Reached.settled`): each of its attributes is
what validation makes of it, so that sent back unchanged it is stored unchanged, whoever sends it.
From this follow the frame (what an editor may not touch stays), and that validating a result over
itself gives the same result.

The lengths and the pattern of a definition are checked for strings, addresses and URLs, but not
for telephone numbers, for which the console offers them as well; `editors_change_only_theirs_iff`
is exactly that.
-/

namespace Ridm.Users

variable {P : Platform}

/-! ## What a definition asks for -/

/-- What is known of the crates that read texts: lower-casing is what it is called, an address or a
URL has less than `2 ^ 32` characters, and the text of a date is a date. -/
structure PlatformLaws (P : Platform) : Prop where
  lower : LowerLaws P.toLowercase
  emailLength : ∀ e, P.validateEmail e = true → e.toList.length < 2 ^ 32
  urlLength : ∀ s scheme, P.urlScheme s = some scheme → s.toList.length < 2 ^ 32
  date : ∀ s t, P.parseDate s = some t → trim t = t ∧ P.parseDate t = some t

/-- The lengths and the pattern of a definition, as they read. -/
structure FitsText (P : Platform) (rules : AttributeValidation) (s : String) : Prop where
  long : ∀ n ∈ rules.minLength, n ≤ s.toList.length
  short : ∀ n ∈ rules.maxLength, s.toList.length ≤ n
  pattern : ∀ p ∈ rules.pattern, (compilePattern P p).any (· s) = true

/-- A single value is of the type of its attribute, and within its constraints. -/
def SatisfiesScalar (P : Platform) (d : AttributeDef) (v : Value) : Prop :=
  match d.kind with
  | .string => ∃ s, v = .string s ∧ s.utf8ByteSize ≤ maxValueBytes ∧ FitsText P d.validation s
  | .email => ∃ s, v = .string s ∧ P.validateEmail s = true ∧ FitsText P d.validation s
  | .url => ∃ s, v = .string s ∧ (P.urlScheme s = some "http" ∨ P.urlScheme s = some "https") ∧
      FitsText P d.validation s
  | .phone => ∃ s, v = .string s ∧ normalizePhone s = .ok s ∧ FitsText P d.validation s
  | .date => ∃ s, v = .string s ∧ P.parseDate s = some s
  | .enum => ∃ s, v = .string s ∧ s ∈ d.validation.values
  | .number => ∃ t, v = .number t ∧ (∀ m ∈ d.validation.min, ¬ P.asF64 t < m) ∧
      ∀ m ∈ d.validation.max, ¬ m < P.asF64 t
  | .boolean => ∃ b, v = .bool b
  | .json => ((∃ m, v = .object m) ∨ ∃ xs, v = .array xs) ∧ textBytes v ≤ maxValueBytes

/-- A value is what the definition of its attribute asks for. -/
def Satisfies (P : Platform) (d : AttributeDef) (v : Value) : Prop :=
  if d.multivalued then
    ∃ items, v = .array items ∧ items.length ≤ 100 ∧ ∀ item ∈ items, SatisfiesScalar P d item
  else SatisfiesScalar P d v

def textsSent (d : AttributeDef) (value : Value) : List String :=
  if d.multivalued then (value.asArray.getD []).filterMap Value.asStr else value.asStr.toList

/-- Every telephone number that is sent for an attribute is within its lengths and its pattern. -/
def PhoneFits (P : Platform) (d : AttributeDef) (value : Value) : Prop :=
  d.kind = .phone →
    ∀ s ∈ textsSent d value, ∀ p, normalizePhone s = .ok p → FitsText P d.validation p

/-! ## Values in their canonical form -/

variable {value v : Value} {editor : Editor} {rules : AttributeValidation} {stored : Option Value}
  {s t : String} {requireAll : Bool} {unchanged : Bool} {w : Value}

lemma checkLen_ok {s : String} {u : Unit}
    (h : checkLen P rules s = .ok u) (hlength : s.toList.length < 2 ^ 32) :
    FitsText P rules s := by
  rw [checkLen, Nat.mod_eq_of_lt hlength] at h
  split_ifs at h with hmin hmax hpattern
  refine ⟨?_, ?_, ?_⟩
  · intro n hn
    rw [hn] at hmin
    simpa using hmin
  · intro n hn
    rw [hn] at hmax
    simpa using hmax
  · intro p hp
    rw [hp] at hpattern
    simpa using hpattern

lemma checkLen_map
    (h : (checkLen P rules s).map (fun _ => s) = .ok t) : t = s ∧ checkLen P rules s = .ok () := by
  cases hcheck : checkLen P rules s with
  | error e =>
      rw [hcheck] at h
      cases h
  | ok u =>
      rw [hcheck] at h
      exact ⟨(Except.ok.inj h).symm, rfl⟩

variable {d : AttributeDef} {k : String} {m : Members}

/-- **Coercing a text twice is coercing it once.** -/
lemma validateText_normal (hP : PlatformLaws P)
    (h : validateText P d s = .ok t) : validateText P d t = .ok t := by
  rw [validateText] at h
  cases hkind : d.kind <;> simp only [hkind] at h
  case string =>
    split_ifs at h with hbig
    obtain ⟨rfl, hcheck⟩ := checkLen_map h
    simp only [validateText, hkind]
    rw [trim_trim, if_neg hbig, hcheck]
    rfl
  case email =>
    split_ifs at h with hvalid
    obtain ⟨rfl, hcheck⟩ := checkLen_map h
    simp only [validateText, hkind]
    rw [hP.lower.trim_lower, hP.lower.idem, if_neg hvalid, hcheck]
    rfl
  case url =>
    cases hscheme : P.urlScheme (trim s) with
    | none =>
        rw [hscheme] at h
        cases h
    | some scheme =>
        simp only [hscheme] at h
        split_ifs at h with hweb
        obtain ⟨rfl, hcheck⟩ := checkLen_map h
        simp only [validateText, hkind]
        rw [trim_trim, hscheme]
        dsimp only
        rw [if_pos hweb, hcheck]
        rfl
  case phone =>
    cases hphone : normalizePhone s with
    | error e =>
        rw [hphone] at h
        cases h
    | ok p =>
        rw [hphone] at h
        cases h
        simp only [validateText, hkind, (normalizePhone_normal hphone).2]
  case date =>
    cases hdate : P.parseDate (trim s) with
    | none =>
        rw [hdate] at h
        cases h
    | some u =>
        rw [hdate] at h
        cases h
        obtain ⟨htrim, hagain⟩ := hP.date _ _ hdate
        simp only [validateText, hkind, htrim, hagain]
  case enum =>
    split_ifs at h with hvalue
    cases h
    simp only [validateText, hkind]
    rw [if_pos hvalue]
  all_goals cases h

/-- A kind that is kept as a string. -/
def AttributeType.IsText : AttributeType → Prop
  | .number | .boolean | .json => False
  | _ => True

lemma validateScalar_text (htext : d.kind.IsText) :
    validateScalar P d value = .ok v ↔
      ∃ s t, value = .string s ∧ v = .string t ∧ validateText P d s = .ok t := by
  have hscalar : validateScalar P d value =
      value.asStr.elim (.error "expected a string") fun s => (validateText P d s).map .string := by
    cases hkind : d.kind <;> rw [hkind] at htext
    case number | boolean | json => exact htext.elim
    all_goals cases value <;> simp only [validateScalar, hkind, Value.asStr, Option.elim]
  rw [hscalar]
  constructor
  · intro h
    cases value with
    | string s =>
        cases ht : validateText P d s with
        | error e =>
            simp only [Value.asStr, Option.elim, ht] at h
            cases h
        | ok t =>
            simp only [Value.asStr, Option.elim, ht] at h
            cases h
            exact ⟨s, t, rfl, rfl, ht⟩
    | _ => cases h
  · rintro ⟨s, t, rfl, rfl, ht⟩
    simp only [Value.asStr, Option.elim, ht]
    rfl

/-- **Coercing a value twice is coercing it once.** -/
lemma validateScalar_normal (hP : PlatformLaws P)
    (h : validateScalar P d value = .ok v) : validateScalar P d v = .ok v := by
  by_cases htext : d.kind.IsText
  · obtain ⟨s, t, rfl, rfl, ht⟩ := (validateScalar_text htext).mp h
    exact (validateScalar_text htext).mpr ⟨t, t, rfl, rfl, validateText_normal hP ht⟩
  · have hself : (d.kind = .boolean ∧ ∃ b, v = .bool b) ∨ v = value := by
      cases hkind : d.kind <;> simp only [validateScalar, hkind] at h
      case number =>
        split at h <;> [skip; cases h]
        split_ifs at h
        exact .inr (Except.ok.inj h).symm
      case boolean =>
        split at h
        · exact .inr (Except.ok.inj h).symm
        · split_ifs at h
          exact .inl ⟨rfl, _, (Except.ok.inj h).symm⟩
        · cases h
      case json =>
        split at h <;> [skip; skip; cases h]
        all_goals
          split_ifs at h
          exact .inr (Except.ok.inj h).symm
      all_goals exact (htext (hkind ▸ trivial)).elim
    rcases hself with ⟨hkind, b, rfl⟩ | rfl
    · rw [validateScalar, hkind]
    · exact h

lemma validateItems_ok {i : ℕ} {items vs : List Value} :
    validateItems P d i items = .ok vs ↔
      List.Forall₂ (fun item v => validateScalar P d item = .ok v) items vs := by
  induction items generalizing i vs with
  | nil =>
      rw [validateItems, List.forall₂_nil_left_iff]
      exact ⟨fun h => (Except.ok.inj h).symm, fun h => congrArg Except.ok h.symm⟩
  | cons item items ih =>
      rw [validateItems, List.forall₂_cons_left_iff]
      constructor
      · intro h
        cases hitem : validateScalar P d item with
        | error e =>
            rw [hitem] at h
            cases h
        | ok v =>
            simp only [hitem] at h
            cases hrest : validateItems P d (i + 1) items with
            | error e =>
                rw [hrest] at h
                cases h
            | ok ws =>
                rw [hrest] at h
                exact ⟨v, ws, rfl, ih.mp hrest, (Except.ok.inj h).symm⟩
      · rintro ⟨v, ws, hv, hws, rfl⟩
        simp only [hv, ih.mpr hws]
        rfl

lemma forall_mem_iff {α β : Type} {R : α → β → Prop} {p : α → Prop} {q : β → Prop} {xs : List α}
    {ys : List β} (h : List.Forall₂ R xs ys) (hpq : ∀ x y, R x y → (q y ↔ p x)) :
    (∀ y ∈ ys, q y) ↔ ∀ x ∈ xs, p x := by
  induction h with
  | nil => simp
  | cons hxy _ ih => rw [List.forall_mem_cons, List.forall_mem_cons, hpq _ _ hxy, ih]

lemma validateValue_many (hmany : d.multivalued = true) :
    validateValue P d value = .ok v ↔ ∃ items vs, value = .array items ∧ v = .array vs ∧
      items.length ≤ 100 ∧ List.Forall₂ (fun item v => validateScalar P d item = .ok v) items vs := by
  simp only [validateValue, if_pos hmany]
  constructor
  · intro h
    cases value with
    | array items =>
        simp only at h
        split_ifs at h with hlength
        cases hvs : validateItems P d 0 items with
        | error e =>
            rw [hvs] at h
            cases h
        | ok vs =>
            rw [hvs] at h
            exact ⟨items, vs, rfl, (Except.ok.inj h).symm, Nat.le_of_not_lt hlength,
              validateItems_ok.mp hvs⟩
    | _ => cases h
  · rintro ⟨items, vs, rfl, rfl, hlength, hvs⟩
    simp only [if_neg (Nat.not_lt.mpr hlength), validateItems_ok.mpr hvs]
    rfl

lemma validateValue_single {value : Value} (hsingle : ¬ d.multivalued = true) :
    validateValue P d value = validateScalar P d value := by
  simp only [validateValue, if_neg hsingle]

/-- **A validated value is in its canonical form.** -/
lemma validateValue_normal (hP : PlatformLaws P)
    (h : validateValue P d value = .ok v) : validateValue P d v = .ok v := by
  by_cases hmany : d.multivalued = true
  · obtain ⟨items, vs, rfl, rfl, hlength, hvs⟩ := (validateValue_many hmany).mp h
    refine (validateValue_many hmany).mpr ⟨vs, vs, rfl, rfl, hvs.length_eq ▸ hlength, ?_⟩
    have hnormal : (∀ v ∈ vs, validateScalar P d v = .ok v) ↔ ∀ item ∈ items, True :=
      forall_mem_iff hvs fun _ _ hitem => iff_of_true (validateScalar_normal hP hitem) trivial
    exact List.forall₂_same.mpr (hnormal.mpr fun _ _ => trivial)
  · rw [validateValue_single hmany] at h ⊢
    exact validateScalar_normal hP h

lemma validateValue_null {v : Value} : validateValue P d .null ≠ .ok v := by
  intro h
  by_cases hmany : d.multivalued = true
  · obtain ⟨items, vs, hnull, -⟩ := (validateValue_many hmany).mp h
    cases hnull
  · rw [validateValue_single hmany] at h
    cases hkind : d.kind <;> simp only [validateScalar, hkind] at h <;> cases h

/-! ## Values that satisfy their definition -/

lemma length_le_utf8ByteSize (s : String) : s.toList.length ≤ s.utf8ByteSize := by
  have hlist : ∀ l : List Char, l.length ≤ (String.ofList l).utf8ByteSize := by
    intro l
    induction l with
    | nil => exact Nat.le_refl 0
    | cons c l ih =>
        rw [String.ofList_cons, String.utf8ByteSize_append, String.utf8ByteSize_singleton,
          List.length_cons]
        have hc := Char.utf8Size_pos c
        omega
  have h := hlist s.toList
  rwa [String.ofList_toList] at h

lemma validateText_fits (hP : PlatformLaws P)
    (hkind : d.kind = .string ∨ d.kind = .email ∨ d.kind = .url) (h : validateText P d s = .ok t) :
    FitsText P d.validation t := by
  rcases hkind with hkind | hkind | hkind <;> simp only [validateText, hkind] at h
  · split_ifs at h with hbig
    obtain ⟨rfl, hcheck⟩ := checkLen_map h
    refine checkLen_ok hcheck (lt_of_le_of_lt (length_le_utf8ByteSize _) ?_)
    exact lt_of_le_of_lt (Nat.le_of_not_lt hbig) (by decide)
  · split_ifs at h with hvalid
    obtain ⟨rfl, hcheck⟩ := checkLen_map h
    exact checkLen_ok hcheck (hP.emailLength _ (by simpa using hvalid))
  · cases hscheme : P.urlScheme (trim s) with
    | none =>
        rw [hscheme] at h
        cases h
    | some scheme =>
        simp only [hscheme] at h
        split_ifs at h
        obtain ⟨rfl, hcheck⟩ := checkLen_map h
        exact checkLen_ok hcheck (hP.urlLength _ _ hscheme)

/-- **A scalar satisfies its definition**, up to the lengths and the pattern of a telephone number. -/
lemma satisfiesScalar_iff (hP : PlatformLaws P) (h : validateScalar P d value = .ok v) :
    SatisfiesScalar P d v ↔ (d.kind = .phone →
      ∀ s ∈ value.asStr, ∀ p, normalizePhone s = .ok p → FitsText P d.validation p) := by
  cases hkind : d.kind
  case phone =>
    obtain ⟨s, t, rfl, rfl, ht⟩ := (validateScalar_text (hkind ▸ trivial)).mp h
    have hphone : normalizePhone s = .ok t := by
      cases hp : normalizePhone s <;> simp only [validateText, hkind, hp] at ht <;> cases ht
      rfl
    simp only [SatisfiesScalar, hkind]
    constructor
    · rintro ⟨u, hu, -, hfits⟩ - s' hs' p hp
      cases hu
      cases hs'
      rw [hphone] at hp
      cases hp
      exact hfits
    · intro hfits
      exact ⟨t, rfl, (normalizePhone_normal hphone).2, hfits trivial s rfl t hphone⟩
  all_goals
    refine iff_of_true ?_ (fun hphone => by cases hphone)
    simp only [SatisfiesScalar, hkind]
  case string =>
    obtain ⟨s, t, rfl, rfl, ht⟩ := (validateScalar_text (hkind ▸ trivial)).mp h
    have hfits := validateText_fits hP (.inl hkind) ht
    simp only [validateText, hkind] at ht
    split_ifs at ht with hbig
    obtain ⟨rfl, -⟩ := checkLen_map ht
    exact ⟨_, rfl, Nat.le_of_not_lt hbig, hfits⟩
  case email =>
    obtain ⟨s, t, rfl, rfl, ht⟩ := (validateScalar_text (hkind ▸ trivial)).mp h
    have hfits := validateText_fits hP (.inr (.inl hkind)) ht
    simp only [validateText, hkind] at ht
    split_ifs at ht with hvalid
    obtain ⟨rfl, -⟩ := checkLen_map ht
    exact ⟨_, rfl, by simpa using hvalid, hfits⟩
  case url =>
    obtain ⟨s, t, rfl, rfl, ht⟩ := (validateScalar_text (hkind ▸ trivial)).mp h
    have hfits := validateText_fits hP (.inr (.inr hkind)) ht
    simp only [validateText, hkind] at ht
    cases hscheme : P.urlScheme (trim s) with
    | none =>
        rw [hscheme] at ht
        cases ht
    | some scheme =>
        simp only [hscheme] at ht
        split_ifs at ht with hweb
        obtain ⟨rfl, -⟩ := checkLen_map ht
        rcases hweb with rfl | rfl
        · exact ⟨_, rfl, .inl hscheme, hfits⟩
        · exact ⟨_, rfl, .inr hscheme, hfits⟩
  case date =>
    obtain ⟨s, t, rfl, rfl, ht⟩ := (validateScalar_text (hkind ▸ trivial)).mp h
    simp only [validateText, hkind] at ht
    cases hdate : P.parseDate (trim s) with
    | none =>
        rw [hdate] at ht
        cases ht
    | some u =>
        rw [hdate] at ht
        cases ht
        exact ⟨_, rfl, (hP.date _ _ hdate).2⟩
  case enum =>
    obtain ⟨s, t, rfl, rfl, ht⟩ := (validateScalar_text (hkind ▸ trivial)).mp h
    simp only [validateText, hkind] at ht
    split_ifs at ht with hvalue
    cases ht
    exact ⟨_, rfl, hvalue⟩
  case number =>
    cases value <;> simp only [validateScalar, hkind] at h <;> try cases h
    split_ifs at h with hmin hmax
    cases h
    refine ⟨_, rfl, ?_, ?_⟩
    · intro m hm
      rw [hm] at hmin
      simpa using hmin
    · intro m hm
      rw [hm] at hmax
      simpa using hmax
  case boolean =>
    cases value <;> simp only [validateScalar, hkind] at h <;> try cases h
    · exact ⟨_, rfl⟩
    · split_ifs at h
      exact ⟨_, (Except.ok.inj h).symm⟩
  case json =>
    cases value <;> simp only [validateScalar, hkind] at h <;> try cases h
    · split_ifs at h with hbig
      cases h
      exact ⟨.inr ⟨_, rfl⟩, Nat.le_of_not_lt hbig⟩
    · split_ifs at h with hbig
      cases h
      exact ⟨.inl ⟨_, rfl⟩, Nat.le_of_not_lt hbig⟩

/-- **A stored value satisfies its definition**, where the telephone numbers sent do. -/
lemma satisfies_iff (hP : PlatformLaws P)
    (h : validateValue P d value = .ok v) : Satisfies P d v ↔ PhoneFits P d value := by
  rw [PhoneFits]
  by_cases hmany : d.multivalued = true
  · obtain ⟨items, vs, rfl, rfl, hlength, hvs⟩ := (validateValue_many hmany).mp h
    have hitems := forall_mem_iff hvs fun _ _ hitem => satisfiesScalar_iff hP hitem
    have hsent : textsSent d (.array items) = items.filterMap Value.asStr := by
      rw [textsSent, if_pos hmany]
      rfl
    rw [hsent]
    simp only [Satisfies, if_pos hmany, Value.array.injEq]
    constructor
    · rintro ⟨_, rfl, -, hall⟩ hphone s hs
      obtain ⟨item, hitem, hs⟩ := List.mem_filterMap.mp hs
      exact hitems.mp hall item hitem hphone s hs
    · intro hfits
      refine ⟨vs, rfl, hvs.length_eq ▸ hlength, hitems.mpr ?_⟩
      intro item hitem hphone s hs
      exact hfits hphone s (List.mem_filterMap.mpr ⟨item, hitem, hs⟩)
  · rw [validateValue_single hmany] at h
    rw [Satisfies, if_neg hmany, textsSent, if_neg hmany, satisfiesScalar_iff hP h]
    simp only [Option.mem_toList, Option.mem_def]

/-! ## Documents -/

section Documents

variable {schema : ProfileSchema}

def IsMap (doc : Value) : Prop := ∀ m, asObject doc = some m → Members.Keyed m

lemma Members.mem_of_get (h : m.get k = some w) : (k, w) ∈ m := by
  induction m with
  | nil => cases h
  | cons e m ih =>
      rw [Members.get_cons] at h
      split_ifs at h with hk
      · subst hk
        cases h
        exact List.mem_cons_self
      · exact List.mem_cons_of_mem _ (ih h)

lemma get_foldl_keep {p : String → Prop} [DecidablePred p] (hm : m.Keyed) (acc : Members)
    (k : String) :
    Members.get (m.foldl (fun (out : Members) e =>
        if (out.get e.1).isNone ∧ p e.1 then out.insert e.1 e.2 else out) acc) k =
      (acc.get k).or (if p k then m.get k else none) := by
  induction m generalizing acc with
  | nil => simp
  | cons e m ih =>
      obtain ⟨j, w⟩ := e
      obtain ⟨hj, hm⟩ := Members.keyed_cons.mp hm
      rw [List.foldl_cons, ih hm, Members.get_cons]
      by_cases hjk : j = k
      · subst hjk
        rw [Members.get_eq_none hj, if_pos rfl]
        cases hacc : acc.get j <;> by_cases hp : p j <;> simp [hacc, hp, Members.get_insert]
      · rw [if_neg hjk]
        split_ifs <;> simp [Members.get_insert, hjk]

lemma keyed_foldl {α : Type} {f : Members → α → Members} (hf : ∀ out e, out.Keyed → (f out e).Keyed)
    (l : List α) {acc : Members} (hacc : acc.Keyed) : (l.foldl f acc).Keyed := by
  induction l generalizing acc with
  | nil => exact hacc
  | cons e l ih => exact ih (hf acc e hacc)

/-- **What validation decides.**  Every attribute that is sent is judged, the stored ones that are
neither sent nor the editor's to remove are kept, and with `require_all` the required ones are
there. -/
lemma validateAttributesWith_ok {incoming : Members} {existing : Option Value}
    {v : Value} (hin : incoming.Keyed) (hex : ((existing.bind asObject).getD []).Keyed)
    (h : validateAttributesWith P schema (.object incoming) editor existing requireAll = .ok v) :
    ∃ out, v = .object out ∧ Members.Keyed out ∧
      (∀ k w, incoming.get k = some w → ∃ r, judge P schema editor
        ((existing.bind asObject).any fun m => Members.get m k = some w) k w = .ok r ∧
          Members.get out k = r) ∧ (∀ k, incoming.get k = none → Members.get out k =
        if keeps schema editor k = true then ((existing.bind asObject).getD []).get k else none) ∧
      (requireAll = true → ∀ d ∈ schema.attributes, d.required = true →
        (Members.get out d.name).any isNonEmpty = true) := by
  simp only [validateAttributesWith, asObject] at h
  split_ifs at h with hnone
  rw [List.isEmpty_iff, List.append_eq_nil_iff] at hnone
  obtain ⟨hrefused, hmissing⟩ := hnone
  rw [List.filterMap_eq_nil_iff] at hrefused hmissing
  have hjudged : ∀ k w, incoming.get k = some w → ∃ r, judge P schema editor
      ((existing.bind asObject).any fun m => Members.get m k = some w) k w = .ok r := by
    intro k w hkw
    have hmem := List.mem_map_of_mem (f := fun e : String × Value => (e.1, judge P schema editor
      ((existing.bind asObject).any fun m => Members.get m e.1 = some e.2) e.1 e.2))
      (Members.mem_of_get hkw)
    have hnone := hrefused _ hmem
    revert hnone
    cases judge P schema editor
      ((existing.bind asObject).any fun m => Members.get m k = some w) k w with
    | error e => simp
    | ok r => exact fun _ => ⟨r, rfl⟩
  have haccepted := fun k => get_foldl_insert (f := fun k w => judge P schema editor
    ((existing.bind asObject).any fun m => Members.get m k = some w) k w) hin [] k
  refine ⟨_, (Except.ok.inj h).symm, ?_, ?_, ?_, ?_⟩
  · refine keyed_foldl ?_ _ (keyed_foldl ?_ _ List.nodup_nil)
    · intro out e hout
      split_ifs
      · exact hout.insert _ _
      · exact hout
    · intro out e hout
      split
      · exact hout.insert _ _
      · exact hout
  · intro k w hkw
    obtain ⟨r, hr⟩ := hjudged k w hkw
    refine ⟨r, hr, ?_⟩
    rw [get_foldl_keep (p := fun k => (incoming.get k).isNone ∧ keeps schema editor k = true) hex,
      haccepted, hkw, Option.bind_some, hr]
    simp [Except.toOption]
  · intro k hk
    rw [get_foldl_keep (p := fun k => (incoming.get k).isNone ∧ keeps schema editor k = true) hex,
      haccepted, hk]
    simp
  · intro hall d hd hrequired
    by_contra hnot
    have hd := hmissing d hd
    rw [if_pos ⟨hall, hrequired, hnot⟩] at hd
    cases hd

/-! ## Settled documents -/

/-- A document whose attributes are what validation makes of them: sent back unchanged, each is
stored unchanged, whoever sends it. -/
structure Settled (P : Platform) (schema : ProfileSchema) (m : Members) : Prop where
  keyed : m.Keyed
  same : ∀ k v, m.get k = some v → ∀ editor, judge P schema editor true k v = .ok (some v)

/-- The document an account has, after any number of validations by whomever. -/
inductive Reached (P : Platform) (schema : ProfileSchema) : Option Value → Prop
  | fresh : Reached P schema none
  | blank : Reached P schema (some (.object []))
  | validated {stored : Option Value} {incoming v : Value} {editor : Editor} {requireAll : Bool} :
      Reached P schema stored → IsMap incoming →
        validateAttributesWith P schema incoming editor stored requireAll = .ok v →
          Reached P schema (some v)

lemma judge_normal (hP : PlatformLaws P) {w v : Value}
    (h : judge P schema editor unchanged k w = .ok (some v)) (editor' : Editor) :
    judge P schema editor' true k v = .ok (some v) := by
  rw [judge] at h ⊢
  cases hd : schema.get k with
  | none =>
      simp only [hd] at h ⊢
      split_ifs at h with hallow _ hbig
      obtain rfl := Option.some.inj (Except.ok.inj h)
      rw [if_neg hallow, if_neg (by simp), if_neg hbig]
  | some d =>
      simp only [hd] at h ⊢
      split_ifs at h
      · cases h
      · cases hw : validateValue P d w with
        | error e =>
            rw [hw] at h
            cases h
        | ok u =>
            rw [hw] at h
            obtain rfl := Option.some.inj (Except.ok.inj h)
            have hnormal := validateValue_normal hP hw
            have hnull : u ≠ .null := by
              rintro rfl
              exact validateValue_null hnormal
            rw [if_neg (by simp), if_neg hnull, hnormal]
            rfl

/-- **Every document that validation produced is settled.** -/
lemma Reached.settled (hP : PlatformLaws P) (h : Reached P schema stored) :
    Settled P schema ((stored.bind asObject).getD []) := by
  induction h with
  | fresh => exact ⟨List.nodup_nil, fun k v hv => by cases hv⟩
  | blank => exact ⟨List.nodup_nil, fun k v hv => by cases hv⟩
  | @validated stored incoming v editor requireAll _ hin hok ih =>
      cases incoming with
      | object incoming =>
          obtain ⟨out, rfl, hkeyed, hsent, hkept, -⟩ := validateAttributesWith_ok (hin incoming rfl) ih.keyed hok
          refine ⟨hkeyed, ?_⟩
          intro k v hv
          change Members.get out k = some v at hv
          cases hk : Members.get incoming k with
          | none =>
              rw [hkept k hk] at hv
              split_ifs at hv
              exact ih.same k v hv
          | some w =>
              obtain ⟨r, hr, hout⟩ := hsent k w hk
              rw [hv] at hout
              rw [← hout] at hr
              exact judge_normal hP hr
      | _ => cases hok

/-- **The frame.**  What the editor may not touch is as it was. -/
lemma kept_of_settled {incoming out : Members}
    (hsettled : Settled P schema ((stored.bind asObject).getD []))
    (hsent : ∀ w, incoming.get k = some w → ∃ r, judge P schema editor
        ((stored.bind asObject).any fun m => Members.get m k = some w) k w = .ok r ∧ out.get k = r)
    (hkept : incoming.get k = none → out.get k =
        if keeps schema editor k = true then ((stored.bind asObject).getD []).get k else none)
    (hk : keeps schema editor k = true) :
    out.get k = ((stored.bind asObject).getD []).get k := by
  cases hget : incoming.get k with
  | none => rw [hkept hget, if_pos hk]
  | some w =>
      obtain ⟨r, hr, hout⟩ := hsent w hget
      by_cases hsame : (stored.bind asObject).any (fun m => Members.get m k = some w) = true
      · obtain ⟨m, hm, hw⟩ := (Option.any_eq_true _ _).mp hsame
        have hstored : ((stored.bind asObject).getD []).get k = some w := by
          rw [hm]
          simpa using hw
        rw [hsame, hsettled.same k w hstored] at hr
        rw [hout, ← Except.ok.inj hr, hstored]
      · -- a change of what is not the editor's is refused
        rw [Bool.not_eq_true] at hsame
        rw [hsame, judge] at hr
        rw [keeps] at hk
        cases hd : schema.get k with
        | none =>
            simp only [hd, beq_iff_eq] at hk hr
            split_ifs at hr with h1 h2 h3
            all_goals exact absurd ⟨hk, trivial⟩ h2
        | some d =>
            simp only [hd] at hk hr
            rw [if_pos ⟨by simpa using hk, trivial⟩] at hr
            cases hr

lemma Members.insert_of_notMem (h : k ∉ m.map (·.1)) (v : Value) :
    m.insert k v = m ++ [(k, v)] := by
  induction m with
  | nil => rfl
  | cons e m ih =>
      obtain ⟨j, w⟩ := e
      rw [List.map_cons, List.mem_cons, not_or] at h
      rw [Members.insert, if_neg (Ne.symm h.1), ih h.2, List.cons_append]

lemma Members.get_of_mem (hm : m.Keyed) (h : (k, w) ∈ m) :
    m.get k = some w := by
  induction m with
  | nil => cases h
  | cons e m ih =>
      obtain ⟨j, u⟩ := e
      obtain ⟨hj, hm⟩ := Members.keyed_cons.mp hm
      rw [Members.get_cons]
      rcases List.mem_cons.mp h with heq | h
      · cases heq
        exact if_pos rfl
      · have hne : j ≠ k := by
          rintro rfl
          exact hj (List.mem_map_of_mem h)
        rw [if_neg hne, ih hm h]

lemma foldl_insert_same {f : Members → String × Except String (Option Value) → Members}
    (hf : ∀ out k v, f out (k, .ok (some v)) = out.insert k v) {m acc : Members}
    (h : Members.Keyed (acc ++ m)) :
    (m.map fun e => (e.1, .ok (some e.2))).foldl f acc = acc ++ m := by
  induction m generalizing acc with
  | nil => exact (List.append_nil acc).symm
  | cons e m ih =>
      obtain ⟨k, w⟩ := e
      have hk : k ∉ acc.map (·.1) := by
        intro hmem
        rw [Members.Keyed, List.map_append, List.nodup_append] at h
        exact h.2.2 k hmem k List.mem_cons_self rfl
      have happend : Members.Keyed (acc ++ [(k, w)] ++ m) := by simpa using h
      rw [List.map_cons, List.foldl_cons, hf, Members.insert_of_notMem hk, ih happend, List.append_assoc,
        List.singleton_append]

/-- **A settled document is validated to itself**, by every editor, if the required attributes are
there. -/
lemma Settled.validate (h : Settled P schema m) (editor : Editor)
    (hrequired : requireAll = true → ∀ d ∈ schema.attributes, d.required = true →
      (m.get d.name).any isNonEmpty = true) :
    validateAttributesWith P schema (.object m) editor (some (.object m)) requireAll =
      .ok (.object m) := by
  have hjudged : m.map (fun e => (e.1, judge P schema editor
      ((some m).any fun m => Members.get m e.1 = some e.2) e.1 e.2)) =
      m.map fun e => (e.1, (Except.ok (some e.2) : Except String (Option Value))) := by
    refine List.map_congr_left ?_
    rintro ⟨k, w⟩ he
    have hget := Members.get_of_mem h.keyed he
    simp [hget, h.same k w hget editor]
  have hkept : ∀ l : Members, (∀ e ∈ l, (m.get e.1).isSome = true) →
      l.foldl (fun (out : Members) e =>
        if (out.get e.1).isNone ∧ (m.get e.1).isNone ∧ keeps schema editor e.1 = true then
          out.insert e.1 e.2
        else out) m = m := by
    intro l hl
    induction l with
    | nil => rfl
    | cons e l ih =>
        have he := hl e List.mem_cons_self
        rw [List.foldl_cons, if_neg (by simp [Option.isNone_eq_false_iff.mpr he]),
          ih fun e he => hl e (List.mem_cons_of_mem _ he)]
  have hnone : schema.attributes.filterMap (fun d =>
      if requireAll = true ∧ d.required = true ∧ ¬ (m.get d.name).any isNonEmpty = true then
        some (⟨"attributes." ++ d.name, "required"⟩ : FieldError)
      else none) = [] := by
    rw [List.filterMap_eq_nil_iff]
    intro d hd
    exact if_neg fun hmissing => hmissing.2.2 (hrequired hmissing.1 d hd hmissing.2.1)
  simp only [validateAttributesWith, asObject, Option.bind_some, Option.getD_some, hjudged]
  rw [foldl_insert_same (fun _ _ _ => rfl) (show Members.Keyed ([] ++ m) from h.keyed), List.nil_append,
    hkept m fun e he => by rw [Members.get_of_mem h.keyed he]; rfl]
  rw [hnone, List.append_nil, if_pos]
  rw [List.isEmpty_iff, List.filterMap_eq_nil_iff]
  intro j hj
  obtain ⟨e, -, rfl⟩ := List.mem_map.mp hj
  rfl

/-! ## What a write does -/

/-- What a write of attributes is held to. -/
structure Promised (P : Platform) (schema : ProfileSchema) (stored : Option Value) (incoming : Value)
    (editor : Editor) (result : Value) : Prop where
  /-- What the editor may not touch has its stored value, or is absent as it was. -/
  frame : ∀ k, keeps schema editor k = true → result.member k = stored.bind fun doc => doc.member k
  /-- A declared attribute that was sent is cleared, or satisfies its definition. -/
  satisfied : ∀ k w d, incoming.member k = some w → schema.get k = some d →
    (w = .null ∧ result.member k = none) ∨ ∃ v, result.member k = some v ∧ Satisfies P d v
  required : ∀ d ∈ schema.attributes, d.required = true →
    ∃ v, result.member d.name = some v ∧ isNonEmpty v = true
  again : ∀ editor', validateAttributes P schema result editor' (some result) = .ok result

/-- Every telephone number that is sent for a declared attribute is within its lengths and its
pattern. -/
def PhonesFit (P : Platform) (schema : ProfileSchema) (incoming : Value) : Prop :=
  ∀ k w d, incoming.member k = some w → schema.get k = some d → PhoneFits P d w

lemma member_eq {doc : Option Value} (k : String) :
    (doc.bind fun doc => doc.member k) = Members.get ((doc.bind asObject).getD []) k := by
  cases doc with
  | none => rfl
  | some v => cases v <;> rfl

lemma judge_declared {r : Option Value}
    (hd : schema.get k = some d) (h : judge P schema editor unchanged k w = .ok r) :
    (w = .null ∧ r = none) ∨ ∃ v, r = some v ∧ validateValue P d w = .ok v := by
  simp only [judge, hd] at h
  split_ifs at h with hallowed hnull
  · exact .inl ⟨hnull, (Except.ok.inj h).symm⟩
  · cases hw : validateValue P d w with
    | error e =>
        rw [hw] at h
        cases h
    | ok v =>
        rw [hw] at h
        exact .inr ⟨v, (Except.ok.inj h).symm, rfl⟩

lemma phoneFits_null (d : AttributeDef) : PhoneFits P d .null := by
  intro _ s hs
  rw [textsSent] at hs
  split_ifs at hs <;> cases hs

/-- **Editors change only what they may**, store what the schema asks for, and leave a document that
is valid as it stands, exactly if the telephone numbers they send are within the lengths and the
patterns of their attributes: nothing checks these. -/
theorem editors_change_only_theirs_iff (P : Platform) (hP : PlatformLaws P) (schema : ProfileSchema)
    (stored : Option Value) (hstored : Reached P schema stored) (incoming : Value)
    (hin : IsMap incoming) (editor : Editor) (result : Value)
    (hok : validateAttributes P schema incoming editor stored = .ok result) :
    Promised P schema stored incoming editor result ↔ PhonesFit P schema incoming := by
  have hsettled := hstored.settled hP
  have hresult := (Reached.validated hstored hin hok).settled hP
  cases incoming with
  | object incoming =>
      obtain ⟨out, rfl, -, hsent, hkept, hrequired⟩ :=
        validateAttributesWith_ok (hin incoming rfl) hsettled.keyed hok
      have hdeclared : ∀ k w d, Members.get incoming k = some w → schema.get k = some d →
          (w = .null ∧ Members.get out k = none) ∨
            ∃ v, Members.get out k = some v ∧ validateValue P d w = .ok v := by
        intro k w d hw hd
        obtain ⟨r, hr, hout⟩ := hsent k w hw
        rw [hout]
        exact judge_declared hd hr
      constructor
      · intro hpromised k w d hw hd
        rcases hdeclared k w d hw hd with ⟨rfl, -⟩ | ⟨v, hout, hv⟩
        · exact phoneFits_null d
        · rcases hpromised.satisfied k w d hw hd with ⟨rfl, -⟩ | ⟨v', hout', hsat⟩
          · exact phoneFits_null d
          · have heq : v' = v := Option.some.inj (hout'.symm.trans hout)
            exact (satisfies_iff hP hv).mp (heq ▸ hsat)
      · intro hfits
        refine ⟨?_, ?_, ?_, ?_⟩
        · intro k hk
          rw [member_eq]
          exact kept_of_settled hsettled (hsent k) (hkept k) hk
        · intro k w d hw hd
          rcases hdeclared k w d hw hd with hnull | ⟨v, hout, hv⟩
          · exact .inl hnull
          · exact .inr ⟨v, hout, (satisfies_iff hP hv).mpr (hfits k w d hw hd)⟩
        · intro d hd hreq
          exact (Option.any_eq_true _ _).mp (hrequired rfl d hd hreq)
        · intro editor'
          exact hresult.validate editor' hrequired
  | _ => cases hok

end Documents

def plainPlatform : Platform where
  toLowercase := toAsciiLowercase
  validateEmail e := e.toList.contains '@' && decide (e.toList.length ≤ 320)
  regex _ := none
  urlScheme _ := none
  parseDate _ := none
  asF64 _ := 0
  f64Text _ := "0"

lemma plainPlatform_laws : PlatformLaws plainPlatform where
  lower := lowerLaws_ascii
  emailLength e he := by
    have hshort := of_decide_eq_true (Bool.and_eq_true_iff.mp he).2
    omega
  urlLength s scheme h := by cases h
  date s t h := by cases h

def phoneSchema (n : ℕ) : ProfileSchema where
  attributes := [{ name := "phone", kind := .phone, validation := { maxLength := some n } }]
  allowUndeclared := false

def phoneSent : Value := .object [("phone", .string "+1555 0100")]

def staffSchema : ProfileSchema where
  attributes := [{ name := "phone", kind := .phone, validation := { maxLength := some 12 } },
    { name := "department", editableBy := .admin }]
  allowUndeclared := false

def department : Value := .object [("department", .string "sales")]

/-- A user adds a telephone number to what an administrator has entered. -/
theorem editors_change_only_theirs_iff_phone :
    Reached plainPlatform staffSchema (some department) ∧
      keeps staffSchema .user "department" = true ∧
      Promised plainPlatform staffSchema (some department) phoneSent .user
        (.object [("phone", .string "+15550100"), ("department", .string "sales")]) := by
  have hreached : Reached plainPlatform staffSchema (some department) :=
    .validated .fresh (by intro m hm; cases hm; decide)
      (show validateAttributes plainPlatform staffSchema department .admin none = .ok department by decide)
  have hfit : PhonesFit plainPlatform staffSchema phoneSent := by
    intro k w d hw hd _ s hs p hp
    obtain ⟨rfl, rfl⟩ : k = "phone" ∧ w = .string "+1555 0100" := by
      by_cases hk : k = "phone"
      · subst hk
        exact ⟨rfl, (Option.some.inj hw).symm⟩
      · simp [phoneSent, Value.member, Members.get, Ne.symm hk] at hw
    cases hd
    cases List.mem_singleton.mp hs
    cases hp
    exact ⟨by decide, by decide, by decide⟩
  exact ⟨hreached, by decide, (editors_change_only_theirs_iff plainPlatform plainPlatform_laws staffSchema _
    hreached phoneSent (by intro m hm; cases hm; decide) .user _ (by decide)).mpr hfit⟩

/-- **A telephone number that is too long is stored.** -/
theorem long_phone_stored :
    ∃ result, Reached plainPlatform (phoneSchema 8) none ∧ IsMap phoneSent ∧
      validateAttributes plainPlatform (phoneSchema 8) phoneSent .user none = .ok result ∧
        ¬ Promised plainPlatform (phoneSchema 8) none phoneSent .user result := by
  refine ⟨.object [("phone", .string "+15550100")], .fresh, ?_, by decide, ?_⟩
  · intro m hm
    cases hm
    decide
  · intro h
    have hd : (phoneSchema 8).get "phone" =
        some { name := "phone", kind := .phone, validation := { maxLength := some 8 } } := rfl
    rcases h.satisfied "phone" (.string "+1555 0100") _ rfl hd with ⟨hnull, -⟩ | ⟨v, hv, hsat⟩
    · cases hnull
    · cases hv
      obtain ⟨s, hs, -, hfits⟩ := hsat
      cases hs
      exact absurd (hfits.short 8 rfl) (by decide)

end Ridm.Users
