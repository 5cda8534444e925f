import Ridm.Scim.Lookup

/-!
# Storing a user's own document

A PATCH is serialised, edited, read again and stored as a full replace, so everything it does not
name has to survive the way through the document.  The plainest case is a user's own document:
`replace_user` with `user_to_scim` of the current row.

`own_document_iff` says exactly when that leaves the user as they are: when the request is refused,
or the row is one the document carries faithfully.  `pending_user_is_disabled` is a row it does not.
-/

namespace Ridm.Scim

open Users (User UserStatus UserUpdate ProfileSchema)

/-! ## What the document carries -/

/-- `non_empty` of a string: trimmed, and nothing when nothing is left. -/
def plainOf (s : Option String) : Option String := (s.map trim).filter fun t => !t.isEmpty

lemma nonEmpty_string (s : Option String) : nonEmpty (s.map .string) = plainOf s := by
  cases s <;> rfl

def nameAttributes : List String := ["given_name", "family_name", "display_name"]

/-- What the document carries of a stored attribute: of a name attribute that the schema keeps only
a string, trimmed and not empty; the others are not in the document and stay. -/
def carried (schema : ProfileSchema) (k : String) (v : Value) : Option Value :=
  if k ∈ nameAttributes ∧ keepsAttr schema k = true then (plainOf v.asStr).map .string else some v

def stored (u : User) : Members := (Users.asObject u.attributes).getD []

/-- The name attributes a user's own document sets. -/
def ownNames (schema : ProfileSchema) (u : User) : Members :=
  putAttr schema "given_name" (plainOf (attr u "given_name")) ++
    (putAttr schema "family_name" (plainOf (attr u "family_name")) ++
      putAttr schema "display_name" (plainOf (attr u "display_name")))

/-- The attributes that storing a user's own document writes. -/
def ownAttributes (schema : ProfileSchema) (u : User) : Members :=
  mergeAttributes (stored u) (ownNames schema u)

/-- The patch that storing a user's own document comes to, with its attributes validated. -/
def ownPatch (u : User) (attributes : Value) : UserUpdate :=
  { username := some u.username
    email := some u.email
    phone := some u.phone
    status := replacedStatus (u.status == .active) u.status
    attributes := some attributes
    locale := some (plainOf u.locale)
    externalId := some (plainOf u.externalId) }

/-- What the services write into a row besides names: a normalised number, one attribute per name. -/
structure WellStored (u : User) : Prop where
  phone : ∀ p ∈ u.phone, ∃ raw, Users.normalizePhone raw = .ok p
  attributes : (stored u).Keyed

/-- What the service relies on: lower-casing as it is, and no empty address. -/
structure ServiceLaws (S : Service) : Prop where
  lower : LowerLaws S.toLowercase
  address : S.validateEmail "" = false

/-! ## Reading the document back -/

section Reading

variable {S : Service}

lemma plainOf_eq {s : String} (htrim : trim s = s) (hne : s.isEmpty = false) :
    plainOf (some s) = some s := by
  rw [plainOf, Option.map_some, htrim, Option.filter_some, hne]
  rfl

lemma username_plain (hS : ServiceLaws S) {raw x : String}
    (h : Users.normalizeUsername S.forUsers raw = .ok x) :
    trim x = x ∧ x.isEmpty = false ∧ Users.normalizeUsername S.forUsers x = .ok x := by
  have heq := normalizeUsername_eq h
  have htrim : trim x = x := by rw [heq, hS.lower.trim_lower]
  have hlower : S.forUsers.toLowercase x = x := by
    rw [heq]
    exact hS.lower.idem _
  have hagain : Users.normalizeUsername S.forUsers x = Users.normalizeUsername S.forUsers raw := by
    rw [Users.normalizeUsername, Users.normalizeUsername, htrim, hlower, ← heq]
  refine ⟨htrim, ?_, hagain.trans h⟩
  rw [Users.normalizeUsername, ← heq] at h
  split_ifs at h with hsize
  exact Bool.eq_false_iff.mpr fun hempty => hsize (.inl hempty)

lemma email_plain (hS : ServiceLaws S) {raw x : String}
    (h : Users.normalizeEmail S.forUsers raw = .ok x) :
    trim x = x ∧ x.isEmpty = false ∧ Users.normalizeEmail S.forUsers x = .ok x := by
  have heq := normalizeEmail_eq h
  have htrim : trim x = x := by rw [heq, hS.lower.trim_lower]
  have hlower : S.forUsers.toLowercase x = x := by
    rw [heq]
    exact hS.lower.idem _
  have hagain : Users.normalizeEmail S.forUsers x = Users.normalizeEmail S.forUsers raw := by
    rw [Users.normalizeEmail, Users.normalizeEmail, htrim, hlower, ← heq]
  refine ⟨htrim, ?_, hagain.trans h⟩
  rw [Users.normalizeEmail, ← heq] at h
  split_ifs at h with hvalid
  rw [Bool.eq_false_iff]
  intro hempty
  rw [String.isEmpty_iff] at hempty
  rw [hempty] at hvalid
  exact hvalid (.inr hS.address)

lemma trim_of_noWhitespace {s : String} (h : ∀ c ∈ s.toList, isWhitespace c = false) : trim s = s := by
  rw [← String.toList_inj, toList_trim, trimChars]
  have hdrop : ∀ l : List Char, (∀ c ∈ l, isWhitespace c = false) → l.dropWhile isWhitespace = l := by
    intro l hl
    cases l with
    | nil => rfl
    | cons c l => rw [List.dropWhile_cons, hl c List.mem_cons_self]; rfl
  rw [hdrop _ h, hdrop _ (fun c hc => h c (List.mem_reverse.mp hc)), List.reverse_reverse]

lemma phone_plain {p raw : String} (h : Users.normalizePhone raw = .ok p) :
    trim p = p ∧ p.isEmpty = false ∧ Users.normalizePhone p = .ok p := by
  obtain ⟨hnone, hagain⟩ := Users.normalizePhone_normal h
  refine ⟨trim_of_noWhitespace hnone, ?_, hagain⟩
  rw [Bool.eq_false_iff]
  intro hempty
  rw [String.isEmpty_iff] at hempty
  rw [hempty] at hagain
  cases hagain

lemma nameOf_names (given family : Option String) :
    ((nameOf given family).bind fun n => nonEmpty (getCi n "givenName")) = plainOf given ∧
      ((nameOf given family).bind fun n => nonEmpty (getCi n "familyName")) = plainOf family := by
  have hkeys : ciKey "givenName" = "givenname" ∧ ciKey "familyName" = "familyname" ∧
      ciKey "formatted" = "formatted" := by decide
  have hread : ∀ formatted : Value, let n := Value.object (optMember "givenName" (given.map .string) ++
      (optMember "familyName" (family.map .string) ++ [("formatted", formatted)]))
      getCi n "givenName" = given.map .string ∧ getCi n "familyName" = family.map .string := by
    intro formatted
    simp [getCi, findCi_append, findCi_optMember, findCi_cons, findCi_nil, hkeys]
  rw [← nonEmpty_string given, ← nonEmpty_string family]
  rcases given with _ | given <;> rcases family with _ | family
  · exact ⟨rfl, rfl⟩
  all_goals
    rw [nameOf, Option.bind_some, Option.bind_some]
    · rw [(hread _).1, (hread _).2]
      exact ⟨rfl, rfl⟩
    · simp

lemma primaryValue_single {entry : Value} {x : String} (hvalue : getCi entry "value" = some (.string x))
    (htrim : trim x = x) (hne : x.isEmpty = false) : primaryValue (some (.array [entry])) = some x := by
  have hpick : ([entry].find? fun e => ((getCi e "primary").bind asBool) == some true).or
      [entry].head? = some entry := by
    rw [List.find?_singleton]
    split_ifs <;> rfl
  have hplain : nonEmpty (getCi entry "value") = some x := by
    rw [hvalue]
    exact plainOf_eq htrim hne
  simp only [primaryValue, Option.bind_some, Value.asArray, hpick]
  cases entry with
  | string s => cases hvalue
  | _ => exact hplain

lemma primaryValue_emails {e : String} (htrim : trim e = e) (hne : e.isEmpty = false) :
    primaryValue (some (emailsOf e)) = some e :=
  primaryValue_single (getCi_emailValue e) htrim hne

lemma primaryValue_phones {p : String} (htrim : trim p = p) (hne : p.isEmpty = false) :
    primaryValue (some (phonesOf p)) = some p := by
  refine primaryValue_single ?_ htrim hne
  rw [getCi, findCi_cons, if_pos rfl]

end Reading

/-! ## The attributes that are written -/

lemma get_append (a b : Members) (k : String) :
    Members.get (a ++ b) k = (Members.get a k).or (Members.get b k) := by
  induction a with
  | nil => rfl
  | cons e a ih =>
      obtain ⟨j, v⟩ := e
      rw [List.cons_append, Members.get_cons, Members.get_cons, ih]
      split_ifs <;> rfl

lemma get_putAttr (schema : ProfileSchema) (key : String) (v : Option String) (k : String) :
    Members.get (putAttr schema key v) k =
      if key = k ∧ keepsAttr schema key = true then some ((v.map Value.string).getD .null) else none := by
  rw [putAttr]
  by_cases hkeep : keepsAttr schema key = true
  · simp [hkeep, Members.get_cons]
  · simp [hkeep]

lemma keyed_ownNames (schema : ProfileSchema) (u : User) : (ownNames schema u).Keyed := by
  have hkeys : (ownNames schema u).map (·.1) = nameAttributes.filter (keepsAttr schema) := by
    simp only [ownNames, putAttr, nameAttributes, List.filter_cons, List.filter_nil]
    split_ifs <;> rfl
  rw [Members.Keyed, hkeys]
  exact List.Nodup.sublist List.filter_sublist (by decide)

lemma get_ownNames (schema : ProfileSchema) (u : User) (k : String) :
    (ownNames schema u).get k =
      if k ∈ nameAttributes ∧ keepsAttr schema k = true then
        some (((plainOf (attr u k)).map Value.string).getD .null)
      else none := by
  rw [ownNames, get_append, get_append, get_putAttr, get_putAttr, get_putAttr]
  by_cases hgiven : "given_name" = k
  · subst hgiven
    simp [nameAttributes]
  · by_cases hfamily : "family_name" = k
    · subst hfamily
      simp [nameAttributes]
    · by_cases hdisplay : "display_name" = k
      · subst hdisplay
        simp [nameAttributes]
      · simp [nameAttributes, hgiven, hfamily, hdisplay, Ne.symm hgiven, Ne.symm hfamily,
          Ne.symm hdisplay]

/-- What a merge leaves at a key: `null` takes it away. -/
lemma get_mergeAttributes {incoming : Members} (hin : incoming.Keyed) (stored : Members) (k : String) :
    Members.get (mergeAttributes stored incoming) k =
      match incoming.get k with
      | none => stored.get k
      | some v => if v = .null then none else some v := by
  induction incoming generalizing stored with
  | nil => rfl
  | cons e incoming ih =>
      obtain ⟨j, w⟩ := e
      obtain ⟨hj, hin⟩ := Members.keyed_cons.mp hin
      rw [mergeAttributes, List.foldl_cons, ← mergeAttributes, ih hin, Members.get_cons]
      by_cases hjk : j = k
      · subst hjk
        rw [Members.get_eq_none hj, if_pos rfl]
        simp only
        split_ifs
        · rw [Members.get_filter_ne, if_pos rfl]
        · rw [Members.get_insert, if_pos rfl]
      · have hstep : Members.get (if w = .null then stored.filter (fun m => m.1 != j)
            else stored.insert j w) k = stored.get k := by
          split_ifs
          · rw [Members.get_filter_ne, if_neg hjk]
          · rw [Members.get_insert, if_neg hjk]
        rw [if_neg hjk, hstep]

lemma keyed_mergeAttributes {stored : Members} (h : stored.Keyed) (incoming : Members) :
    (mergeAttributes stored incoming).Keyed := by
  induction incoming generalizing stored with
  | nil => exact h
  | cons e incoming ih =>
      rw [mergeAttributes, List.foldl_cons, ← mergeAttributes]
      refine ih ?_
      split_ifs
      · exact h.filter _
      · exact h.insert _ _

lemma get_ownAttributes (schema : ProfileSchema) (u : User) (k : String) :
    (ownAttributes schema u).get k = ((stored u).get k).bind (carried schema k) := by
  have hattr : attr u k = ((stored u).get k).bind Value.asStr := by
    rw [attr, stored]
    cases Users.asObject u.attributes <;> rfl
  rw [ownAttributes, get_mergeAttributes (keyed_ownNames schema u), get_ownNames, hattr]
  by_cases hname : k ∈ nameAttributes ∧ keepsAttr schema k = true
  · rw [if_pos hname]
    cases (stored u).get k with
    | none => rfl
    | some v =>
        simp only [Option.bind_some, carried, if_pos hname]
        cases plainOf v.asStr <;> rfl
  · rw [if_neg hname]
    cases (stored u).get k with
    | none => rfl
    | some v => simp only [Option.bind_some, carried, if_neg hname]

/-! ## The request -/

section Request

variable {S : Service} (pop : Population S) {u : User} {base : String} {memberOf : List Group}
  {schema : ProfileSchema}

lemma userFromScim_own (hS : ServiceLaws S) (hu : u ∈ pop.rows) (hstored : WellStored u) :
    userFromScim (userToScim S base u memberOf) schema = .ok
      { username := u.username
        externalId := plainOf u.externalId
        email := u.email
        phone := u.phone
        active := u.status == .active
        locale := plainOf u.locale
        attributes := ownNames schema u } := by
  have hname : nonEmpty (some (.string u.username)) = some u.username := by
    obtain ⟨raw, hraw⟩ := pop.usernames u hu
    obtain ⟨htrim, hne, -⟩ := username_plain hS hraw
    exact plainOf_eq htrim hne
  have hemail : primaryValue (u.email.map emailsOf) = u.email := by
    cases he : u.email with
    | none => rfl
    | some e =>
        obtain ⟨raw, hraw⟩ := pop.emails u hu e he
        obtain ⟨htrim, hne, -⟩ := email_plain hS hraw
        exact primaryValue_emails htrim hne
  have hphone : primaryValue (u.phone.map phonesOf) = u.phone := by
    cases hp : u.phone with
    | none => rfl
    | some p =>
        obtain ⟨raw, hraw⟩ := hstored.phone p hp
        obtain ⟨htrim, hne, -⟩ := phone_plain hraw
        exact primaryValue_phones htrim hne
  simp only [userFromScim, getCi_userName, hname, getCi_name, (nameOf_names _ _).1,
    (nameOf_names _ _).2, getCi_displayName, getCi_active, getCi_externalId, getCi_emails,
    getCi_phoneNumbers, getCi_locale, hemail, hphone, nonEmpty_string]
  rfl

lemma normalizeField_same {f : String → Except AppError String} {v : Option String}
    (h : ∀ x ∈ v, f x = .ok x) : Users.normalizeField f (some v) = .ok (some v) := by
  cases v with
  | none => rfl
  | some x => rw [Users.normalizeField, Users.normalizeOpt, h x rfl]; rfl

lemma normalizePatch_own (hS : ServiceLaws S) (hu : u ∈ pop.rows) (hstored : WellStored u)
    (v : Value) : Users.normalizePatch S.forUsers (ownPatch u v) = .ok (ownPatch u v) := by
  obtain ⟨raw, hraw⟩ := pop.usernames u hu
  have hname : Users.normalizeOpt (Users.normalizeUsername S.forUsers) (some u.username) =
      .ok (some u.username) := by
    rw [Users.normalizeOpt, (username_plain hS hraw).2.2]
    rfl
  have hemail : Users.normalizeField (Users.normalizeEmail S.forUsers) (some u.email) =
      .ok (some u.email) := by
    refine normalizeField_same fun e he => ?_
    obtain ⟨raw, hraw⟩ := pop.emails u hu e he
    exact (email_plain hS hraw).2.2
  have hphone : Users.normalizeField Users.normalizePhone (some u.phone) = .ok (some u.phone) := by
    refine normalizeField_same fun p hp => ?_
    obtain ⟨raw, hraw⟩ := hstored.phone p hp
    exact (phone_plain hraw).2.2
  simp only [Users.normalizePatch, ownPatch, hname, hemail, hphone]
  rfl

/-- Storing a user's own document: the attributes are validated, the directory is asked, and the row
is written. -/
lemma replaceUser_own (hS : ServiceLaws S) (hu : u ∈ pop.rows) (hlive : u.live = true)
    (hstored : WellStored u) (directory : Users.Directory) (now : Instant) :
    replaceUser S schema directory pop.rows now u.id (userToScim S base u memberOf) =
      (do
        let v ← Users.validateAttributes S.forUsers schema (.object (ownAttributes schema u)) .system
          (some u.attributes)
        Users.askDirectory directory false u (ownPatch u v)
        Users.update pop.rows u (ownPatch u v) now).mapError ScimError.ofApp := by
  have hget := pop.get_eq hu hlive
  have hpatch : (ownPatch u (.object (ownAttributes schema u))).isEmpty = false := by
    rw [UserUpdate.isEmpty, beq_eq_false_iff_ne]
    intro h
    cases congrArg UserUpdate.username h
  have hreplace : replaceUser S schema directory pop.rows now u.id (userToScim S base u memberOf) =
      (Users.updateAs S.forUsers schema directory pop.rows now false .system u.id
        (ownPatch u (.object (ownAttributes schema u)))).mapError .ofApp := by
    rw [replaceUser, hget, userFromScim_own pop hS hu hstored]
    rfl
  have hvalidate : Users.validatePatch S.forUsers schema .system u
      (ownPatch u (.object (ownAttributes schema u))) =
      (Users.validateAttributes S.forUsers schema (.object (ownAttributes schema u)) .system
        (some u.attributes)).map (ownPatch u) := rfl
  rw [hreplace, Users.updateAs, hpatch, if_neg Bool.false_ne_true,
    normalizePatch_own pop hS hu hstored, hget]
  simp only [bind, Except.bind, hvalidate]
  cases Users.validateAttributes S.forUsers schema (.object (ownAttributes schema u)) .system
      (some u.attributes) <;> rfl

/-- The only index a user's own document can run into is that of external ids, when trimming makes
the id another user's. -/
lemma conflict_own_iff (hu : u ∈ pop.rows) (hlive : u.live = true) (v : Value) (now : Instant) :
    (pop.rows.any fun r => r.id != ((ownPatch u v).apply u now).id &&
        Users.clashes r ((ownPatch u v).apply u now)) = true ↔
      ∃ r ∈ pop.rows, r.id ≠ u.id ∧ r.live = true ∧ ∃ x ∈ plainOf u.externalId,
        r.externalId = some x := by
  rw [List.any_eq_true]
  refine exists_congr fun r => and_congr_right fun hr => ?_
  show (r.id != u.id && Users.clashes r ((ownPatch u v).apply u now)) = true ↔ _
  rw [Bool.and_eq_true, bne_iff_ne]
  refine and_congr_right fun hid => ?_
  have hlive' : ((ownPatch u v).apply u now).live = true := hlive
  have hindex := pop.indexes r hr u hu hid
  rw [Users.clashes, hlive, Bool.and_true, Bool.and_eq_false_iff] at hindex
  rw [Users.clashes, hlive', Bool.and_true, Bool.and_eq_true]
  refine and_congr_right fun hrl => ?_
  rw [hrl] at hindex
  have hsame := hindex.resolve_left (by decide)
  rw [Bool.or_eq_false_iff] at hsame
  -- username and email are written as they are
  have hkeys : (Users.sameKey (fun x => some x.username) r ((ownPatch u v).apply u now) ||
      Users.sameKey User.email r ((ownPatch u v).apply u now)) = false := hsame.1
  rw [hkeys, Bool.false_or, Users.sameKey]
  show ((plainOf u.externalId).isSome && r.externalId == plainOf u.externalId) = true ↔ _
  cases plainOf u.externalId with
  | none => simp
  | some x => simp

end Request

/-! ## What becomes of the row -/

/-- What the document stands for is the same in two rows, every attribute included. -/
structure SameProfile (a b : User) : Prop where
  username : a.username = b.username
  email : a.email = b.email
  phone : a.phone = b.phone
  status : a.status = b.status
  locale : a.locale = b.locale
  externalId : a.externalId = b.externalId
  attributes : ∀ k, (stored a).get k = (stored b).get k

/-- The rows behind a request; one that is refused leaves them as they are. -/
def rowsAfter (rows : Users.Table) : ScimResult (Users.Table × User) → Users.Table
  | .ok (rows', _) => rows'
  | .error _ => rows

/-- The user's row still says what it said. -/
def Untouched (rows : Users.Table) (u : User) (answer : ScimResult (Users.Table × User)) : Prop :=
  ∃ r ∈ Users.findById (rowsAfter rows answer) u.id, SameProfile r u

/-- Storing the user's own document is not refused: the schema takes the attributes, the directory
the change, and no other live user has the external id, trimmed. -/
structure Accepted (S : Service) (schema : ProfileSchema) (directory : Users.Directory)
    (rows : Users.Table) (u : User) : Prop where
  attributes : ∃ v, Users.validateAttributes S.forUsers schema (.object (ownAttributes schema u))
    .system (some u.attributes) = .ok v ∧ Users.askDirectory directory false u (ownPatch u v) = .ok ()
  externalId : ¬ ∃ r ∈ rows, r.id ≠ u.id ∧ r.live = true ∧ ∃ x ∈ plainOf u.externalId,
    r.externalId = some x

/-- The document carries the whole row: the user is not pending, locale and external id are trimmed
and not empty, and the schema's check gives each attribute back as it is stored. -/
structure Faithful (S : Service) (schema : ProfileSchema) (u : User) : Prop where
  status : u.status ≠ .pending
  locale : ∀ x ∈ u.locale, trim x = x ∧ x.isEmpty = false
  externalId : ∀ x ∈ u.externalId, trim x = x ∧ x.isEmpty = false
  attributes : ∀ k v, (stored u).get k = some v →
    ∃ w, carried schema k v = some w ∧ Users.judge S.forUsers schema .system false k w = .ok (some v)

lemma plainOf_eq_self_iff (s : Option String) :
    plainOf s = s ↔ ∀ x ∈ s, trim x = x ∧ x.isEmpty = false := by
  cases s with
  | none => simp [plainOf]
  | some s =>
      constructor
      · intro h x hx
        cases hx
        rw [plainOf, Option.map_some, Option.filter_eq_some_iff, Option.some.injEq] at h
        exact ⟨h.1, by simpa using h.2⟩
      · intro h
        obtain ⟨htrim, hne⟩ := h s rfl
        exact plainOf_eq htrim hne

lemma status_own_iff (st : UserStatus) :
    (replacedStatus (st == .active) st).getD st = st ↔ st ≠ .pending := by
  cases st <;> decide

lemma accepted_eq_some_iff {P : Users.Platform} {schema : ProfileSchema} {k : String} {w v : Value} :
    Users.accepted P schema k w = some v ↔ Users.judge P schema .system false k w = .ok (some v) := by
  rw [Users.accepted]
  rcases Users.judge P schema .system false k w with message | (_ | x)
  · simp [Except.toOption]
  · simp [Except.toOption]
  · simp [Except.toOption]

section Row

variable {S : Service} {u : User} {schema : ProfileSchema}

/-- The attributes that are stored are the old ones exactly when each survives the document and the
check. -/
lemma attributes_own_iff {out : Members}
    (hout : ∀ k, out.get k = ((ownAttributes schema u).get k).bind (Users.accepted S.forUsers schema k)) :
    (∀ k, out.get k = (stored u).get k) ↔
      ∀ k v, (stored u).get k = some v → ∃ w, carried schema k v = some w ∧
        Users.judge S.forUsers schema .system false k w = .ok (some v) := by
  refine forall_congr' fun k => ?_
  rw [hout, get_ownAttributes]
  cases (stored u).get k with
  | none => simp
  | some v =>
      rw [Option.bind_some]
      constructor
      · intro h v' hv'
        cases hv'
        obtain ⟨w, hw, hv⟩ := Option.bind_eq_some_iff.mp h
        exact ⟨w, hw, accepted_eq_some_iff.mp hv⟩
      · intro h
        obtain ⟨w, hw, hv⟩ := h v rfl
        exact Option.bind_eq_some_iff.mpr ⟨w, hw, accepted_eq_some_iff.mpr hv⟩

lemma written_same_iff (hstored : WellStored u) {v : Value} (now : Instant)
    (hv : Users.validateAttributes S.forUsers schema (.object (ownAttributes schema u)) .system
      (some u.attributes) = .ok v) :
    SameProfile ((ownPatch u v).apply u now) u ↔ Faithful S schema u := by
  obtain ⟨out, rfl, hout⟩ := Users.validateAttributes_system
    (keyed_mergeAttributes hstored.attributes (ownNames schema u)) hv
  have hattributes := attributes_own_iff (S := S) hout
  constructor
  · intro h
    exact ⟨(status_own_iff u.status).mp h.status, (plainOf_eq_self_iff _).mp h.locale,
      (plainOf_eq_self_iff _).mp h.externalId, hattributes.mp h.attributes⟩
  · intro h
    exact
      { username := rfl
        email := rfl
        phone := rfl
        status := (status_own_iff u.status).mpr h.status
        locale := (plainOf_eq_self_iff _).mpr h.locale
        externalId := (plainOf_eq_self_iff _).mpr h.externalId
        attributes := hattributes.mpr h.attributes }

lemma findById_replaceRow {rows : Users.Table} {u r : User} (h : Users.findById rows u.id = some r) :
    Users.findById (Users.replaceRow rows u) u.id = some u := by
  rw [Users.findById, Users.replaceRow, List.find?_map]
  have hkey : ((fun r : User => r.id == u.id) ∘ fun r => if r.id = u.id then u else r) =
      fun r => r.id == u.id := by
    funext r
    by_cases hr : r.id = u.id
    · simp [hr]
    · simp [hr]
  rw [hkey, ← Users.findById, h, Option.map_some, if_pos]
  simpa using List.find?_some h

end Row

/-- **When a user's own document leaves the user as they are.**  For every live user of a tenant,
every schema and every directory, storing the document of the current row keeps username, email,
phone, status, locale, external id and every attribute exactly when the request is refused or the
document carries the row faithfully. -/
theorem own_document_iff {S : Service} (hS : ServiceLaws S) (pop : Population S) {u : User}
    (hu : u ∈ pop.rows) (hlive : u.live = true) (hstored : WellStored u) (schema : ProfileSchema)
    (directory : Users.Directory) (now : Instant) (base : String) (memberOf : List Group) :
    Untouched pop.rows u
        (replaceUser S schema directory pop.rows now u.id (userToScim S base u memberOf)) ↔
      (Accepted S schema directory pop.rows u → Faithful S schema u) := by
  rw [replaceUser_own pop hS hu hlive hstored]
  have hold := pop.findById_eq hu
  -- a refused request has nothing to show
  have hrefused : ∀ e, Untouched pop.rows u (.error e) := fun e =>
    ⟨u, hold, ⟨rfl, rfl, rfl, rfl, rfl, rfl, fun _ => rfl⟩⟩
  cases hv : Users.validateAttributes S.forUsers schema (.object (ownAttributes schema u)) .system
      (some u.attributes) with
  | error e =>
      refine iff_of_true (hrefused _) fun h => ?_
      obtain ⟨v, hv', -⟩ := h.attributes
      rw [hv] at hv'
      cases hv'
  | ok v =>
      cases hd : Users.askDirectory directory false u (ownPatch u v) with
      | error e =>
          simp only [bind, Except.bind, hd]
          refine iff_of_true (hrefused _) fun h => ?_
          obtain ⟨v', hv', hd'⟩ := h.attributes
          rw [hv] at hv'
          cases hv'
          rw [hd] at hd'
          cases hd'
      | ok _ =>
          have hconflict := conflict_own_iff pop hu hlive v now
          simp only [bind, Except.bind, hd, Users.update]
          split_ifs with hany
          · exact iff_of_true (hrefused _) fun h => absurd (hconflict.mp hany) h.externalId
          · have haccepted : Accepted S schema directory pop.rows u :=
              ⟨⟨v, hv, hd⟩, fun h => hany (hconflict.mpr h)⟩
            have hnew : Users.findById (Users.replaceRow pop.rows ((ownPatch u v).apply u now)) u.id =
                some ((ownPatch u v).apply u now) :=
              findById_replaceRow (u := (ownPatch u v).apply u now) hold
            rw [← written_same_iff hstored now hv]
            constructor
            · rintro ⟨r, hr, hsame⟩ -
              rw [Option.some.inj (hnew.symm.trans hr)]
              exact hsame
            · intro h
              exact ⟨_, hnew, h haccepted⟩

def sampleSchema : ProfileSchema := ⟨[{ name := "given_name" }], true⟩

def sampleCarol : User :=
  { id := 3, username := "carol", phone := some "+15551234567"
    attributes := .object [("given_name", .string "Carol"), ("badge", .number "7")]
    locale := some "en", externalId := some "hr-3", createdAt := 0, updatedAt := 0 }

def sampleTenant (u : User) (hname : Users.normalizeUsername sampleService.forUsers u.username =
    .ok u.username) (hemail : u.email = none) : Population sampleService where
  rows := [u]
  ids := List.nodup_singleton _
  indexes := by
    intro r hr s hs hne
    rw [List.mem_singleton.mp hr, List.mem_singleton.mp hs] at hne
    exact absurd rfl hne
  usernames := by
    intro r hr
    rw [List.mem_singleton.mp hr]
    exact ⟨u.username, hname⟩
  emails := by
    intro r hr e he
    rw [List.mem_singleton.mp hr, hemail] at he
    cases he

/-- Carol's own document leaves her as she is. -/
theorem own_document_iff_carol :
    Untouched [sampleCarol] sampleCarol
      (replaceUser sampleService sampleSchema (fun _ _ => .ok ()) [sampleCarol] 7 sampleCarol.id
        (userToScim sampleService "" sampleCarol [])) := by
  refine (own_document_iff ⟨lowerLaws_ascii, rfl⟩ (sampleTenant sampleCarol rfl rfl)
    (List.mem_singleton.mpr rfl) rfl ⟨?_, by decide⟩ sampleSchema (fun _ _ => .ok ()) 7 "" []).mpr
    fun _ => ⟨by decide, ?_, ?_, ?_⟩
  · rintro p ⟨rfl⟩
    exact ⟨"+15551234567", rfl⟩
  · rintro x ⟨rfl⟩
    decide
  · rintro x ⟨rfl⟩
    decide
  · intro k v hk
    have hstored : stored sampleCarol = [("given_name", .string "Carol"), ("badge", .number "7")] := rfl
    rw [hstored, Members.get_cons, Members.get_cons] at hk
    split_ifs at hk with hgiven hbadge
    · cases hk
      subst hgiven
      exact ⟨.string "Carol", rfl, rfl⟩
    · cases hk
      subst hbadge
      exact ⟨.number "7", rfl, rfl⟩
    · cases hk

def sampleDave : User :=
  { id := 4, username := "dave", status := .pending, createdAt := 0, updatedAt := 0 }

/-- **A pending user is disabled.**  The document says of Dave that he is not active; storing it
back takes that for a wish to disable him. -/
theorem pending_user_is_disabled :
    sampleDave ∈ (sampleTenant sampleDave rfl rfl).rows ∧ sampleDave.live = true ∧
      WellStored sampleDave ∧
      ¬ Untouched [sampleDave] sampleDave
        (replaceUser sampleService sampleSchema (fun _ _ => .ok ()) [sampleDave] 7 sampleDave.id
          (userToScim sampleService "" sampleDave [])) := by
  have hstored : WellStored sampleDave := ⟨nofun, by decide⟩
  refine ⟨List.mem_singleton.mpr rfl, rfl, hstored, ?_⟩
  have hrow : replaceUser sampleService sampleSchema (fun _ _ => .ok ()) [sampleDave] 7 sampleDave.id
      (userToScim sampleService "" sampleDave []) =
      .ok ([{ sampleDave with status := .disabled, updatedAt := 7 }],
        { sampleDave with status := .disabled, updatedAt := 7 }) :=
    replaceUser_own (sampleTenant sampleDave rfl rfl) ⟨lowerLaws_ascii, rfl⟩
      (List.mem_singleton.mpr rfl) rfl hstored _ _
  rw [hrow]
  rintro ⟨r, hr, hsame⟩
  cases hr
  exact absurd hsame.status (by decide)

end Ridm.Scim
