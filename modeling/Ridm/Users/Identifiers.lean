import Ridm.Lib.Interleaving
import Ridm.Users.Model

/-!
# Whom an identifier names

People sign in with a username or an email, and `find_by_identifier` looks for both in one query
without an order and with `LIMIT 1`.  Usernames are unique among live users and so are emails, but
no constraint spans the two columns, and a username may be an address.

`identifier_names_one` is what the table does guarantee: as long as nobody is given a username that
is somebody else's email, or an email that is somebody else's username, every identifier names at
most one live user.  `identifier_names_two` is a run without that care.
-/

namespace Ridm.Users

/-! ## Registration -/

/-- The tenant's settings for `registration::register`. -/
structure RegistrationPolicy where
  enabled : Bool
  allowedEmailDomains : List String
  requireTerms : Bool
  requireEmailVerification : Bool
  passwordAuth : Bool

/-- `RegistrationInput`; its locale is the negotiated one. -/
structure RegistrationInput where
  username : Option String
  email : String
  password : Option String
  attributes : Option Value
  termsAccepted : Bool
  locale : String

/-- `email.rsplit('@').next()`. -/
def emailDomain (email : String) : String :=
  String.ofList (email.toList.reverse.takeWhile (· != '@')).reverse

def checkPolicy (P : Platform) (policy : RegistrationPolicy) (input : RegistrationInput) :
    Except AppError Unit :=
  let domain := emailDomain (P.toLowercase (trim input.email))
  if !policy.enabled then .error (.forbidden "self-registration is disabled for this tenant")
  else if ¬ policy.allowedEmailDomains = [] ∧
      ¬ policy.allowedEmailDomains.any (eqIgnoreAsciiCase · domain) then
    .error (.validation [⟨"email", "email domain is not allowed to register"⟩])
  else if policy.requireTerms ∧ ¬ input.termsAccepted then
    .error (.validation [⟨"terms_accepted", "the terms must be accepted"⟩])
  else if policy.passwordAuth ∧ (input.password.getD "").isEmpty then
    .error (.validation [⟨"password", "password is required"⟩])
  else .ok ()

/-- The username `register` asks for: the one given, or the address. -/
def registeredUsername (P : Platform) (input : RegistrationInput) (email : String) :
    Except AppError String :=
  match (input.username.map trim).filter fun u => !u.isEmpty with
  | some u => normalizeUsername P u
  | none => .ok email

/-- The conflict as `register` reports it. -/
def registrationError : AppError → AppError
  | .conflict _ => .conflict "an account with this email or username already exists"
  | e => e

/-- `register`, up to the account. -/
def register (P : Platform) (policy : RegistrationPolicy) (schema : ProfileSchema) (rows : Table)
    (id : Uuid128) (now : Instant) (input : RegistrationInput) : Except AppError (Table × User) := do
  checkPolicy P policy input
  let email ← normalizeEmail P input.email
  let username ← registeredUsername P input email
  (createAs P schema rows id now .system
    { username := username
      email := some email
      status := some (if policy.requireEmailVerification then .pending else .active)
      attributes := input.attributes
      locale := some input.locale }).mapError registrationError

/-! ## Runs -/

/-- What happens to a tenant's users: an administrator, SCIM or an import creates one, somebody
registers, somebody's profile is updated, somebody is deleted, a row is removed for good. -/
inductive UserOp
  | create (schema : ProfileSchema) (id : Uuid128) (now : Instant) (editor : Editor)
      (input : NewUser)
  | register (policy : RegistrationPolicy) (schema : ProfileSchema) (id : Uuid128) (now : Instant)
      (input : RegistrationInput)
  | update (schema : ProfileSchema) (directory : Directory) (now : Instant) (byTheSystem : Bool)
      (editor : Editor) (id : Uuid128) (patch : UserUpdate)
  | delete (id : Uuid128) (now : Instant)
  | hardDelete (id : Uuid128)

/-- The rows after a request: a refused one changes nothing. -/
def after (rows : Table) : Except AppError (Table × User) → Table
  | .ok (rows', _) => rows'
  | .error _ => rows

/-- One request. -/
def UserOp.perform (P : Platform) (rows : Table) : UserOp → Table
  | .create schema id now editor input => after rows (createAs P schema rows id now editor input)
  | .register policy schema id now input =>
      after rows (Users.register P policy schema rows id now input)
  | .update schema directory now byTheSystem editor id patch =>
      after rows (updateAs P schema directory rows now byTheSystem editor id patch)
  | .delete id now => (Users.delete rows id now).toOption.getD rows
  | .hardDelete id => rows.filter fun r => r.id != id

/-- The tenant's users, request after request. -/
def userMachine (P : Platform) : Machine Table UserOp where
  step rows op := some (op.perform P rows)

/-! ## Names that cross the columns -/

/-- Nobody else has `x` as email. -/
def NoOneElsesEmail (rows : Table) (id : Uuid128) (x : String) : Prop :=
  ∀ r ∈ rows, r.live = true → r.id ≠ id → r.email ≠ some x

/-- Nobody else has `x` as username. -/
def NoOneElsesUsername (rows : Table) (id : Uuid128) (x : String) : Prop :=
  ∀ r ∈ rows, r.live = true → r.id ≠ id → r.username ≠ x

/-- The username given, once normalised, is nobody else's email. -/
def UsernameFree (P : Platform) (rows : Table) (id : Uuid128) (raw : String) : Prop :=
  ∀ x, normalizeUsername P raw = .ok x → NoOneElsesEmail rows id x

/-- The email given, once normalised, is nobody else's username. -/
def EmailFree (P : Platform) (rows : Table) (id : Uuid128) (raw : String) : Prop :=
  ∀ x, normalizeEmail P raw = .ok x → NoOneElsesUsername rows id x

/-- The request gives nobody a username that is somebody else's email, or an email that is
somebody else's username. -/
def KeepsApart (P : Platform) (rows : Table) : UserOp → Prop
  | .create _ id _ _ input =>
      UsernameFree P rows id input.username ∧ ∀ e ∈ input.email, EmailFree P rows id e
  | .register _ _ id _ input =>
      ∀ email username, normalizeEmail P input.email = .ok email →
        registeredUsername P input email = .ok username →
        UsernameFree P rows id username ∧ EmailFree P rows id email
  | .update _ _ _ _ _ id patch =>
      (∀ raw ∈ patch.username, UsernameFree P rows id raw) ∧
        ∀ e, patch.email = some (some e) → EmailFree P rows id e
  | .delete _ _ => True
  | .hardDelete _ => True

/-- Two live users share no identifier. -/
structure Apart (r s : User) : Prop where
  username : r.username ≠ s.username
  email : ∀ e, r.email = some e → s.email ≠ some e
  left : r.email ≠ some s.username
  right : s.email ≠ some r.username

variable {schema : ProfileSchema} {editor : Editor} {now : Instant} {directory : Directory}
  {patch : UserUpdate} {byTheSystem : Bool} {input : NewUser} {r s : User}

lemma Apart.symm (h : Apart r s) : Apart s r :=
  ⟨h.username.symm, fun e he hr => h.email e hr he, h.right, h.left⟩

/-- The rows have ids of their own, and live users share no identifier. -/
structure Separate (rows : Table) : Prop where
  ids : (rows.map User.id).Nodup
  apart : ∀ r ∈ rows, ∀ s ∈ rows, r.live = true → s.live = true → r.id ≠ s.id → Apart r s

namespace Separate

variable {rows : Table}

lemma eq_of_answersTo (h : Separate rows) {x : String} (hr : r ∈ rows) (hs : s ∈ rows)
    (hrx : r.answersTo x = true) (hsx : s.answersTo x = true) : r.id = s.id := by
  by_contra hid
  simp only [User.answersTo, Bool.and_eq_true, Bool.or_eq_true, beq_iff_eq] at hrx hsx
  have hapart := h.apart r hr s hs hrx.1 hsx.1 hid
  rcases hrx.2 with hr' | hr' <;> rcases hsx.2 with hs' | hs'
  · exact hapart.username (hr'.trans hs'.symm)
  · exact hapart.right (hs'.trans (congrArg some hr'.symm))
  · exact hapart.left (hr'.trans (congrArg some hs'.symm))
  · exact hapart.email x hr' hs'

lemma identified_le_one (h : Separate rows) (x : String) : (identified rows x).length ≤ 1 := by
  have hids : ((identified rows x).map User.id).Nodup :=
    h.ids.sublist (List.filter_sublist.map _)
  have hmem : ∀ r ∈ identified rows x, r ∈ rows ∧ r.answersTo x = true :=
    fun r hr => List.mem_filter.mp hr
  cases hl : identified rows x with
  | nil => exact Nat.zero_le _
  | cons r l =>
      cases l with
      | nil => exact Nat.le_refl _
      | cons s l =>
          rw [hl] at hids hmem
          obtain ⟨hr, hrx⟩ := hmem r List.mem_cons_self
          obtain ⟨hs, hsx⟩ := hmem s (by simp)
          have hid := h.eq_of_answersTo hr hs hrx hsx
          simp [hid] at hids

lemma of_removed (h : Separate rows) {rows' : Table} {f : User → User}
    (hrows : rows' = rows.map f) (hid : ∀ r, (f r).id = r.id)
    (hf : ∀ r, (f r).live = true → f r = r) : Separate rows' := by
  subst hrows
  refine ⟨?_, ?_⟩
  · have hmap : (rows.map f).map User.id = rows.map User.id := by
      rw [List.map_map]
      exact List.map_congr_left fun r _ => hid r
    rw [hmap]
    exact h.ids
  · intro r hr s hs hrl hsl hne
    obtain ⟨r', hr', rfl⟩ := List.mem_map.mp hr
    obtain ⟨s', hs', rfl⟩ := List.mem_map.mp hs
    have hr := hf r' hrl
    have hs := hf s' hsl
    rw [hr] at hrl hne ⊢
    rw [hs] at hsl hne ⊢
    exact h.apart r' hr' s' hs' hrl hsl hne

end Separate

variable {u : User} {rows : Table} {P : Platform}

lemma apart_of_written (hclash : ∀ r ∈ rows, r.id ≠ u.id → clashes r u = false)
    (hu : u.live = true) (hname : NoOneElsesEmail rows u.id u.username)
    (hemail : ∀ e, u.email = some e → NoOneElsesUsername rows u.id e) :
    ∀ r ∈ rows, r.live = true → r.id ≠ u.id → Apart r u := by
  intro r hr hrl hid
  have hno := hclash r hr hid
  simp only [clashes, hrl, hu, Bool.true_and, Bool.or_eq_false_iff, sameKey, Option.isSome_some,
    beq_eq_false_iff_ne, ne_eq, Option.some.injEq] at hno
  refine ⟨hno.1.1, ?_, hname r hr hrl hid, ?_⟩
  · intro e he hue
    have hboth := hno.1.2
    rw [hue, he] at hboth
    simp at hboth
  · intro hue
    exact hemail r.username hue r hr hrl hid rfl

lemma Separate.append (h : Separate rows) (hnew : ∀ r ∈ rows, r.id ≠ u.id)
    (hapart : ∀ r ∈ rows, r.live = true → r.id ≠ u.id → Apart r u) : Separate (rows ++ [u]) := by
  refine ⟨?_, ?_⟩
  · rw [List.map_append]
    refine List.Nodup.append h.ids (List.nodup_singleton _) ?_
    intro i hi hiu
    obtain ⟨r, hr, rfl⟩ := List.mem_map.mp hi
    exact hnew r hr (List.mem_singleton.mp hiu)
  · intro r hr s hs hrl hsl hne
    rcases List.mem_append.mp hr with hr | hr <;> rcases List.mem_append.mp hs with hs | hs
    · exact h.apart r hr s hs hrl hsl hne
    · rw [List.mem_singleton.mp hs] at hne ⊢
      exact hapart r hr hrl hne
    · rw [List.mem_singleton.mp hr] at hne ⊢
      exact (hapart s hs hsl (Ne.symm hne)).symm
    · exact absurd (by rw [List.mem_singleton.mp hr, List.mem_singleton.mp hs]) hne

lemma mem_replaceRow {u r : User} (hr : r ∈ replaceRow rows u) :
    r = u ∨ (r ∈ rows ∧ r.id ≠ u.id) := by
  obtain ⟨r', hr', rfl⟩ := List.mem_map.mp hr
  split_ifs with hid
  · exact .inl rfl
  · exact .inr ⟨hr', hid⟩

lemma Separate.replaceRow (h : Separate rows)
    (hapart : ∀ r ∈ rows, r.live = true → r.id ≠ u.id → Apart r u) :
    Separate (replaceRow rows u) := by
  refine ⟨?_, ?_⟩
  · have hmap : (Users.replaceRow rows u).map User.id = rows.map User.id := by
      rw [Users.replaceRow, List.map_map]
      refine List.map_congr_left fun r _ => ?_
      show (if r.id = u.id then u else r).id = r.id
      split_ifs with hid
      · exact hid.symm
      · rfl
    rw [hmap]
    exact h.ids
  · intro r hr s hs hrl hsl hne
    rcases mem_replaceRow hr with rfl | ⟨hr', hru⟩ <;> rcases mem_replaceRow hs with rfl | ⟨hs', hsu⟩
    · exact absurd rfl hne
    · exact (hapart s hs' hsl hsu).symm
    · exact hapart r hr' hrl hru
    · exact h.apart r hr' s hs' hrl hsl hne

/-! ## What one request does -/

lemma createAs_ok {rows rows' : Table} {id : Uuid128}
    (h : createAs P schema rows id now editor input = .ok (rows', u)) :
    rows' = rows ++ [u] ∧ u.id = id ∧ u.live = true ∧
      (∀ r ∈ rows, r.id ≠ id ∧ clashes r u = false) ∧
      normalizeUsername P input.username = .ok u.username ∧
      normalizeOpt (normalizeEmail P) input.email = .ok u.email := by
  simp only [createAs, bind_eq_ok] at h
  obtain ⟨username, husername, email, hemail, phone, -, attributes, -, out, hinsert, h⟩ := h
  cases h
  rw [insert] at hinsert
  split_ifs at hinsert with hany
  cases hinsert
  simp only [List.any_eq_true, Bool.or_eq_true, beq_iff_eq, not_exists, not_and, not_or,
    Bool.not_eq_true] at hany
  exact ⟨rfl, rfl, rfl, hany, husername, hemail⟩

/-- What an update leaves behind. -/
lemma updateAs_ok {rows rows' : Table} {id : Uuid128}
    (h : updateAs P schema directory rows now byTheSystem editor id patch = .ok (rows', u)) :
    rows' = rows ∨ ∃ before ∈ rows, before.id = id ∧ before.live = true ∧
      rows' = replaceRow rows u ∧ u.id = id ∧ u.live = true ∧
      (∀ r ∈ rows, r.id ≠ id → clashes r u = false) ∧
      (patch.username = none ∧ u.username = before.username ∨
        ∃ raw ∈ patch.username, normalizeUsername P raw = .ok u.username) ∧
      (patch.email = none ∧ u.email = before.email ∨ u.email = none ∨
        ∃ e e', patch.email = some (some e) ∧ normalizeEmail P e = .ok e' ∧ u.email = some e') := by
  rw [updateAs] at h
  split_ifs at h with hempty
  · cases hget : get rows id with
    | error e =>
        rw [hget] at h
        cases h
    | ok v =>
        rw [hget] at h
        cases h
        exact .inl rfl
  · refine .inr ?_
    simp only [bind_eq_ok] at h
    obtain ⟨patch', hpatch', before, hbefore, patch'', hpatch'', -, -, hupdate⟩ := h
    obtain ⟨husername, hemail, -, -⟩ := normalizePatch_ok hpatch'
    obtain ⟨hmem, hid, hlive⟩ := get_ok hbefore
    have hname : patch''.username = patch'.username := by rw [validatePatch_ok hpatch'']
    have hmail : patch''.email = patch'.email := by rw [validatePatch_ok hpatch'']
    rw [update] at hupdate
    split_ifs at hupdate with hany
    cases hupdate
    simp only [List.any_eq_true, Bool.and_eq_true, bne_iff_ne, ne_eq, not_exists, not_and,
      Bool.not_eq_true] at hany
    refine ⟨before, hmem, hid, hlive, rfl, hid, hlive, ?_, ?_, ?_⟩
    · intro r hr hne
      exact hany r hr (by rwa [show (patch''.apply before now).id = id from hid])
    · show patch.username = none ∧ patch''.username.getD before.username = before.username ∨
        ∃ raw ∈ patch.username,
          normalizeUsername P raw = .ok (patch''.username.getD before.username)
      rw [hname]
      cases hraw : patch.username with
      | none =>
          rw [hraw, normalizeOpt] at husername
          rw [← Except.ok.inj husername]
          exact .inl ⟨rfl, rfl⟩
      | some raw =>
          rw [hraw, normalizeOpt_some] at husername
          obtain ⟨x, hx, hvalue⟩ := husername
          exact .inr ⟨raw, rfl, by rw [hvalue]; exact hx⟩
    · show patch.email = none ∧ patch''.email.getD before.email = before.email ∨
        patch''.email.getD before.email = none ∨ ∃ e e', patch.email = some (some e) ∧
          normalizeEmail P e = .ok e' ∧ patch''.email.getD before.email = some e'
      rw [hmail]
      cases hraw : patch.email with
      | none =>
          rw [hraw, normalizeField] at hemail
          rw [← Except.ok.inj hemail]
          exact .inl ⟨rfl, rfl⟩
      | some raw =>
          rw [hraw, normalizeField_some] at hemail
          obtain ⟨v, hv, hvalue⟩ := hemail
          rw [hvalue]
          cases raw with
          | none =>
              cases hv
              exact .inr (.inl rfl)
          | some e =>
              obtain ⟨e', he', rfl⟩ := normalizeOpt_some.mp hv
              exact .inr (.inr ⟨e, e', rfl, he', rfl⟩)

lemma Separate.createAs {rows rows' : Table} {id : Uuid128} (h : Separate rows)
    (hname : UsernameFree P rows id input.username)
    (hemail : ∀ e ∈ input.email, EmailFree P rows id e)
    (hok : Users.createAs P schema rows id now editor input = .ok (rows', u)) : Separate rows' := by
  obtain ⟨rfl, rfl, hlive, hrows, husername, hemail'⟩ := createAs_ok hok
  refine h.append (fun r hr => (hrows r hr).1) (apart_of_written (fun r hr _ => (hrows r hr).2) hlive
    (hname _ husername) ?_)
  intro e he
  cases hraw : input.email with
  | none =>
      rw [hraw, normalizeOpt] at hemail'
      rw [← Except.ok.inj hemail'] at he
      cases he
  | some raw =>
      rw [hraw, normalizeOpt_some] at hemail'
      obtain ⟨x, hx, hvalue⟩ := hemail'
      obtain rfl : x = e := Option.some.inj (hvalue.symm.trans he)
      exact hemail raw hraw x hx

lemma Separate.updateAs {rows rows' : Table} {id : Uuid128} (h : Separate rows)
    (hname : ∀ raw ∈ patch.username, UsernameFree P rows id raw)
    (hemail : ∀ e, patch.email = some (some e) → EmailFree P rows id e)
    (hok : Users.updateAs P schema directory rows now byTheSystem editor id patch = .ok (rows', u)) :
    Separate rows' := by
  rcases updateAs_ok hok with rfl | ⟨before, hmem, rfl, hbefore, rfl, hid, hlive, hclash, hu, he⟩
  · exact h
  refine h.replaceRow (apart_of_written (fun r hr hne => hclash r hr (hid ▸ hne)) hlive ?_ ?_)
  · rw [hid]
    rcases hu with ⟨-, hsame⟩ | ⟨raw, hraw, hx⟩
    · rw [hsame]
      intro r hr hrl hne
      exact (h.apart r hr before hmem hrl hbefore hne).left
    · exact hname raw hraw _ hx
  · rw [hid]
    intro e hue
    rcases he with ⟨-, hsame⟩ | hnone | ⟨raw, e', hraw, hx, hvalue⟩
    · intro r hr hrl hne heq
      refine (h.apart r hr before hmem hrl hbefore hne).right ?_
      rw [← hsame, hue, heq]
    · rw [hnone] at hue
      cases hue
    · obtain rfl : e' = e := Option.some.inj (hvalue.symm.trans hue)
      exact hemail raw hraw e' hx

lemma Separate.perform {op : UserOp} (h : Separate rows)
    (hop : KeepsApart P rows op) : Separate (op.perform P rows) := by
  cases op with
  | create schema id now editor input =>
      rw [UserOp.perform]
      cases hok : Users.createAs P schema rows id now editor input with
      | error e => exact h
      | ok p => exact h.createAs hop.1 hop.2 hok
  | register policy schema id now input =>
      rw [UserOp.perform]
      cases hok : Users.register P policy schema rows id now input with
      | error e => exact h
      | ok p =>
          simp only [Users.register, bind_eq_ok] at hok
          obtain ⟨-, -, email, hemail, username, husername, hcreated⟩ := hok
          obtain ⟨hname, hmail⟩ := hop email username hemail husername
          generalize hcreate : Users.createAs _ _ _ _ _ _ _ = created at hcreated
          cases created with
          | error e => cases hcreated
          | ok q =>
              refine h.createAs ?_ ?_ (hcreate.trans hcreated)
              · exact hname
              · intro e he
                rw [← Option.some.inj he]
                exact hmail
  | update schema directory now byTheSystem editor id patch =>
      rw [UserOp.perform]
      cases hok : Users.updateAs P schema directory rows now byTheSystem editor id patch with
      | error e => exact h
      | ok p => exact h.updateAs hop.1 hop.2 hok
  | delete id now =>
      rw [UserOp.perform, Users.delete]
      cases (findById rows id).filter User.live with
      | none => exact h
      | some u =>
          refine h.of_removed rfl ?_ ?_
          · intro r
            split_ifs <;> rfl
          · intro r hr
            split_ifs at hr ⊢ with hid
            · cases hr
            · rfl
  | hardDelete id =>
      refine ⟨h.ids.sublist (List.filter_sublist.map _), ?_⟩
      intro r hr s hs
      exact h.apart r (List.mem_of_mem_filter hr) s (List.mem_of_mem_filter hs)

/-! ## Whole runs -/

/-- **An identifier names one person, with care.**  In every run from an empty table in which no
request gives anybody a username that is somebody else's email, or an email that is somebody
else's username, every identifier names at most one live user in every state reached. -/
theorem identifier_names_one (P : Platform) (ops : List UserOp)
    (hmeets : (userMachine P).Meets (KeepsApart P) [] ops) (before later : List UserOp)
    (rows : Table) (hsplit : ops = before ++ later)
    (hrun : (userMachine P).run [] before = some rows) (x : String) :
    (identified rows x).length ≤ 1 := by
  have hempty : Separate [] := by
    refine ⟨List.nodup_nil, ?_⟩
    intro r hr
    cases hr
  rw [hsplit] at hmeets
  have hseparate : Separate rows := by
    refine Machine.run_inv ?_ (Machine.Meets.of_append hmeets hrun).1 hrun hempty
    intro s op s' hs hop hstep
    rw [← Option.some.inj hstep]
    exact hs.perform hop
  exact hseparate.identified_le_one x

def samplePlatform : Platform where
  toLowercase := toAsciiLowercase
  validateEmail e := e.toList.contains '@'
  regex _ := none
  urlScheme _ := none
  parseDate _ := none
  asF64 _ := 0
  f64Text _ := "0"

def createAlice : UserOp :=
  .create ⟨[], false⟩ 1 0 .admin { username := "alice", email := some "a@example.com" }

def createBob : UserOp := .create ⟨[], false⟩ 2 0 .admin { username := "bob" }

def alice : User :=
  { id := 1, username := "alice", email := some "a@example.com", createdAt := 0, updatedAt := 0 }

/-- Bob gets a name that is nobody's address. -/
theorem identifier_names_one_of_two :
    ∃ rows, (userMachine samplePlatform).run [] [createAlice, createBob] = some rows ∧
      rows.length = 2 ∧ (identified rows "a@example.com").length ≤ 1 := by
  refine ⟨_, rfl, by decide, identifier_names_one samplePlatform [createAlice, createBob] ?_
    [createAlice, createBob] [] _ (List.append_nil _).symm rfl "a@example.com"⟩
  refine ⟨⟨?_, ?_⟩, ⟨?_, ?_⟩, trivial⟩
  · rintro x - r hr
    cases hr
  · rintro e - x - r hr
    cases hr
  · intro x hx r hr _ _
    have hrow : UserOp.perform samplePlatform [] createAlice = [alice] := by decide
    rw [hrow, List.mem_singleton] at hr
    have hbob : normalizeUsername samplePlatform "bob" = .ok "bob" := rfl
    rw [hbob] at hx
    cases hx
    rw [hr]
    decide
  · rintro e he
    cases he

/-- **An identifier can name two people.**  Bob registers with Alice's address as his username. -/
theorem identifier_names_two :
    ∃ rows, (userMachine samplePlatform).run [] [createAlice,
        .register ⟨true, [], false, false, false⟩ ⟨[], false⟩ 2 0
          ⟨some "A@example.com", "bob@example.com", none, none, false, "en"⟩] = some rows ∧
      (identified rows "a@example.com").length = 2 :=
  ⟨_, rfl, by decide⟩

end Ridm.Users
