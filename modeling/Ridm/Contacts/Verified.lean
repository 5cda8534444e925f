import Ridm.Ldap.Model
import Ridm.Scim.Replace
import Ridm.Users.MailedAddress

/-!
# An address and its verified flag

The writes that give a user an address or a number: `update_as` with what an administrator asks for,
`replace_user` of `api/src/services/scim.rs`, `refresh` of `api/src/services/ldap.rs` and `confirm` of
`api/src/services/contact_changes.rs`.  They all come down to one patch for `users::update_as`, in
which the address and its flag are fields of their own; the statement takes the flag away together
with the address, and leaves it alone when the address is another one.

* `updateAs_contacts` — what a patch makes of the address, the number and their flags.
* `follows_iff` — when they follow the patch: unless it gives another address, says nothing about
  the flag, and the flag was set.
* `verification_follows_iff` — a run of writes keeps every flag with what it was set for exactly when
  no write of it is such a patch; the directory's and a confirmed change never are.

`replace_user` never says anything about the flags, so a provisioning system that moves a verified user
to another address leaves that address verified (`scim_move_keeps_flag`).
-/

namespace Ridm.Contacts.Verified

open Users (User UserUpdate Table ProfileSchema Editor Directory Platform normalizeEmail normalizePhone
  normalizeField normalizeOpt normalizePatch updateAs)

/-! ## The writes -/

/-- The contacts an account can verify. -/
inductive Contact
  | email
  | phone

def confirmPatch (destination : String) : Contact → UserUpdate
  | .email => { email := some (some destination), emailVerified := some true }
  | .phone => { phone := some (some destination), phoneVerified := some true }

/-- Who writes what. -/
inductive Source
  | update (byTheSystem : Bool) (editor : Editor) (patch : UserUpdate)
  | scim (doc : Value)
  | directory (trustEmail : Bool) (profile : Ldap.Profile)
  | confirm (contact : Contact) (destination : String)

/-- A write to a user. -/
structure ContactWrite where
  now : Instant
  schema : ProfileSchema
  id : Uuid128
  source : Source

section

variable (S : Scim.Service) (directory : Directory)

/-- `users::update` by the system. -/
def updateEntry (rows : Table) (w : ContactWrite) (patch : UserUpdate) : Except AppError (Table × User) :=
  updateAs S.forUsers w.schema directory rows w.now true .system w.id patch

/-- What an update that is refused leaves, where refusals are put up with. -/
def leaveRefused (rows : Table) : Except AppError (Table × User) → Except AppError Table
  | .ok (rows', _) => .ok rows'
  | .error (.conflict _) => .ok rows
  | .error (.validation _) => .ok rows
  | .error e => .error e

/-- The second attempt of `refresh`, without a username that is taken. -/
def withoutName (rows : Table) (w : ContactWrite) (patch : UserUpdate) : Except AppError Table :=
  let rest := { patch with username := none }
  if rest.isEmpty then .ok rows else leaveRefused rows (updateEntry S directory rows w rest)

/-- The writes of `refresh`. -/
def writeEntry (rows : Table) (w : ContactWrite) (patch : UserUpdate) : Except AppError Table :=
  if patch.isEmpty then .ok rows
  else
    match updateEntry S directory rows w patch with
    | .error (.conflict d) =>
        if patch.username.isSome then withoutName S directory rows w patch
        else leaveRefused rows (.error (.conflict d))
    | answer => leaveRefused rows answer

/-- The rows a write leaves, if it is not refused. -/
def ContactWrite.perform (rows : Table) (w : ContactWrite) : Option Table :=
  match w.source with
  | .update byTheSystem editor patch =>
      (updateAs S.forUsers w.schema directory rows w.now byTheSystem editor w.id patch).toOption.map
        Prod.fst
  | .scim doc => (Scim.replaceUser S w.schema directory rows w.now w.id doc).toOption.map Prod.fst
  | .directory trustEmail profile =>
      match Users.get rows w.id with
      | .ok user =>
          (writeEntry S directory rows w (Ldap.refreshPatch S.forUsers trustEmail user profile)).toOption
      | .error _ => none
  | .confirm contact destination =>
      (updateAs S.forUsers w.schema directory rows w.now false .user w.id
        (confirmPatch destination contact)).toOption.map Prod.fst

def writes : Machine Table ContactWrite where
  step := ContactWrite.perform S directory

/-- What a write says of a user: its patch. -/
def ContactWrite.patchFor (w : ContactWrite) (before : User) : Option UserUpdate :=
  match w.source with
  | .update _ _ patch => some patch
  | .scim doc => ((Scim.userFromScim doc w.schema).toOption).map (Scim.replacePatch before)
  | .directory trustEmail profile => some (Ldap.refreshPatch S.forUsers trustEmail before profile)
  | .confirm contact destination => some (confirmPatch destination contact)

/-- The address and the number of a user changed only with what the patch says of their flags. -/
structure Follows (patch : UserUpdate) (u u' : User) : Prop where
  email : u'.email ≠ u.email → u'.emailVerified = true → patch.emailVerified = some true
  phone : u'.phone ≠ u.phone → u'.phoneVerified = true → patch.phoneVerified = some true

/-- **After the write**, a flag of a user whose address or number it changed is set only if the write
said so. -/
def FlagsFollow (rows : Table) (w : ContactWrite) : Prop :=
  ∀ rows', w.perform S directory rows = some rows' → ∀ id u u', Users.get rows id = .ok u →
    Users.get rows' id = .ok u' → u'.email = u.email ∧ u'.phone = u.phone ∨
      ∃ patch, w.patchFor S u = some patch ∧ Follows patch u u'

/-! ## The condition -/

/-- A field is given another value than the stored one. -/
def renames (f : String → Except AppError String) (old : Option String) :
    Option (Option String) → Bool
  | some (some raw) =>
      match f raw with
      | .ok x => old != some x
      | .error _ => false
  | _ => false

/-- The patch gives a verified user another address, or another number, and says nothing about the
flag. -/
def takesOver (P : Platform) (before : User) (patch : UserUpdate) : Bool :=
  (renames (normalizeEmail P) before.email patch.email && before.emailVerified &&
      patch.emailVerified.isNone) ||
    (renames normalizePhone before.phone patch.phone && before.phoneVerified &&
      patch.phoneVerified.isNone)

/-- **The condition on a write.**  A request's patch does not take a flag over, nor does a SCIM
document. -/
def StatesFlags (rows : Table) (w : ContactWrite) : Prop :=
  match w.source with
  | .update _ _ patch => ∀ before, Users.get rows w.id = .ok before →
      takesOver S.forUsers before patch = false
  | .scim doc => ∀ before, Users.get rows w.id = .ok before → ∀ f, Scim.userFromScim doc w.schema = .ok f →
      takesOver S.forUsers before (Scim.replacePatch before f) = false
  | .directory _ _ => True
  | .confirm _ _ => True

/-- What holds of an answer, if there is one. -/
instance decidableForallOk {ε α : Type} (r : Except ε α) (p : α → Prop) [DecidablePred p] :
    Decidable (∀ a, r = .ok a → p a) :=
  match r with
  | .error _ => .isTrue fun _ h => by cases h
  | .ok a => decidable_of_iff (p a) ⟨fun h _ ha => by cases ha; exact h, fun h => h a rfl⟩

instance decidableStatesFlags (rows : Table) : ∀ w : ContactWrite, Decidable (StatesFlags S rows w)
  | ⟨_, _, _, .update _ _ _⟩ => decidableForallOk _ _
  | ⟨_, _, _, .scim _⟩ => decidableForallOk _ _
  | ⟨_, _, _, .directory _ _⟩ => .isTrue trivial
  | ⟨_, _, _, .confirm _ _⟩ => .isTrue trivial

end

/-! ## What a patch makes of a user -/

variable {P : Platform} {rows rows' : Table} {before after : User} {patch : UserUpdate}

/-- What is stored of a field and its flag. -/
structure Stored (f : String → Except AppError String) (given : Option (Option String))
    (flag : Option Bool) (old : Option String) (verified : Bool) (new : Option String)
    (verified' : Bool) : Prop where
  value : ∃ value, normalizeField f given = .ok value ∧ new = value.getD old ∧
    verified' = flag.getD (if value = some none then false else verified)

variable {f : String → Except AppError String} {byTheSystem : Bool} {editor : Editor}

lemma stored_same {old : Option String} {verified : Bool} :
    Stored f none none old verified old verified := ⟨none, rfl, rfl, rfl⟩

variable {schema : ProfileSchema} {now : Instant}

/-- **What `update_as` makes of the contact data.** -/
lemma updateAs_contacts {directory : Directory} {id : Uuid128}
    (h : updateAs P schema directory rows now byTheSystem editor id patch = .ok (rows', after)) :
    ∃ before, Users.get rows id = .ok before ∧ (rows' = rows ∧ after = before ∨
        rows' = Users.replaceRow rows after ∧ after.id = id ∧ after.live = true) ∧
      Stored (normalizeEmail P) patch.email patch.emailVerified before.email before.emailVerified
        after.email after.emailVerified ∧
      Stored normalizePhone patch.phone patch.phoneVerified before.phone before.phoneVerified
        after.phone after.phoneVerified := by
  rw [updateAs] at h
  split_ifs at h with hempty
  · cases hget : Users.get rows id with
    | error e =>
        rw [hget] at h
        cases h
    | ok u =>
        rw [hget] at h
        cases h
        have hpatch : patch = {} := by simpa [UserUpdate.isEmpty] using hempty
        subst hpatch
        exact ⟨_, rfl, .inl ⟨rfl, rfl⟩, stored_same, stored_same⟩
  · simp only [bind_eq_ok] at h
    obtain ⟨patch', hpatch', u, hu, patch'', hpatch'', -, -, h⟩ := h
    obtain ⟨-, hemail, hphone, hfields⟩ := Users.normalizePatch_ok hpatch'
    obtain ⟨hmem, hid, hlive⟩ := Users.get_ok hu
    have hflag : patch''.emailVerified = patch.emailVerified := by
      rw [Users.validatePatch_ok hpatch'', hfields]
    have hflag' : patch''.phoneVerified = patch.phoneVerified := by
      rw [Users.validatePatch_ok hpatch'', hfields]
    have hvalue : patch''.email = patch'.email := by rw [Users.validatePatch_ok hpatch'']
    have hvalue' : patch''.phone = patch'.phone := by rw [Users.validatePatch_ok hpatch'']
    simp only [Users.update] at h
    split_ifs at h
    cases h
    refine ⟨u, hu, .inr ⟨rfl, hid, hlive⟩, ⟨patch'.email, hemail, ?_, ?_⟩, ⟨patch'.phone, hphone, ?_, ?_⟩⟩
    · rw [← hvalue]
      rfl
    · rw [← hvalue, ← hflag]
      rfl
    · rw [← hvalue']
      rfl
    · rw [← hvalue', ← hflag']
      rfl

/-! ## When the flags follow -/

lemma Stored.follows_iff {given : Option (Option String)}
    {flag : Option Bool} {old new : Option String} {verified verified' : Bool}
    (h : Stored f given flag old verified new verified') :
    (new ≠ old → verified' = true → flag = some true) ↔
      (renames f old given && verified && flag.isNone) = false := by
  obtain ⟨value, hvalue, rfl, rfl⟩ := h.value
  cases flag with
  | some b =>
      rw [Option.isNone_some, Bool.and_false]
      refine iff_of_true ?_ rfl
      intro _ hb
      exact congrArg some hb
  | none =>
      rw [Option.isNone_none, Bool.and_true, Option.getD_none]
      cases given with
      | none =>
          cases hvalue
          exact iff_of_true (fun hne => absurd rfl hne) rfl
      | some raw =>
          obtain ⟨x, hx, rfl⟩ := Users.normalizeField_some.mp hvalue
          cases raw with
          | none =>
              cases hx
              refine iff_of_true ?_ rfl
              intro _ hfalse
              rw [if_pos rfl] at hfalse
              cases hfalse
          | some raw =>
              obtain ⟨e, he, rfl⟩ := Users.normalizeOpt_some.mp hx
              rw [renames, he, Option.getD_some, if_neg (by simp)]
              dsimp only
              rw [Bool.and_eq_false_iff, bne_eq_false_iff_eq]
              constructor
              · intro h
                by_cases hsame : old = some e
                · exact .inl hsame
                · refine .inr ?_
                  rw [Bool.eq_false_iff]
                  intro hverified
                  cases h (Ne.symm hsame) hverified
              · rintro (hsame | hfalse) hne hverified
                · exact absurd hsame.symm hne
                · rw [hfalse] at hverified
                  cases hverified

/-- **When a user follows a patch.** -/
lemma follows_iff
    (hemail : Stored (normalizeEmail P) patch.email patch.emailVerified before.email
      before.emailVerified after.email after.emailVerified)
    (hphone : Stored normalizePhone patch.phone patch.phoneVerified before.phone before.phoneVerified
      after.phone after.phoneVerified) :
    Follows patch before after ↔ takesOver P before patch = false := by
  rw [takesOver, Bool.or_eq_false_iff, ← hemail.follows_iff, ← hphone.follows_iff]
  exact ⟨fun h => ⟨h.email, h.phone⟩, fun h => ⟨h.1, h.2⟩⟩

lemma get_replaceRow_self {id : Uuid128} (hbefore : Users.get rows id = .ok before)
    (hid : after.id = id) (hlive : after.live = true) :
    Users.get (Users.replaceRow rows after) id = .ok after := by
  subst hid
  have hfind := (Users.get_eq_ok.mp hbefore).1
  exact Users.get_eq_ok.mpr ⟨Scim.findById_replaceRow hfind, hlive⟩

lemma updateAs_flags_iff {directory : Directory}
    {id : Uuid128} {patchFor : User → Option UserUpdate} {stated : UserUpdate}
    (h : updateAs P schema directory rows now byTheSystem editor id patch = .ok (rows', after))
    (hbefore : Users.get rows id = .ok before) (hstated : patchFor before = some stated)
    (hemailFlag : stated.emailVerified = patch.emailVerified)
    (hphoneFlag : stated.phoneVerified = patch.phoneVerified) :
    (∀ id u u', Users.get rows id = .ok u → Users.get rows' id = .ok u' →
      u'.email = u.email ∧ u'.phone = u.phone ∨ ∃ p, patchFor u = some p ∧ Follows p u u') ↔
    takesOver P before patch = false := by
  obtain ⟨u₀, hu₀, hrows, hemail, hphone⟩ := updateAs_contacts h
  obtain rfl : before = u₀ := Except.ok.inj (hbefore.symm.trans hu₀)
  rw [← follows_iff hemail hphone]
  constructor
  · intro hall
    have hafter : Users.get rows' id = .ok after := by
      rcases hrows with ⟨rfl, rfl⟩ | ⟨rfl, hid, hlive⟩
      · exact hbefore
      · exact get_replaceRow_self hbefore hid hlive
    rcases hall id before after hbefore hafter with ⟨hsame, hsame'⟩ | ⟨p, hp, hfollows⟩
    · exact ⟨fun hne => absurd hsame hne, fun hne => absurd hsame' hne⟩
    · rw [hstated] at hp
      cases hp
      exact ⟨hemailFlag ▸ hfollows.email, hphoneFlag ▸ hfollows.phone⟩
  · intro hfollows id' u u' hu hu'
    rcases hrows with ⟨rfl, rfl⟩ | ⟨rfl, hid, hlive⟩
    · cases hu.symm.trans hu'
      exact .inl ⟨rfl, rfl⟩
    · rcases Users.get_replaceRow hu' with ⟨rfl, rfl⟩ | ⟨-, hsame⟩
      · rw [hid] at hu
        obtain rfl : before = u := Except.ok.inj (hbefore.symm.trans hu)
        exact .inr ⟨stated, hstated, hemailFlag ▸ hfollows.email, hphoneFlag ▸ hfollows.phone⟩
      · cases hu.symm.trans hsame
        exact .inl ⟨rfl, rfl⟩

/-! ## The directory and a confirmed change -/

lemma takesOver_refreshPatch (trustEmail : Bool) (profile : Ldap.Profile) :
    takesOver P before (Ldap.refreshPatch P trustEmail before profile) = false := by
  simp only [takesOver, Ldap.refreshPatch]
  cases (profile.email P).isSome && profile.email P != before.email with
  | false => simp [renames]
  | true => simp [renames]

lemma takesOver_confirmPatch (contact : Contact) (destination : String) :
    takesOver P before (confirmPatch destination contact) = false := by
  cases contact with
  | email => simp [takesOver, confirmPatch, renames]
  | phone => simp [takesOver, confirmPatch, renames]

section

variable {S : Scim.Service} {directory : Directory} {w : ContactWrite}

lemma leaveRefused_ok {answer : Except AppError (Table × User)}
    (h : leaveRefused rows answer = .ok rows') :
    rows' = rows ∨ ∃ after, answer = .ok (rows', after) := by
  cases answer with
  | ok r =>
      cases h
      exact .inr ⟨r.2, rfl⟩
  | error e => cases e <;> cases h <;> exact .inl rfl

lemma withoutName_ok (h : withoutName S directory rows w patch = .ok rows') :
    rows' = rows ∨ ∃ after,
      updateEntry S directory rows w { patch with username := none } = .ok (rows', after) := by
  simp only [withoutName] at h
  split_ifs at h
  · cases h
    exact .inl rfl
  · exact leaveRefused_ok h

/-- What `refresh` leaves: the rows as they were, or a user brought up to date, with or without the
entry's name. -/
lemma writeEntry_ok (h : writeEntry S directory rows w patch = .ok rows') :
    rows' = rows ∨ ∃ patch' after, updateEntry S directory rows w patch' = .ok (rows', after) ∧
      (patch' = patch ∨ patch' = { patch with username := none }) := by
  rw [writeEntry] at h
  by_cases hempty : patch.isEmpty = true
  · rw [if_pos hempty] at h
    cases h
    exact .inl rfl
  · rw [if_neg hempty] at h
    cases hfirst : updateEntry S directory rows w patch with
    | ok r =>
        rw [hfirst] at h
        rcases leaveRefused_ok h with hsame | ⟨after, hafter⟩
        · exact .inl hsame
        · exact .inr ⟨patch, after, hfirst.trans hafter, .inl rfl⟩
    | error e =>
        rw [hfirst] at h
        cases e with
        | conflict d =>
            dsimp only at h
            by_cases hname : patch.username.isSome = true
            · rw [if_pos hname] at h
              rcases withoutName_ok h with hsame | ⟨after, hafter⟩
              · exact .inl hsame
              · exact .inr ⟨_, after, hafter, .inr rfl⟩
            · rw [if_neg hname] at h
              cases h
              exact .inl rfl
        | validation fields =>
            cases h
            exact .inl rfl
        | _ => cases h

end

/-! ## Runs -/

variable {S : Scim.Service} {directory : Directory}

lemma toOption_map_fst {ε : Type} {r : Except ε (Table × User)} (h : r.toOption.map Prod.fst = some rows') :
    ∃ after, r = .ok (rows', after) := by
  cases r with
  | error e => cases h
  | ok a =>
      cases h
      exact ⟨a.2, rfl⟩

lemma mapError_eq_ok {ε ε' α : Type} {f : ε → ε'} {r : Except ε α} {a : α} :
    r.mapError f = .ok a ↔ r = .ok a := by
  cases r <;> simp [Except.mapError]

lemma replaceUser_ok {id : Uuid128} {doc : Value}
    (h : Scim.replaceUser S schema directory rows now id doc = .ok (rows', after)) :
    ∃ before f, Users.get rows id = .ok before ∧ Scim.userFromScim doc schema = .ok f ∧
      updateAs S.forUsers schema directory rows now false .system id (Scim.replacePatch before f) =
        .ok (rows', after) := by
  rw [Scim.replaceUser] at h
  simp only [bind_eq_ok] at h
  obtain ⟨before, hbefore, f, hf, h⟩ := h
  exact ⟨before, f, mapError_eq_ok.mp hbefore, hf, mapError_eq_ok.mp h⟩

/-- **One write.** -/
lemma flagsFollow_iff {w : ContactWrite} (hstep : w.perform S directory rows = some rows') :
    FlagsFollow S directory rows w ↔ StatesFlags S rows w := by
  have hrows : FlagsFollow S directory rows w ↔ ∀ id u u', Users.get rows id = .ok u →
      Users.get rows' id = .ok u' → u'.email = u.email ∧ u'.phone = u.phone ∨
        ∃ patch, w.patchFor S u = some patch ∧ Follows patch u u' := by
    constructor
    · exact fun h => h rows' hstep
    · rintro h rows'' hrows''
      rw [hstep] at hrows''
      cases hrows''
      exact h
  rw [hrows]
  obtain ⟨now, schema, id, source⟩ := w
  cases source with
  | update byTheSystem editor patch =>
      obtain ⟨after, hupdate⟩ := toOption_map_fst hstep
      obtain ⟨before, hbefore, -⟩ := updateAs_contacts hupdate
      rw [updateAs_flags_iff hupdate hbefore rfl rfl rfl]
      constructor
      · rintro h before' hbefore'
        cases hbefore.symm.trans hbefore'
        exact h
      · exact fun h => h before hbefore
  | scim doc =>
      obtain ⟨after, hreplace⟩ := toOption_map_fst hstep
      obtain ⟨before, f, hbefore, hf, hupdate⟩ := replaceUser_ok hreplace
      have hdoc : ((Scim.userFromScim doc schema).toOption).map (Scim.replacePatch before) =
          some (Scim.replacePatch before f) := by
        rw [hf]
        rfl
      rw [updateAs_flags_iff hupdate hbefore hdoc rfl rfl]
      constructor
      · rintro h before' hbefore' f' hf'
        cases hbefore.symm.trans hbefore'
        cases hf.symm.trans hf'
        exact h
      · exact fun h => h before hbefore f hf
  | directory trustEmail profile =>
      refine iff_of_true ?_ trivial
      simp only [ContactWrite.perform] at hstep
      cases hget : Users.get rows id with
      | error e =>
          rw [hget] at hstep
          cases hstep
      | ok before =>
          rw [hget] at hstep
          rcases writeEntry_ok (toOption_eq_some.mp hstep) with rfl | ⟨patch', after, hupdate, hpatch⟩
          · intro id' u u' hu hu'
            cases hu.symm.trans hu'
            exact .inl ⟨rfl, rfl⟩
          · have hstated : ContactWrite.patchFor S ⟨now, schema, id, .directory trustEmail profile⟩ before =
                some (Ldap.refreshPatch S.forUsers trustEmail before profile) := rfl
            rcases hpatch with rfl | rfl
            · exact (updateAs_flags_iff hupdate hget hstated rfl rfl).mpr (takesOver_refreshPatch _ _)
            · exact (updateAs_flags_iff hupdate hget hstated rfl rfl).mpr (takesOver_refreshPatch _ _)
  | confirm contact destination =>
      obtain ⟨after, hupdate⟩ := toOption_map_fst hstep
      obtain ⟨before, hbefore, -⟩ := updateAs_contacts hupdate
      refine iff_of_true ?_ trivial
      exact (updateAs_flags_iff hupdate hbefore rfl rfl rfl).mpr (takesOver_confirmPatch contact destination)

/-- **The flags follow the addresses**, through every write of a run, exactly when no request and no
SCIM document among them gives a verified user another address (or number) and says nothing about the
flag. -/
theorem verification_follows_iff (S : Scim.Service) (directory : Directory) (rows rows' : Table)
    (ws : List ContactWrite) (hrun : (writes S directory).run rows ws = some rows') :
    (writes S directory).Meets (FlagsFollow S directory) rows ws ↔
      (writes S directory).Meets (StatesFlags S) rows ws :=
  Machine.meets_congr flagsFollow_iff hrun

def sampleCarol : User :=
  { id := 3, username := "carol", email := some "carol@example.com", emailVerified := true
    createdAt := 0, updatedAt := 0 }

def openSchema : ProfileSchema := ⟨[], true⟩

def carolAt (email : String) : Value :=
  .object [("userName", .string "carol"), ("emails", .array [.object [("value", .string email)]])]

def sampleWrites : List ContactWrite :=
  [⟨1, openSchema, 3, .directory false ⟨some "carol@corp.example", none⟩⟩,
    ⟨2, openSchema, 3, .confirm .email "carol@home.example"⟩,
    ⟨3, openSchema, 3, .scim (carolAt "carol@home.example")⟩]

def sampleMachine : Machine Table ContactWrite := writes Scim.sampleService fun _ _ => .ok ()

theorem verification_follows_iff_carol :
    sampleMachine.Meets (FlagsFollow Scim.sampleService fun _ _ => .ok ()) [sampleCarol] sampleWrites := by
  obtain ⟨rows', hrun, -⟩ : ∃ rows', sampleMachine.run [sampleCarol] sampleWrites = some rows' ∧
      decide (rows'.map User.email = [some "carol@home.example"]) = true :=
    Machine.exists_run_of_any (by decide +kernel)
  exact (verification_follows_iff Scim.sampleService (fun _ _ => .ok ()) [sampleCarol] rows' sampleWrites
    hrun).mpr (by decide +kernel)

def moveCarol : ContactWrite := ⟨1, openSchema, 3, .scim (carolAt "eve@example.com")⟩

/-- **The flag stays with the address gone.**  A provisioning system moves Carol, whose address was
proven, to an address nobody has proven; it is stored as verified. -/
theorem scim_move_keeps_flag : ∃ rows',
    sampleMachine.run [sampleCarol] [moveCarol] = some rows' ∧
      rows'.map (fun u => (u.email, u.emailVerified)) = [(some "eve@example.com", true)] ∧
      ¬ sampleMachine.Meets (FlagsFollow Scim.sampleService fun _ _ => .ok ()) [sampleCarol]
        [moveCarol] := by
  obtain ⟨rows', hrun, hrows⟩ : ∃ rows', sampleMachine.run [sampleCarol] [moveCarol] = some rows' ∧
      decide (rows'.map (fun u => (u.email, u.emailVerified)) = [(some "eve@example.com", true)]) = true :=
    Machine.exists_run_of_any (by decide +kernel)
  refine ⟨rows', hrun, of_decide_eq_true hrows, ?_⟩
  rintro ⟨hfollow, -⟩
  obtain ⟨t, hstep, -⟩ := Machine.run_cons.mp hrun
  have hperform : moveCarol.perform Scim.sampleService (fun _ _ => .ok ()) [sampleCarol] = some t := hstep
  have hstates := (flagsFollow_iff hperform).mp hfollow
  revert hstates
  decide +kernel

end Ridm.Contacts.Verified
