import Ridm.Lib.Utf8
import Ridm.Users.BulkImport

/-!
# Changing a directory user

`users::update_as` (`api/src/services/users.rs`) for the accounts of a directory, with what it writes
there: `directory_values`, `planned_mods` and `write_profile` (`api/src/services/ldap.rs`).  The
directory is written before the statement that stores the change here, which can still be refused,
and the mapped attributes are written as texts, which not every value has.

`refused_changes_nothing_iff` says when the two stay together: when an error leaves both as they
were, and when after a success the entry has what is stored here.
-/

namespace Ridm.Ldap.WriteBack

open Users (Platform ProfileSchema Editor User UserUpdate Table clashes)
open Users.BulkImport (Postgres)
open Utf8 (utf8)

/-- Values of the directory, as bytes. -/
abbrev Bytes := List UInt8

/-! ## The directory -/

/-- `LdapEditMode`. -/
inductive EditMode
  | readOnly
  | writable
  deriving DecidableEq

/-- `Directory`, as far as write-back reads it: the provider with its mappers, and the settings. -/
structure Dir where
  aliasName : String
  displayName : String
  emailMapper : Option String := none
  /-- `mappers.attributes`: the attribute of the profile, and that of the directory. -/
  attributes : List (String × String) := []
  editMode : EditMode := .readOnly

def Dir.emailAttribute (dir : Dir) : String := dir.emailMapper.getD "mail"

/-- An entry of the directory: its name, the identifier it is found by, and the values of each of
its attributes. -/
structure Entry where
  dn : String
  subject : String
  values : String → Finset Bytes

/-- The directory, as its entries. -/
abbrev Tree := List Entry

/-- `Mod::Replace`. -/
structure Mod where
  attr : String
  values : Finset Bytes

/-- What comes of a modification.  A directory that does not answer may have made it. -/
inductive Outcome
  | done
  | refused (rc : ℕ) (text : String)
  | failed (text : String) (made : Bool)

/-- The server: which attribute a name means (in any case, or as a number), and how it answers to a
search, a connection, and a modification. -/
structure Server where
  attributeType : String → String
  search : Except String Unit := .ok ()
  connect : Except String Unit := .ok ()
  modify : Entry → List Mod → Outcome := fun _ _ => .done

/-- An entry with one attribute replaced. -/
def Entry.replace (server : Server) (e : Entry) (m : Mod) : Entry :=
  { e with values := fun t => if t = server.attributeType m.attr then m.values else e.values t }

/-- An entry with the modifications made, one after the other. -/
def Entry.apply (server : Server) (mods : List Mod) (e : Entry) : Entry :=
  mods.foldl (Entry.replace server) e

def Tree.modify (server : Server) (tree : Tree) (dn : String) (mods : List Mod) : Tree :=
  tree.map fun e => if e.dn = dn then e.apply server mods else e

def findBySubject (tree : Tree) (subject : String) : Option Entry :=
  match tree.filter (·.subject == subject) with
  | [one] => some one
  | _ => none

/-! ## What is written there -/

/-- The `one` of `directory_values`. -/
def scalarText : Value → Option Bytes
  | .string s => some (utf8 s)
  | .number n => some (utf8 n)
  | .bool b => some (utf8 (if b then "TRUE" else "FALSE"))
  | _ => none

def directoryValues : Value → Finset Bytes
  | .array items => (items.filterMap scalarText).toFinset
  | other => (scalarText other).toList.toFinset

def managedElsewhere (dir : Dir) (what : String) : AppError :=
  .badRequest ("this account's " ++ what ++ " is managed by " ++ dir.displayName ++ ": change it there")

def unavailable (dir : Dir) (text : String) : AppError :=
  .unavailable ("directory `" ++ dir.aliasName ++ "`: " ++ text)

/-- The modification of `planned_mods` for the email. -/
def emailMods (dir : Dir) (user : User) (patch : UserUpdate) : List Mod :=
  match patch.email with
  | some email =>
      if email ≠ user.email then [⟨dir.emailAttribute, (email.map utf8).toList.toFinset⟩] else []
  | none => []

/-- The modifications of `planned_mods` for the mapped attributes. -/
def attributeMods (dir : Dir) (user : User) (patch : UserUpdate) : List Mod :=
  match patch.attributes with
  | some (.object new) => dir.attributes.filterMap fun e =>
      let old := (user.attributes.member e.1).getD .null
      let new := (Members.get new e.1).getD .null
      if old ≠ new then some ⟨e.2, directoryValues new⟩ else none
  | _ => []

def plannedMods (dir : Dir) (user : User) (patch : UserUpdate) : Except AppError (List Mod) :=
  if patch.username.any (· ≠ user.username) then .error (managedElsewhere dir "username")
  else
    let mods := emailMods dir user patch ++ attributeMods dir user patch
    if mods ≠ [] ∧ dir.editMode ≠ .writable then .error (managedElsewhere dir "profile")
    else .ok mods

/-! ## The service -/

/-- What a change of a user rests on, apart from the rows and the directory. -/
structure Service where
  platform : Platform
  schema : ProfileSchema
  db : Postgres
  server : Server
  /-- `directory_of_user`: the directory a user is linked to, with the entry's identifier. -/
  directoryOf : Uuid128 → Option (Dir × String)
  orgs : List Uuid128
  /-- `tenants::get_cached`. -/
  tenant : Except AppError (Option Unit)
  /-- `logout::end_sessions_for_user`. -/
  endSessions : Except AppError Unit

/-- The rows of the tenant, and the directory. -/
structure World where
  rows : Table
  tree : Tree

/-- `write_profile`, with the directory as it leaves it. -/
def writeProfile (S : Service) (tree : Tree) (user : User) (patch : UserUpdate) :
    Except AppError Unit × Tree :=
  match S.directoryOf user.id with
  | none => (.ok (), tree)
  | some (dir, subject) =>
      match plannedMods dir user patch with
      | .error e => (.error e, tree)
      | .ok mods =>
          if mods = [] then (.ok (), tree)
          else
            match S.server.search, findBySubject tree subject, S.server.connect with
            | .error text, _, _ => (.error (unavailable dir text), tree)
            | .ok _, none, _ =>
                (.error (.badRequest ("the account is no longer in " ++ dir.displayName)), tree)
            | .ok _, some _, .error text => (.error (unavailable dir text), tree)
            | .ok _, some entry, .ok _ =>
                match S.server.modify entry mods with
                | .done => (.ok (), tree.modify S.server entry.dn mods)
                | .refused rc text =>
                    (.error (.badRequest (dir.displayName ++ " refused the change (result " ++
                      toString rc ++ ": " ++ text ++ ")")), tree)
                | .failed text made =>
                    (.error (unavailable dir text),
                      if made then tree.modify S.server entry.dn mods else tree)

/-- A user without a local password is the directory's, unless the change is its own. -/
def asks (byTheSystem : Bool) (before : User) (patch : UserUpdate) : Bool :=
  before.passwordHash.isNone && !byTheSystem &&
    (patch.username.isSome || patch.email.isSome || patch.attributes.isSome)

/-- No column is assigned twice.  To set the email or the phone to nothing sets its flag as well. -/
def assignsOnce (patch : UserUpdate) : Bool :=
  !(patch.email == some none && patch.emailVerified.isSome) &&
    !(patch.phone == some none && patch.phoneVerified.isSome)

/-- PostgreSQL can hold what is bound. -/
def bindable (db : Postgres) (patch : UserUpdate) : Bool :=
  ([patch.username, patch.email.join, patch.phone.join, patch.locale.join, patch.externalId.join].all
    fun text => text.all db.holdsText) && patch.attributes.all db.holdsJson

/-- The first check of the table, by name, that a row fails. -/
def failedCheck (db : Postgres) (u : User) : Option String :=
  if u.email.any fun e => db.lower e != e then some "users_email_lower"
  else if db.lower u.username == u.username && 1 ≤ u.username.toList.length &&
      u.username.toList.length ≤ 255 then none
  else some "users_username_format"

/-- `repos::users::update`, with all that PostgreSQL refuses, in its order: the statement and its values,
the checks, the unique indexes, and the foreign key of the organisation. -/
def statement (S : Service) (rows : Table) (before : User) (patch : UserUpdate) (now : Instant) :
    Except AppError (Table × User) :=
  if !(assignsOnce patch && bindable S.db patch) then .error .database
  else
    match failedCheck S.db (patch.apply before now) with
    | some name => .error (.badRequest ("constraint violated: " ++ name))
    | none => do
        let stored ← Users.update rows before patch now
        require (.badRequest "referenced object does not exist") (patch.orgId.join.all (· ∈ S.orgs))
        .ok stored

/-- The tenant, or that there is none. -/
def theTenant (S : Service) : Except AppError Unit := do
  let tenant ← S.tenant
  orError (.notFound "tenant") tenant

/-- The mail to the old address. -/
def tellOldAddress (S : Service) (before user : User) (patch : UserUpdate) : Except AppError Unit :=
  if patch.email.isSome = true ∧ before.email ≠ user.email then theTenant S else .ok ()

/-- The end of the sessions of who is disabled. -/
def signOut (S : Service) (before user : User) : Except AppError Unit :=
  if user.status = .disabled ∧ before.status ≠ .disabled then do
    theTenant S
    S.endSessions
  else .ok ()

/-- What `update_as` does once the change is stored. -/
def afterCommit (S : Service) (before user : User) (patch : UserUpdate) : Except AppError Unit := do
  tellOldAddress S before user patch
  signOut S before user

/-- The user to change, and the change as it is to be stored. -/
def prepare (S : Service) (rows : Table) (editor : Editor) (i : Uuid128) (patch : UserUpdate) :
    Except AppError (User × UserUpdate) := do
  let patch ← Users.normalizePatch S.platform patch
  let before ← Users.get rows i
  let patch ← Users.validatePatch S.platform S.schema editor before patch
  .ok (before, patch)

/-- `update_as`, with what it leaves behind. -/
def updateAs (S : Service) (w : World) (now : Instant) (byTheSystem : Bool) (editor : Editor)
    (i : Uuid128) (patch : UserUpdate) : Except AppError User × World :=
  if patch.isEmpty then (Users.get w.rows i, w)
  else
    match prepare S w.rows editor i patch with
    | .error e => (.error e, w)
    | .ok (before, patch) =>
        match if asks byTheSystem before patch then writeProfile S w.tree before patch
          else (.ok (), w.tree) with
        | (.error e, tree) => (.error e, { w with tree := tree })
        | (.ok _, tree) =>
            match statement S w.rows before patch now with
            | .error e => (.error e, { w with tree := tree })
            | .ok (rows, user) =>
                ((afterCommit S before user patch).map fun _ => user, { rows := rows, tree := tree })

/-! ## What both sides keep -/

/-- A value that the directory keeps as well. -/
inductive Item
  | email
  | attribute (name ldapName : String)

def Item.attr (dir : Dir) : Item → String
  | .email => dir.emailAttribute
  | .attribute _ ldapName => ldapName

/-- What a user has of it. -/
def Item.value (u : User) : Item → Value
  | .email => (u.email.map .string).getD .null
  | .attribute name _ => (u.attributes.member name).getD .null

/-- The email, and the mapped attributes. -/
def Dir.items (dir : Dir) : List Item := .email :: dir.attributes.map fun e => .attribute e.1 e.2

/-- The texts of a value, if all of it has one. -/
def texts : Value → Option (List Bytes)
  | .null => some []
  | .array items => items.mapM scalarText
  | v => (scalarText v).map ([·])

/-- An attribute of the directory holds a value: its texts, and nothing else. -/
def Holds (values : Finset Bytes) (v : Value) : Prop := ∃ l, texts v = some l ∧ values = l.toFinset

/-- What a change makes of the items: those that are others afterwards. -/
def changed (dir : Dir) (before after : User) : List Item :=
  dir.items.filter fun i => i.value before ≠ i.value after

def Item.mod (dir : Dir) (u : User) (i : Item) : Mod := ⟨i.attr dir, directoryValues (i.value u)⟩

/-- Of the items that are written, the last that goes into an attribute. -/
def lastIn (server : Server) (dir : Dir) (written : List Item) (t : String) : Option Item :=
  (written.filter fun j => server.attributeType (j.attr dir) = t).getLast?

lemma emailValue_inj {a b : Option String} :
    (a.map Value.string).getD .null = (b.map Value.string).getD .null ↔ a = b := by
  cases a <;> cases b <;> simp

/-- **The modifications are those of the items that change**, in their order. -/
lemma mods_eq {dir : Dir} {before : User} {patch : UserUpdate} (now : Instant)
    (hobject : ∀ v, patch.attributes = some v → ∃ m, v = .object m) :
    emailMods dir before patch ++ attributeMods dir before patch =
      (changed dir before (patch.apply before now)).map (Item.mod dir (patch.apply before now)) := by
  set after := patch.apply before now with hafter
  have hemail : emailMods dir before patch =
      ([Item.email].filter fun i => i.value before ≠ i.value after).map (Item.mod dir after) := by
    rw [emailMods]
    cases hpatch : patch.email with
    | none =>
        have hsame : after.email = before.email := by simp [hafter, UserUpdate.apply, hpatch]
        simp [Item.value, hsame]
    | some e =>
        have he : after.email = e := by simp [hafter, UserUpdate.apply, hpatch]
        dsimp only
        by_cases hne : e ≠ before.email
        · have hvalue : Item.email.value before ≠ Item.email.value after := by
            rw [Item.value, Item.value, he, ne_eq, emailValue_inj]
            exact Ne.symm hne
          rw [if_pos hne, List.filter_cons_of_pos (by simpa using hvalue), List.filter_nil,
            List.map_singleton, Item.mod, Item.value, he]
          cases e <;> rfl
        · rw [not_not] at hne
          simp [Item.value, he, hne]
  have hattributes : attributeMods dir before patch =
      ((dir.attributes.map fun e => Item.attribute e.1 e.2).filter fun i =>
        i.value before ≠ i.value after).map (Item.mod dir after) := by
    cases hpatch : patch.attributes with
    | none =>
        have hsame : after.attributes = before.attributes := by simp [hafter, UserUpdate.apply, hpatch]
        have hnone : ∀ l : List (String × String),
            (l.map fun e => Item.attribute e.1 e.2).filter (fun i => i.value before ≠ i.value after) = [] := by
          intro l
          rw [List.filter_eq_nil_iff]
          intro i hi
          obtain ⟨e, -, rfl⟩ := List.mem_map.mp hi
          simp [Item.value, hsame]
        rw [attributeMods, hpatch, hnone]
        rfl
    | some v =>
        obtain ⟨m, rfl⟩ := hobject v hpatch
        have hnew : after.attributes = .object m := by simp [hafter, UserUpdate.apply, hpatch]
        rw [attributeMods, hpatch]
        dsimp only
        induction dir.attributes with
        | nil => rfl
        | cons e l ih =>
            have hvalue : (Item.attribute e.1 e.2).value after = (Members.get m e.1).getD .null := by
              rw [Item.value, hnew]
              rfl
            have hold : (Item.attribute e.1 e.2).value before = (before.attributes.member e.1).getD .null := rfl
            rw [List.filterMap_cons, List.map_cons, ih]
            by_cases hne : (before.attributes.member e.1).getD .null = (Members.get m e.1).getD .null
            · rw [List.filter_cons_of_neg (by rw [hvalue, hold, hne]; simp)]
              simp [hne]
            · rw [List.filter_cons_of_pos (by rw [hvalue, hold]; simpa using hne), List.map_cons, Item.mod,
                hvalue]
              simp [hne, Item.attr]
  rw [hemail, hattributes, ← List.map_append, ← List.filter_append]
  rfl

lemma apply_values (server : Server) (mods : List Mod) (e : Entry) (t : String) :
    (e.apply server mods).values t =
      ((mods.filter fun m => server.attributeType m.attr = t).getLast?.map (·.values)).getD
        (e.values t) := by
  induction mods generalizing e with
  | nil => rfl
  | cons m mods ih =>
      rw [Entry.apply, List.foldl_cons, ← Entry.apply, ih]
      by_cases hm : server.attributeType m.attr = t
      · rw [List.filter_cons_of_pos (by simpa using hm), List.getLast?_cons]
        cases (mods.filter fun m => decide (server.attributeType m.attr = t)).getLast? with
        | none => simp [Entry.replace, hm]
        | some m' => rfl
      · rw [List.filter_cons_of_neg (by simpa using hm)]
        simp [Entry.replace, Ne.symm hm]

/-- **What the entry has of an item** after the items that change were written. -/
lemma apply_changed (server : Server) (dir : Dir) (u : User) (written : List Item) (e : Entry)
    (t : String) :
    (e.apply server (written.map (Item.mod dir u))).values t =
      match lastIn server dir written t with
      | none => e.values t
      | some j => directoryValues (j.value u) := by
  rw [apply_values, List.filter_map, List.getLast?_map, lastIn]
  cases h : (written.filter fun j => decide (server.attributeType (j.attr dir) = t)).getLast? with
  | none =>
      have h' : (written.filter ((fun m => decide (server.attributeType m.attr = t)) ∘
          Item.mod dir u)).getLast? = none := h
      rw [h']
      rfl
  | some j =>
      have h' : (written.filter ((fun m => decide (server.attributeType m.attr = t)) ∘
          Item.mod dir u)).getLast? = some j := h
      rw [h']
      rfl

/-! ## When the two sides stay together -/

section Together

variable (S : Service) (w : World) (now : Instant) (byTheSystem : Bool) (dir : Dir) (subject : String)

/-- A modification gets as far as the directory: it is the directory's to know, nothing here refuses
it, and the entry is found. -/
structure Reaches (before : User) (patch : UserUpdate) (entry : Entry) (mods : List Mod) : Prop where
  asked : asks byTheSystem before patch = true
  planned : plannedMods dir before patch = .ok mods
  something : mods ≠ []
  search : S.server.search = .ok ()
  found : findBySubject w.tree subject = some entry
  connect : S.server.connect = .ok ()

/-- The entry has all of it already. -/
def Idle (entry : Entry) (mods : List Mod) : Prop :=
  ∀ e ∈ w.tree, e.dn = entry.dn → e.apply S.server mods = e

/-- The directory says nothing against a change: it is not asked, has nothing to write, or has made
the modification. -/
def Goes (before : User) (patch : UserUpdate) : Prop :=
  asks byTheSystem before patch = false ∨ plannedMods dir before patch = .ok [] ∨
    ∃ entry mods, Reaches S w byTheSystem dir subject before patch entry mods ∧
      S.server.modify entry mods = .done

/-- The rows have room for a change: it names no column twice, its values can be held, and the row
passes the checks; no other live row has its username, its email or its external id, and its
organisation is there. -/
structure Fits (before : User) (patch : UserUpdate) : Prop where
  once : assignsOnce patch = true
  bound : bindable S.db patch = true
  checks : failedCheck S.db (patch.apply before now) = none
  alone : ∀ r ∈ w.rows, r.id ≠ before.id → clashes r (patch.apply before now) = false
  org : ∀ o, patch.orgId = some (some o) → o ∈ S.orgs

/-- What follows the commit goes well: the tenant is there for the mail to the old address, and for
the end of the sessions, which end. -/
structure Follows (before : User) (patch : UserUpdate) : Prop where
  mail : patch.email.isSome = true → before.email ≠ (patch.apply before now).email →
    S.tenant = .ok (some ())
  sessions : (patch.apply before now).status = .disabled → before.status ≠ .disabled →
    S.tenant = .ok (some ()) ∧ S.endSessions = .ok ()

/-- What the entry is to have of an item is there: it was, if nothing is written in its place, and
else what is written last in its place is its own text. -/
def Kept (after : User) (written : List Item) (entry : Entry) (i : Item) : Prop :=
  match lastIn S.server dir written (S.server.attributeType (i.attr dir)) with
  | none => Holds (entry.values (S.server.attributeType (i.attr dir))) (i.value after)
  | some j => Holds (directoryValues (j.value after)) (i.value after)

def written (before : User) (patch : UserUpdate) : List Item :=
  if asks byTheSystem before patch then changed dir before (patch.apply before now) else []

/-- **When a change of a linked user leaves the two together.** -/
structure Sound (before : User) (patch : UserUpdate) : Prop where
  /-- A modification that is stored there can be stored here, or is nothing new there. -/
  stored : ∀ entry mods, Reaches S w byTheSystem dir subject before patch entry mods →
    S.server.modify entry mods = .done → Idle S w entry mods ∨ Fits S w now before patch
  answered : ∀ entry mods, Reaches S w byTheSystem dir subject before patch entry mods →
    ∀ text, S.server.modify entry mods = .failed text true → Idle S w entry mods
  follows : Goes S w byTheSystem dir subject before patch → Fits S w now before patch →
    Follows S now before patch
  kept : Goes S w byTheSystem dir subject before patch → Fits S w now before patch →
    dir.editMode = .writable → ∀ entry, findBySubject w.tree subject = some entry → ∀ i ∈ dir.items,
      Kept S dir (patch.apply before now) (written now byTheSystem dir before patch) entry i

/-- The entry has what a user has here. -/
def Agree (tree : Tree) (u : User) : Prop :=
  ∀ entry, findBySubject tree subject = some entry → ∀ i ∈ dir.items,
    Holds (entry.values (S.server.attributeType (i.attr dir))) (i.value u)

/-- What a change of a linked user is held to: an error changes nothing on either side, and after a
success the entry of a writable directory has what is stored here. -/
structure Promised (editor : Editor) (i : Uuid128) (patch : UserUpdate) : Prop where
  refused : ∀ e, (updateAs S w now byTheSystem editor i patch).1 = .error e →
    (updateAs S w now byTheSystem editor i patch).2 = w
  agree : ∀ u, (updateAs S w now byTheSystem editor i patch).1 = .ok u → dir.editMode = .writable →
    Agree S dir subject (updateAs S w now byTheSystem editor i patch).2.tree u

end Together

section Steps

variable {S : Service} {w : World} {now : Instant} {byTheSystem : Bool} {dir : Dir} {subject : String}
  {before : User} {patch : UserUpdate}

/-- The row is replaced, or another live row has one of its identifiers. -/
lemma update_cases (rows : Table) (before : User) (patch : UserUpdate) (now : Instant) :
    ((∀ r ∈ rows, r.id ≠ before.id → clashes r (patch.apply before now) = false) ∧
      Users.update rows before patch now =
        .ok (Users.replaceRow rows (patch.apply before now), patch.apply before now)) ∨
    (∃ r ∈ rows, r.id ≠ before.id ∧ clashes r (patch.apply before now) = true) ∧
      Users.update rows before patch now = .error Users.conflict := by
  rw [Users.update]
  by_cases hclash : rows.any (fun r => r.id != (patch.apply before now).id &&
      clashes r (patch.apply before now)) = true
  · obtain ⟨r, hr, hboth⟩ := List.any_eq_true.mp hclash
    rw [Bool.and_eq_true, bne_iff_ne] at hboth
    exact .inr ⟨⟨r, hr, hboth⟩, if_pos hclash⟩
  · refine .inl ⟨fun r hr hne => Bool.eq_false_iff.mpr fun hc => hclash ?_, if_neg hclash⟩
    exact List.any_eq_true.mpr ⟨r, hr, by rw [Bool.and_eq_true, bne_iff_ne]; exact ⟨hne, hc⟩⟩

lemma statement_cases (S : Service) (w : World) (now : Instant) (before : User) (patch : UserUpdate) :
    (Fits S w now before patch ∧ statement S w.rows before patch now =
        .ok (Users.replaceRow w.rows (patch.apply before now), patch.apply before now)) ∨
      (¬ Fits S w now before patch ∧ ∃ e, statement S w.rows before patch now = .error e) := by
  rw [statement]
  by_cases hbound : (assignsOnce patch && bindable S.db patch) = true
  swap
  · refine .inr ⟨fun hfits => hbound ?_, _, if_pos (by rw [Bool.eq_false_of_not_eq_true hbound]; rfl)⟩
    rw [hfits.once, hfits.bound]
    rfl
  rw [if_neg (by simp [hbound])]
  rw [Bool.and_eq_true] at hbound
  cases hcheck : failedCheck S.db (patch.apply before now) with
  | some name =>
      refine .inr ⟨fun hfits => ?_, _, rfl⟩
      rw [hfits.checks] at hcheck
      cases hcheck
  | none =>
      dsimp only
      rcases update_cases w.rows before patch now with ⟨halone, hupdate⟩ | ⟨⟨r, hr, hne, hclash⟩, hupdate⟩
      · rw [hupdate]
        cases horg : patch.orgId.join.all (· ∈ S.orgs) with
        | true =>
            refine .inl ⟨⟨hbound.1, hbound.2, hcheck, halone, fun o ho => ?_⟩, rfl⟩
            rw [ho] at horg
            exact of_decide_eq_true horg
        | false =>
            refine .inr ⟨fun hfits => ?_, _, rfl⟩
            have hin : patch.orgId.join.all (· ∈ S.orgs) = true :=
              (Option.all_eq_true _ _).mpr fun o ho =>
                decide_eq_true (hfits.org o (Option.join_eq_some_iff.mp ho))
            rw [horg] at hin
            cases hin
      · refine .inr ⟨fun hfits => ?_, Users.conflict, by rw [hupdate]; rfl⟩
        rw [hfits.alone r hr hne] at hclash
        cases hclash

lemma theTenant_ok : theTenant S = .ok () ↔ S.tenant = .ok (some ()) := by
  rw [theTenant, bind_eq_ok]
  constructor
  · rintro ⟨t, ht, hsome⟩
    cases t with
    | none => cases hsome
    | some u => exact ht
  · intro h
    exact ⟨_, h, rfl⟩

lemma afterCommit_ok :
    afterCommit S before (patch.apply before now) patch = .ok () ↔ Follows S now before patch := by
  rw [afterCommit, bind_eq_ok]
  constructor
  · rintro ⟨_, hmail, hsessions⟩
    refine ⟨?_, ?_⟩
    · intro hsome hne
      rw [tellOldAddress, if_pos ⟨hsome, hne⟩] at hmail
      exact theTenant_ok.mp hmail
    · intro hdisabled hnot
      rw [signOut, if_pos ⟨hdisabled, hnot⟩, bind_eq_ok] at hsessions
      obtain ⟨_, htenant, hend⟩ := hsessions
      exact ⟨theTenant_ok.mp htenant, hend⟩
  · intro h
    refine ⟨(), ?_, ?_⟩
    · rw [tellOldAddress]
      split_ifs with hmail
      · exact theTenant_ok.mpr (h.mail hmail.1 hmail.2)
      · rfl
    · rw [signOut]
      split_ifs with hsessions
      · obtain ⟨htenant, hend⟩ := h.sessions hsessions.1 hsessions.2
        exact bind_eq_ok.mpr ⟨(), theTenant_ok.mpr htenant, hend⟩
      · rfl

lemma rows_changed (hbefore : before ∈ w.rows) (hfollows : ¬ Follows S now before patch) :
    Users.replaceRow w.rows (patch.apply before now) ≠ w.rows := by
  intro hsame
  have hrow : (if before.id = (patch.apply before now).id then patch.apply before now else before) =
      before := by
    have hmap : w.rows.map (fun r => if r.id = (patch.apply before now).id then patch.apply before now
        else r) = w.rows.map fun r => r := by rw [List.map_id']; exact hsame
    exact List.map_inj_left.mp hmap before hbefore
  rw [if_pos (show before.id = (patch.apply before now).id from rfl)] at hrow
  refine hfollows ⟨?_, ?_⟩
  · intro _ hne
    rw [hrow] at hne
    exact absurd rfl hne
  · intro hdisabled hnot
    rw [hrow] at hdisabled
    exact absurd hdisabled hnot

/-- What is asked of the directory, and how that leaves it. -/
def asking (S : Service) (tree : Tree) (byTheSystem : Bool) (before : User) (patch : UserUpdate) :
    Except AppError Unit × Tree :=
  if asks byTheSystem before patch then writeProfile S tree before patch else (.ok (), tree)

lemma Reaches.unique {entry entry' : Entry} {mods mods' : List Mod}
    (h : Reaches S w byTheSystem dir subject before patch entry mods)
    (h' : Reaches S w byTheSystem dir subject before patch entry' mods') : entry' = entry ∧ mods' = mods :=
  ⟨Option.some.inj (h'.found.symm.trans h.found), Except.ok.inj (h'.planned.symm.trans h.planned)⟩

/-- A modification that the directory has not made. -/
def Unmade (S : Service) (entry : Entry) (mods : List Mod) : Prop :=
  S.server.modify entry mods ≠ .done ∧ ∀ text, S.server.modify entry mods ≠ .failed text true

/-- **What comes of asking the directory**: nothing is written, a modification is made and answered,
it is made and not answered, or it is not made. -/
lemma asking_cases (w : World) (byTheSystem : Bool) (patch : UserUpdate)
    (hlinked : S.directoryOf before.id = some (dir, subject)) :
    ((asks byTheSystem before patch = false ∨ plannedMods dir before patch = .ok []) ∧
        asking S w.tree byTheSystem before patch = (.ok (), w.tree)) ∨
      (∃ entry mods, Reaches S w byTheSystem dir subject before patch entry mods ∧
        S.server.modify entry mods = .done ∧ asking S w.tree byTheSystem before patch =
          (.ok (), w.tree.modify S.server entry.dn mods)) ∨
      (∃ entry mods text e, Reaches S w byTheSystem dir subject before patch entry mods ∧
        S.server.modify entry mods = .failed text true ∧ asking S w.tree byTheSystem before patch =
          (.error e, w.tree.modify S.server entry.dn mods)) ∨
      ((∃ e, asking S w.tree byTheSystem before patch = (.error e, w.tree)) ∧
        asks byTheSystem before patch = true ∧ plannedMods dir before patch ≠ .ok [] ∧
          ∀ entry mods, Reaches S w byTheSystem dir subject before patch entry mods →
            Unmade S entry mods) := by
  rw [asking]
  by_cases hasks : asks byTheSystem before patch = true
  swap
  · exact .inl ⟨.inl (by simpa using hasks), if_neg hasks⟩
  rw [if_pos hasks, writeProfile, hlinked]
  dsimp only
  cases hplanned : plannedMods dir before patch with
  | error e =>
      refine .inr (.inr (.inr ⟨⟨e, rfl⟩, hasks, by simp, ?_⟩))
      intro entry mods h
      have hmods := h.planned
      rw [hplanned] at hmods
      cases hmods
  | ok mods =>
      dsimp only
      by_cases hmods : mods = []
      · subst hmods
        exact .inl ⟨.inr rfl, if_pos rfl⟩
      rw [if_neg hmods]
      have hsome : (Except.ok mods : Except AppError (List Mod)) ≠ .ok [] := by simpa using hmods
      cases hsearch : S.server.search with
      | error text =>
          refine .inr (.inr (.inr ⟨⟨_, rfl⟩, hasks, hsome, ?_⟩))
          intro entry mods h
          have hs := h.search
          rw [hsearch] at hs
          cases hs
      | ok u =>
          cases hfound : findBySubject w.tree subject with
          | none =>
              refine .inr (.inr (.inr ⟨⟨_, rfl⟩, hasks, hsome, ?_⟩))
              intro entry mods h
              have hf := h.found
              rw [hfound] at hf
              cases hf
          | some entry =>
              cases hconnect : S.server.connect with
              | error text =>
                  refine .inr (.inr (.inr ⟨⟨_, rfl⟩, hasks, hsome, ?_⟩))
                  intro entry mods h
                  have hc := h.connect
                  rw [hconnect] at hc
                  cases hc
              | ok v =>
                  have hreaches : Reaches S w byTheSystem dir subject before patch entry mods :=
                    ⟨hasks, hplanned, hmods, hsearch, hfound, hconnect⟩
                  have hunmade : Unmade S entry mods → ∀ entry' mods',
                      Reaches S w byTheSystem dir subject before patch entry' mods' →
                        Unmade S entry' mods' := by
                    intro h entry' mods' h'
                    obtain ⟨rfl, rfl⟩ := hreaches.unique h'
                    exact h
                  dsimp only
                  cases hmodify : S.server.modify entry mods with
                  | done => exact .inr (.inl ⟨entry, mods, hreaches, hmodify, rfl⟩)
                  | refused rc text =>
                      refine .inr (.inr (.inr ⟨⟨_, rfl⟩, hasks, hsome, hunmade ?_⟩))
                      rw [Unmade, hmodify]
                      simp
                  | failed text made =>
                      cases made with
                      | true => exact .inr (.inr (.inl ⟨entry, mods, text, _, hreaches, hmodify, rfl⟩))
                      | false =>
                          refine .inr (.inr (.inr ⟨⟨_, rfl⟩, hasks, hsome, hunmade ?_⟩))
                          rw [Unmade, hmodify]
                          simp

variable {editor : Editor} {sent : UserUpdate} {i : Uuid128} {tree : Tree}

lemma updateAs_eq (now : Instant) (byTheSystem : Bool) (hsent : sent.isEmpty = false)
    (hprep : prepare S w.rows editor i sent = .ok (before, patch)) :
    updateAs S w now byTheSystem editor i sent = match asking S w.tree byTheSystem before patch with
      | (.error e, tree) => (.error e, { w with tree := tree })
      | (.ok _, tree) =>
          match statement S w.rows before patch now with
          | .error e => (.error e, { w with tree := tree })
          | .ok (rows, user) =>
              ((afterCommit S before user patch).map fun _ => user, { rows := rows, tree := tree }) := by
  rw [updateAs, if_neg (by simp [hsent]), hprep]
  rfl

lemma world_eq : ({ w with tree := tree } : World) = w ↔ tree = w.tree := by
  cases w
  simp

lemma promised_of_refused {e : AppError}
    (hsent : sent.isEmpty = false) (hprep : prepare S w.rows editor i sent = .ok (before, patch))
    (hasking : asking S w.tree byTheSystem before patch = (.error e, tree)) :
    Promised S w now byTheSystem dir subject editor i sent ↔ tree = w.tree := by
  have heq := updateAs_eq now byTheSystem hsent hprep
  rw [hasking] at heq
  constructor
  · intro h
    have hrefused := h.refused e
    rw [heq] at hrefused
    exact world_eq.mp (hrefused rfl)
  · intro htree
    refine ⟨?_, ?_⟩
    · intro e' _
      rw [heq]
      exact world_eq.mpr htree
    · intro u hu
      rw [heq] at hu
      cases hu

/-- After the directory took the changes. -/
lemma promised_of_ok
    (hsent : sent.isEmpty = false) (hprep : prepare S w.rows editor i sent = .ok (before, patch))
    (hbefore : before ∈ w.rows)
    (hasking : asking S w.tree byTheSystem before patch = (.ok (), tree)) :
    Promised S w now byTheSystem dir subject editor i sent ↔
      (¬ Fits S w now before patch → tree = w.tree) ∧
      (Fits S w now before patch → Follows S now before patch ∧
        (dir.editMode = .writable → Agree S dir subject tree (patch.apply before now))) := by
  have heq := updateAs_eq now byTheSystem hsent hprep
  rw [hasking] at heq
  rcases statement_cases S w now before patch with
    ⟨hfits, hstatement⟩ | ⟨hfits, e, hstatement⟩
  · rw [hstatement] at heq
    dsimp only at heq
    by_cases hfollows : Follows S now before patch
    · rw [afterCommit_ok.mpr hfollows] at heq
      constructor
      · intro h
        refine ⟨fun hnot => absurd hfits hnot, fun _ => ⟨hfollows, ?_⟩⟩
        have hagree := h.agree (patch.apply before now)
        rw [heq] at hagree
        exact hagree rfl
      · rintro ⟨-, h⟩
        refine ⟨?_, ?_⟩
        · intro e he
          rw [heq] at he
          cases he
        · intro u hu
          rw [heq] at hu ⊢
          cases hu
          exact (h hfits).2
    · constructor
      · intro h
        -- the row is stored, and an error is answered
        obtain ⟨e, he⟩ : ∃ e, afterCommit S before (patch.apply before now) patch = .error e := by
          cases hafter : afterCommit S before (patch.apply before now) patch with
          | error e => exact ⟨e, rfl⟩
          | ok u => exact absurd (afterCommit_ok.mp hafter) hfollows
        have hrefused := h.refused e
        rw [heq, he] at hrefused
        exact absurd (congrArg World.rows (hrefused rfl)) (rows_changed hbefore hfollows)
      · rintro ⟨-, h⟩
        exact absurd (h hfits).1 hfollows
  · rw [hstatement] at heq
    dsimp only at heq
    constructor
    · intro h
      refine ⟨fun _ => ?_, fun hnot => absurd hnot hfits⟩
      have hrefused := h.refused e
      rw [heq] at hrefused
      exact world_eq.mp (hrefused rfl)
    · rintro ⟨h, -⟩
      refine ⟨?_, ?_⟩
      · intro e' _
        rw [heq]
        exact world_eq.mpr (h hfits)
      · intro u hu
        rw [heq] at hu
        cases hu

/-! ## The entry afterwards -/

lemma Entry.apply_name (server : Server) (mods : List Mod) (e : Entry) :
    (e.apply server mods).dn = e.dn ∧ (e.apply server mods).subject = e.subject := by
  induction mods generalizing e with
  | nil => exact ⟨rfl, rfl⟩
  | cons m mods ih => exact ih (e.replace server m)

lemma modify_eq_iff {entry : Entry} {mods : List Mod} :
    w.tree.modify S.server entry.dn mods = w.tree ↔ Idle S w entry mods := by
  have hmap : w.tree.modify S.server entry.dn mods = w.tree ↔
      w.tree.map (fun e => if e.dn = entry.dn then e.apply S.server mods else e) = w.tree.map fun e => e := by
    rw [List.map_id']
    rfl
  rw [hmap, List.map_inj_left]
  refine forall₂_congr fun e _ => ?_
  split_ifs with hdn
  · exact ⟨fun h _ => h, fun h => h hdn⟩
  · exact iff_of_true rfl fun h => absurd h hdn

lemma findBySubject_modify {entry : Entry} {mods : List Mod}
    (hfound : findBySubject w.tree subject = some entry) :
    findBySubject (w.tree.modify S.server entry.dn mods) subject = some (entry.apply S.server mods) := by
  have hone : w.tree.filter (·.subject == subject) = [entry] := by
    rw [findBySubject] at hfound
    split at hfound
    · rename_i one hone
      rw [hone, Option.some.inj hfound]
    · cases hfound
  have hfilter : (w.tree.modify S.server entry.dn mods).filter (·.subject == subject) =
      [entry.apply S.server mods] := by
    rw [Tree.modify, List.filter_map]
    have hsame : ((fun e : Entry => e.subject == subject) ∘ fun e : Entry =>
        if e.dn = entry.dn then e.apply S.server mods else e) = fun e => e.subject == subject := by
      funext e
      rw [Function.comp_apply]
      split_ifs
      · rw [(Entry.apply_name _ _ _).2]
      · rfl
    rw [hsame, hone, List.map_singleton, if_pos rfl]
  rw [findBySubject, hfilter]

/-- **The entry has what is stored here** exactly where each item is kept. -/
lemma agree_iff (hobject : ∀ v, patch.attributes = some v → ∃ m, v = .object m)
    (htree : ((asks byTheSystem before patch = false ∨ plannedMods dir before patch = .ok []) ∧
        tree = w.tree) ∨ ∃ entry mods, Reaches S w byTheSystem dir subject before patch entry mods ∧
        tree = w.tree.modify S.server entry.dn mods) :
    Agree S dir subject tree (patch.apply before now) ↔
      ∀ entry, findBySubject w.tree subject = some entry → ∀ i ∈ dir.items,
        Kept S dir (patch.apply before now) (written now byTheSystem dir before patch) entry i := by
  have hmods : ∀ mods, plannedMods dir before patch = .ok mods → mods =
      (changed dir before (patch.apply before now)).map (Item.mod dir (patch.apply before now)) := by
    intro mods h
    rw [← mods_eq now hobject]
    rw [plannedMods] at h
    split_ifs at h
    dsimp only at h
    split_ifs at h
    exact (Except.ok.inj h).symm
  rcases htree with ⟨hnone, rfl⟩ | ⟨entry, mods, hreaches, rfl⟩
  · have hwritten : written now byTheSystem dir before patch = [] := by
      rw [written]
      rcases hnone with hasks | hnone
      · rw [hasks]
        rfl
      · have h := hmods _ hnone
        rw [List.nil_eq, List.map_eq_nil_iff] at h
        rw [h, ite_self]
    refine forall₂_congr fun entry _ => forall₂_congr fun i _ => ?_
    rw [hwritten]
    rfl
  · have hwritten : written now byTheSystem dir before patch = changed dir before (patch.apply before now) := by
      rw [written, hreaches.asked, if_pos rfl]
    have hkept : ∀ i, Holds ((entry.apply S.server mods).values (S.server.attributeType (i.attr dir)))
        (i.value (patch.apply before now)) ↔
          Kept S dir (patch.apply before now) (written now byTheSystem dir before patch) entry i := by
      intro i
      rw [hmods _ hreaches.planned, apply_changed, Kept, hwritten]
      cases lastIn S.server dir (changed dir before (patch.apply before now))
          (S.server.attributeType (i.attr dir)) with
      | none => rfl
      | some j => rfl
    rw [Agree]
    constructor
    · intro h entry' hentry' i hi
      obtain rfl := Option.some.inj (hentry'.symm.trans hreaches.found)
      exact (hkept i).mp (h _ (findBySubject_modify hreaches.found) i hi)
    · intro h entry' hentry' i hi
      rw [findBySubject_modify hreaches.found] at hentry'
      rw [← Option.some.inj hentry']
      exact (hkept i).mpr (h entry hreaches.found i hi)

/-! ## The result -/

lemma validateAttributes_object {P : Platform} {schema : ProfileSchema} {incoming : Value}
    {existing : Option Value} {v : Value}
    (h : Users.validateAttributes P schema incoming editor existing = .ok v) : ∃ m, v = .object m := by
  cases incoming with
  | object m =>
      simp only [Users.validateAttributes, Users.validateAttributesWith, Users.asObject] at h
      split_ifs at h
      exact ⟨_, (Except.ok.inj h).symm⟩
  | _ => cases h

lemma prepare_ok (h : prepare S w.rows editor i sent = .ok (before, patch)) :
    before ∈ w.rows ∧ before.id = i ∧ ∀ v, patch.attributes = some v → ∃ m, v = .object m := by
  rw [prepare, bind_eq_ok] at h
  obtain ⟨normal, -, h⟩ := h
  rw [bind_eq_ok] at h
  obtain ⟨user, hget, h⟩ := h
  rw [bind_eq_ok] at h
  obtain ⟨valid, hvalid, h⟩ := h
  cases h
  obtain ⟨hmem, hid, -⟩ := Users.get_ok hget
  refine ⟨hmem, hid, ?_⟩
  intro v hv
  rw [Users.validatePatch] at hvalid
  cases hattr : normal.attributes with
  | none =>
      rw [hattr] at hvalid
      cases hvalid
      rw [hattr] at hv
      cases hv
  | some incoming =>
      rw [hattr] at hvalid
      cases hchecked : Users.validateAttributes S.platform S.schema incoming editor (some before.attributes) with
      | error e =>
          simp only [hchecked, Except.map] at hvalid
          cases hvalid
      | ok u =>
          simp only [hchecked, Except.map] at hvalid
          cases hvalid
          cases hv
          exact validateAttributes_object hchecked

/-- **A prepared change** keeps its promise exactly if it is sound. -/
lemma promised_iff_sound
    (hlinked : S.directoryOf i = some (dir, subject)) (hsent : sent.isEmpty = false)
    (hprep : prepare S w.rows editor i sent = .ok (before, patch)) :
    Promised S w now byTheSystem dir subject editor i sent ↔
      Sound S w now byTheSystem dir subject before patch := by
  obtain ⟨hbefore, rfl, hobject⟩ := prepare_ok hprep
  rcases asking_cases w byTheSystem patch hlinked with
    ⟨hnone, hasking⟩ | ⟨entry, mods, hreaches, hdone, hasking⟩ |
    ⟨entry, mods, text, e, hreaches, hfailed, hasking⟩ | ⟨⟨e, hasking⟩, hasks, hplanned, hunmade⟩
  · -- nothing is written
    have hnever : ∀ entry mods, ¬ Reaches S w byTheSystem dir subject before patch entry mods := by
      intro entry mods h
      rcases hnone with hasks | hnone
      · rw [h.asked] at hasks
        cases hasks
      · rw [h.planned] at hnone
        exact h.something (Except.ok.inj hnone)
    have hgoes : Goes S w byTheSystem dir subject before patch := hnone.elim .inl fun h => .inr (.inl h)
    rw [promised_of_ok hsent hprep hbefore hasking, agree_iff hobject (.inl ⟨hnone, rfl⟩)]
    constructor
    · rintro ⟨-, h⟩
      exact ⟨fun entry mods hr => absurd hr (hnever entry mods),
        fun entry mods hr => absurd hr (hnever entry mods), fun _ hfits => (h hfits).1,
        fun _ hfits hwritable => (h hfits).2 hwritable⟩
    · intro h
      exact ⟨fun _ => rfl, fun hfits => ⟨h.follows hgoes hfits, h.kept hgoes hfits⟩⟩
  · -- the modification is made
    have hgoes : Goes S w byTheSystem dir subject before patch :=
      .inr (.inr ⟨entry, mods, hreaches, hdone⟩)
    rw [promised_of_ok hsent hprep hbefore hasking, agree_iff hobject (.inr ⟨entry, mods, hreaches, rfl⟩),
      modify_eq_iff]
    constructor
    · rintro ⟨hidle, h⟩
      refine ⟨?_, ?_, fun _ hfits => (h hfits).1, fun _ hfits hwritable => (h hfits).2 hwritable⟩
      · intro entry' mods' hr _
        obtain ⟨rfl, rfl⟩ := hreaches.unique hr
        by_cases hfits : Fits S w now before patch
        · exact .inr hfits
        · exact .inl (hidle hfits)
      · intro entry' mods' hr text hfailed
        obtain ⟨rfl, rfl⟩ := hreaches.unique hr
        rw [hdone] at hfailed
        cases hfailed
    · intro h
      refine ⟨?_, fun hfits => ⟨h.follows hgoes hfits, h.kept hgoes hfits⟩⟩
      intro hfits
      exact (h.stored entry mods hreaches hdone).resolve_right hfits
  · -- it is made, and the answer is lost
    rw [promised_of_refused hsent hprep hasking, modify_eq_iff]
    have hnot : ¬ Goes S w byTheSystem dir subject before patch := by
      rintro (hasks | hnone | ⟨entry', mods', hr, hdone⟩)
      · rw [hreaches.asked] at hasks
        cases hasks
      · rw [hreaches.planned] at hnone
        exact hreaches.something (Except.ok.inj hnone)
      · obtain ⟨rfl, rfl⟩ := hreaches.unique hr
        rw [hfailed] at hdone
        cases hdone
    constructor
    · intro hidle
      refine ⟨?_, ?_, fun hgoes => absurd hgoes hnot, fun hgoes => absurd hgoes hnot⟩
      · intro entry' mods' hr _
        obtain ⟨rfl, rfl⟩ := hreaches.unique hr
        exact .inl hidle
      · intro entry' mods' hr _ _
        obtain ⟨rfl, rfl⟩ := hreaches.unique hr
        exact hidle
    · intro h
      exact h.answered entry mods hreaches text hfailed
  · -- nothing is made
    have hnot : ¬ Goes S w byTheSystem dir subject before patch := by
      rintro (hno | hnone | ⟨entry, mods, hr, hdone⟩)
      · rw [hasks] at hno
        cases hno
      · exact hplanned hnone
      · exact (hunmade entry mods hr).1 hdone
    rw [promised_of_refused hsent hprep hasking]
    refine iff_of_true rfl ⟨?_, ?_, fun hgoes => absurd hgoes hnot, fun hgoes => absurd hgoes hnot⟩
    · intro entry mods hr hdone
      exact absurd hdone (hunmade entry mods hr).1
    · intro entry mods hr text hfailed
      exact absurd hfailed ((hunmade entry mods hr).2 text)

end Steps

/-- **A refused change of a linked user changes nothing, and one that is stored is in the directory
too**, exactly if a change that reaches the directory finds room here, is answered, and is followed
by a commit that nothing goes wrong after; and if each item was as here, or is written last in its
attribute with a text of its own. -/
theorem refused_changes_nothing_iff (S : Service) (w : World) (now : Instant) (byTheSystem : Bool)
    (editor : Editor) (i : Uuid128) (patch : UserUpdate) (dir : Dir) (subject : String)
    (hlinked : S.directoryOf i = some (dir, subject)) :
    Promised S w now byTheSystem dir subject editor i patch ↔
      (∀ before, patch.isEmpty = true → Users.get w.rows i = .ok before → dir.editMode = .writable →
        Agree S dir subject w.tree before) ∧
      (∀ before patch', patch.isEmpty = false → prepare S w.rows editor i patch = .ok (before, patch') →
        Sound S w now byTheSystem dir subject before patch') := by
  cases hempty : patch.isEmpty with
  | true =>
      have heq : updateAs S w now byTheSystem editor i patch = (Users.get w.rows i, w) := by
        rw [updateAs, if_pos hempty]
      constructor
      · intro h
        refine ⟨?_, fun _ _ hfalse => Bool.noConfusion hfalse⟩
        intro before _ hget hwritable
        have hagree := h.agree before
        rw [heq] at hagree
        exact hagree hget hwritable
      · rintro ⟨h, -⟩
        refine ⟨?_, ?_⟩
        · intro e _
          rw [heq]
        · intro u hu hwritable
          rw [heq] at hu ⊢
          exact h u rfl hu hwritable
  | false =>
      cases hprep : prepare S w.rows editor i patch with
      | error e =>
          have heq : updateAs S w now byTheSystem editor i patch = (.error e, w) := by
            rw [updateAs, if_neg (by simp [hempty]), hprep]
          refine iff_of_true ⟨?_, ?_⟩ ⟨fun _ htrue => Bool.noConfusion htrue, fun _ _ _ hok => nomatch hok⟩
          · intro e _
            rw [heq]
          · intro u hu
            rw [heq] at hu
            cases hu
      | ok prepared =>
          obtain ⟨before, patch'⟩ := prepared
          rw [promised_iff_sound hlinked hempty hprep]
          constructor
          · intro h
            refine ⟨fun _ htrue => Bool.noConfusion htrue, ?_⟩
            intro before' patch'' _ hok
            cases hok
            exact h
          · rintro ⟨-, h⟩
            exact h before patch' rfl rfl

def sampleDir : Dir where
  aliasName := "corp"
  displayName := "Corp"
  editMode := .writable

def sampleService : Service where
  platform := Users.samplePlatform
  schema := ⟨[], false⟩
  db := ⟨fun t => !t.toList.contains (Char.ofNat 0), fun _ => true, toAsciiLowercase⟩
  server := { attributeType := id }
  directoryOf i := if i = 1 then some (sampleDir, "1") else none
  orgs := []
  tenant := .ok (some ())
  endSessions := .ok ()

def sampleWorld : World where
  rows := [Users.alice, { id := 2, username := "bob", email := some "b@example.com", createdAt := 0, updatedAt := 0 }]
  tree := [{ dn := "uid=alice", subject := "1", values := fun t => if t = "mail" then {utf8 "a@example.com"} else ∅ }]

/-- Alice takes a new address. -/
theorem refused_changes_nothing_iff_alice :
    Promised sampleService sampleWorld 1 false sampleDir "1" .admin 1
        { email := some (some "c@example.com") } ↔
      (∀ before, ({ email := some (some "c@example.com") } : UserUpdate).isEmpty = true →
        Users.get sampleWorld.rows 1 = .ok before → sampleDir.editMode = .writable →
          Agree sampleService sampleDir "1" sampleWorld.tree before) ∧
      (∀ before patch', ({ email := some (some "c@example.com") } : UserUpdate).isEmpty = false →
        prepare sampleService sampleWorld.rows .admin 1 { email := some (some "c@example.com") } =
          .ok (before, patch') →
        Sound sampleService sampleWorld 1 false sampleDir "1" before patch') :=
  refused_changes_nothing_iff sampleService sampleWorld 1 false .admin 1
    { email := some (some "c@example.com") } sampleDir "1" rfl

/-- **A refused change is in the directory**: Alice takes the address of Bob. -/
theorem conflict_written :
    sampleService.directoryOf 1 = some (sampleDir, "1") ∧
      (updateAs sampleService sampleWorld 1 false .admin 1 { email := some (some "b@example.com") }).1 =
        .error Users.conflict ∧
      ¬ Promised sampleService sampleWorld 1 false sampleDir "1" .admin 1
        { email := some (some "b@example.com") } := by
  have hrefused : (updateAs sampleService sampleWorld 1 false .admin 1
      { email := some (some "b@example.com") }).1 = .error Users.conflict := by decide +kernel
  refine ⟨rfl, hrefused, ?_⟩
  intro h
  have htree := congrArg (fun w : World => w.tree.map fun e => e.values "mail") (h.refused _ hrefused)
  have hmail : (updateAs sampleService sampleWorld 1 false .admin 1
      { email := some (some "b@example.com") }).2.tree.map (fun e => e.values "mail") =
        [{utf8 "b@example.com"}] := by decide +kernel
  have hwas : sampleWorld.tree.map (fun e => e.values "mail") = [{utf8 "a@example.com"}] := rfl
  have heq : ([{utf8 "b@example.com"}] : List (Finset Bytes)) = [{utf8 "a@example.com"}] :=
    hmail.symm.trans (htree.trans hwas)
  exact absurd heq (by decide +kernel)

end Ridm.Ldap.WriteBack
