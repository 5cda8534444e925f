import Ridm.Core.Uuid128
import Ridm.Users.ProfileSchema

/-!
# Users of a tenant

`api/src/services/users.rs` over the rows of one tenant's `users` table: `create_as`, `update_as`
and `delete`, with the table's unique indexes, and the lookups that go through them.

A directory that answers for its users (`ldap::write_profile`) is a parameter: it accepts or
refuses a change and does not touch the row.  Events, notifications and ended sessions follow the
commit and are not modelled.
-/

namespace Ridm.Users

/-- The status of an account. -/
inductive UserStatus
  | active
  | disabled
  | locked
  | pending
  | deleted
  deriving DecidableEq

/-- `User`, without what only signing in reads and writes. -/
structure User where
  id : Uuid128
  orgId : Option Uuid128 := none
  username : String
  email : Option String := none
  emailVerified : Bool := false
  phone : Option String := none
  phoneVerified : Bool := false
  passwordHash : Option String := none
  mustChangePassword : Bool := false
  status : UserStatus := .active
  attributes : Value := .object []
  locale : Option String := none
  externalId : Option String := none
  deletedAt : Option Instant := none
  createdAt : Instant
  updatedAt : Instant
  deriving DecidableEq

/-- `deleted_at IS NULL`. -/
def User.live (u : User) : Bool := u.deletedAt.isNone

/-- A user to be created. -/
structure NewUser where
  username : String
  email : Option String := none
  emailVerified : Bool := false
  phone : Option String := none
  phoneVerified : Bool := false
  status : Option UserStatus := none
  attributes : Option Value := none
  locale : Option String := none
  orgId : Option Uuid128 := none
  externalId : Option String := none
  deferRequired : Bool := false

/-- `UserUpdate`; a field that is given may be set to nothing. -/
structure UserUpdate where
  username : Option String := none
  email : Option (Option String) := none
  emailVerified : Option Bool := none
  phone : Option (Option String) := none
  phoneVerified : Option Bool := none
  status : Option UserStatus := none
  attributes : Option Value := none
  locale : Option (Option String) := none
  orgId : Option (Option Uuid128) := none
  mustChangePassword : Option Bool := none
  externalId : Option (Option String) := none
  deriving DecidableEq

/-- `UserUpdate::is_empty`. -/
def UserUpdate.isEmpty (p : UserUpdate) : Bool := p == {}

/-! ## The table -/

/-- The rows of the tenant. -/
abbrev Table := List User

/-- Both rows are there and carry the same (present) value: what a unique index refuses. -/
def sameKey (key : User → Option String) (r u : User) : Bool :=
  (key u).isSome && key r == key u

/-- The unique indexes of the table, which only live rows are in: `users_tenant_username_key`,
`users_tenant_email_key` and `users_external_id_key`. -/
def clashes (r u : User) : Bool :=
  r.live && u.live && (sameKey (fun x => some x.username) r u || sameKey User.email r u ||
    sameKey User.externalId r u)

/-- `repos::users::find_by_id`. -/
def findById (rows : Table) (id : Uuid128) : Option User := rows.find? fun r => r.id == id

/-- The statement conflicts with another row. -/
def conflict : AppError := .conflict "username or email already in use"

/-- `repos::users::insert`. -/
def insert (rows : Table) (u : User) : Except AppError Table :=
  if rows.any fun r => r.id == u.id || clashes r u then .error conflict else .ok (rows ++ [u])

/-- The columns `repos::users::update` sets. -/
def UserUpdate.apply (p : UserUpdate) (u : User) (now : Instant) : User :=
  { u with
    updatedAt := now
    username := p.username.getD u.username
    email := p.email.getD u.email
    emailVerified := p.emailVerified.getD (if p.email = some none then false else u.emailVerified)
    phone := p.phone.getD u.phone
    phoneVerified := p.phoneVerified.getD (if p.phone = some none then false else u.phoneVerified)
    status := p.status.getD u.status
    attributes := p.attributes.getD u.attributes
    locale := p.locale.getD u.locale
    orgId := p.orgId.getD u.orgId
    mustChangePassword := p.mustChangePassword.getD u.mustChangePassword
    externalId := p.externalId.getD u.externalId }

/-- A row in the place of the one with its id. -/
def replaceRow (rows : Table) (u : User) : Table := rows.map fun r => if r.id = u.id then u else r

/-- `repos::users::update` of a live row, as far as its indexes have a say: what else the statement is
refused for is in `Ldap.WriteBack.statement`. -/
def update (rows : Table) (before : User) (p : UserUpdate) (now : Instant) :
    Except AppError (Table × User) :=
  let u := p.apply before now
  if rows.any fun r => r.id != u.id && clashes r u then .error conflict
  else .ok (replaceRow rows u, u)

/-- `repos::users::soft_delete`. -/
def softDelete (rows : Table) (id : Uuid128) (now : Instant) : Table :=
  rows.map fun r =>
    if r.id = id ∧ r.live then { r with status := .deleted, deletedAt := some now, updatedAt := now }
    else r

/-! ## The service -/

/-- `transpose` of an optional normalisation. -/
def normalizeOpt (f : String → Except AppError String) :
    Option String → Except AppError (Option String)
  | none => .ok none
  | some s => (f s).map some

/-- The same for a field that may be set to nothing. -/
def normalizeField (f : String → Except AppError String) :
    Option (Option String) → Except AppError (Option (Option String))
  | none => .ok none
  | some v => (normalizeOpt f v).map some

/-- `create_as`, with the id and the time the database gives the row. -/
def createAs (P : Platform) (schema : ProfileSchema) (rows : Table) (id : Uuid128) (now : Instant)
    (editor : Editor) (input : NewUser) : Except AppError (Table × User) := do
  let username ← normalizeUsername P input.username
  let email ← normalizeOpt (normalizeEmail P) input.email
  let phone ← normalizeOpt normalizePhone input.phone
  let attributes ← validateAttributesWith P schema (input.attributes.getD (.object [])) editor none
    !input.deferRequired
  let u : User :=
    { id := id
      orgId := input.orgId
      username := username
      email := email
      emailVerified := input.emailVerified
      phone := phone
      phoneVerified := input.phoneVerified
      status := input.status.getD .active
      attributes := attributes
      locale := input.locale
      externalId := input.externalId
      createdAt := now
      updatedAt := now }
  let rows ← insert rows u
  .ok (rows, u)

/-- `get_shared`. -/
def get (rows : Table) (id : Uuid128) : Except AppError User :=
  match (findById rows id).filter User.live with
  | some u => .ok u
  | none => .error (.notFound "user")

/-- The patch with its contact data normalised. -/
def normalizePatch (P : Platform) (patch : UserUpdate) : Except AppError UserUpdate := do
  let username ← normalizeOpt (normalizeUsername P) patch.username
  let email ← normalizeField (normalizeEmail P) patch.email
  let phone ← normalizeField normalizePhone patch.phone
  .ok { patch with username := username, email := email, phone := phone }

def validatePatch (P : Platform) (schema : ProfileSchema) (editor : Editor) (before : User)
    (patch : UserUpdate) : Except AppError UserUpdate :=
  match patch.attributes with
  | none => .ok patch
  | some incoming =>
      (validateAttributes P schema incoming editor (some before.attributes)).map fun v =>
        { patch with attributes := some v }

/-- What the directory of a user says to a change of the profile. -/
abbrev Directory := User → UserUpdate → Except AppError Unit

/-- `update_as` asks the directory about a user without a local password, unless the change is its
own. -/
def askDirectory (directory : Directory) (byTheSystem : Bool) (before : User) (patch : UserUpdate) :
    Except AppError Unit :=
  if before.passwordHash.isNone && !byTheSystem &&
      (patch.username.isSome || patch.email.isSome || patch.attributes.isSome) then
    directory before patch
  else .ok ()

def updateAs (P : Platform) (schema : ProfileSchema) (directory : Directory) (rows : Table)
    (now : Instant) (byTheSystem : Bool) (editor : Editor) (id : Uuid128) (patch : UserUpdate) :
    Except AppError (Table × User) :=
  if patch.isEmpty then (get rows id).map fun u => (rows, u)
  else do
    let patch ← normalizePatch P patch
    let before ← get rows id
    let patch ← validatePatch P schema editor before patch
    askDirectory directory byTheSystem before patch
    update rows before patch now

def delete (rows : Table) (id : Uuid128) (now : Instant) : Except AppError Table :=
  match (findById rows id).filter User.live with
  | some _ => .ok (softDelete rows id now)
  | none => .error (.notFound "user")

/-! ## Looking users up -/

/-- A live user has the identifier as username or email. -/
def User.answersTo (u : User) (x : String) : Bool := u.live && (u.username == x || u.email == some x)

/-- The rows `repos::users::find_by_identifier` chooses one of. -/
def identified (rows : Table) (x : String) : List User := rows.filter (·.answersTo x)

/-! ## What the requests say about the rows -/

lemma get_ok {rows : Table} {id : Uuid128} {u : User} (h : get rows id = .ok u) :
    u ∈ rows ∧ u.id = id ∧ u.live = true := by
  rw [get] at h
  cases hfind : (findById rows id).filter User.live with
  | none =>
      rw [hfind] at h
      cases h
  | some v =>
      rw [hfind] at h
      cases h
      rw [Option.filter_eq_some_iff, findById] at hfind
      refine ⟨List.mem_of_find?_eq_some hfind.1, ?_, hfind.2⟩
      simpa using List.find?_some hfind.1

variable {f : String → Except AppError String} {patch patch' : UserUpdate} {P : Platform}

lemma normalizeOpt_some {raw : String} {v : Option String} :
    normalizeOpt f (some raw) = .ok v ↔ ∃ x, f raw = .ok x ∧ v = some x := by
  rw [normalizeOpt]
  cases f raw with
  | error e => simp [Except.map]
  | ok x => simp [Except.map, eq_comm]

lemma normalizeField_some {raw : Option String} {v : Option (Option String)} :
    normalizeField f (some raw) = .ok v ↔ ∃ x, normalizeOpt f raw = .ok x ∧ v = some x := by
  rw [normalizeField]
  cases normalizeOpt f raw with
  | error e => simp [Except.map]
  | ok x => simp [Except.map, eq_comm]

lemma normalizePatch_ok (h : normalizePatch P patch = .ok patch') :
    normalizeOpt (normalizeUsername P) patch.username = .ok patch'.username ∧
      normalizeField (normalizeEmail P) patch.email = .ok patch'.email ∧
      normalizeField normalizePhone patch.phone = .ok patch'.phone ∧ patch' = { patch with
        username := patch'.username, email := patch'.email, phone := patch'.phone } := by
  simp only [normalizePatch, bind_eq_ok] at h
  obtain ⟨username, husername, email, hemail, phone, hphone, h⟩ := h
  cases h
  exact ⟨husername, hemail, hphone, rfl⟩

lemma validatePatch_ok {schema : ProfileSchema} {editor : Editor} {before : User}
    (h : validatePatch P schema editor before patch = .ok patch') :
    patch' = { patch with attributes := patch'.attributes } := by
  rw [validatePatch] at h
  cases hattr : patch.attributes with
  | none =>
      rw [hattr] at h
      cases h
      rfl
  | some incoming =>
      rw [hattr] at h
      cases hv : validateAttributes P schema incoming editor (some before.attributes) with
      | error e =>
          simp only [hv, Except.map] at h
          cases h
      | ok v =>
          simp only [hv, Except.map] at h
          cases h
          rfl

end Ridm.Users
