import Ridm.Scim.Filter
import Ridm.Users.Model

/-!
# SCIM users

The SCIM document of a user (`user_to_scim`), what is read back from a document (`user_from_scim`),
the list of users (`list_users`, with its index lookups) and the full replace behind PUT and PATCH
(`replace_user`), of `api/src/services/scim.rs`.

The members of a document are listed in the order they are set.  Their names differ also without
case, so `get_ci` finds the same one in any order.
-/

namespace Ridm.Scim

open Users (User UserStatus UserUpdate ProfileSchema)

/-- What the service takes from the platform. -/
structure Service extends forFilters : Platform, forUsers : Users.Platform where
  /-- `to_rfc3339_opts(SecondsFormat::Millis, true)`. -/
  rfc3339Millis : Instant → String

/-- `Group`, as far as a user's document names it. -/
structure Group where
  id : Uuid128
  name : String

def uuidText (id : Uuid128) : String := String.ofList id.text

/-! ## Documents -/

/-- `meta`. -/
def metaOf (S : Service) (kind base : String) (id : Uuid128) (created modified : Instant) : Value :=
  .object [("resourceType", .string kind), ("created", .string (S.rfc3339Millis created)),
    ("lastModified", .string (S.rfc3339Millis modified)),
    ("location", .string (base ++ "/" ++ kind ++ "s/" ++ uuidText id))]

def attr (u : User) (k : String) : Option String :=
  ((Users.asObject u.attributes).bind fun a => a.get k).bind Value.asStr

/-- A member that is set when there is a value. -/
def optMember (key : String) (v : Option Value) : Members := v.toList.map fun v => (key, v)

/-- The `name` of a user with a given or a family name. -/
def nameOf : Option String → Option String → Option Value
  | none, none => none
  | given, family =>
      some (.object (optMember "givenName" (given.map .string) ++
        (optMember "familyName" (family.map .string) ++
          [("formatted", .string (" ".intercalate (given.toList ++ family.toList)))])))

/-- The `groups` of a user. -/
def groupsOf (base : String) (memberOf : List Group) : Option Value :=
  if memberOf.isEmpty then none
  else some (.array (memberOf.map fun g =>
    .object [("value", .string (uuidText g.id)), ("display", .string g.name),
      ("$ref", .string (base ++ "/Groups/" ++ uuidText g.id))]))

/-- The `emails` of a user. -/
def emailsOf (e : String) : Value :=
  .array [.object [("value", .string e), ("type", .string "work"), ("primary", .bool true)]]

/-- The `phoneNumbers` of a user. -/
def phonesOf (p : String) : Value :=
  .array [.object [("value", .string p), ("type", .string "work")]]

/-- The members of `user_to_scim`. -/
def userMembers (S : Service) (base : String) (u : User) (memberOf : List Group) : Members :=
  [("schemas", .array [.string userSchema]), ("id", .string (uuidText u.id)),
    ("userName", .string u.username), ("active", .bool (u.status == .active)),
    ("meta", metaOf S "User" base u.id u.createdAt u.updatedAt)] ++
  (optMember "externalId" (u.externalId.map .string) ++
  (optMember "name" (nameOf (attr u "given_name") (attr u "family_name")) ++
  (optMember "displayName" ((attr u "display_name").map .string) ++
  (optMember "emails" (u.email.map emailsOf) ++
  (optMember "phoneNumbers" (u.phone.map phonesOf) ++
  (optMember "locale" (u.locale.map .string) ++
  optMember "groups" (groupsOf base memberOf)))))))

def userToScim (S : Service) (base : String) (u : User) (memberOf : List Group) : Value :=
  .object (userMembers S base u memberOf)

def nonEmpty (v : Option Value) : Option String :=
  ((v.bind Value.asStr).map trim).filter fun s => !s.isEmpty

def primaryValue (list : Option Value) : Option String :=
  (list.bind Value.asArray).bind fun arr =>
    ((arr.find? fun e => ((getCi e "primary").bind asBool) == some true).or arr.head?).bind fun pick =>
      match pick with
      | .string s => some s
      | other => nonEmpty (getCi other "value")

/-- What a document says of a user. -/
structure UserFields where
  username : String
  externalId : Option String
  email : Option String
  phone : Option String
  active : Bool
  locale : Option String
  attributes : Members

/-- Whether the schema takes an attribute. -/
def keepsAttr (schema : ProfileSchema) (key : String) : Bool :=
  (schema.get key).isSome || schema.allowUndeclared

/-- A name attribute as it is to be stored: null when the document has none. -/
def putAttr (schema : ProfileSchema) (key : String) (v : Option String) : Members :=
  if keepsAttr schema key then [(key, (v.map Value.string).getD .null)] else []

def userFromScim (doc : Value) (schema : ProfileSchema) : ScimResult UserFields :=
  match nonEmpty (getCi doc "userName") with
  | none => .error (.bad "invalidValue" "userName is required")
  | some username =>
      let name := getCi doc "name"
      let attributes :=
        putAttr schema "given_name" (name.bind fun n => nonEmpty (getCi n "givenName")) ++
        (putAttr schema "family_name" (name.bind fun n => nonEmpty (getCi n "familyName")) ++
        putAttr schema "display_name" (nonEmpty (getCi doc "displayName")))
      let active := match getCi doc "active" with
        | none => some true
        | some v => asBool v
      match active with
      | none => .error (.bad "invalidValue" "active must be a boolean")
      | some active =>
          .ok
            { username := username
              externalId := nonEmpty (getCi doc "externalId")
              email := primaryValue (getCi doc "emails")
              phone := primaryValue (getCi doc "phoneNumbers")
              active := active
              locale := nonEmpty (getCi doc "locale")
              attributes := attributes }

/-! ## Errors of the services -/

/-- `ScimError::from(AppError)`. -/
def ScimError.ofApp : AppError → ScimError
  | .notFound what => ⟨404, none, what ++ " not found"⟩
  | .conflict d => ⟨409, some "uniqueness", d⟩
  | .badRequest d => .bad "invalidValue" d
  | .validation fields =>
      .bad "invalidValue" ("; ".intercalate (fields.map fun f => f.field ++ ": " ++ f.message))
  | .forbidden d => ⟨403, none, d⟩
  | .unauthorized => ⟨401, none, "authentication required"⟩
  | .rateLimited _ => ⟨429, none, "rate limit exceeded"⟩
  | _ => ⟨500, none, "internal error"⟩

/-! ## Index lookups -/

/-- The lookups an index answers. -/
inductive Lookup
  | username (v : String)
  | externalId (v : String)
  | email (v : String)
  | id (id : Uuid128)

def lookupOf : Filter → Option Lookup
  | .cmp attr .eq (.string v) =>
      match toAsciiLowercase attr with
      | "username" => some (.username v)
      | "externalid" => some (.externalId v)
      | "emails" => some (.email v)
      | "emails.value" => some (.email v)
      | "id" => (Uuid128.parseStr v).map .id
      | _ => none
  | _ => none

def indexed : Filter → Option Lookup
  | .and a b => (indexed a).or (indexed b)
  | f => lookupOf f

/-! ## Listing -/

def scanLimit : ℕ := 2000

/-- The parameters of a listing. -/
structure PageQuery where
  filter : Option String
  startIndex : ℤ
  count : ℤ

/-- The answer of a listing. -/
structure ListResponse where
  totalResults : ℤ
  startIndex : ℤ
  itemsPerPage : ℤ
  resources : List Value

def window (all : List Value) (q : PageQuery) : List Value :=
  (all.drop (q.startIndex - 1).toNat).take q.count.toNat

def listed (resources : List Value) (total : ℤ) (q : PageQuery) : ListResponse :=
  ⟨total, q.startIndex, resources.length, resources⟩

def pageOf (all : List Value) (total : ℤ) (q : PageQuery) : ListResponse := listed (window all q) total q

/-- What the tenant's database and cache answer with: the users, the groups each is a direct member
of, the row a query with `LIMIT 1` and no order returns, and the cached count of users. -/
structure World where
  rows : Users.Table
  memberOf : Uuid128 → List Group
  limitOne : List User → Option User
  userTotal : ℤ

/-- `ORDER BY created_at, id`. -/
def createdBefore (a b : User) : Bool :=
  a.createdAt < b.createdAt || (a.createdAt == b.createdAt && a.id.toNat ≤ b.id.toNat)

def usersWindow (W : World) (offset limit : ℕ) : List User :=
  (((W.rows.filter User.live).mergeSort createdBefore).drop offset).take limit

def withGroups (S : Service) (W : World) (base : String) (u : User) : Value :=
  userToScim S base u (W.memberOf u.id)

/-- `users::find_by_identifier`. -/
def findByIdentifier (S : Service) (W : World) (identifier : String) : Option User :=
  W.limitOne (Users.identified W.rows (S.toLowercase (trim identifier)))

/-- `repos::users::find_by_external_id`. -/
def findByExternalId (W : World) (externalId : String) : Option User :=
  W.rows.find? fun u => u.live && u.externalId == some externalId

def lookupRow (S : Service) (W : World) : Lookup → Option User
  | .username v => findByIdentifier S W v
  | .email v => findByIdentifier S W v
  | .externalId v => findByExternalId W v
  | .id id => (Users.get W.rows id).toOption

/-- The index branch of `list_users`: the row the lookup finds, checked against the whole filter. -/
def listByIndex (S : Service) (W : World) (base : String) (q : PageQuery) (f : Filter)
    (lookup : Lookup) : ListResponse :=
  let docs := (((lookupRow S W lookup).filter User.live).toList.map (withGroups S W base)).filter
    (f.matches S.forFilters)
  pageOf docs docs.length q

/-- The scanning branch of `list_users`. -/
def listByScan (S : Service) (W : World) (base : String) (q : PageQuery) (f : Filter) :
    ScimResult ListResponse :=
  let rows := usersWindow W 0 (scanLimit + 1)
  if scanLimit < rows.length then
    .error (.bad "tooMany" ("this filter cannot be answered by index and the tenant has more than " ++
      toString scanLimit ++ " users; filter on userName, externalId, emails or id"))
  else
    let docs := (rows.map (withGroups S W base)).filter (f.matches S.forFilters)
    .ok (pageOf docs docs.length q)

/-- `list_users` once its filter is parsed. -/
def listUsersBy (S : Service) (W : World) (base : String) (q : PageQuery) :
    Option Filter → ScimResult ListResponse
  | some f =>
      match indexed f with
      | some lookup => .ok (listByIndex S W base q f lookup)
      | none => listByScan S W base q f
  | none =>
      let rows := usersWindow W (q.startIndex - 1).toNat q.count.toNat
      .ok (listed (rows.map (withGroups S W base)) W.userTotal q)

def listUsers (S : Service) (W : World) (base : String) (q : PageQuery) : ScimResult ListResponse :=
  match q.filter with
  | none => listUsersBy S W base q none
  | some text => do
      let f ← parseFilter S.forFilters text
      listUsersBy S W base q (some f)

/-! ## Replacing -/

/-- The stored attributes with those of the document on top: null removes one. -/
def mergeAttributes (stored incoming : Members) : Members :=
  incoming.foldl (fun out e =>
    if e.2 = .null then out.filter (fun m => m.1 != e.1) else out.insert e.1 e.2) stored

def replacedStatus : Bool → UserStatus → Option UserStatus
  | true, .disabled => some .active
  | false, .active => some .disabled
  | false, .pending => some .disabled
  | _, _ => none

/-- The patch `replace_user` makes of a document's fields. -/
def replacePatch (before : User) (f : UserFields) : UserUpdate :=
  { username := some f.username
    email := some f.email
    phone := some f.phone
    status := replacedStatus f.active before.status
    attributes := some (.object (mergeAttributes ((Users.asObject before.attributes).getD [])
      f.attributes))
    locale := some f.locale
    externalId := some f.externalId }

/-- `replace_user`, by the rows it leaves and the user's new row; writes as `Editor::System` for a
SCIM client. -/
def replaceUser (S : Service) (schema : ProfileSchema) (directory : Users.Directory)
    (rows : Users.Table) (now : Instant) (id : Uuid128) (doc : Value) :
    ScimResult (Users.Table × User) := do
  let before ← (Users.get rows id).mapError .ofApp
  let f ← userFromScim doc schema
  (Users.updateAs S.forUsers schema directory rows now false .system id
    (replacePatch before f)).mapError .ofApp

/-! ## Reading a user's document -/

/-- A member's name, schema and case aside. -/
def ciKey (k : String) : String := toAsciiLowercase (stripSchema k)

lemma findCi_congr (m : Members) {key key' : String} (h : ciKey key = ciKey key') :
    findCi m key = findCi m key' := by
  have hkeys : (fun e : String × Value => eqIgnoreAsciiCase (stripSchema e.1) (stripSchema key)) =
      fun e => eqIgnoreAsciiCase (stripSchema e.1) (stripSchema key') := by
    funext e
    rw [eqIgnoreAsciiCase, eqIgnoreAsciiCase, ← ciKey, ← ciKey, ← ciKey, h]
  rw [findCi, findCi, hkeys]

lemma getCi_congr (v : Value) {key key' : String} (h : ciKey key = ciKey key') :
    getCi v key = getCi v key' := by
  cases v with
  | object m => exact findCi_congr m h
  | _ => rfl

lemma findCi_cons (k : String) (v : Value) (m : Members) (key : String) :
    findCi ((k, v) :: m) key = if ciKey k = ciKey key then some v else findCi m key := by
  have hcond : eqIgnoreAsciiCase (stripSchema k) (stripSchema key) = decide (ciKey k = ciKey key) := by
    rw [eqIgnoreAsciiCase, ← ciKey, ← ciKey, Bool.beq_eq_decide_eq]
  rw [findCi, List.find?_cons, hcond]
  by_cases h : ciKey k = ciKey key
  · simp [h]
  · simp [h, findCi]

lemma findCi_nil (key : String) : findCi [] key = none := rfl

lemma findCi_append (a b : Members) (key : String) :
    findCi (a ++ b) key = (findCi a key).or (findCi b key) := by
  rw [findCi, List.find?_append, Option.map_or]
  rfl

lemma findCi_optMember (k : String) (o : Option Value) (key : String) :
    findCi (optMember k o) key = if ciKey k = ciKey key then o else none := by
  cases o with
  | none => simp [optMember, findCi]
  | some v =>
      rw [optMember, Option.toList_some, List.map_singleton, findCi_cons]
      rfl

lemma ciKey_names : ciKey "schemas" = "schemas" ∧ ciKey "id" = "id" ∧ ciKey "userName" = "username" ∧
    ciKey "active" = "active" ∧ ciKey "meta" = "meta" ∧ ciKey "externalId" = "externalid" ∧
    ciKey "name" = "name" ∧ ciKey "displayName" = "displayname" ∧ ciKey "emails" = "emails" ∧
    ciKey "phoneNumbers" = "phonenumbers" ∧ ciKey "locale" = "locale" ∧ ciKey "groups" = "groups" := by
  decide

section Reading

variable (S : Service) (base : String) (u : User) (memberOf : List Group)

lemma getCi_id : getCi (userToScim S base u memberOf) "id" = some (.string (uuidText u.id)) := by
  simp [userToScim, getCi, userMembers, findCi_cons, ciKey_names]

lemma getCi_userName :
    getCi (userToScim S base u memberOf) "userName" = some (.string u.username) := by
  simp [userToScim, getCi, userMembers, findCi_cons, ciKey_names]

lemma getCi_active :
    getCi (userToScim S base u memberOf) "active" = some (.bool (u.status == .active)) := by
  simp [userToScim, getCi, userMembers, findCi_cons, ciKey_names]

lemma getCi_externalId :
    getCi (userToScim S base u memberOf) "externalId" = u.externalId.map .string := by
  simp [userToScim, getCi, userMembers, findCi_cons, findCi_append, findCi_optMember, ciKey_names]

lemma getCi_name : getCi (userToScim S base u memberOf) "name" =
    nameOf (attr u "given_name") (attr u "family_name") := by
  simp [userToScim, getCi, userMembers, findCi_cons, findCi_append, findCi_optMember, ciKey_names]

lemma getCi_displayName : getCi (userToScim S base u memberOf) "displayName" =
    (attr u "display_name").map .string := by
  simp [userToScim, getCi, userMembers, findCi_cons, findCi_append, findCi_optMember, ciKey_names]

lemma getCi_emails : getCi (userToScim S base u memberOf) "emails" = u.email.map emailsOf := by
  simp [userToScim, getCi, userMembers, findCi_cons, findCi_append, findCi_optMember, ciKey_names]

lemma getCi_phoneNumbers :
    getCi (userToScim S base u memberOf) "phoneNumbers" = u.phone.map phonesOf := by
  simp [userToScim, getCi, userMembers, findCi_cons, findCi_append, findCi_optMember, ciKey_names]

lemma getCi_locale :
    getCi (userToScim S base u memberOf) "locale" = u.locale.map .string := by
  simp [userToScim, getCi, userMembers, findCi_cons, findCi_append, findCi_optMember, ciKey_names]

end Reading

end Ridm.Scim
