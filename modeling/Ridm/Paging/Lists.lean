import Mathlib.Data.String.Basic
import Ridm.Clients.Model
import Ridm.Paging.Cursor
import Ridm.Users.Model

/-!
# The lists of clients and of users

`list_sorted` of `api/src/{services,repos}/{clients,users}.rs`, with `ClientSort` and `UserSort`.  For
most sorts the key that the application puts in a cursor is the value the database orders by.  For
clients by name it is not always: the database lower-cases each character for itself (`lower(name)`),
the application the whole text (`to_lowercase`), and a capital sigma at the end of a word or a dotted
capital I come out different.

`paging_visits_once_iff` is the exact condition for clients by name, and that all other lists are read
in full.  `client_is_skipped` is a list of two clients of which one is never read.
-/

namespace Ridm.Paging

open Keyset (EndsPage)

/-! ## Rows -/

/-- A row of `clients`, as far as lists read it. -/
structure ClientRow where
  id : Uuid128
  tenantId : Uuid128
  clientId : String
  name : String
  clientType : Clients.ClientType
  createdAt : Timestamp
  deriving DecidableEq

/-- A row of `users`, as far as lists read it. -/
structure UserRow where
  id : Uuid128
  tenantId : Uuid128
  orgId : Option Uuid128
  username : String
  email : Option String
  passwordAlgo : Option String
  status : Users.UserStatus
  lastLoginAt : Option Timestamp
  deletedAt : Option Timestamp
  createdAt : Timestamp

/-- The rows of a table, whose ids are its primary key. -/
structure Table (ρ : Type) (id : ρ → Uuid128) where
  rows : List ρ
  primaryKey : (rows.map id).Nodup

lemma Table.filter_nodup {ρ : Type} {id : ρ → Uuid128} (t : Table ρ id) (p : ρ → Bool) :
    ((t.rows.filter p).map id).Nodup :=
  t.primaryKey.sublist (List.filter_sublist.map id)

/-- `ClientType::as_str`. -/
def clientTypeStr : Clients.ClientType → String
  | .spa => "spa"
  | .web => "web"
  | .native => "native"
  | .machine => "machine"
  | .device => "device"
  | .saml => "saml"

/-- `UserStatus::as_str`. -/
def userStatusStr : Users.UserStatus → String
  | .active => "active"
  | .disabled => "disabled"
  | .locked => "locked"
  | .pending => "pending"
  | .deleted => "deleted"

/-! ## Sorts -/

/-- The sorts of the list of clients. -/
inductive ClientSort
  | created
  | name
  | type

/-- The sorts of the list of users. -/
inductive UserSort
  | created
  | username
  | email
  | status
  | lastLogin

/-- `DateTime::UNIX_EPOCH`, and `'epoch'::timestamptz`. -/
def epoch : Timestamp := ⟨0, by decide, by decide, by decide⟩

/-- `lower`: each character for itself. -/
def sqlLower (P : Platform) (s : String) : String := String.ofList (s.toList.map P.lower)

namespace ClientSort

variable (P : Platform)

/-- `expr`, over a row. -/
def expr : ClientSort → ClientRow → SqlKey P
  | .created, c => ofTime P c.createdAt.instant
  | .name, c => ofText P (sqlLower P c.name)
  | .type, c => ofText P (clientTypeStr c.clientType)

def isTime : ClientSort → Bool
  | .created => true
  | _ => false

def key : ClientSort → ClientRow → String
  | .created, c => P.toRfc3339 c.createdAt.instant
  | .name, c => P.toLowercase c.name
  | .type, c => clientTypeStr c.clientType

/-- The sort with its three functions. -/
def sortedBy (sort : ClientSort) : SortedBy P ClientRow := ⟨sort.expr P, sort.key P, sort.isTime⟩

end ClientSort

namespace UserSort

variable (P : Platform)

/-- `expr`, over a row. -/
def expr : UserSort → UserRow → SqlKey P
  | .created, u => ofTime P u.createdAt.instant
  | .username, u => ofText P u.username
  | .email, u => ofText P (u.email.getD "")
  | .status, u => ofText P (userStatusStr u.status)
  | .lastLogin, u => ofTime P (u.lastLoginAt.getD epoch).instant

def isTime : UserSort → Bool
  | .created => true
  | .lastLogin => true
  | _ => false

def key : UserSort → UserRow → String
  | .created, u => P.toRfc3339 u.createdAt.instant
  | .username, u => u.username
  | .email, u => u.email.getD ""
  | .status, u => userStatusStr u.status
  | .lastLogin, u => P.toRfc3339 (u.lastLoginAt.getD epoch).instant

/-- The sort with its three functions. -/
def sortedBy (sort : UserSort) : SortedBy P UserRow := ⟨sort.expr P, sort.key P, sort.isTime⟩

end UserSort

/-! ## Filters -/

/-- `escape_like`, one character. -/
def escapeLikeChar (c : Char) : List Char :=
  if c = '\\' ∨ c = '%' ∨ c = '_' then ['\\', c] else [c]

/-- `escape_like`: the three replacements one after another, which is each character by itself. -/
def escapeLike (s : String) : String := String.ofList (s.toList.flatMap escapeLikeChar)

/-- What is searched for, if anything. -/
def searched (search : Option String) : Option String :=
  (search.map trim).filter fun s => s != ""

/-- The `WHERE` of `repos::clients::list_sorted`. -/
def clientMatches (P : Platform) (tenantId : Uuid128) (search : Option String) (c : ClientRow) : Bool :=
  c.tenantId == tenantId && (searched search).all fun s =>
    P.ilike c.clientId (escapeLike s ++ "%") || P.ilike c.name (escapeLike s ++ "%")

/-- What narrows the list of users. -/
structure UserFilter where
  search : Option String
  status : Option Users.UserStatus
  orgId : Option Uuid128
  passwordAlgo : Option String
  includeDeleted : Bool

/-- The `WHERE` of `repos::users::list_sorted`. -/
def userMatches (P : Platform) (tenantId : Uuid128) (f : UserFilter) (u : UserRow) : Bool :=
  u.tenantId == tenantId && (f.includeDeleted || u.deletedAt.isNone) &&
    f.status.all (fun status => u.status == status) && f.orgId.all (fun org => u.orgId == some org) &&
    f.passwordAlgo.all (fun algo => u.passwordAlgo == some algo) &&
    (searched f.search).all fun s => P.like u.username (escapeLike (P.toLowercase s) ++ "%") ||
      u.email.any fun email => P.like email (escapeLike (P.toLowercase s) ++ "%")

/-! ## The lists -/

section Lists

variable (P : Platform) (clients : Table ClientRow ClientRow.id) (users : Table UserRow UserRow.id)
  (tenantId : Uuid128)

/-- `services::clients::list_sorted`. -/
def listClients (search cursor : Option String) (limit : Option ℕ) (sort : ClientSort) (dir : SortDir) :
    Except AppError (Page ClientRow) :=
  (sort.sortedBy P).listSorted ClientRow.id (clients.rows.filter (clientMatches P tenantId search))
    cursor limit dir

/-- `services::users::list_sorted`. -/
def listUsers (filter : UserFilter) (cursor : Option String) (limit : Option ℕ) (sort : UserSort)
    (dir : SortDir) : Except AppError (Page UserRow) :=
  (sort.sortedBy P).listSorted UserRow.id (users.rows.filter (userMatches P tenantId filter))
    cursor limit dir

/-- The clients that match, in order. -/
def orderedClients (search : Option String) (sort : ClientSort) (dir : SortDir) : List ClientRow :=
  (sort.sortedBy P).ordered ClientRow.id dir (clients.rows.filter (clientMatches P tenantId search))

/-- The users that match, in order. -/
def orderedUsers (filter : UserFilter) (sort : UserSort) (dir : SortDir) : List UserRow :=
  (sort.sortedBy P).ordered UserRow.id dir (users.rows.filter (userMatches P tenantId filter))

end Lists

section Paging

variable {P : Platform} (clients : Table ClientRow ClientRow.id) (users : Table UserRow UserRow.id)

lemma users_cuts (h : P.Laws) (sort : UserSort) {dir : SortDir} {rows : List UserRow} (r : UserRow) :
    Keyset.Cuts ((sort.sortedBy P).place UserRow.id) dir.lt ((sort.sortedBy P).cut UserRow.id)
      ((sort.sortedBy P).ordered UserRow.id dir rows) r := by
  cases sort with
  | created => exact SortedBy.cuts_of_time (t := r.createdAt) h rfl rfl rfl
  | username => exact SortedBy.cuts_of_text rfl rfl
  | email => exact SortedBy.cuts_of_text rfl rfl
  | status => exact SortedBy.cuts_of_text rfl rfl
  | lastLogin => exact SortedBy.cuts_of_time (t := r.lastLoginAt.getD epoch) h rfl rfl rfl

/-- So does the list of clients, but for the sort by name: there it is the name in lower case by the
application's rules. -/
lemma clients_cuts_iff (h : P.Laws) (sort : ClientSort) {dir : SortDir} {rows : List ClientRow}
    (r : ClientRow) :
    Keyset.Cuts ((sort.sortedBy P).place ClientRow.id) dir.lt ((sort.sortedBy P).cut ClientRow.id)
        ((sort.sortedBy P).ordered ClientRow.id dir rows) r ↔
      (sort = .name → ∀ x ∈ (sort.sortedBy P).ordered ClientRow.id dir rows,
        dir.lt (position (ofText P (P.toLowercase r.name)) r.id) ((sort.sortedBy P).place ClientRow.id x) ↔
          dir.lt (position (ofText P (sqlLower P r.name)) r.id)
            ((sort.sortedBy P).place ClientRow.id x)) := by
  cases sort with
  | created =>
      exact iff_of_true (SortedBy.cuts_of_time (t := r.createdAt) h rfl rfl rfl) nofun
  | type => exact iff_of_true (SortedBy.cuts_of_text rfl rfl) nofun
  | name =>
      constructor
      · rintro ⟨b, hb, hcuts⟩ -
        obtain rfl := Option.some.inj hb
        exact hcuts
      · exact fun hcuts => ⟨_, rfl, hcuts rfl⟩

/-- **Every row once.**  Following the cursors from the first page to the last gives all users that
match, each once and in order, whatever the sort, the direction and the page size; and all clients that
match, except that by name this is so exactly if, for each client that ends a page with more behind it,
the clients after its name in the application's lower case are those after it in the database's. -/
theorem paging_visits_once_iff (h : P.Laws) (tenantId : Uuid128) (limit : Option ℕ) (dir : SortDir) :
    (∀ (search : Option String) (sort : ClientSort),
      (∃ fuel, followPages (fun cursor => listClients P clients tenantId search cursor limit sort dir)
          fuel none = some (orderedClients P clients tenantId search sort dir)) ↔
        (sort = .name → ∀ r, EndsPage (pageSize limit) (orderedClients P clients tenantId search sort dir) r →
          ∀ x ∈ orderedClients P clients tenantId search sort dir,
            dir.lt (position (ofText P (P.toLowercase r.name)) r.id)
                (position (ofText P (sqlLower P x.name)) x.id) ↔
              dir.lt (position (ofText P (sqlLower P r.name)) r.id)
                (position (ofText P (sqlLower P x.name)) x.id))) ∧
      ∀ (filter : UserFilter) (sort : UserSort),
        ∃ fuel, followPages (fun cursor => listUsers P users tenantId filter cursor limit sort dir)
          fuel none = some (orderedUsers P users tenantId filter sort dir) := by
  constructor
  · intro search sort
    have hids := clients.filter_nodup (clientMatches P tenantId search)
    refine (SortedBy.followPages_iff h hids limit).trans ?_
    simp only [clients_cuts_iff h]
    constructor
    · rintro hcuts rfl r hr x hx
      exact hcuts r hr rfl x hx
    · rintro hcuts r hr rfl x hx
      exact hcuts rfl r hr x hx
  · intro filter sort
    have hids := users.filter_nodup (userMatches P tenantId filter)
    exact (SortedBy.followPages_iff h hids limit).mpr fun r _ => users_cuts h sort r

end Paging

/-! ## A client that is skipped -/

def sampleLower (c : Char) : Char := if c = 'İ' then 'i' else c.toLower

def sampleLowercase (s : String) : String :=
  String.ofList (s.toList.flatMap fun c => if c = 'İ' then ['i', Char.ofNat 0x307] else [c.toLower])

noncomputable def readCursor (bytes : List UInt8) : Option SortCursor :=
  open Classical in if h : ∃ c, SortCursor.toVec c = bytes then some h.choose else none

def yearZero : ℤ := seconds (-62167219200)

noncomputable def samplePlatform : Platform where
  collation := inferInstance
  lower := sampleLower
  like text pattern := pattern.toList.dropLast.isPrefixOf text.toList
  ilike text pattern :=
    (toAsciiLowercase pattern).toList.dropLast.isPrefixOf (toAsciiLowercase text).toList
  toLowercase := sampleLowercase
  toRfc3339 t := String.ofList (hexFixed 20 (t - yearZero).toNat)
  parseFromRfc3339 s := (Uuid128.parseHex 0 s.toList).map fun n : ℕ => (n : ℤ) + yearZero
  fromSlice := readCursor

lemma samplePlatform_laws : samplePlatform.Laws where
  readsTime t := by
    have hlow : 0 ≤ t.instant - yearZero := Int.sub_nonneg.mpr t.notBefore
    have hhigh : t.instant - yearZero < seconds 253402300800 - yearZero := Int.sub_lt_sub_right t.before _
    have hnat : ((t.instant - yearZero).toNat : ℤ) = t.instant - yearZero := Int.toNat_of_nonneg hlow
    have hlt : (t.instant - yearZero).toNat < 16 ^ 20 := by
      have hwidth : (16 : ℕ) ^ 20 = 1208925819614629174706176 := by norm_num
      have hbound : seconds 253402300800 - yearZero < 1208925819614629174706176 := by decide
      have hcast : ((t.instant - yearZero).toNat : ℤ) < 1208925819614629174706176 := by
        rw [hnat]
        exact Int.lt_trans hhigh hbound
      rw [hwidth]
      exact_mod_cast hcast
    simp only [samplePlatform, String.toList_ofList]
    rw [Uuid128.parseHex_hexFixed 20 0 _ hlt, Option.map_some, Nat.mul_zero, Nat.zero_add, hnat,
      Int.sub_add_cancel]
  readsCursor c := by
    have hwritten : ∃ c', SortCursor.toVec c' = c.toVec := ⟨c, rfl⟩
    show readCursor c.toVec = some c
    rw [readCursor, dif_pos hwritten]
    exact congrArg some (SortCursor.toVec_inj hwritten.choose_spec)

def sampleClients : Table ClientRow ClientRow.id where
  rows := [⟨1, 7, "a", "İ", .web, epoch⟩, ⟨2, 7, "b", "I", .web, epoch⟩]
  primaryKey := by decide

def sampleUsers : Table UserRow UserRow.id where
  rows := [⟨1, 7, none, "ada", none, none, .active, none, none, epoch⟩,
    ⟨2, 7, none, "bob", some "bob@example.com", none, .active, none, none, epoch⟩]
  primaryKey := by decide

/-- Clients by type and users by email, one on a page. -/
theorem paging_visits_samples :
    (∃ fuel, followPages (fun cursor => listClients samplePlatform sampleClients 7 none cursor (some 1)
        .type .desc) fuel none = some (orderedClients samplePlatform sampleClients 7 none .type .desc)) ∧
      ∃ fuel, followPages (fun cursor => listUsers samplePlatform sampleUsers 7 ⟨none, none, none, none, false⟩
        cursor (some 1) .email .desc) fuel none =
          some (orderedUsers samplePlatform sampleUsers 7 ⟨none, none, none, none, false⟩ .email .desc) := by
  have hpaging := paging_visits_once_iff sampleClients sampleUsers samplePlatform_laws 7 (some 1) .desc
  exact ⟨(hpaging.1 none .type).mpr nofun, hpaging.2 _ .email⟩

lemma sampleClients_ordered :
    orderedClients samplePlatform sampleClients 7 none .name .asc = sampleClients.rows := by
  decide

/-- **A client is skipped.**  Of two clients, one on a page, the second is never read: the cursor of the
first has its name in the application's lower case, which comes after both. -/
theorem client_is_skipped : ¬ ∃ fuel, followPages
    (fun cursor => listClients samplePlatform sampleClients 7 none cursor (some 1) .name .asc) fuel none =
      some (orderedClients samplePlatform sampleClients 7 none .name .asc) := by
  intro hread
  have hids := sampleClients.filter_nodup (clientMatches samplePlatform 7 none)
  have hcuts := (SortedBy.followPages_iff samplePlatform_laws hids (some 1)).mp hread
  have hends : EndsPage (pageSize (some 1))
      (orderedClients samplePlatform sampleClients 7 none .name .asc) ⟨1, 7, "a", "İ", .web, epoch⟩ := by
    rw [sampleClients_ordered]
    exact ⟨[], _, rfl, List.cons_ne_nil _ _, by decide⟩
  have hmem : ⟨2, 7, "b", "I", .web, epoch⟩ ∈
      orderedClients samplePlatform sampleClients 7 none .name .asc := by
    rw [sampleClients_ordered]
    decide
  have hsame := (clients_cuts_iff samplePlatform_laws .name _).mp (hcuts _ hends) rfl _ hmem
  exact absurd (hsame.mpr (by decide)) (by decide)

end Ridm.Paging
