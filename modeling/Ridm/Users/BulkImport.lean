import Ridm.Roles.Directory
import Ridm.Users.Identifiers

/-!
# Importing users in bulk

`import` of `api/src/services/bulk_users.rs`: every row is checked first, in order, then the rows that
passed are imported several at a time (`importCalls`), each by a few transactions of its own.  A dry
run makes the same checks and, for each row that passed them, looks its username and email up among
the users there are (`dryRun`).

What the checks leave is in `checkRows_passed` and `checkRows_pairwise`: the rows that pass are well
formed, and no two of them share a username or email.  `dryRun_fails` says which rows a dry run reports.
-/

namespace Ridm.Users.BulkImport

/-! ## What is around it -/

/-- The rules of the tenant's `PasswordPolicy` that `check_policy` reads. -/
structure PasswordRules where
  minLength : ℕ := 8
  maxLength : ℕ := 128
  requireUppercase : Bool := false
  requireLowercase : Bool := false
  requireDigit : Bool := false
  requireSymbol : Bool := false

/-- The Unicode classes `check_policy` asks for. -/
structure CharClasses where
  isUppercase : Char → Bool
  isLowercase : Char → Bool
  isAlphanumeric : Char → Bool

/-- What PostgreSQL can hold (no text has U+0000), and its `lower`. -/
structure Postgres where
  holdsText : String → Bool
  holdsJson : Value → Bool
  lower : String → String

/-- The types of the columns of `users`, and the checks `users_username_format` and
`users_email_lower`. -/
def Postgres.holds (db : Postgres) (username : String) (email phone locale : Option String)
    (attributes : Value) : Bool :=
  (username :: email.toList ++ phone.toList ++ locale.toList).all db.holdsText &&
    db.holdsJson attributes && db.lower username == username && 1 ≤ username.toList.length &&
    username.toList.length ≤ 255 && email.all fun e => db.lower e == e

/-- The tenant, the importer and the build. -/
structure Env where
  platform : Platform
  classes : CharClasses
  db : Postgres
  schema : ProfileSchema
  rules : PasswordRules
  directory : Roles.Directory
  /-- `roles::list`, of the roles of the tenant itself. -/
  roleList : List (String × Uuid)
  roleListKey : ∀ r ∈ roleList, directory.hasRole r.2 = true
  canGrant : List String → Except AppError Unit
  fips : Bool
  fipsTransition : Bool
  hash : String → ℕ → String
  asks : Directory
  /-- The id `Uuid::now_v7` gives the user of a row. -/
  ids : ℕ → Uuid128

/-! ## Rows -/

/-- One row of an import. -/
structure ImportRow where
  username : String
  email : Option String := none
  emailVerified : Bool := false
  phone : Option String := none
  phoneVerified : Bool := false
  locale : Option String := none
  status : Option UserStatus := none
  attributes : Option Value := none
  roles : List String := []
  groups : List String := []
  password : Option String := none
  passwordHash : Option String := none
  mustChangePassword : Bool := false

/-- The user `import_one` asks for. -/
def ImportRow.newUser (row : ImportRow) : NewUser where
  username := row.username
  email := row.email
  emailVerified := row.emailVerified
  phone := row.phone
  phoneVerified := row.phoneVerified
  status := row.status
  attributes := row.attributes
  locale := row.locale

/-- `check_policy`, for no user in particular. -/
def checkPolicy (classes : CharClasses) (rules : PasswordRules) (password : String) : List String :=
  let len := password.toList.length % 2 ^ 32
  let chars := password.toList
  (if len < rules.minLength then ["must be at least " ++ toString rules.minLength ++ " characters"]
    else []) ++
  (if rules.maxLength < len then ["must be at most " ++ toString rules.maxLength ++ " characters"]
    else []) ++
  (if rules.requireUppercase && !chars.any classes.isUppercase then
    ["must contain an uppercase letter"] else []) ++
  (if rules.requireLowercase && !chars.any classes.isLowercase then
    ["must contain a lowercase letter"] else []) ++
  (if rules.requireDigit && !chars.any isAsciiDigit then ["must contain a digit"] else []) ++
  (if rules.requireSymbol && !chars.any (fun c => !classes.isAlphanumeric c && !isWhitespace c) then
    ["must contain a symbol"] else [])

def startsWith (s start : String) : Bool := (stripPrefix s start).isSome

def algorithmOf (stored : String) : String :=
  if startsWith stored "$argon2id$" then "argon2id"
  else if startsWith stored "$argon2i$" then "argon2i"
  else if startsWith stored "$argon2d$" then "argon2d"
  else if startsWith stored "$2a$" || startsWith stored "$2b$" || startsWith stored "$2y$" then "bcrypt"
  else if startsWith stored "$pbkdf2-sha256$" || startsWith stored "pbkdf2_sha256$" then "pbkdf2-sha256"
  else if startsWith stored "$pbkdf2-sha512$" || startsWith stored "pbkdf2_sha512$" then "pbkdf2-sha512"
  else if startsWith stored "$sha256$" then "sha256"
  else if startsWith stored "$sha512$" then "sha512"
  else if startsWith stored "$md5$" then "md5"
  else "unknown"

def isApproved (stored : String) : Bool :=
  ["$pbkdf2-sha256$", "$pbkdf2-sha512$", "pbkdf2_sha256$", "pbkdf2_sha512$"].any (startsWith stored ·)

/-! ## The checks -/

/-- A `HashMap` from names, collected from a list: later entries win. -/
def nameMap (entries : List (String × Uuid)) (name : String) : Option Uuid := entries.reverse.lookup name

/-- The order of `groups::list`. -/
def groupOrder (g h : Roles.Group) : Prop := g.name < h.name ∨ g.name = h.name ∧ g.id ≤ h.id

instance : DecidableRel groupOrder := fun _ _ => inferInstanceAs (Decidable (_ ∨ _))

section

variable (E : Env)

/-- `lookups.roles`. -/
def Env.roles : String → Option Uuid := nameMap E.roleList

/-- `lookups.groups`. -/
def Env.groups : String → Option Uuid :=
  nameMap ((E.directory.groups.insertionSort groupOrder).map fun g => (g.name, g.id))

/-- The first name that is not known. -/
def checkNames (what : String) (known : String → Option Uuid) (names : List String) : Except AppError Unit :=
  match names.find? fun n => (known n).isNone with
  | some n => .error (.badRequest ("unknown " ++ what ++ " `" ++ n ++ "`"))
  | none => .ok ()

def validate (row : ImportRow) : Except AppError Unit := do
  let _ ← normalizeUsername E.platform row.username
  let _ ← normalizeOpt (normalizeEmail E.platform) row.email
  let _ ← normalizeOpt normalizePhone row.phone
  require (.badRequest "send either password or password_hash")
    !(row.password.isSome && row.passwordHash.isSome)
  let problems := (row.password.map (checkPolicy E.classes E.rules)).getD []
  require (.badRequest ("password: " ++ "; ".intercalate problems)) problems.isEmpty
  require (.badRequest "password_hash: unsupported hash format")
    (row.passwordHash.all fun h => algorithmOf h != "unknown")
  require (.badRequest "status must be active, disabled or pending")
    (row.status != some .locked && row.status != some .deleted)
  checkNames "role" E.roles row.roles
  checkNames "group" E.groups row.groups

/-- `check_grants`: what the roles and the groups of a row permit (`granted` looks each of them up once)
is for the importer to grant. -/
def checkGrants (row : ImportRow) : Except AppError Unit :=
  E.canGrant
    ((row.roles.filterMap fun r => (E.roles r).map fun i => E.directory.permissionsOfGrant (.role i)) ++
      row.groups.filterMap fun g =>
        (E.groups g).map fun i => E.directory.permissionsOfGrant (.group i)).flatten

/-- The username of a row, as it is stored. -/
def storedUsername (row : ImportRow) : Option String :=
  (normalizeUsername E.platform row.username).toOption

/-- The email of a row, as it is stored. -/
def storedEmail (row : ImportRow) : Option String :=
  row.email.bind fun e => (normalizeEmail E.platform e).toOption

def identifiersOf (row : ImportRow) : List String :=
  (storedUsername E row).toList ++ (storedEmail E row).toList

/-- The usernames and emails that rows have claimed, each with its row. -/
abbrev Claims := List (String × ℕ)

def claim (claimed : Claims) (i : ℕ) (row : ImportRow) : Except AppError Claims :=
  match (identifiersOf E row).findSome? fun x => claimed.lookup x with
  | some earlier =>
      .error (.conflict ("username or email already used by row " ++ toString (earlier + 1)))
  | none => .ok ((identifiersOf E row).map (·, i) ++ claimed)

/-- `AppError`'s `Display`, as far as `row_error` leaves it to it. -/
def otherText : AppError → String
  | .unauthorized => "authentication required"
  | .reauthenticationRequired mfa =>
      "sign in again" ++ (if mfa then " with your second step" else "") ++ " to change security settings"
  | .impersonationForbidden => "this cannot be done while impersonating a user"
  | .notFound what => what ++ " not found"
  | .rateLimited _ => "rate limit exceeded"
  | .unavailable detail => "service unavailable: " ++ detail
  | .database => "database error"
  | .cache _ => "cache error"
  | .internal detail => "internal error: " ++ detail
  | .badRequest detail | .conflict detail | .forbidden detail => detail
  | .validation _ => "validation failed"

def rowError : AppError → String
  | .badRequest d | .conflict d | .forbidden d => d
  | .validation fields => "; ".intercalate (fields.map fun f => f.field ++ ": " ++ f.message)
  | other => otherText other

/-- A row after the checks, with the username it came with. -/
structure Checked where
  username : Option String
  row : Except String ImportRow

def checkRow (claimed : Claims) (i : ℕ) (row : ImportRow) : Except AppError Claims := do
  validate E row
  checkGrants E row
  claim E claimed i row

/-- The checks of the rows from the `i`-th on. -/
def checkRows : ℕ → Claims → List ImportRow → List Checked × Claims
  | _, claimed, [] => ([], claimed)
  | i, claimed, row :: rows =>
      let username := some row.username |>.filter fun u => !u.isEmpty
      match checkRow E claimed i row with
      | .ok claimed' =>
          let r := checkRows (i + 1) claimed' rows
          (⟨username, .ok row⟩ :: r.1, r.2)
      | .error e =>
          let r := checkRows (i + 1) claimed rows
          (⟨username, .error (rowError e)⟩ :: r.1, r.2)

/-- `checked` of `import`. -/
def checkAll (rows : List ImportRow) : List Checked := (checkRows E 0 [] rows).1

end

/-! ## Reports -/

/-- A row that failed and why. -/
structure ImportError where
  row : ℕ
  username : Option String
  error : String

/-- What an import answers. -/
structure ImportReport where
  dryRun : Bool
  total : ℕ
  created : ℕ
  failed : ℕ
  errors : List ImportError

/-- The errors among the outcomes, from the `i`-th row on. -/
def errorsFrom : ℕ → List (Checked × Except String Unit) → List ImportError
  | _, [] => []
  | i, (_, .ok ()) :: rest => errorsFrom (i + 1) rest
  | i, (c, .error e) :: rest => ⟨i + 1, c.username, e⟩ :: errorsFrom (i + 1) rest

/-- What `import` reports of the outcomes. -/
def report (dryRun : Bool) (checked : List Checked) (outcomes : List (Except String Unit)) :
    ImportReport where
  dryRun := dryRun
  total := checked.length
  created := (outcomes.filter fun o => o.toOption.isSome).length
  failed := (errorsFrom 0 (checked.zip outcomes)).length
  errors := errorsFrom 0 (checked.zip outcomes)

def ImportReport.failedRows (r : ImportReport) : List ℕ := r.errors.map ImportError.row

/-! ## The dry run -/

section

variable (E : Env) (users : Table)

def takenIdentifiers (identifiers : List String) : List String :=
  identifiers.filter fun x => users.any (·.answersTo x)

/-- `import_checked` on a dry run. -/
def lookUp (taken : List String) (c : Checked) : Except String Unit :=
  match c.row with
  | .error e => .error e
  | .ok row =>
      if (identifiersOf E row).any taken.contains then .error "username or email already in use"
      else .ok ()

/-- `import` with `dry_run`. -/
def dryRun (rows : List ImportRow) : ImportReport :=
  let r := checkRows E 0 [] rows
  let taken := takenIdentifiers users (r.2.map Prod.fst)
  report true r.1 (r.1.map (lookUp E taken))

end

/-! ## The import -/

/-- What an import writes: users with their passwords, assignments of roles to users, and members of
groups. -/
structure Store where
  users : Table
  assignments : List (Uuid × Uuid128)
  members : List (Uuid × Uuid128)

/-- What the hasher draws in a transaction, and its time. -/
structure Draw where
  salt : ℕ := 0
  now : Instant := 0

/-- Where a row stands. -/
inductive Pc
  | waiting (row : ImportRow)
  | created (row : ImportRow) (user : Uuid128)
  | hashed (row : ImportRow) (user : Uuid128)
  | granting (roles groups : List String) (user : Uuid128)
  | imported
  | refused (error : String)
  | broken (error : String)

section

variable (E : Env)

/-- `users::create_as`, in which the database also refuses what its columns cannot hold. -/
def createUser (users : Table) (i : ℕ) (now : Instant) (row : ImportRow) :
    Except AppError (Table × User) := do
  let (_, u) ← createAs E.platform E.schema [] (E.ids i) now .system row.newUser
  require .database (E.db.holds u.username u.email u.phone u.locale u.attributes)
  let users ← insert users u
  .ok (users, u)

/-- `repos::users::set_password`. -/
def storePassword (users : Table) (user : Uuid128) (hash : String) (mustChange : Bool) (now : Instant) :
    Table :=
  users.map fun u =>
    if u.id = user ∧ u.live then
      { u with passwordHash := some hash, mustChangePassword := mustChange, updatedAt := now }
    else u

/-- `import_hash`.  No directory keeps the password of a user that was just made. -/
def importHash (users : Table) (user : Uuid128) (hash : String) (now : Instant) : Except AppError Table := do
  require (.badRequest "unsupported password hash format") (algorithmOf hash != "unknown")
  require (.badRequest ("the FIPS build imports " ++ algorithmOf hash ++
      " password hashes only with FIPS_TRANSITION=true (PBKDF2 hashes import as they are)"))
    !(E.fips && !E.fipsTransition && !isApproved hash)
  require .database (E.db.holdsText hash)
  let _ ← get users user
  .ok (storePassword users user hash false now)

/-- `set_password` with `skip_policy`, of a user without a password. -/
def setPassword (users : Table) (user : Uuid128) (password : String) (mustChange : Bool) (k : Draw) :
    Except AppError Table := do
  let _ ← get users user
  .ok (storePassword users user (E.hash password k.salt) mustChange k.now)

/-- `users::update` of the one column. -/
def forceChange (users : Table) (user : Uuid128) (now : Instant) : Except AppError Table :=
  (updateAs E.platform E.schema E.asks users now false .admin user
    { mustChangePassword := some true }).map Prod.fst

/-- `INSERT .. ON CONFLICT DO NOTHING`. -/
def addRow (rows : List (Uuid × Uuid128)) (row : Uuid × Uuid128) : List (Uuid × Uuid128) :=
  if row ∈ rows then rows else rows ++ [row]

/-- `roles::assign`.  A name that is not known would stop the program. -/
def assign (g : Store) (role : String) (user : Uuid128) : Except AppError Store := do
  let role ← orError (.internal "no entry found for key") (E.roles role)
  require (.notFound "role") (E.directory.hasRole role)
  let _ ← get g.users user
  .ok { g with assignments := addRow g.assignments (role, user) }

/-- `groups::add_member`. -/
def addMember (g : Store) (group : String) (user : Uuid128) : Except AppError Store := do
  let group ← orError (.internal "no entry found for key") (E.groups group)
  require (.notFound "group") (E.directory.findGroup group).isSome
  let _ ← get g.users user
  .ok { g with members := addRow g.members (group, user) }

/-- A transaction after `create_as`: it commits and the row goes on, or the row fails. -/
def goOn (g : Store) (next : Pc) : Except AppError Store → Store × Pc
  | .ok g' => (g', next)
  | .error e => (g, .broken (rowError e))

/-- The next transaction of the row `i`: `import_one`. -/
def act (i : ℕ) (g : Store) (k : Draw) : Pc → Option (Store × Pc)
  | .waiting row =>
      match createUser E g.users i k.now row with
      | .ok (users, u) => some ({ g with users := users }, .created row u.id)
      | .error e => some (g, .refused (rowError e))
  | .created row user =>
      match row.passwordHash, row.password with
      | some h, _ =>
          some (goOn g (if row.mustChangePassword then .hashed row user
              else .granting row.roles row.groups user)
            ((importHash E g.users user h k.now).map fun users => { g with users := users }))
      | none, some p =>
          some (goOn g (.granting row.roles row.groups user)
            ((setPassword E g.users user p row.mustChangePassword k).map fun users =>
              { g with users := users }))
      | none, none => some (g, .granting row.roles row.groups user)
  | .hashed row user =>
      some (goOn g (.granting row.roles row.groups user)
        ((forceChange E g.users user k.now).map fun users => { g with users := users }))
  | .granting (r :: roles) groups user => some (goOn g (.granting roles groups user) (assign E g r user))
  | .granting [] (x :: groups) user => some (goOn g (.granting [] groups user) (addMember E g x user))
  | .granting [] [] _ => some (g, .imported)
  | .imported | .refused _ | .broken _ => none

/-- The rows side by side. -/
def importCalls (n : ℕ) : Calls (Fin n) Store Pc Draw Empty where
  act i g l k := act E i g k l
  env _ e := e.elim

end

/-- Where a row stands after the checks. -/
def Checked.start (c : Checked) : Pc :=
  match c.row with
  | .ok row => .waiting row
  | .error e => .refused e

/-- The pool of `import_checked` calls. -/
def start (checked : List Checked) (s : Store) : Pool (Fin checked.length) Store Pc :=
  ⟨s, fun i => (checked.get i).start⟩

/-- The call of a row has returned. -/
def Pc.finished : Pc → Bool
  | .imported | .refused _ | .broken _ => true
  | _ => false

/-- What it has returned. -/
def Pc.outcome : Pc → Except String Unit
  | .refused e | .broken e => .error e
  | _ => .ok ()

/-- What `import` reports when all have returned. -/
def realReport {checked : List Checked} (w : Pool (Fin checked.length) Store Pc) : ImportReport :=
  report false checked (List.ofFn fun i => (w.calls i).outcome)

/-! ## What the checks leave -/

section

variable {E : Env} {row : ImportRow} {claimed claimed' : Claims} {i : ℕ}

lemma validate_ok (h : validate E row = .ok ()) :
    (∃ x, normalizeUsername E.platform row.username = .ok x ∧ storedUsername E row = some x) ∧
      normalizeOpt (normalizeEmail E.platform) row.email = .ok (storedEmail E row) ∧
      ∃ phone, normalizeOpt normalizePhone row.phone = .ok phone := by
  simp only [validate, bind_eq_ok] at h
  obtain ⟨x, hx, email, hemail, phone, hphone, -⟩ := h
  refine ⟨⟨x, hx, by rw [storedUsername, hx]; rfl⟩, ?_, phone, hphone⟩
  rw [hemail, storedEmail]
  cases hraw : row.email with
  | none =>
      rw [hraw, normalizeOpt] at hemail
      exact congrArg _ (Except.ok.inj hemail).symm
  | some raw =>
      rw [hraw, normalizeOpt_some] at hemail
      obtain ⟨e, he, rfl⟩ := hemail
      rw [Option.bind_some, he]
      rfl

lemma mem_identifiersOf {x : String} :
    x ∈ identifiersOf E row ↔ storedUsername E row = some x ∨ storedEmail E row = some x := by
  simp [identifiersOf]

lemma validate_names (h : validate E row = .ok ()) :
    (∀ r ∈ row.roles, (E.roles r).isSome) ∧ ∀ g ∈ row.groups, (E.groups g).isSome := by
  have hknown : ∀ {what known names}, checkNames what known names = .ok () →
      ∀ n ∈ names, (known n).isSome := by
    intro what known names h n hn
    rw [checkNames] at h
    cases hfind : names.find? fun n => (known n).isNone with
    | some m =>
        rw [hfind] at h
        cases h
    | none => simpa [Option.isSome_iff_ne_none] using List.find?_eq_none.mp hfind n hn
  simp only [validate, bind_eq_ok] at h
  obtain ⟨-, -, -, -, -, -, -, -, -, -, -, -, -, -, _, hroles, hgroups⟩ := h
  exact ⟨hknown hroles, hknown hgroups⟩

lemma lookup_eq_none {x : String} : claimed.lookup x = none ↔ x ∉ claimed.map Prod.fst := by
  induction claimed with
  | nil => simp
  | cons c claimed ih =>
      rw [List.lookup_cons, List.map_cons, List.mem_cons, not_or, ← ih]
      by_cases hx : x = c.1
      · simp [hx]
      · rw [beq_false_of_ne hx]
        exact (and_iff_right hx).symm

lemma checkRow_ok : checkRow E claimed i row = .ok claimed' ↔
    validate E row = .ok () ∧ checkGrants E row = .ok () ∧
      (∀ x ∈ identifiersOf E row, x ∉ claimed.map Prod.fst) ∧
      claimed' = (identifiersOf E row).map (·, i) ++ claimed := by
  simp only [checkRow, bind_eq_ok, claim]
  constructor
  · rintro ⟨_, hvalid, _, hgrants, h⟩
    cases hfind : (identifiersOf E row).findSome? fun x => claimed.lookup x with
    | some earlier =>
        rw [hfind] at h
        cases h
    | none =>
        rw [hfind] at h
        refine ⟨hvalid, hgrants, fun x hx => lookup_eq_none.mp ?_, (Except.ok.inj h).symm⟩
        exact List.findSome?_eq_none_iff.mp hfind x hx
  · rintro ⟨hvalid, hgrants, hfree, rfl⟩
    have hfind : (identifiersOf E row).findSome? (fun x => claimed.lookup x) = none :=
      List.findSome?_eq_none_iff.mpr fun x hx => lookup_eq_none.mpr (hfree x hx)
    refine ⟨(), hvalid, (), hgrants, ?_⟩
    rw [hfind]

lemma mem_claimed {x : String} : x ∈ (((identifiersOf E row).map (·, i)) ++ claimed).map Prod.fst ↔
    x ∈ identifiersOf E row ∨ x ∈ claimed.map Prod.fst := by
  simp [List.map_append, Function.comp_def]

lemma checkRows_cons (E : Env) (i : ℕ) (claimed : Claims) (row : ImportRow) (rows : List ImportRow) :
    (∃ username claimed', checkRow E claimed i row = .ok claimed' ∧
      checkRows E i claimed (row :: rows) =
        (⟨username, .ok row⟩ :: (checkRows E (i + 1) claimed' rows).1,
          (checkRows E (i + 1) claimed' rows).2)) ∨
    ∃ username e, checkRow E claimed i row = .error e ∧
      checkRows E i claimed (row :: rows) =
        (⟨username, .error (rowError e)⟩ :: (checkRows E (i + 1) claimed rows).1,
          (checkRows E (i + 1) claimed rows).2) := by
  rw [checkRows]
  cases hrow : checkRow E claimed i row with
  | ok claimed' => exact .inl ⟨_, claimed', rfl, rfl⟩
  | error e => exact .inr ⟨_, e, rfl, rfl⟩

variable {rows : List ImportRow}

@[simp] lemma length_checkRows : (checkRows E i claimed rows).1.length = rows.length := by
  induction rows generalizing i claimed with
  | nil => rfl
  | cons row rows ih =>
      rcases checkRows_cons E i claimed row rows with
        ⟨username, claimed', -, heq⟩ | ⟨username, e, -, heq⟩
      · rw [heq, List.length_cons, ih, List.length_cons]
      · rw [heq, List.length_cons, ih, List.length_cons]

@[simp] lemma length_checkAll : (checkAll E rows).length = rows.length :=
  length_checkRows

/-- **What passes the checks** is well formed, within what the importer may grant, and has a username
and an email that nobody had claimed before. -/
lemma checkRows_passed {c : Checked} (hc : c ∈ (checkRows E i claimed rows).1)
    (hrow : c.row = .ok row) :
    validate E row = .ok () ∧ checkGrants E row = .ok () ∧
      ∀ x ∈ identifiersOf E row, x ∉ claimed.map Prod.fst := by
  induction rows generalizing i claimed with
  | nil => cases hc
  | cons first rows ih =>
      rcases checkRows_cons E i claimed first rows with
        ⟨username, claimed', hfirst, heq⟩ | ⟨username, e, hfirst, heq⟩
      · obtain ⟨hvalid, hgrants, hfree, rfl⟩ := checkRow_ok.mp hfirst
        rw [heq, List.mem_cons] at hc
        rcases hc with rfl | hc
        · cases hrow
          exact ⟨hvalid, hgrants, hfree⟩
        · obtain ⟨hvalid', hgrants', hfree'⟩ := ih hc
          refine ⟨hvalid', hgrants', fun x hx hmem => hfree' x hx ?_⟩
          exact mem_claimed.mpr (.inr hmem)
      · rw [heq, List.mem_cons] at hc
        rcases hc with rfl | hc
        · cases hrow
        · exact ih hc

/-- **Rows that pass the checks share no username or email.** -/
lemma checkRows_pairwise (E : Env) (i : ℕ) (claimed : Claims) (rows : List ImportRow) :
    (checkRows E i claimed rows).1.Pairwise fun c d => ∀ row row', c.row = .ok row → d.row = .ok row' →
      ∀ x ∈ identifiersOf E row, x ∉ identifiersOf E row' := by
  induction rows generalizing i claimed with
  | nil => exact List.Pairwise.nil
  | cons first rows ih =>
      rcases checkRows_cons E i claimed first rows with
        ⟨username, claimed', hfirst, heq⟩ | ⟨username, e, hfirst, heq⟩
      · obtain ⟨-, -, -, rfl⟩ := checkRow_ok.mp hfirst
        rw [heq]
        refine List.pairwise_cons.mpr ⟨fun d hd row row' hrow hrow' x hx hx' => ?_, ih _ _⟩
        cases hrow
        exact (checkRows_passed hd hrow').2.2 x hx' (mem_claimed.mpr (.inl hx))
      · rw [heq]
        refine List.pairwise_cons.mpr ⟨fun d _ row row' hrow => ?_, ih _ _⟩
        cases hrow

lemma mem_checkRows_claimed {x : String} :
    x ∈ (checkRows E i claimed rows).2.map Prod.fst ↔ x ∈ claimed.map Prod.fst ∨
      ∃ c ∈ (checkRows E i claimed rows).1, ∃ row, c.row = .ok row ∧ x ∈ identifiersOf E row := by
  induction rows generalizing i claimed with
  | nil => simp [checkRows]
  | cons first rows ih =>
      rcases checkRows_cons E i claimed first rows with
        ⟨username, claimed', hfirst, heq⟩ | ⟨username, e, hfirst, heq⟩
      · obtain ⟨-, -, -, rfl⟩ := checkRow_ok.mp hfirst
        rw [heq, ih, mem_claimed, List.exists_mem_cons_iff]
        simp only [Except.ok.injEq, exists_eq_left']
        tauto
      · rw [heq, ih, List.exists_mem_cons_iff]
        simp

end

/-! ## What is reported -/

section

variable {checked : List Checked} {outcomes : List (Except String Unit)}

lemma mem_errorsFrom {i n : ℕ} {l : List (Checked × Except String Unit)} :
    n ∈ (errorsFrom i l).map ImportError.row ↔ ∃ j c e, l[j]? = some (c, .error e) ∧ n = i + j + 1 := by
  induction l generalizing i with
  | nil => simp [errorsFrom]
  | cons p l ih =>
      have hshift : (∃ j c e, l[j]? = some (c, Except.error e) ∧ n = i + 1 + j + 1) ↔
          ∃ j c e, (p :: l)[j + 1]? = some (c, Except.error e) ∧ n = i + (j + 1) + 1 := by
        simp only [List.getElem?_cons_succ]
        refine exists_congr fun j => exists_congr fun c => exists_congr fun e => and_congr_right fun _ => ?_
        omega
      rcases hp : p with ⟨c, e | ⟨⟩⟩
      · rw [errorsFrom, List.map_cons, List.mem_cons, ih, hshift]
        constructor
        · rintro (rfl | ⟨j, h⟩)
          · exact ⟨0, c, e, by simp, rfl⟩
          · exact ⟨j + 1, hp ▸ h⟩
        · rintro ⟨j, c', e', hj, hn⟩
          cases j with
          | zero => exact .inl hn
          | succ j => exact .inr ⟨j, c', e', hp ▸ hj, hn⟩
      · rw [errorsFrom, ih, hshift]
        constructor
        · rintro ⟨j, h⟩
          exact ⟨j + 1, hp ▸ h⟩
        · rintro ⟨j, c', e', hj, hn⟩
          cases j with
          | zero => simp at hj
          | succ j => exact ⟨j, c', e', hp ▸ hj, hn⟩

lemma mem_failedRows {d : Bool} (hlen : outcomes.length = checked.length) {n : ℕ} :
    n ∈ (report d checked outcomes).failedRows ↔ ∃ i e, outcomes[i]? = some (.error e) ∧ n = i + 1 := by
  rw [ImportReport.failedRows, report, mem_errorsFrom]
  constructor
  · rintro ⟨i, c, e, hi, rfl⟩
    rw [List.getElem?_zip_eq_some] at hi
    exact ⟨i, e, hi.2, by omega⟩
  · rintro ⟨i, e, hi, rfl⟩
    have hlt : i < checked.length := hlen ▸ (List.getElem?_eq_some_iff.mp hi).1
    refine ⟨i, checked[i], e, ?_, by omega⟩
    rw [List.getElem?_zip_eq_some]
    exact ⟨List.getElem?_eq_getElem hlt, hi⟩

end

/-! ## What a dry run reports -/

section

variable {E : Env} {users : Table} {rows : List ImportRow}

/-- Some live user has the username or the email of the row, as either. -/
def Taken (E : Env) (users : Table) (row : ImportRow) : Prop :=
  ∃ x ∈ identifiersOf E row, ∃ u ∈ users, u.answersTo x = true

/-- **What a dry run reports**: the rows that the checks refuse, and those with a username or an email
that is taken. -/
lemma dryRun_fails {n : ℕ} : n ∈ (dryRun E users rows).failedRows ↔
    ∃ i, n = i + 1 ∧ ∃ c, (checkAll E rows)[i]? = some c ∧
      ∀ row, c.row = .ok row → Taken E users row := by
  have htaken : ∀ c ∈ checkAll E rows, ∀ row, c.row = .ok row →
      ((identifiersOf E row).any
        (takenIdentifiers users ((checkRows E 0 [] rows).2.map Prod.fst)).contains = true ↔
          Taken E users row) := by
    intro c hc row hrow
    simp only [List.any_eq_true, List.contains_iff_mem, takenIdentifiers, List.mem_filter]
    refine exists_congr fun x => and_congr_right fun hx => and_iff_right ?_
    exact mem_checkRows_claimed.mpr (.inr ⟨c, hc, row, hrow, hx⟩)
  have hfails : ∀ c ∈ checkAll E rows,
      ((∃ e, lookUp E (takenIdentifiers users ((checkRows E 0 [] rows).2.map Prod.fst)) c = .error e) ↔
        ∀ row, c.row = .ok row → Taken E users row) := by
    intro c hc
    rw [lookUp]
    cases hrow : c.row with
    | error e => simp
    | ok row =>
        simp only [Except.ok.injEq, forall_eq']
        rw [← htaken c hc row hrow]
        split_ifs with hany
        · simp [hany]
        · simp [hany]
  rw [dryRun, mem_failedRows (by simp)]
  constructor
  · rintro ⟨i, e, hi, rfl⟩
    rw [List.getElem?_map, Option.map_eq_some_iff] at hi
    obtain ⟨c, hc, he⟩ := hi
    exact ⟨i, rfl, c, hc, (hfails c (List.mem_of_getElem? hc)).mp ⟨e, he⟩⟩
  · rintro ⟨i, rfl, c, hc, hall⟩
    obtain ⟨e, he⟩ := (hfails c (List.mem_of_getElem? hc)).mpr hall
    refine ⟨i, e, ?_, rfl⟩
    rw [List.getElem?_map, Option.map_eq_some_iff]
    exact ⟨c, hc, he⟩

end

end Ridm.Users.BulkImport
