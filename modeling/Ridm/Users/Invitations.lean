import Ridm.Roles.GroupTree
import Ridm.Roles.OrgMembership
import Ridm.Users.Identifiers

/-!
# Accepting an invitation

`accept` and `revoke` of `api/src/services/invitations.rs`, any number of them at once.  Accepting creates the
account, sets its password, assigns the roles, adds the groups and the organization, and only then marks the
invitation: each of these is a transaction of its own, and of the failures after the account only that of the
password is made good, by deleting the account again.

What holds whatever happens is that one call succeeds at most, and none once the invitation was revoked.
`accept_all_or_nothing_iff` says when a call that fails leaves nothing; `accept_leaves_account` is a role
deleted in the meantime.
-/

/-! ## Rows that go -/

namespace Ridm.Roles

/-- `DELETE` of a role, as the composites see it. -/
def RoleTables.dropRole (t : RoleTables) (tenantId role : Uuid) : RoleTables where
  roles := t.roles.filter fun r => r != (tenantId, role)
  composites := t.composites.filter fun c =>
    (c.tenantId, c.parentRoleId) != (tenantId, role) && (c.tenantId, c.childRoleId) != (tenantId, role)
  primaryKey := t.primaryKey.filter _
  foreignKeys c hc := by
    obtain ⟨hmem, hkept⟩ := List.mem_filter.mp hc
    rw [Bool.and_eq_true] at hkept
    obtain ⟨hparent, hchild⟩ := t.foreignKeys c hmem
    exact ⟨List.mem_filter.mpr ⟨hparent, hkept.1⟩, List.mem_filter.mpr ⟨hchild, hkept.2⟩⟩
  notSelf c hc := t.notSelf c (List.mem_filter.mp hc).1

namespace Directory

variable (d : Directory)

/-- `repos::roles::delete`, with what goes with a role. -/
def deleteRole (role : Uuid) : Directory :=
  { d with
    roles := d.roles.dropRole d.tenantId role
    assignments := d.assignments.filter fun a => a.roleId != role
    grants := d.grants.filter fun g => g.roleId != role
    assignedGroupKey := fun a ha => d.assignedGroupKey a (List.mem_filter.mp ha).1
    assignedRoleKey := by
      intro a ha
      obtain ⟨hmem, hother⟩ := List.mem_filter.mp ha
      refine List.mem_filter.mpr ⟨d.assignedRoleKey a hmem, ?_⟩
      simpa using hother }

/-- `repos::organizations::delete`, with what goes with an organization. -/
def deleteOrganization (org : Uuid) : Directory :=
  { d with
    organizations := d.organizations.filter fun o => o != org
    orgMembers := d.orgMembers.filter fun m => m.of != org
    assignments := d.assignments.filter fun a => a.orgId != some org
    assignedGroupKey := fun a ha => d.assignedGroupKey a (List.mem_filter.mp ha).1
    assignedRoleKey := fun a ha => d.assignedRoleKey a (List.mem_filter.mp ha).1 }

/-- A user is inserted, as the other tables see it. -/
def insertUser (id : Uuid) : Directory := { d with users := (id, false) :: d.users }

/-- `repos::users::hard_delete`, with what goes with a user. -/
def hardDeleteUser (id : Uuid) : Directory :=
  { d with
    users := d.users.filter fun u => u.1 != id
    members := d.members.filter fun m => m.userId != id
    orgMembers := d.orgMembers.filter fun m => m.userId != id
    assignments := d.assignments.filter fun a => a.principal != .user id
    memberKey := fun m hm => d.memberKey m (List.mem_filter.mp hm).1
    assignedGroupKey := fun a ha => d.assignedGroupKey a (List.mem_filter.mp ha).1
    assignedRoleKey := fun a ha => d.assignedRoleKey a (List.mem_filter.mp ha).1 }

/-- `organizations::add_member`, and whether a row was added. -/
def enterOrganization (m : Membership) : Except AppError (Directory × Bool) :=
  (d.checkMember m).map fun _ => if m ∈ d.orgMembers then (d, false) else (d.insertOrgMember m, true)

/-- `roles::assign` to a user, and whether a row was added. -/
def grantRole (role user : Uuid) : Except AppError (Directory × Bool) :=
  (d.assign role (.user user)).map fun d' => (d', decide (⟨role, .user user, none⟩ ∉ d.assignments))

/-- `groups::add_member`, and whether a row was added. -/
def enterGroup (group user : Uuid) : Except AppError (Directory × Bool) :=
  (d.addMember group user).map fun d' => (d', decide (⟨group, user⟩ ∉ d.members))

end Directory

end Ridm.Roles

namespace Ridm.Users

/-! ## Invitations -/

/-- `Invitation`, as far as accepting reads it. -/
structure Invitation where
  email : String
  roles : List Uuid
  groups : List Uuid
  orgId : Option Uuid128
  expiresAt : Instant
  acceptedAt : Option Instant
  revokedAt : Option Instant

def Invitation.isOpen (inv : Invitation) (now : Instant) : Bool :=
  inv.acceptedAt.isNone && inv.revokedAt.isNone && decide (now < inv.expiresAt)

/-- The database of a tenant, and the time. -/
structure InviteStore where
  now : Instant
  rows : Table
  tables : Roles.Directory
  inv : Invitation

/-- Where an `accept` stands between its transactions. -/
inductive AcceptStage
  | lookup
  | creating (inv : Invitation) (username : String)
  | settingPassword (inv : Invitation)
  | undoing (e : AppError)
  | granting (inv : Invitation) (roles : List Uuid)
  | joining (inv : Invitation) (groups : List Uuid)
  | entering (org : Uuid128)
  | marking
  | reading
  | done (answer : Except AppError Unit)

/-- One call of `accept`, with the id it draws for the account; the locale is the one asked for. -/
structure Accept where
  id : Uuid128
  input : RegistrationInput
  locale : Option String
  stage : AcceptStage

/-- How the next transaction of a call ends: it goes through, it fails, or what follows its commit does (the
cache). -/
inductive Fate
  | goes
  | fails (e : AppError)
  | failsAfter (e : AppError)

/-- The transaction failed. -/
def Fate.before : Fate → Option AppError
  | fails e => some e
  | _ => none

/-- What follows a commit failed; nothing follows where nothing was written. -/
def Fate.after (wrote : Bool) : Fate → Option AppError
  | failsAfter e => if wrote then some e else none
  | _ => none

def afterGroups (inv : Invitation) : AcceptStage :=
  match inv.orgId with
  | some org => .entering org
  | none => .marking

def afterRoles (inv : Invitation) (groups : List Uuid) : AcceptStage :=
  if groups.isEmpty then afterGroups inv else .joining inv groups

def afterPassword (inv : Invitation) (roles : List Uuid) : AcceptStage :=
  if roles.isEmpty then afterRoles inv inv.groups else .granting inv roles

namespace Accept

/-- The call goes on. -/
def moveTo (c : Accept) (stage : AcceptStage) : Accept := { c with stage := stage }

/-- The call ends with an error. -/
def stop (c : Accept) (e : AppError) : Accept := c.moveTo (.done (.error e))

/-- The id of the account in the other tables. -/
def user (c : Accept) : Uuid := c.id.toNat

/-- What is checked before the account is created. -/
def check (P : Platform) (policy : RegistrationPolicy) (g : InviteStore) (c : Accept) :
    Except AppError String := do
  require (.notFound "invitation") (g.inv.isOpen g.now)
  require (.validation [⟨"terms_accepted", "the terms must be accepted"⟩])
    (!policy.requireTerms || c.input.termsAccepted)
  require (.validation [⟨"password", "password is required"⟩])
    (!policy.passwordAuth || !(c.input.password.getD "").isEmpty)
  registeredUsername P c.input g.inv.email

/-- `users::create`. -/
def create (P : Platform) (schema : ProfileSchema) (g : InviteStore) (c : Accept) (inv : Invitation)
    (username : String) : Except AppError (Table × User) := do
  let out ← createAs P schema g.rows c.id g.now .system
    { username := username
      email := some inv.email
      emailVerified := true
      status := some .active
      attributes := c.input.attributes
      locale := c.locale
      orgId := inv.orgId }
  require Roles.Directory.missingReference (inv.orgId.all fun o => g.tables.organizations.contains o.toNat)
  .ok out

/-- A service call of `accept`: its transaction fails, or refuses, or commits. -/
def through (g : InviteStore) (c : Accept) (fate : Fate) (out : Except AppError (Roles.Directory × Bool))
    (next : AcceptStage) : InviteStore × Accept :=
  match fate.before, out with
  | some e, _ => (g, c.stop e)
  | none, .error e => (g, c.stop e)
  | none, .ok (d, added) =>
      ({ g with tables := d }, (fate.after added).elim (c.moveTo next) c.stop)

/-- One transaction of `accept`. -/
def act (P : Platform) (schema : ProfileSchema) (policy : RegistrationPolicy) (g : InviteStore) (c : Accept)
    (fate : Fate) : Option (InviteStore × Accept) :=
  match c.stage with
  | .lookup =>
      match fate.before, c.check P policy g with
      | some e, _ | none, .error e => some (g, c.stop e)
      | none, .ok username => some (g, c.moveTo (.creating g.inv username))
  | .creating inv username =>
      match fate.before, c.create P schema g inv username with
      | some e, _ | none, .error e => some (g, c.stop e)
      | none, .ok (rows, _) =>
          some ({ g with rows := rows, tables := g.tables.insertUser c.user },
            c.moveTo (if (c.input.password.getD "").isEmpty then afterPassword inv inv.roles
              else .settingPassword inv))
  | .settingPassword inv =>
      some (g, c.moveTo (fate.before.elim (afterPassword inv inv.roles) .undoing))
  | .undoing e =>
      match fate.before with
      | some e' => some (g, c.stop e')
      | none => some ({ g with
          rows := g.rows.filter fun r => r.id != c.id
          tables := g.tables.hardDeleteUser c.user }, c.stop e)
  | .granting inv [] => some (g, c.moveTo (afterRoles inv inv.groups))
  | .granting inv (role :: roles) =>
      some (c.through g fate (g.tables.grantRole role c.user) (afterPassword inv roles))
  | .joining inv [] => some (g, c.moveTo (afterGroups inv))
  | .joining inv (group :: groups) =>
      some (c.through g fate (g.tables.enterGroup group c.user) (afterRoles inv groups))
  | .entering org => some (c.through g fate (g.tables.enterOrganization ⟨org.toNat, c.user⟩) .marking)
  | .marking =>
      match fate.before with
      | some e => some (g, c.stop e)
      | none =>
          if g.inv.acceptedAt.isNone ∧ g.inv.revokedAt.isNone then
            some ({ g with inv := { g.inv with acceptedAt := some g.now } }, c.moveTo .reading)
          else some (g, c.stop (.conflict "invitation was already used"))
  | .reading =>
      match fate.before, get g.rows c.id with
      | some e, _ | none, .error e => some (g, c.stop e)
      | none, .ok _ => some (g, c.moveTo (.done (.ok ())))
  | .done _ => none

end Accept

/-- What happens around the calls. -/
inductive InviteEvent
  | revoke
  | tick (seconds : ℕ)
  | deleteRole (role : Uuid)
  | deleteGroup (group : Uuid)
  | deleteOrganization (org : Uuid128)

/-- A row after its organization is deleted. -/
def User.leaveOrg (org : Uuid128) (r : User) : User := if r.orgId = some org then { r with orgId := none } else r

/-- What an event leaves; an invitation that is not open is not revoked, and a built-in role stays. -/
def InviteEvent.apply (g : InviteStore) : InviteEvent → InviteStore
  | .revoke =>
      if g.inv.acceptedAt.isNone ∧ g.inv.revokedAt.isNone then
        { g with inv := { g.inv with revokedAt := some g.now } }
      else g
  | .tick n => { g with now := g.now + seconds n }
  | .deleteRole role =>
      if g.tables.builtInRoles.contains role then g else { g with tables := g.tables.deleteRole role }
  | .deleteGroup group => { g with tables := g.tables.deleteGroup group }
  | .deleteOrganization org =>
      { g with
        rows := g.rows.map (User.leaveOrg org)
        tables := g.tables.deleteOrganization org.toNat
        inv := if g.inv.orgId = some org then { g.inv with orgId := none } else g.inv }

/-- Calls of `accept` with one token, side by side. -/
def acceptCalls (ι : Type) (P : Platform) (schema : ProfileSchema) (policy : RegistrationPolicy) :
    Calls ι InviteStore Accept Fate InviteEvent where
  act _ g c fate := c.act P schema policy g fate
  env g e := some (e.apply g)

/-! ## What a call leaves -/

namespace InviteStore

variable (g : InviteStore)

/-- Nothing of a user: no account, no assignment, no membership. -/
structure NoTrace (id : Uuid128) : Prop where
  rows : ∀ u ∈ g.rows, u.id ≠ id
  users : ∀ u ∈ g.tables.users, u.1 ≠ id.toNat
  assignments : ∀ a ∈ g.tables.assignments, a.principal ≠ .user id.toNat
  members : ∀ m ∈ g.tables.members, m.userId ≠ id.toNat
  orgMembers : ∀ m ∈ g.tables.orgMembers, m.userId ≠ id.toNat

/-- The account is there. -/
structure Stands (id : Uuid128) : Prop where
  row : ∃ u ∈ g.rows, u.id = id
  user : (id.toNat, false) ∈ g.tables.users

end InviteStore

/-- Whatever is about other users stays as it was: theirs are the same rows. -/
structure Spares (id : Uuid128) (g g' : InviteStore) : Prop where
  rows : ∀ u : User, u.id ≠ id → (u ∈ g'.rows ↔ u ∈ g.rows)
  users : ∀ u : Uuid × Bool, u.1 ≠ id.toNat → (u ∈ g'.tables.users ↔ u ∈ g.tables.users)
  assignments : ∀ a : Roles.RoleAssignment, a.principal ≠ .user id.toNat →
    (a ∈ g'.tables.assignments ↔ a ∈ g.tables.assignments)
  members : ∀ m : Roles.Membership, m.userId ≠ id.toNat → (m ∈ g'.tables.members ↔ m ∈ g.tables.members)
  orgMembers : ∀ m : Roles.Membership, m.userId ≠ id.toNat →
    (m ∈ g'.tables.orgMembers ↔ m ∈ g.tables.orgMembers)

section Spares

variable {g g' : InviteStore} {id other : Uuid128} {d : Roles.Directory}

lemma Spares.refl (id : Uuid128) (g : InviteStore) : Spares id g g :=
  ⟨fun _ _ => Iff.rfl, fun _ _ => Iff.rfl, fun _ _ => Iff.rfl, fun _ _ => Iff.rfl, fun _ _ => Iff.rfl⟩

lemma toNat_ne (hother : other ≠ id) : other.toNat ≠ id.toNat := fun h => hother (BitVec.eq_of_toNat_eq h)

lemma Spares.noTrace (h : Spares id g g') (hother : other ≠ id) (hnone : g.NoTrace other) :
    g'.NoTrace other where
  rows u hu hid := hnone.rows u ((h.rows u (hid ▸ hother)).mp hu) hid
  users u hu hid := hnone.users u ((h.users u (hid ▸ toNat_ne hother)).mp hu) hid
  assignments a ha hid := by
    have hne : a.principal ≠ .user id.toNat := by
      rw [hid]
      simpa using toNat_ne hother
    exact hnone.assignments a ((h.assignments a hne).mp ha) hid
  members m hm hid := hnone.members m ((h.members m (hid ▸ toNat_ne hother)).mp hm) hid
  orgMembers m hm hid := hnone.orgMembers m ((h.orgMembers m (hid ▸ toNat_ne hother)).mp hm) hid

lemma Spares.stands (h : Spares id g g') (hother : other ≠ id) (hstands : g.Stands other) :
    g'.Stands other := by
  obtain ⟨⟨u, hu, hid⟩, huser⟩ := hstands
  exact ⟨⟨u, (h.rows u (hid ▸ hother)).mpr hu, hid⟩, (h.users _ (toNat_ne hother)).mpr huser⟩

lemma InviteStore.Stands.not_noTrace (h : g.Stands id) : ¬ g.NoTrace id := fun hnone => hnone.users _ h.user rfl

/-- A service call writes rows of one user only, and no users. -/
structure WritesOf (id : Uuid128) (d d' : Roles.Directory) : Prop where
  users : d'.users = d.users
  assignments : ∀ a : Roles.RoleAssignment, a.principal ≠ .user id.toNat →
    (a ∈ d'.assignments ↔ a ∈ d.assignments)
  members : ∀ m : Roles.Membership, m.userId ≠ id.toNat → (m ∈ d'.members ↔ m ∈ d.members)
  orgMembers : ∀ m : Roles.Membership, m.userId ≠ id.toNat → (m ∈ d'.orgMembers ↔ m ∈ d.orgMembers)

lemma WritesOf.refl (id : Uuid128) (d : Roles.Directory) : WritesOf id d d :=
  ⟨rfl, fun _ _ => Iff.rfl, fun _ _ => Iff.rfl, fun _ _ => Iff.rfl⟩

lemma WritesOf.spares (h : WritesOf id g.tables d) : Spares id g { g with tables := d } where
  rows _ _ := Iff.rfl
  users u _ := by rw [h.users]
  assignments := h.assignments
  members := h.members
  orgMembers := h.orgMembers

lemma WritesOf.stands (h : WritesOf id g.tables d) (hstands : g.Stands id) :
    InviteStore.Stands { g with tables := d } id :=
  ⟨hstands.row, by rw [h.users]; exact hstands.user⟩

/-- What a service call answers: where what it names is there it writes, and says whether a row was added. -/
def Serves (id : Uuid128) (d : Roles.Directory) (out : Except AppError (Roles.Directory × Bool))
    (there added : Bool) : Prop :=
  if there then ∃ d', out = .ok (d', added) ∧ WritesOf id d d' else ∃ e, out = .error e

lemma writesOf_insertAssignment {role : Uuid} (hrole : d.hasRole role = true)
    (huser : (id.toNat, false) ∈ d.users) :
    ∃ d', d.insertAssignment ⟨role, .user id.toNat, none⟩ = .ok d' ∧ WritesOf id d d' := by
  have href : d.Refers ⟨role, .user id.toNat, none⟩ :=
    ⟨Roles.Directory.hasRole_iff.mp hrole, by simp, List.mem_map.mpr ⟨_, huser, rfl⟩⟩
  rw [Roles.Directory.insertAssignment, dif_pos href]
  split_ifs with hthere
  · exact ⟨d, rfl, WritesOf.refl id d⟩
  · refine ⟨_, rfl, rfl, fun a ha => ?_, fun _ _ => Iff.rfl, fun _ _ => Iff.rfl⟩
    rw [List.mem_cons, or_iff_right]
    rintro rfl
    exact ha rfl

lemma writesOf_insertMember {group : Uuid} (hgroup : group ∈ d.groups.map Roles.Group.id)
    (huser : (id.toNat, false) ∈ d.users) :
    ∃ d', d.insertMember ⟨group, id.toNat⟩ = .ok d' ∧ WritesOf id d d' := by
  have hmem : id.toNat ∈ d.users.map Prod.fst := List.mem_map.mpr ⟨_, huser, rfl⟩
  rw [Roles.Directory.insertMember, dif_pos hgroup, if_pos hmem]
  split_ifs with hthere
  · exact ⟨d, rfl, WritesOf.refl id d⟩
  · refine ⟨_, rfl, rfl, fun _ _ => Iff.rfl, fun m hm => ?_, fun _ _ => Iff.rfl⟩
    rw [List.mem_cons, or_iff_right]
    rintro rfl
    exact hm rfl

lemma serves_grantRole (huser : (id.toNat, false) ∈ d.users) (role : Uuid) :
    Serves id d (d.grantRole role id.toNat) (d.hasRole role)
      (decide (⟨role, .user id.toNat, none⟩ ∉ d.assignments)) := by
  rw [Serves, Roles.Directory.grantRole]
  split_ifs with hrole
  · obtain ⟨d', hinsert, hwrites⟩ := writesOf_insertAssignment hrole huser
    have hassign : d.assign role (.user id.toNat) = .ok d' := by
      simp [Roles.Directory.assign, bind_eq_ok, Roles.Directory.getRole, hrole, Roles.Directory.findPrincipal,
        Roles.Directory.loadUser, Roles.Directory.hasUser, huser, hinsert]
    rw [hassign]
    exact ⟨d', rfl, hwrites⟩
  · cases hassign : d.assign role (.user id.toNat) with
    | error e => exact ⟨e, rfl⟩
    | ok d' =>
        simp only [Roles.Directory.assign, bind_eq_ok, Roles.Directory.getRole, require_eq_ok] at hassign
        obtain ⟨_, hthere, -⟩ := hassign
        exact absurd hthere hrole

lemma serves_enterGroup (huser : (id.toNat, false) ∈ d.users) (group : Uuid) :
    Serves id d (d.enterGroup group id.toNat) (d.findGroup group).isSome
      (decide (⟨group, id.toNat⟩ ∉ d.members)) := by
  rw [Serves, Roles.Directory.enterGroup]
  cases hfound : d.findGroup group with
  | some o =>
      have hgroup : group ∈ d.groups.map Roles.Group.id := by
        refine List.mem_map.mpr ⟨o, List.mem_of_find?_eq_some hfound, ?_⟩
        exact Roles.Directory.findGroup_id hfound
      obtain ⟨d', hinsert, hwrites⟩ := writesOf_insertMember hgroup huser
      have hadd : d.addMember group id.toNat = .ok d' := by
        simp [Roles.Directory.addMember, bind_eq_ok, Roles.Directory.getGroup, hfound,
          Roles.Directory.loadUser, Roles.Directory.hasUser, huser, hinsert]
      rw [hadd]
      exact ⟨d', rfl, hwrites⟩
  | none =>
      cases hadd : d.addMember group id.toNat with
      | error e => exact ⟨e, rfl⟩
      | ok d' =>
          simp [Roles.Directory.addMember, bind_eq_ok, Roles.Directory.getGroup, hfound] at hadd

lemma serves_enterOrganization (huser : (id.toNat, false) ∈ d.users) (org : Uuid) :
    Serves id d (d.enterOrganization ⟨org, id.toNat⟩) (d.organizations.contains org)
      (decide ((⟨org, id.toNat⟩ : Roles.Membership) ∉ d.orgMembers)) := by
  rw [Serves, Roles.Directory.enterOrganization]
  by_cases horg : d.organizations.contains org = true
  · rw [if_pos horg]
    have hcheck : d.checkMember ⟨org, id.toNat⟩ = .ok () := by
      simp only [Roles.Directory.checkMember, bind_eq_ok, require_eq_ok]
      exact ⟨(), horg, List.contains_iff_mem.mpr huser⟩
    rw [hcheck]
    by_cases hin : (⟨org, id.toNat⟩ : Roles.Membership) ∈ d.orgMembers
    · exact ⟨d, by simp [Except.map, hin], WritesOf.refl id d⟩
    · refine ⟨d.insertOrgMember ⟨org, id.toNat⟩, by simp [Except.map, hin], rfl, fun _ _ => Iff.rfl,
        fun _ _ => Iff.rfl, fun m hm => ?_⟩
      simp only [Roles.Directory.insertOrgMember]
      rw [List.mem_cons, or_iff_right]
      rintro rfl
      exact hm rfl
  · rw [if_neg horg]
    cases hcheck : d.checkMember ⟨org, id.toNat⟩ with
    | error e => exact ⟨e, rfl⟩
    | ok _ =>
        simp only [Roles.Directory.checkMember, bind_eq_ok, require_eq_ok] at hcheck
        obtain ⟨_, hthere, -⟩ := hcheck
        exact absurd hthere horg

end Spares

/-! ## One transaction -/

/-- Nothing stops a call here, if it adds a row and if not. -/
def Fate.lets (fate : Fate) (added : Bool) : Bool := fate.before.isNone && (fate.after added).isNone

namespace AcceptStage

/-- The account is yet to be created. -/
def before : AcceptStage → Bool
  | lookup | creating _ _ => true
  | _ => false

/-- The account is created, and the invitation is yet to be marked. -/
def pending : AcceptStage → Bool
  | settingPassword _ | undoing _ | granting _ _ | joining _ _ | entering _ | marking => true
  | _ => false

/-- The invitation is marked, and the call has not failed since. -/
def marked : AcceptStage → Bool
  | reading | done (.ok _) => true
  | _ => false

/-- The error a call has ended with. -/
def failed : AcceptStage → Option AppError
  | done (.error e) => some e
  | _ => none

end AcceptStage

lemma pending_afterGroups (inv : Invitation) : (afterGroups inv).pending = true := by
  unfold afterGroups
  split <;> rfl

lemma pending_afterRoles (inv : Invitation) (groups : List Uuid) : (afterRoles inv groups).pending = true := by
  unfold afterRoles
  split_ifs
  · exact pending_afterGroups inv
  · rfl

lemma pending_afterPassword (inv : Invitation) (roles : List Uuid) :
    (afterPassword inv roles).pending = true := by
  unfold afterPassword
  split_ifs
  · exact pending_afterRoles inv _
  · rfl

/-- What a transaction of a call may do. -/
inductive AcceptStep (P : Platform) (schema : ProfileSchema) (g : InviteStore) (c : Accept) :
    InviteStore → Accept → Prop
  | refused (e : AppError) (h : c.stage.before = true) : AcceptStep P schema g c g (c.stop e)
  | opened (username : String) (h : c.stage = .lookup) (hopen : g.inv.isOpen g.now = true) :
      AcceptStep P schema g c g (c.moveTo (.creating g.inv username))
  | created (inv : Invitation) (username : String) (rows : Table) (u : User) (stage : AcceptStage)
      (h : c.stage = .creating inv username) (hrow : c.create P schema g inv username = .ok (rows, u))
      (hnext : stage.pending = true) :
      AcceptStep P schema g c { g with rows := rows, tables := g.tables.insertUser c.user } (c.moveTo stage)
  | wrote (d : Roles.Directory) (stage : AcceptStage) (h : c.stage.pending = true)
      (hwrites : WritesOf c.id g.tables d) (hnext : stage.pending = true ∨ ∃ e, stage.failed = some e) :
      AcceptStep P schema g c { g with tables := d } (c.moveTo stage)
  | undone (e : AppError) (h : c.stage = .undoing e) :
      AcceptStep P schema g c { g with
        rows := g.rows.filter fun r => r.id != c.id
        tables := g.tables.hardDeleteUser c.user } (c.stop e)
  | marked (h : c.stage = .marking) (hopen : g.inv.acceptedAt = none ∧ g.inv.revokedAt = none) :
      AcceptStep P schema g c { g with inv := { g.inv with acceptedAt := some g.now } } (c.moveTo .reading)
  | read (answer : Except AppError Unit) (h : c.stage = .reading) :
      AcceptStep P schema g c g (c.moveTo (.done answer))

/-- When a transaction does not leave an account behind a failure: after the account, the role, the group or
the organization is there, the invitation was not revoked, and the database and the cache answer.  A refused
password is made good if the database answers. -/
def Passes (g : InviteStore) (c : Accept) (fate : Fate) : Prop :=
  match c.stage with
  | .granting _ (role :: _) => g.tables.hasRole role = true ∧
      fate.lets (decide (⟨role, .user c.user, none⟩ ∉ g.tables.assignments)) = true
  | .joining _ (group :: _) => (g.tables.findGroup group).isSome = true ∧
      fate.lets (decide (⟨group, c.user⟩ ∉ g.tables.members)) = true
  | .entering org => g.tables.organizations.contains org.toNat = true ∧
      fate.lets (decide ((⟨org.toNat, c.user⟩ : Roles.Membership) ∉ g.tables.orgMembers)) = true
  | .marking => g.inv.revokedAt = none ∧ fate.before = none
  | .undoing _ | .reading => fate.before = none
  | _ => True

section Transaction

variable {P : Platform} {schema : ProfileSchema} {policy : RegistrationPolicy} {g g' : InviteStore}
  {c c' : Accept} {fate : Fate}

/-- **A service call** ends the call, or lets it go on exactly when what it names is there and nothing fails. -/
lemma through_cases {out : Except AppError (Roles.Directory × Bool)} {there added : Bool} {next : AcceptStage}
    (hserves : Serves c.id g.tables out there added) (h : c.through g fate out next = (g', c')) :
    ∃ d stage, WritesOf c.id g.tables d ∧ g' = { g with tables := d } ∧ c' = c.moveTo stage ∧
      (stage = next ∧ there = true ∧ fate.lets added = true ∨
        (∃ e, stage = .done (.error e)) ∧ ¬ (there = true ∧ fate.lets added = true)) := by
  unfold Accept.through at h
  cases hbefore : fate.before with
  | some e =>
      simp only [hbefore] at h
      obtain ⟨rfl, rfl⟩ := Prod.mk.inj h
      exact ⟨g.tables, _, WritesOf.refl _ _, rfl, rfl, .inr ⟨⟨e, rfl⟩, by simp [Fate.lets, hbefore]⟩⟩
  | none =>
      simp only [hbefore] at h
      rw [Serves] at hserves
      split_ifs at hserves with hthere
      · obtain ⟨d, rfl, hwrites⟩ := hserves
        obtain ⟨rfl, rfl⟩ := Prod.mk.inj h
        cases hafter : fate.after added with
        | none => exact ⟨d, next, hwrites, rfl, rfl, .inl ⟨rfl, hthere, by simp [Fate.lets, hbefore, hafter]⟩⟩
        | some e =>
            exact ⟨d, _, hwrites, rfl, rfl, .inr ⟨⟨e, rfl⟩, by simp [Fate.lets, hafter]⟩⟩
      · obtain ⟨e, rfl⟩ := hserves
        obtain ⟨rfl, rfl⟩ := Prod.mk.inj h
        exact ⟨g.tables, _, WritesOf.refl _ _, rfl, rfl, .inr ⟨⟨e, rfl⟩, fun hboth => hthere hboth.1⟩⟩

/-- **What one transaction does.** -/
lemma step_of_act (hstands : c.stage.pending = true → g.Stands c.id)
    (h : c.act P schema policy g fate = some (g', c')) : AcceptStep P schema g c g' c' := by
  have hservice : ∀ {out there added next}, c.stage.pending = true → next.pending = true →
      Serves c.id g.tables out there added → c.through g fate out next = (g', c') →
        AcceptStep P schema g c g' c' := by
    intro out there added next hpending hnext hserves hthrough
    obtain ⟨d, stage, hwrites, rfl, rfl, hstage⟩ := through_cases hserves hthrough
    refine .wrote d stage hpending hwrites ?_
    rcases hstage with ⟨rfl, -⟩ | ⟨⟨e, rfl⟩, -⟩
    · exact .inl hnext
    · exact .inr ⟨e, rfl⟩
  unfold Accept.act at h
  cases hstage : c.stage with
  | lookup =>
      simp only [hstage] at h
      split at h
      · cases h
        exact .refused _ (by rw [hstage]; rfl)
      · cases h
        exact .refused _ (by rw [hstage]; rfl)
      · rename_i username _ hcheck
        cases h
        simp only [Accept.check, bind_eq_ok, require_eq_ok] at hcheck
        obtain ⟨_, hopen, -⟩ := hcheck
        exact .opened username hstage hopen
  | creating inv username =>
      simp only [hstage] at h
      split at h
      · cases h
        exact .refused _ (by rw [hstage]; rfl)
      · cases h
        exact .refused _ (by rw [hstage]; rfl)
      · rename_i rows u _ hcreate
        cases h
        refine .created inv username rows u _ hstage hcreate ?_
        split_ifs
        · exact pending_afterPassword inv _
        · rfl
  | settingPassword inv =>
      simp only [hstage] at h
      cases h
      refine .wrote g.tables _ (by rw [hstage]; rfl) (WritesOf.refl _ _) (.inl ?_)
      cases fate.before with
      | none => exact pending_afterPassword inv _
      | some e => rfl
  | undoing e =>
      simp only [hstage] at h
      split at h
      · cases h
        exact .wrote g.tables _ (by rw [hstage]; rfl) (WritesOf.refl _ _) (.inr ⟨_, rfl⟩)
      · cases h
        exact .undone e hstage
  | granting inv roles =>
      have hpending : c.stage.pending = true := by rw [hstage]; rfl
      simp only [hstage] at h
      cases roles with
      | nil =>
          cases h
          exact .wrote g.tables _ hpending (WritesOf.refl _ _) (.inl (pending_afterRoles inv _))
      | cons role roles =>
          exact hservice hpending (pending_afterPassword inv roles)
            (serves_grantRole (hstands hpending).user role) (Option.some.inj h)
  | joining inv groups =>
      have hpending : c.stage.pending = true := by rw [hstage]; rfl
      simp only [hstage] at h
      cases groups with
      | nil =>
          cases h
          exact .wrote g.tables _ hpending (WritesOf.refl _ _) (.inl (pending_afterGroups inv))
      | cons group groups =>
          exact hservice hpending (pending_afterRoles inv groups)
            (serves_enterGroup (hstands hpending).user group) (Option.some.inj h)
  | entering org =>
      have hpending : c.stage.pending = true := by rw [hstage]; rfl
      simp only [hstage] at h
      exact hservice hpending rfl (serves_enterOrganization (hstands hpending).user org.toNat)
        (Option.some.inj h)
  | marking =>
      simp only [hstage] at h
      split at h
      · cases h
        exact .wrote g.tables _ (by rw [hstage]; rfl) (WritesOf.refl _ _) (.inr ⟨_, rfl⟩)
      · split_ifs at h with hopen
        · cases h
          simp only [Option.isNone_iff_eq_none] at hopen
          exact .marked hstage hopen
        · cases h
          exact .wrote g.tables _ (by rw [hstage]; rfl) (WritesOf.refl _ _) (.inr ⟨_, rfl⟩)
  | reading =>
      simp only [hstage] at h
      split at h <;> cases h <;> exact .read _ hstage
  | done answer =>
      simp only [hstage] at h
      cases h

lemma create_ok {inv : Invitation} {username : String} {rows : Table} {u : User}
    (h : c.create P schema g inv username = .ok (rows, u)) :
    rows = g.rows ++ [u] ∧ u.id = c.id ∧ u.live = true ∧ (∀ r ∈ g.rows, clashes r u = false) ∧
      normalizeOpt (normalizeEmail P) (some inv.email) = .ok u.email := by
  simp only [Accept.create, bind_eq_ok] at h
  obtain ⟨out, hcreate, _, -, hout⟩ := h
  obtain rfl := Except.ok.inj hout
  obtain ⟨hrows, hid, hlive, hall, -, hemail⟩ := createAs_ok hcreate
  exact ⟨hrows, hid, hlive, fun r hr => (hall r hr).2, hemail⟩

/-- **A transaction** of a call is about its own user. -/
lemma spares_step (h : AcceptStep P schema g c g' c') : Spares c.id g g' := by
  cases h with
  | refused e _ => exact Spares.refl _ _
  | opened username _ _ => exact Spares.refl _ _
  | created inv username rows u stage _ hrow _ =>
      obtain ⟨rfl, hid, -⟩ := create_ok hrow
      refine ⟨fun r hr => ?_, fun p hp => ?_, fun _ _ => Iff.rfl, fun _ _ => Iff.rfl, fun _ _ => Iff.rfl⟩
      · simp only [List.mem_append, List.mem_singleton]
        exact or_iff_left (fun heq => hr (heq ▸ hid))
      · simp only [Roles.Directory.insertUser, List.mem_cons]
        exact or_iff_right (fun heq => hp (heq ▸ rfl))
  | wrote d stage _ hwrites _ => exact hwrites.spares
  | undone e _ =>
      constructor <;> intro x hx <;> simp only [Roles.Directory.hardDeleteUser, List.mem_filter] <;>
        exact and_iff_left (bne_iff_ne.mpr hx)
  | marked _ _ => exact ⟨fun _ _ => Iff.rfl, fun _ _ => Iff.rfl, fun _ _ => Iff.rfl, fun _ _ => Iff.rfl,
      fun _ _ => Iff.rfl⟩
  | read answer _ => exact Spares.refl _ _

lemma noTrace_hardDelete : InviteStore.NoTrace { g with
    rows := g.rows.filter fun r => r.id != c.id
    tables := g.tables.hardDeleteUser c.user } c.id := by
  constructor <;> intro x hx <;> exact bne_iff_ne.mp (List.mem_filter.mp hx).2

lemma AcceptStage.failed_eq_some {stage : AcceptStage} {e : AppError} :
    stage.failed = some e ↔ stage = .done (.error e) := by
  rcases stage with _ | _ | _ | _ | _ | _ | _ | _ | _ | (_ | _) <;> simp [failed]

lemma AcceptStage.failed_of_pending {stage : AcceptStage} (h : stage.pending = true) : stage.failed = none := by
  cases stage <;> first | rfl | cases h

lemma AcceptStage.not_pending_of_before {stage : AcceptStage} (h : stage.before = true) :
    stage.pending = false := by
  cases stage <;> first | rfl | cases h

lemma clean_of_before (hbefore : c.stage.before = true) (hnone : g.NoTrace c.id)
    (h : AcceptStep P schema g c g' c') : ∀ e, c'.stage.failed = some e → g'.NoTrace c.id := by
  have hpending := AcceptStage.not_pending_of_before hbefore
  cases h with
  | refused e _ => exact fun _ _ => hnone
  | opened username _ _ => exact fun _ _ => hnone
  | created inv username rows u stage _ _ hnext =>
      intro e he
      rw [Accept.moveTo, AcceptStage.failed_of_pending hnext] at he
      cases he
  | wrote d stage hstage _ _ =>
      rw [hpending] at hstage
      cases hstage
  | undone e hstage =>
      rw [hstage] at hbefore
      cases hbefore
  | marked hstage _ =>
      rw [hstage] at hbefore
      cases hbefore
  | read answer hstage =>
      rw [hstage] at hbefore
      cases hbefore

/-- **One transaction** leaves no account behind a failure exactly when it passes. -/
lemma clean_act_iff (hbefore : c.stage.before = true → g.NoTrace c.id)
    (hpending : c.stage.pending = true → g.Stands c.id ∧ g.inv.acceptedAt = none)
    (hmarked : c.stage.marked = true → g.Stands c.id ∧ (get g.rows c.id).isOk = true)
    (h : c.act P schema policy g fate = some (g', c')) :
    (∀ e, c'.stage.failed = some e → g'.NoTrace c.id) ↔ Passes g c fate := by
  have hstep : AcceptStep P schema g c g' c' := step_of_act (fun hp => (hpending hp).1) h
  have hpasses : (∀ stage, c'.stage = stage → stage.failed = none) →
      ∀ e, c'.stage.failed = some e → g'.NoTrace c.id := by
    intro hnone e he
    rw [hnone _ rfl] at he
    cases he
  -- a call that stopped, with its account there
  have hfails : ∀ e d, WritesOf c.id g.tables d → g.Stands c.id → g' = { g with tables := d } → c' = c.stop e →
      ¬ ∀ e, c'.stage.failed = some e → g'.NoTrace c.id := by
    rintro e d hwrites hstands rfl rfl hall
    exact (hwrites.stands hstands).not_noTrace (hall e rfl)
  have hservice : ∀ {out there added next}, g.Stands c.id → next.pending = true →
      Serves c.id g.tables out there added → c.through g fate out next = (g', c') →
        ((∀ e, c'.stage.failed = some e → g'.NoTrace c.id) ↔ there = true ∧ fate.lets added = true) := by
    intro out there added next hstands hnext hserves hthrough
    obtain ⟨d, stage, hwrites, hg, hc, ⟨rfl, hboth⟩ | ⟨⟨e, rfl⟩, hboth⟩⟩ := through_cases hserves hthrough
    · refine iff_of_true (hpasses fun stage' hstage' => ?_) hboth
      rw [← hstage', hc]
      exact AcceptStage.failed_of_pending hnext
    · exact iff_of_false (hfails e d hwrites hstands hg hc) hboth
  unfold Passes
  unfold Accept.act at h
  cases hstage : c.stage with
  | lookup =>
      have hearly : c.stage.before = true := by rw [hstage]; rfl
      exact iff_of_true (clean_of_before hearly (hbefore hearly) hstep) trivial
  | creating inv username =>
      have hearly : c.stage.before = true := by rw [hstage]; rfl
      exact iff_of_true (clean_of_before hearly (hbefore hearly) hstep) trivial
  | settingPassword inv =>
      simp only [hstage] at h
      cases h
      refine iff_of_true (hpasses ?_) trivial
      rintro stage rfl
      refine AcceptStage.failed_of_pending ?_
      simp only [Accept.moveTo]
      cases fate.before with
      | none => exact pending_afterPassword inv _
      | some e => rfl
  | undoing e =>
      have hstands := (hpending (by rw [hstage]; rfl)).1
      simp only [hstage] at h
      cases hfate : fate.before with
      | some e' =>
          simp only [hfate] at h
          cases h
          exact iff_of_false (hfails e' g.tables (WritesOf.refl _ _) hstands rfl rfl) (by simp)
      | none =>
          simp only [hfate] at h
          cases h
          exact iff_of_true (fun _ _ => noTrace_hardDelete) rfl
  | granting inv roles =>
      have hstands := (hpending (by rw [hstage]; rfl)).1
      simp only [hstage] at h
      cases roles with
      | nil =>
          cases h
          refine iff_of_true (hpasses ?_) trivial
          rintro stage rfl
          exact AcceptStage.failed_of_pending (pending_afterRoles inv _)
      | cons role roles =>
          exact hservice hstands (pending_afterPassword inv roles) (serves_grantRole hstands.user role)
            (Option.some.inj h)
  | joining inv groups =>
      have hstands := (hpending (by rw [hstage]; rfl)).1
      simp only [hstage] at h
      cases groups with
      | nil =>
          cases h
          refine iff_of_true (hpasses ?_) trivial
          rintro stage rfl
          exact AcceptStage.failed_of_pending (pending_afterGroups inv)
      | cons group groups =>
          exact hservice hstands (pending_afterRoles inv groups) (serves_enterGroup hstands.user group)
            (Option.some.inj h)
  | entering org =>
      have hstands := (hpending (by rw [hstage]; rfl)).1
      simp only [hstage] at h
      exact hservice hstands rfl (serves_enterOrganization hstands.user org.toNat) (Option.some.inj h)
  | marking =>
      obtain ⟨hstands, haccepted⟩ := hpending (by rw [hstage]; rfl)
      simp only [hstage] at h
      cases hfate : fate.before with
      | some e =>
          simp only [hfate] at h
          cases h
          exact iff_of_false (hfails e g.tables (WritesOf.refl _ _) hstands rfl rfl) (by simp)
      | none =>
          simp only [hfate, haccepted, Option.isNone_none, true_and, Option.isNone_iff_eq_none] at h
          split_ifs at h with hrevoked <;> cases h
          · exact iff_of_true (by simp [Accept.moveTo, AcceptStage.failed]) ⟨hrevoked, rfl⟩
          · exact iff_of_false (hfails _ g.tables (WritesOf.refl _ _) hstands rfl rfl) fun hp => hrevoked hp.1
  | reading =>
      obtain ⟨hstands, hget⟩ := hmarked (by rw [hstage]; rfl)
      simp only [hstage] at h
      cases hfate : fate.before with
      | some e =>
          simp only [hfate] at h
          cases h
          exact iff_of_false (hfails e g.tables (WritesOf.refl _ _) hstands rfl rfl) (by simp)
      | none =>
          cases hrow : get g.rows c.id with
          | error e =>
              rw [hrow] at hget
              cases hget
          | ok u =>
              simp only [hfate, hrow] at h
              cases h
              exact iff_of_true (by simp [Accept.moveTo, AcceptStage.failed]) rfl
  | done answer =>
      simp only [hstage] at h
      cases h

end Transaction

/-! ## Every schedule -/

section Schedules

variable {ι : Type} {P : Platform} {schema : ProfileSchema} {policy : RegistrationPolicy}

/-- What holds in every state reached, whatever fails. -/
structure InviteInv (P : Platform) (w : Pool ι InviteStore Accept) : Prop where
  ids : Function.Injective fun i => (w.calls i).id
  fresh : ∀ i, (w.calls i).stage.before = true → w.shared.NoTrace (w.calls i).id
  pending : ∀ i, (w.calls i).stage.pending = true →
    w.shared.Stands (w.calls i).id ∧ w.shared.inv.acceptedAt = none
  marked : ∀ i, (w.calls i).stage.marked = true → w.shared.Stands (w.calls i).id ∧
    w.shared.inv.acceptedAt.isSome = true ∧ w.shared.inv.revokedAt = none
  email : ∀ i, ∀ u ∈ w.shared.rows, u.id = (w.calls i).id → u.live = true ∧
    normalizeOpt (normalizeEmail P) (some w.shared.inv.email) = .ok u.email
  one : ∀ i j, (∃ u ∈ w.shared.rows, u.id = (w.calls i).id) → (∃ u ∈ w.shared.rows, u.id = (w.calls j).id) →
    i = j
  asked : ∀ i inv username, (w.calls i).stage = .creating inv username → inv.email = w.shared.inv.email
  taken : w.shared.inv.acceptedAt.isSome = true → ∀ i inv username,
    (w.calls i).stage = .creating inv username → ∃ j, ∃ u ∈ w.shared.rows, u.id = (w.calls j).id

variable {w : Pool ι InviteStore Accept} {g : InviteStore}

/-- No account is made for the address of a live one. -/
lemma not_created_twice {c : Accept} {inv : Invitation} {username : String} {rows : Table}
    {u r : User} (h : c.create P schema g inv username = .ok (rows, u)) (hr : r ∈ g.rows)
    (hlive : r.live = true) (hemail : normalizeOpt (normalizeEmail P) (some inv.email) = .ok r.email) : False := by
  obtain ⟨-, -, hulive, hclash, huemail⟩ := create_ok h
  obtain ⟨x, -, hx⟩ := normalizeOpt_some.mp huemail
  have hsame : r.email = u.email := Except.ok.inj (hemail.symm.trans huemail)
  have hno := hclash r hr
  rw [clashes, hlive, hulive] at hno
  simp [sameKey, hsame, hx] at hno

lemma InviteInv.get_isOk (h : InviteInv P w) {i : ι}
    (hstands : w.shared.Stands (w.calls i).id) : (get w.shared.rows (w.calls i).id).isOk = true := by
  obtain ⟨u, hu, hid⟩ := hstands.row
  cases hfind : findById w.shared.rows (w.calls i).id with
  | none =>
      rw [findById, List.find?_eq_none] at hfind
      exact absurd (beq_iff_eq.mpr hid) (hfind u hu)
  | some v =>
      have hv : v ∈ w.shared.rows := List.mem_of_find?_eq_some hfind
      have hvid : v.id = (w.calls i).id := by simpa using List.find?_some hfind
      simp [get, hfind, Option.filter, (h.email i v hv hvid).1, Except.isOk, Except.toBool]

/-! ### Events -/

/-- What an event leaves: rows go, none comes, and accounts and addresses stay. -/
structure Shrinks (g g' : InviteStore) : Prop where
  rows : ∀ u ∈ g'.rows, ∃ v ∈ g.rows, v.id = u.id ∧ v.live = u.live ∧ v.email = u.email
  kept : ∀ v ∈ g.rows, ∃ u ∈ g'.rows, u.id = v.id
  users : g'.tables.users = g.tables.users
  assignments : g'.tables.assignments ⊆ g.tables.assignments
  members : g'.tables.members ⊆ g.tables.members
  orgMembers : g'.tables.orgMembers ⊆ g.tables.orgMembers
  email : g'.inv.email = g.inv.email
  acceptedAt : g'.inv.acceptedAt = g.inv.acceptedAt
  revokedAt : g.inv.acceptedAt.isSome = true → g'.inv.revokedAt = g.inv.revokedAt

lemma Shrinks.of_tables {d : Roles.Directory} (husers : d.users = g.tables.users)
    (hassignments : d.assignments ⊆ g.tables.assignments) (hmembers : d.members ⊆ g.tables.members)
    (horgs : d.orgMembers ⊆ g.tables.orgMembers) : Shrinks g { g with tables := d } :=
  ⟨fun u hu => ⟨u, hu, rfl, rfl, rfl⟩, fun v hv => ⟨v, hv, rfl⟩, husers, hassignments, hmembers, horgs, rfl, rfl,
    fun _ => rfl⟩

lemma Shrinks.refl (g : InviteStore) : Shrinks g g :=
  Shrinks.of_tables rfl (List.Subset.refl _) (List.Subset.refl _) (List.Subset.refl _)

lemma User.leaveOrg_same (org : Uuid128) (r : User) :
    (r.leaveOrg org).id = r.id ∧ (r.leaveOrg org).live = r.live ∧ (r.leaveOrg org).email = r.email := by
  unfold leaveOrg
  split_ifs <;> exact ⟨rfl, rfl, rfl⟩

lemma shrinks_apply (g : InviteStore) (e : InviteEvent) : Shrinks g (e.apply g) := by
  cases e with
  | revoke =>
      rw [InviteEvent.apply]
      split_ifs with hopen
      · refine ⟨fun u hu => ⟨u, hu, rfl, rfl, rfl⟩, fun v hv => ⟨v, hv, rfl⟩, rfl, List.Subset.refl _,
          List.Subset.refl _, List.Subset.refl _, rfl, rfl, fun haccepted => ?_⟩
        rw [Option.isNone_iff_eq_none] at hopen
        rw [hopen.1] at haccepted
        cases haccepted
      · exact Shrinks.refl g
  | tick n =>
      exact ⟨fun u hu => ⟨u, hu, rfl, rfl, rfl⟩, fun v hv => ⟨v, hv, rfl⟩, rfl, List.Subset.refl _,
        List.Subset.refl _, List.Subset.refl _, rfl, rfl, fun _ => rfl⟩
  | deleteRole role =>
      rw [InviteEvent.apply]
      split_ifs
      · exact Shrinks.refl g
      · exact Shrinks.of_tables rfl (List.filter_subset_self _) (List.Subset.refl _) (List.Subset.refl _)
  | deleteGroup group =>
      exact Shrinks.of_tables rfl (List.filter_subset_self _) (List.filter_subset_self _) (List.Subset.refl _)
  | deleteOrganization org =>
      refine ⟨fun u hu => ?_, fun v hv => ?_, rfl, List.filter_subset_self _, List.Subset.refl _,
        List.filter_subset_self _, ?_, ?_, fun _ => ?_⟩
      · obtain ⟨v, hv, rfl⟩ := List.mem_map.mp hu
        obtain ⟨hid, hlive, hemail⟩ := v.leaveOrg_same org
        exact ⟨v, hv, hid.symm, hlive.symm, hemail.symm⟩
      · exact ⟨_, List.mem_map_of_mem hv, (v.leaveOrg_same org).1⟩
      all_goals
        simp only [InviteEvent.apply]
        split_ifs <;> rfl

lemma Shrinks.noTrace {g g' : InviteStore} {id : Uuid128} (h : Shrinks g g') (hnone : g.NoTrace id) :
    g'.NoTrace id where
  rows u hu hid := by
    obtain ⟨v, hv, hvid, -⟩ := h.rows u hu
    exact hnone.rows v hv (hvid.trans hid)
  users u hu := hnone.users u (h.users ▸ hu)
  assignments a ha := hnone.assignments a (h.assignments ha)
  members m hm := hnone.members m (h.members hm)
  orgMembers m hm := hnone.orgMembers m (h.orgMembers hm)

lemma Shrinks.stands {g g' : InviteStore} {id : Uuid128} (h : Shrinks g g') (hstands : g.Stands id) :
    g'.Stands id := by
  obtain ⟨⟨v, hv, hid⟩, huser⟩ := hstands
  obtain ⟨u, hu, huid⟩ := h.kept v hv
  exact ⟨⟨u, hu, huid.trans hid⟩, h.users ▸ huser⟩

/-- **An event keeps the invariant.** -/
lemma InviteInv.event (h : InviteInv P w) (hg : Shrinks w.shared g) : InviteInv P ⟨g, w.calls⟩ where
  ids := h.ids
  fresh i hb := hg.noTrace (h.fresh i hb)
  pending i hp := ⟨hg.stands (h.pending i hp).1, hg.acceptedAt ▸ (h.pending i hp).2⟩
  marked i hm := by
    obtain ⟨hstands, haccepted, hrevoked⟩ := h.marked i hm
    exact ⟨hg.stands hstands, hg.acceptedAt ▸ haccepted, (hg.revokedAt haccepted).trans hrevoked⟩
  email i u hu hid := by
    obtain ⟨v, hv, hvid, hlive, hemail⟩ := hg.rows u hu
    rw [← hlive, ← hemail]
    show _ ∧ normalizeOpt (normalizeEmail P) (some g.inv.email) = _
    rw [hg.email]
    exact h.email i v hv (hvid.trans hid)
  one i j := by
    rintro ⟨u, hu, hi⟩ ⟨u', hu', hj⟩
    obtain ⟨v, hv, hvid, -⟩ := hg.rows u hu
    obtain ⟨v', hv', hvid', -⟩ := hg.rows u' hu'
    exact h.one i j ⟨v, hv, hvid.trans hi⟩ ⟨v', hv', hvid'.trans hj⟩
  asked i inv username hs := (h.asked i inv username hs).trans hg.email.symm
  taken ha i inv username hs := by
    have ha' : w.shared.inv.acceptedAt.isSome = true := hg.acceptedAt ▸ ha
    obtain ⟨j, v, hv, hvid⟩ := h.taken ha' i inv username hs
    obtain ⟨u, hu, huid⟩ := hg.kept v hv
    exact ⟨j, u, hu, huid.trans hvid⟩

/-! ### Transactions -/

/-- What a transaction has to leave for the call that took it. -/
structure InviteOwn (P : Platform) (g : InviteStore) (c : Accept) : Prop where
  fresh : c.stage.before = true → g.NoTrace c.id
  pending : c.stage.pending = true → g.Stands c.id ∧ g.inv.acceptedAt = none
  marked : c.stage.marked = true → g.Stands c.id ∧ g.inv.acceptedAt.isSome = true ∧ g.inv.revokedAt = none
  email : ∀ u ∈ g.rows, u.id = c.id → u.live = true ∧
    normalizeOpt (normalizeEmail P) (some g.inv.email) = .ok u.email
  asked : ∀ inv username, c.stage = .creating inv username → inv.email = g.inv.email

lemma InviteInv.own (h : InviteInv P w) (i : ι) :
    InviteOwn P w.shared (w.calls i) :=
  ⟨h.fresh i, h.pending i, h.marked i, h.email i, h.asked i⟩

variable [DecidableEq ι]

lemma InviteInv.next_of (h : InviteInv P w) {i : ι}
    {c : Accept} (hid : c.id = (w.calls i).id) (hspares : Spares (w.calls i).id w.shared g)
    (hemail : g.inv.email = w.shared.inv.email) (hown : InviteOwn P g c)
    (hone : (∃ u ∈ g.rows, u.id = c.id) → ∀ j, (∃ u ∈ w.shared.rows, u.id = (w.calls j).id) → j = i)
    (hpending : ∀ j, j ≠ i → (w.calls j).stage.pending = true → g.inv.acceptedAt = none)
    (hmarked : w.shared.inv.acceptedAt.isSome = true → w.shared.inv.revokedAt = none →
      g.inv.acceptedAt.isSome = true ∧ g.inv.revokedAt = none)
    (htaken : g.inv.acceptedAt.isSome = true → ∀ j inv username,
      ((w.next i g c).calls j).stage = .creating inv username →
        ∃ k, ∃ u ∈ g.rows, u.id = (w.calls k).id) : InviteInv P (w.next i g c) := by
  have hids : ∀ j, ((w.next i g c).calls j).id = (w.calls j).id := Pool.next_congr hid
  have hother : ∀ j, j ≠ i → (w.calls j).id ≠ (w.calls i).id := fun j hj heq => hj (h.ids heq)
  have hall : ∀ j, InviteOwn P g ((w.next i g c).calls j) := by
    refine Pool.next_forall (p := fun _ c => InviteOwn P g c) hown fun j hj => ?_
    have hj' := hother j hj
    refine ⟨fun hb => hspares.noTrace hj' (h.fresh j hb), fun hp => ?_, fun hm => ?_, fun u hu hu' => ?_, ?_⟩
    · exact ⟨hspares.stands hj' (h.pending j hp).1, hpending j hj hp⟩
    · obtain ⟨hstands, haccepted, hrevoked⟩ := h.marked j hm
      exact ⟨hspares.stands hj' hstands, hmarked haccepted hrevoked⟩
    · rw [hemail]
      exact h.email j u ((hspares.rows u (hu' ▸ hj')).mp hu) hu'
    · rw [hemail]
      exact h.asked j
  -- whose account there is
  have hwhose : ∀ j, (∃ u ∈ g.rows, u.id = ((w.next i g c).calls j).id) →
      j = i ∨ j ≠ i ∧ ∃ u ∈ w.shared.rows, u.id = (w.calls j).id := by
    rintro j ⟨u, hu, hu'⟩
    rw [hids] at hu'
    by_cases hj : j = i
    · exact .inl hj
    · exact .inr ⟨hj, u, (hspares.rows u (hu' ▸ hother j hj)).mp hu, hu'⟩
  refine ⟨?_, fun j => (hall j).fresh, fun j => (hall j).pending, fun j => (hall j).marked,
    fun j => (hall j).email, ?_, fun j => (hall j).asked, ?_⟩
  · intro j k hjk
    simp only [hids] at hjk
    exact h.ids hjk
  · intro j k hj hk
    rcases hwhose j hj with rfl | ⟨hji, hj'⟩
    · rcases hwhose k hk with rfl | ⟨hki, hk'⟩
      · rfl
      · refine absurd (hone ?_ k hk') hki
        rwa [hids, ← hid] at hj
    · rcases hwhose k hk with rfl | ⟨hki, hk'⟩
      · refine absurd (hone ?_ j hj') hji
        rwa [hids, ← hid] at hk
      · exact h.one j k hj' hk'
  · intro haccepted j inv username hj
    obtain ⟨k, u, hu, hk⟩ := htaken haccepted j inv username hj
    exact ⟨k, u, hu, hk.trans (hids k).symm⟩

lemma AcceptStage.of_next {stage : AcceptStage} (h : stage.pending = true ∨ ∃ e, stage.failed = some e) :
    stage.before = false ∧ stage.marked = false ∧ ∀ inv username, stage ≠ .creating inv username := by
  rcases h with h | ⟨e, h⟩
  · cases stage <;> simp_all [pending, before, marked]
  · rcases stage with _ | _ | _ | _ | _ | _ | _ | _ | _ | (_ | _) <;> simp_all [failed, before, marked]

/-- **A transaction keeps the invariant.** -/
lemma InviteInv.next (h : InviteInv P w) {i : ι} {c : Accept}
    (hstep : AcceptStep P schema w.shared (w.calls i) g c) : InviteInv P (w.next i g c) := by
  have hspares := spares_step hstep
  have hown := h.own i
  -- nobody begins to create an account where the call itself does not
  have hcreating : (∀ inv username, c.stage ≠ .creating inv username) → ∀ j inv username,
      ((w.next i g c).calls j).stage = .creating inv username → (w.calls j).stage = .creating inv username := by
    intro hno j inv username hj
    rcases Pool.next_read (f := Accept.stage) hj with ⟨-, hself⟩ | hj
    · exact absurd hself (hno inv username)
    · exact hj
  have hone : ∀ {rows : Table}, (∀ u ∈ rows, u.id = (w.calls i).id → u ∈ w.shared.rows) →
      (∃ u ∈ rows, u.id = (w.calls i).id) → ∀ j, (∃ u ∈ w.shared.rows, u.id = (w.calls j).id) → j = i := by
    rintro rows hrows ⟨u, hu, hu'⟩ j hj
    exact h.one j i hj ⟨u, hrows u hu hu', hu'⟩
  cases hstep with
  | refused e hbefore =>
      refine h.next_of rfl hspares rfl ⟨by simp [Accept.stop, Accept.moveTo, AcceptStage.before],
        by simp [Accept.stop, Accept.moveTo, AcceptStage.pending],
        by simp [Accept.stop, Accept.moveTo, AcceptStage.marked], hown.email,
        by simp [Accept.stop, Accept.moveTo]⟩ (hone fun _ hu _ => hu) (fun j _ hp => (h.pending j hp).2)
        (fun ha hr => ⟨ha, hr⟩) fun ha j inv username hj => h.taken ha j inv username ?_
      exact hcreating (by simp [Accept.stop, Accept.moveTo]) j inv username hj
  | opened username hlookup hopen =>
      simp only [Invitation.isOpen, Bool.and_eq_true, Option.isNone_iff_eq_none] at hopen
      refine h.next_of rfl hspares rfl ⟨fun _ => h.fresh i (by rw [hlookup]; rfl),
        by simp [Accept.moveTo, AcceptStage.pending], by simp [Accept.moveTo, AcceptStage.marked], hown.email,
        ?_⟩ (hone fun _ hu _ => hu) (fun j _ hp => (h.pending j hp).2) (fun ha hr => ⟨ha, hr⟩)
        fun ha => by simp [hopen.1.1] at ha
      rintro inv name hstage
      cases hstage
      rfl
  | created inv username rows u stage hstage hrow hnext =>
      obtain ⟨rfl, hid, hlive, -, hemail⟩ := create_ok hrow
      have hasked := h.asked i inv username hstage
      have hnone := h.fresh i (by rw [hstage]; rfl)
      -- the address is taken where anybody's account stands
      have hfree : ∀ j, ¬ ∃ r ∈ w.shared.rows, r.id = (w.calls j).id := by
        rintro j ⟨r, hr, hr'⟩
        obtain ⟨hrlive, hremail⟩ := h.email j r hr hr'
        exact not_created_twice hrow hr hrlive (hasked ▸ hremail)
      have haccepted : w.shared.inv.acceptedAt = none := by
        by_contra hne
        obtain ⟨j, hj⟩ := h.taken (Option.isSome_iff_ne_none.mpr hne) i inv username hstage
        exact hfree j hj
      have hstands : InviteStore.Stands { w.shared with
          rows := w.shared.rows ++ [u], tables := w.shared.tables.insertUser (w.calls i).user } (w.calls i).id :=
        ⟨⟨u, List.mem_append_right _ (List.mem_singleton_self u), hid⟩, List.mem_cons_self⟩
      refine h.next_of rfl hspares rfl ⟨fun hb => ?_, fun _ => ⟨hstands, haccepted⟩, fun hm => ?_, ?_, ?_⟩
        (fun _ j hj => absurd hj (hfree j)) (fun j _ hp => haccepted) (fun ha hr => ⟨ha, hr⟩)
        fun ha => by simp [haccepted] at ha
      · rw [Accept.moveTo] at hb
        have := AcceptStage.not_pending_of_before hb
        rw [hnext] at this
        cases this
      · cases stage <;> simp_all [Accept.moveTo, AcceptStage.pending, AcceptStage.marked]
      · intro r hr hr'
        rcases List.mem_append.mp hr with hr | hr
        · exact absurd hr' (hnone.rows r hr)
        · rw [List.mem_singleton.mp hr]
          exact ⟨hlive, hasked ▸ hemail⟩
      · rintro inv' username' rfl
        cases hnext
  | wrote d stage hpending hwrites hnext =>
      obtain ⟨hstands, haccepted⟩ := h.pending i hpending
      obtain ⟨hbefore, hmarked, hasked⟩ := AcceptStage.of_next hnext
      refine h.next_of rfl hspares rfl ⟨fun hb => ?_, fun _ => ⟨hwrites.stands hstands, haccepted⟩, fun hm => ?_,
        hown.email, fun inv username hs => absurd hs (hasked inv username)⟩ (hone fun _ hu _ => hu)
        (fun j _ hp => (h.pending j hp).2) (fun ha hr => ⟨ha, hr⟩) fun ha => ?_
      · rw [Accept.moveTo, hbefore] at hb
        cases hb
      · rw [Accept.moveTo, hmarked] at hm
        cases hm
      · rw [haccepted] at ha
        cases ha
  | undone e hstage =>
      have haccepted := (h.pending i (by rw [hstage]; rfl)).2
      have hgone : ∀ u ∈ w.shared.rows.filter (fun r => r.id != (w.calls i).id), u.id ≠ (w.calls i).id :=
        fun u hu => bne_iff_ne.mp (List.mem_filter.mp hu).2
      refine h.next_of rfl hspares rfl ⟨by simp [Accept.stop, Accept.moveTo, AcceptStage.before],
        by simp [Accept.stop, Accept.moveTo, AcceptStage.pending],
        by simp [Accept.stop, Accept.moveTo, AcceptStage.marked], fun u hu hu' => absurd hu' (hgone u hu),
        by simp [Accept.stop, Accept.moveTo]⟩ ?_ (fun j _ hp => (h.pending j hp).2) (fun ha hr => ⟨ha, hr⟩)
        fun ha => ?_
      · rintro ⟨u, hu, hu'⟩
        exact absurd hu' (hgone u hu)
      · rw [haccepted] at ha
        cases ha
  | marked hstage hopen =>
      have hstands := (h.pending i (by rw [hstage]; rfl)).1
      refine h.next_of rfl hspares rfl ⟨by simp [Accept.moveTo, AcceptStage.before],
        by simp [Accept.moveTo, AcceptStage.pending], fun _ => ⟨⟨hstands.row, hstands.user⟩, rfl, hopen.2⟩, hown.email,
        by simp [Accept.moveTo]⟩ (hone fun _ hu _ => hu) ?_ (fun _ hr => ⟨rfl, hr⟩)
        fun _ j inv username _ => ⟨i, hstands.row⟩
      intro j hj hp
      exact absurd (h.one j i (h.pending j hp).1.row hstands.row) hj
  | read answer hstage =>
      have hmarked := h.marked i (by rw [hstage]; rfl)
      refine h.next_of rfl hspares rfl ⟨by simp [Accept.moveTo, AcceptStage.before],
        by simp [Accept.moveTo, AcceptStage.pending], fun _ => hmarked, hown.email, by simp [Accept.moveTo]⟩
        (hone fun _ hu _ => hu) (fun j _ hp => (h.pending j hp).2) (fun ha hr => ⟨ha, hr⟩)
        fun ha j inv username hj => h.taken ha j inv username ?_
      exact hcreating (by simp [Accept.moveTo]) j inv username hj

/-- Accepting is all or nothing: a call that failed has left nothing, one call at most has succeeded, and none
where the invitation is revoked. -/
structure AllOrNothing (w : Pool ι InviteStore Accept) : Prop where
  clean : ∀ i e, (w.calls i).stage = .done (.error e) → w.shared.NoTrace (w.calls i).id
  once : ∀ i j, (w.calls i).stage = .done (.ok ()) → (w.calls j).stage = .done (.ok ()) → i = j
  revoked : w.shared.inv.revokedAt.isSome = true → ∀ i, (w.calls i).stage ≠ .done (.ok ())

omit [DecidableEq ι] in
lemma InviteInv.succeeds (h : InviteInv P w) :
    (∀ i j, (w.calls i).stage = .done (.ok ()) → (w.calls j).stage = .done (.ok ()) → i = j) ∧
      (w.shared.inv.revokedAt.isSome = true → ∀ i, (w.calls i).stage ≠ .done (.ok ())) := by
  have hmarked : ∀ i, (w.calls i).stage = .done (.ok ()) → (w.calls i).stage.marked = true := by
    intro i hi
    rw [hi]
    rfl
  refine ⟨fun i j hi hj => ?_, fun hrevoked i hi => ?_⟩
  · exact h.one i j (h.marked i (hmarked i hi)).1.row (h.marked j (hmarked j hj)).1.row
  · rw [(h.marked i (hmarked i hi)).2.2] at hrevoked
    cases hrevoked

omit [DecidableEq ι] in
lemma InviteInv.allOrNothing_iff (h : InviteInv P w) :
    AllOrNothing w ↔ ∀ i e, (w.calls i).stage = .done (.error e) → w.shared.NoTrace (w.calls i).id :=
  ⟨AllOrNothing.clean, fun hclean => ⟨hclean, h.succeeds.1, h.succeeds.2⟩⟩

/-- The condition, over a pool. -/
def PassesIn (w : Pool ι InviteStore Accept) : Pick ι Fate InviteEvent → Prop
  | .call i fate => Passes w.shared (w.calls i) fate
  | .env _ => True

/-- **A pick keeps the invariant**, and a call's is about its own user. -/
lemma inviteInv_step {w w' : Pool ι InviteStore Accept} {pick : Pick ι Fate InviteEvent} (h : InviteInv P w)
    (hstep : (acceptCalls ι P schema policy).machine.step w pick = some w') :
    InviteInv P w' ∧ ∀ i fate, pick = .call i fate → Spares (w.calls i).id w.shared w'.shared := by
  cases pick with
  | env e =>
      obtain ⟨g, hg, rfl⟩ := Calls.step_env.mp hstep
      obtain rfl := Option.some.inj hg
      exact ⟨h.event (shrinks_apply w.shared e), by simp⟩
  | call i fate =>
      obtain ⟨g, c, hact, rfl⟩ := Calls.step_call.mp hstep
      have hdone := step_of_act (fun hp => (h.pending i hp).1) hact
      refine ⟨h.next hdone, ?_⟩
      rintro j fate' heq
      cases heq
      exact spares_step hdone

/-- **One pick of a schedule.** -/
lemma allOrNothing_step {w w' : Pool ι InviteStore Accept} {pick : Pick ι Fate InviteEvent} (h : InviteInv P w)
    (hall : AllOrNothing w) (hstep : (acceptCalls ι P schema policy).machine.step w pick = some w') :
    AllOrNothing w' ↔ PassesIn w pick := by
  have hinv := (inviteInv_step h hstep).1
  cases pick with
  | env e =>
      obtain ⟨g, hg, rfl⟩ := Calls.step_env.mp hstep
      obtain rfl := Option.some.inj hg
      refine iff_of_true (hinv.allOrNothing_iff.mpr fun i e' hi => ?_) trivial
      exact (shrinks_apply w.shared e).noTrace (hall.clean i e' hi)
  | call i fate =>
      obtain ⟨g, c, hact, rfl⟩ := Calls.step_call.mp hstep
      have hdone := step_of_act (fun hp => (h.pending i hp).1) hact
      refine hinv.allOrNothing_iff.trans ?_
      have hid : ((w.next i g c).calls i).id = (w.calls i).id := by
        rw [Pool.next_self]
        cases hdone <;> rfl
      rw [PassesIn, ← clean_act_iff (h.fresh i) (h.pending i)
        (fun hm => ⟨(h.marked i hm).1, h.get_isOk (h.marked i hm).1⟩) hact]
      constructor
      · intro hclean e he
        rw [← hid]
        refine hclean i e ?_
        rw [Pool.next_self]
        exact AcceptStage.failed_eq_some.mp he
      · intro hclean j e hj
        by_cases hji : j = i
        · subst hji
          rw [hid]
          rw [Pool.next_self] at hj
          exact hclean e (AcceptStage.failed_eq_some.mpr hj)
        · rw [Pool.next_of_ne w hji] at hj ⊢
          exact (spares_step hdone).noTrace (fun heq => hji (h.ids heq)) (hall.clean j e hj)

omit [DecidableEq ι] in
lemma inviteInv_start (hids : Function.Injective fun i => (w.calls i).id)
    (hstart : ∀ i, (w.calls i).stage = .lookup ∧ w.shared.NoTrace (w.calls i).id) : InviteInv P w where
  ids := hids
  fresh i _ := (hstart i).2
  pending i hp := by
    rw [(hstart i).1] at hp
    cases hp
  marked i hm := by
    rw [(hstart i).1] at hm
    cases hm
  email i u hu hid := absurd hid ((hstart i).2.rows u hu)
  one i j := by
    rintro ⟨u, hu, hid⟩
    exact absurd hid ((hstart i).2.rows u hu)
  asked i inv username hs := by
    rw [(hstart i).1] at hs
    cases hs
  taken _ i inv username hs := by
    rw [(hstart i).1] at hs
    cases hs

/-- **When accepting is all or nothing.**  In every schedule of calls that draw different ids, and ids that
are not in use, with roles, groups and organizations deleted and the invitation revoked in between, and
whatever transaction failing: a transaction of a call is about its own user and spares all other rows; at most
one call succeeds, none does once the invitation is revoked, and every call that fails has left nothing, in all
states reached, exactly when every transaction after an account passes. -/
theorem accept_all_or_nothing_iff {w w' : Pool ι InviteStore Accept} {picks : List (Pick ι Fate InviteEvent)}
    (hids : Function.Injective fun i => (w.calls i).id)
    (hstart : ∀ i, (w.calls i).stage = .lookup ∧ w.shared.NoTrace (w.calls i).id)
    (hrun : (acceptCalls ι P schema policy).machine.run w picks = some w') :
    (∀ past i fate rest t t', picks = past ++ .call i fate :: rest →
        (acceptCalls ι P schema policy).machine.run w past = some t →
        (acceptCalls ι P schema policy).machine.step t (.call i fate) = some t' →
        Spares (t.calls i).id t.shared t'.shared) ∧
      (∀ past rest t, picks = past ++ rest → (acceptCalls ι P schema policy).machine.run w past = some t →
        (∀ i j, (t.calls i).stage = .done (.ok ()) → (t.calls j).stage = .done (.ok ()) → i = j) ∧
          (t.shared.inv.revokedAt.isSome = true → ∀ i, (t.calls i).stage ≠ .done (.ok ()))) ∧
      ((∀ past rest t, picks = past ++ rest → (acceptCalls ι P schema policy).machine.run w past = some t →
        AllOrNothing t) ↔ (acceptCalls ι P schema policy).machine.Meets PassesIn w picks) := by
  have hinv := inviteInv_start (P := P) hids hstart
  have hreached : ∀ {past t}, (acceptCalls ι P schema policy).machine.run w past = some t → InviteInv P t :=
    fun hpast => Machine.run_inv (C := fun _ _ => True) (fun hi _ hs => (inviteInv_step hi hs).1)
      (Machine.meets_of_forall (fun _ _ => trivial) _ _) hpast hinv
  refine ⟨?_, ?_, ?_⟩
  · intro past i fate rest t t' _ hpast hstep
    exact (inviteInv_step (hreached hpast) hstep).2 i fate rfl
  · intro past rest t _ hpast
    exact (hreached hpast).succeeds
  · refine Machine.always_iff_meets (I := InviteInv P) (A := fun _ => True) ?_ (fun _ _ => trivial) hrun hinv
      (hinv.allOrNothing_iff.mpr fun i e hi => ?_)
    · rintro t pick t' - hi hg hs
      exact ⟨(inviteInv_step hi hs).1, allOrNothing_step hi hg hs⟩
    · rw [(hstart i).1] at hi
      cases hi

end Schedules

/-! ## A role deleted in the meantime -/

def sampleInvitation : Invitation where
  email := "c@example.com"
  roles := [11]
  groups := []
  orgId := none
  expiresAt := 1
  acceptedAt := none
  revokedAt := none

def sampleAccepts : Pool Bool InviteStore Accept where
  shared := ⟨0, [], Roles.sampleDirectory, sampleInvitation⟩
  calls b := ⟨if b then 7 else 8, ⟨none, "", none, none, true, ""⟩, none, .lookup⟩

def samplePolicy : RegistrationPolicy where
  enabled := false
  allowedEmailDomains := []
  requireTerms := false
  requireEmailVerification := false
  passwordAuth := false

def acceptsInTurn : List (Pick Bool Fate InviteEvent) :=
  [.call true .goes, .call false .goes, .call true .goes, .call false .goes, .call true .goes, .call true .goes,
    .call true .goes]

def roleDeleted : List (Pick Bool Fate InviteEvent) :=
  [.call true .goes, .call true .goes, .env (.deleteRole 11), .call true .goes]

lemma sampleAccepts_ids : Function.Injective fun b => (sampleAccepts.calls b).id := by
  decide

lemma sampleAccepts_start (b : Bool) : (sampleAccepts.calls b).stage = .lookup ∧
    sampleAccepts.shared.NoTrace (sampleAccepts.calls b).id := by
  refine ⟨rfl, ?_, ?_, ?_, ?_, ?_⟩ <;> revert b <;> decide

instance (g : InviteStore) (c : Accept) (fate : Fate) : Decidable (Passes g c fate) := by
  unfold Passes
  cases c.stage with
  | granting inv roles => cases roles <;> infer_instance
  | joining inv groups => cases groups <;> infer_instance
  | _ => infer_instance

instance (w : Pool Bool InviteStore Accept) (pick : Pick Bool Fate InviteEvent) : Decidable (PassesIn w pick) := by
  unfold PassesIn
  cases pick <;> infer_instance

/-- In turn one call succeeds, and the other is refused and leaves nothing. -/
theorem accept_all_or_nothing_in_turn :
    ∃ w, (acceptCalls Bool samplePlatform ⟨[], false⟩ samplePolicy).machine.run sampleAccepts acceptsInTurn =
        some w ∧
      ∀ past rest t, acceptsInTurn = past ++ rest →
        (acceptCalls Bool samplePlatform ⟨[], false⟩ samplePolicy).machine.run sampleAccepts past = some t →
          AllOrNothing t := by
  have hany : ((acceptCalls Bool samplePlatform ⟨[], false⟩ samplePolicy).machine.run sampleAccepts
      acceptsInTurn).any (fun _ => true) = true := by
    decide +kernel
  obtain ⟨w, hrun, -⟩ := Machine.exists_run_of_any hany
  refine ⟨w, hrun, (accept_all_or_nothing_iff sampleAccepts_ids sampleAccepts_start hrun).2.2.mpr ?_⟩
  decide +kernel

/-- **A failed accept leaves an account.**  The role is gone when it is to be assigned: the call answers with an
error, and the account stays. -/
theorem accept_leaves_account :
    ∃ w, (acceptCalls Bool samplePlatform ⟨[], false⟩ samplePolicy).machine.run sampleAccepts roleDeleted =
        some w ∧
      (∃ e, (w.calls true).stage = .done (.error e)) ∧ ¬ w.shared.NoTrace (w.calls true).id := by
  have hany : ((acceptCalls Bool samplePlatform ⟨[], false⟩ samplePolicy).machine.run sampleAccepts
      roleDeleted).any (fun w => (w.calls true).stage.failed.isSome &&
        w.shared.rows.any fun u => u.id == (w.calls true).id) = true := by
    decide +kernel
  obtain ⟨w, hrun, hboth⟩ := Machine.exists_run_of_any hany
  rw [Bool.and_eq_true, Option.isSome_iff_exists, List.any_eq_true] at hboth
  obtain ⟨⟨e, he⟩, u, hu, hid⟩ := hboth
  exact ⟨w, hrun, ⟨e, AcceptStage.failed_eq_some.mp he⟩, fun hnone => hnone.rows u hu (beq_iff_eq.mp hid)⟩

end Ridm.Users
