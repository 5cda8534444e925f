import Mathlib.Data.Finset.Sort
import Mathlib.Data.String.Basic
import Ridm.Roles.Composites
import Ridm.Tokens.Claims

/-!
# Groups, roles and admin permissions

The tables of one tenant that decide who may administer what, and the routes of the admin API that
change them: `api/src/routes/admin/{groups,users,roles,organizations}.rs` with their services and
queries.

A user's admin permissions (`services/admin_access.rs`) are those of the built-in resource server that
are granted to the user's effective roles: assigned to the user, or to a group the user is in or to one
above it, or contained in such a role.  Both recursive queries stop at depth 64.  An assignment may be
scoped to an organization, and then counts only there.

A route asks what the administrator holds, and most that hand something out ask as well whether the
administrator holds all of that (`require_can_grant`).
-/

namespace Ridm.Roles

open Paths (searchDown)

/-! ## Permissions -/

/-- `str::strip_suffix`. -/
def stripSuffix (s ending : String) : Option String :=
  if ending.toList.isSuffixOf s.toList then
    some (String.ofList (s.toList.take (s.toList.length - ending.toList.length)))
  else none

/-- `matches`: a granted permission satisfies a required one. -/
def permissionMatches (granted required : String) : Bool :=
  if required.toList.contains '*' then false
  else if granted = required then true
  else
    match stripSuffix granted ":*" with
    | none => false
    | some start =>
        (stripPrefix required start).any fun rest =>
          1 < rest.utf8ByteSize && rest.toList.head? == some ':' && !rest.toList.contains '*'

/-- `PermissionSet`: sorted, and each name once. -/
structure PermissionSet where
  names : List String
  sorted : names.SortedLT

/-- `PermissionSet::default`. -/
def PermissionSet.empty : PermissionSet := ⟨[], fun i => i.elim0⟩

/-- `PermissionSet::new`. -/
def PermissionSet.new (names : List String) : PermissionSet :=
  ⟨names.toFinset.sort, names.toFinset.sortedLT_sort⟩

def PermissionSet.allows (s : PermissionSet) (required : String) : Bool :=
  s.names.any fun g => permissionMatches g required

@[simp] lemma PermissionSet.mem_new {names : List String} {n : String} :
    n ∈ (PermissionSet.new names).names ↔ n ∈ names := by
  simp [PermissionSet.new]

def ADMIN_AUDIENCE : String := "urn:ridm:admin"

/-! ## The tables -/

/-- A row of `groups`. -/
structure Group where
  id : Uuid
  parentId : Option Uuid
  name : String
  description : Option String
  attributes : Value

/-- Who holds a role. -/
inductive Principal
  | user (id : Uuid)
  | group (id : Uuid)
  deriving DecidableEq

/-- A row of `role_assignments`. -/
structure RoleAssignment where
  roleId : Uuid
  principal : Principal
  orgId : Option Uuid
  deriving DecidableEq

/-- `ResourceServer`, as far as it holds permissions. -/
structure ResourceServer where
  id : Uuid
  identifier : String
  builtIn : Bool

/-- A row of `permissions`. -/
structure Permission where
  id : Uuid
  resourceServerId : Uuid
  name : String

/-- A row of `group_members`, or of `organization_members`. -/
structure Membership where
  of : Uuid
  userId : Uuid
  deriving DecidableEq

/-- A row of `permission_assignments`. -/
structure PermissionAssignment where
  roleId : Uuid
  permissionId : Uuid
  deriving DecidableEq

/-- The tables of a tenant.  The fields that are propositions are their constraints, and that every
tenant has the built-in resource server, which no call changes. -/
structure Directory where
  tenantId : Uuid
  users : List (Uuid × Bool)
  groups : List Group
  members : List Membership
  roles : RoleTables
  builtInRoles : List Uuid
  assignments : List RoleAssignment
  servers : List ResourceServer
  permissions : List Permission
  grants : List PermissionAssignment
  organizations : List Uuid
  orgMembers : List Membership
  groupKey : (groups.map Group.id).Nodup
  parentKey : ∀ g ∈ groups, ∀ p ∈ g.parentId, p ∈ groups.map Group.id
  memberKey : ∀ m ∈ members, m.of ∈ groups.map Group.id
  assignedGroupKey : ∀ a ∈ assignments, ∀ g, a.principal = .group g → g ∈ groups.map Group.id
  assignedRoleKey : ∀ a ∈ assignments, (tenantId, a.roleId) ∈ roles.roles
  serverKey : (servers.map ResourceServer.id).Nodup
  permissionKey : (permissions.map Permission.id).Nodup
  adminServer : ∃ s ∈ servers, s.identifier = ADMIN_AUDIENCE
  adminBuiltIn : ∀ s ∈ servers, s.identifier = ADMIN_AUDIENCE → s.builtIn = true

namespace Directory

variable (d : Directory)

/-! ### Queries -/

/-- `repos::groups::find_by_id`. -/
def findGroup (id : Uuid) : Option Group := d.groups.find? fun g => g.id == id

/-- `repos::roles::find_by_id`. -/
def hasRole (id : Uuid) : Bool := d.roles.roles.contains (d.tenantId, id)

/-- `repos::users::find_by_id`, of a user that is not deleted. -/
def hasUser (id : Uuid) : Bool := d.users.contains (id, false)

/-- The group above a group. -/
def parents (id : Uuid) : List Uuid := ((d.findGroup id).bind Group.parentId).toList

/-- `ancestor_ids`: a group and those above it. -/
def ancestorIds (id : Uuid) : List Uuid :=
  if (d.findGroup id).isSome then searchDown d.parents 64 [id] else []

/-- `user_groups` of `effective_roles`. -/
def userGroups (userId : Uuid) : List Uuid :=
  searchDown d.parents 64 ((d.members.filter fun m => m.userId == userId).map Membership.of)

/-- The child roles of a role. -/
def children (role : Uuid) : List Uuid := d.roles.childRoles d.tenantId role

def expandComposites (roleIds : List Uuid) : List Uuid :=
  searchDown d.children 64 (roleIds.filter d.hasRole)

def roleIdsOfGroupLineage (groupId : Uuid) : List Uuid :=
  (d.assignments.filter fun a =>
    (d.ancestorIds groupId).any fun g => a.principal == .group g).map RoleAssignment.roleId

/-- `permissions_for_roles`: distinct names in their order. -/
def permissionsForRoles (serverId : Uuid) (roleIds : List Uuid) : List String :=
  ((d.permissions.filter fun p => p.resourceServerId == serverId &&
    d.grants.any fun g => g.permissionId == p.id && roleIds.contains g.roleId).map
      Permission.name).dedup.insertionSort (· ≤ ·)

/-- `find_by_identifier` of the built-in resource server. -/
def findAdminServer : Option ResourceServer :=
  d.servers.find? fun s => s.identifier == ADMIN_AUDIENCE

end Directory

/-- `OrgScope`: which assignments count. -/
inductive OrgScope
  | tenantWide
  | inOrg (org : Uuid)
  | anywhere

/-- An assignment with this `org_id` counts. -/
def OrgScope.counts : OrgScope → Option Uuid → Bool
  | _, none => true
  | .tenantWide, some _ => false
  | .inOrg org, some o => o == org
  | .anywhere, some _ => true

namespace Directory

variable (d : Directory)

/-- `direct` of `effective_roles`. -/
def directRoles (userId : Uuid) (scope : OrgScope) : List Uuid :=
  (d.assignments.filter fun a => (a.principal == .user userId ||
    (d.userGroups userId).any fun g => a.principal == .group g) && scope.counts a.orgId).map
      RoleAssignment.roleId

def effectiveRoles (userId : Uuid) (scope : OrgScope) : List Uuid :=
  (searchDown d.children 64 (d.directRoles userId scope)).filter d.hasRole

def permissionsOfUser (userId : Uuid) (scope : OrgScope) : Except AppError PermissionSet :=
  let effective := d.effectiveRoles userId scope
  if effective.isEmpty then .ok .empty
  else do
    let rs ← orError (.internal ("tenant " ++ Tokens.uuidText d.tenantId ++ " has no `" ++
      ADMIN_AUDIENCE ++ "` resource server")) d.findAdminServer
    .ok (.new (d.permissionsForRoles rs.id effective))

end Directory

/-- What can be granted. -/
inductive Grant
  | role (id : Uuid)
  | group (id : Uuid)

def Directory.permissionsOfGrant (d : Directory) (grant : Grant) : List String :=
  let direct := match grant with
    | .role id => [id]
    | .group id => d.roleIdsOfGroupLineage id
  if direct.isEmpty then []
  else
    let all := d.expandComposites direct
    match d.findAdminServer with
    | none => []
    | some rs => d.permissionsForRoles rs.id all

/-! ## The administrator -/

/-- `AdminCtx`, as far as it decides what may be done. -/
structure AdminCtx where
  tenantId : Uuid
  isGlobal : Bool
  permissions : PermissionSet
  orgId : Option Uuid
  orgPermissions : PermissionSet

namespace AdminCtx

variable (a : AdminCtx)

def reaches (tenantId : Uuid) : Bool := a.isGlobal || a.tenantId == tenantId

def missing (permission : String) : AppError :=
  .forbidden ("missing permission `" ++ permission ++ "`")

def require (tenantId : Uuid) (permission : String) : Except AppError Unit := do
  Ridm.require (.forbidden "this token is scoped to another tenant") (a.reaches tenantId)
  Ridm.require (missing permission) (a.permissions.allows permission)

def requireOrg (tenantId org : Uuid) (permission : String) : Except AppError Unit := do
  Ridm.require (.forbidden "this token is scoped to another tenant") (a.reaches tenantId)
  Ridm.require (missing permission) (a.permissions.allows permission ||
    (a.orgId == some org && a.orgPermissions.allows permission))

/-- The permissions `can_grant` finds missing. -/
def cannotGrant (org : Option Uuid) (permissions : List String) : List String :=
  permissions.filter fun p => !a.permissions.allows p &&
    !(org.isSome && org == a.orgId && a.orgPermissions.allows p)

/-- `can_grant`, with `require_can_grant` and `require_can_grant_in_org`. -/
def canGrant (org : Option Uuid) (permissions : List String) : Except AppError Unit :=
  Ridm.require (.forbidden ("cannot grant permissions you do not hold: " ++
    String.intercalate ", " (a.cannotGrant org permissions))) (a.cannotGrant org permissions).isEmpty

end AdminCtx

end Ridm.Roles
