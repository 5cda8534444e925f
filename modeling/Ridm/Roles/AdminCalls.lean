import Ridm.Roles.Directory

/-!
# Calls of the admin API on groups and roles

The routes that extend what somebody may do: creating, moving and renaming groups
(`routes/admin/groups.rs`), memberships, assignments to users and groups, tenant-wide and within an
organization (`routes/admin/{groups,users,organizations}.rs`), composites and permission grants
(`routes/admin/roles.rs`), each with its service.  A call that succeeds leaves the tables of its
transaction; one that is refused leaves nothing.
-/

namespace Ridm.Roles

/-! ## Requests -/

/-- A group to be created. -/
structure NewGroup where
  name : String
  parentId : Option Uuid
  description : Option String
  attributes : Option Value

/-- `GroupUpdate`; of the fields that may be null the outer option says whether the field is there. -/
structure GroupUpdate where
  name : Option String
  parentId : Option (Option Uuid)
  description : Option (Option String)
  attributes : Option Value

def GroupUpdate.isEmpty (patch : GroupUpdate) : Bool :=
  patch.name.isNone && patch.parentId.isNone && patch.description.isNone && patch.attributes.isNone

/-- The row an update leaves. -/
def GroupUpdate.apply (patch : GroupUpdate) (g : Group) : Group where
  id := g.id
  name := patch.name.getD g.name
  parentId := patch.parentId.getD g.parentId
  description := patch.description.getD g.description
  attributes := patch.attributes.getD g.attributes

/-- `serde_json::Value::is_object`. -/
def isObject : Value → Bool
  | .object _ => true
  | _ => false

def validateName (name : String) : Except AppError String := do
  require (.badRequest "name must be 1-255 characters")
    (trim name != "" && (trim name).utf8ByteSize ≤ 255)
  .ok (trim name)

/-- The sibling of a name: `COALESCE(parent_id, nil)` and the name, unique among a tenant's groups. -/
def Group.siblingKey (g : Group) : Uuid × String := (g.parentId.getD 0, g.name)

namespace Directory

variable (d : Directory)

/-! ## Rows written -/

/-- The answer where a unique index of `groups` refuses a row. -/
def siblingConflict : AppError := .conflict "a sibling group with this name already exists"

/-- `from_db` of a violated foreign key. -/
def missingReference : AppError := .badRequest "referenced object does not exist"

/-- `repos::groups::insert`. -/
def insertGroup (g : Group) : Except AppError Directory :=
  if hkey : g.id ∈ d.groups.map Group.id ∨ g.siblingKey ∈ d.groups.map Group.siblingKey then
    .error siblingConflict
  else if hparent : ∀ p ∈ g.parentId, p ∈ d.groups.map Group.id then
    .ok { d with
      groups := g :: d.groups
      groupKey := List.nodup_cons.mpr ⟨fun h => hkey (.inl h), d.groupKey⟩
      parentKey := by
        rintro o (_ | ⟨_, ho⟩) p hp
        · exact List.mem_cons_of_mem _ (hparent p hp)
        · exact List.mem_cons_of_mem _ (d.parentKey o ho p hp)
      memberKey := fun m hm => List.mem_cons_of_mem _ (d.memberKey m hm)
      assignedGroupKey := fun a ha i hi => List.mem_cons_of_mem _ (d.assignedGroupKey a ha i hi) }
  else .error missingReference

/-- `repos::groups::update`: nothing where there is no such group. -/
def replaceGroup (id : Uuid) (patch : GroupUpdate) : Except AppError (Option Directory) :=
  match hfound : d.findGroup id with
  | none => .ok none
  | some g =>
      let row := patch.apply g
      let rows := d.groups.map fun o => if o.id = id then row else o
      have hids : rows.map Group.id = d.groups.map Group.id := by
        rw [List.map_map]
        refine List.map_congr_left fun o _ => ?_
        rw [Function.comp_apply]
        split_ifs with ho
        · have := List.find?_some hfound
          exact (beq_iff_eq.mp this).trans ho.symm
        · rfl
      if row.siblingKey ∈ (d.groups.filter fun o => o.id ≠ id).map Group.siblingKey then
        .error siblingConflict
      else if hparent : ∀ p ∈ row.parentId, p ∈ d.groups.map Group.id then
        .ok (some { d with
          groups := rows
          groupKey := hids ▸ d.groupKey
          parentKey := by
            rw [hids]
            intro o ho p hp
            obtain ⟨o', ho', rfl⟩ := List.mem_map.mp ho
            split_ifs at hp with hid
            · exact hparent p hp
            · exact d.parentKey o' ho' p hp
          memberKey := hids ▸ d.memberKey
          assignedGroupKey := hids ▸ d.assignedGroupKey })
      else .error missingReference

/-- `repos::groups::add_member`. -/
def insertMember (m : Membership) : Except AppError Directory :=
  if hgroup : m.of ∈ d.groups.map Group.id then
    if m.userId ∈ d.users.map Prod.fst then
      if m ∈ d.members then .ok d
      else
        .ok { d with
          members := m :: d.members
          memberKey := by
            rintro o (_ | ⟨_, ho⟩)
            · exact hgroup
            · exact d.memberKey o ho }
    else .error missingReference
  else .error missingReference

def Refers (a : RoleAssignment) : Prop :=
  (d.tenantId, a.roleId) ∈ d.roles.roles ∧
    (∀ org ∈ a.orgId, org ∈ d.organizations) ∧
    match a.principal with
    | .user id => id ∈ d.users.map Prod.fst
    | .group id => id ∈ d.groups.map Group.id

instance (a : RoleAssignment) : Decidable (d.Refers a) := by
  unfold Refers
  cases a.principal <;> exact instDecidableAnd

/-- `repos::roles::assign`. -/
def insertAssignment (a : RoleAssignment) : Except AppError Directory :=
  if href : d.Refers a then
    if a ∈ d.assignments then .ok d
    else
      .ok { d with
        assignments := a :: d.assignments
        assignedGroupKey := by
          rintro o (_ | ⟨_, ho⟩) g hg
          · have := href.2.2
            rwa [hg] at this
          · exact d.assignedGroupKey o ho g hg
        assignedRoleKey := by
          rintro o (_ | ⟨_, ho⟩)
          · exact href.1
          · exact d.assignedRoleKey o ho }
  else .error missingReference

/-- `repos::resource_servers::assign_permission`. -/
def insertGrant (g : PermissionAssignment) : Directory :=
  if g ∈ d.grants then d else { d with grants := g :: d.grants }

end Directory

lemma addComposite_roles {t t' : RoleTables} {tenantId parent child : Uuid}
    (h : addComposite t tenantId parent child = .ok t') : t'.roles = t.roles := by
  unfold addComposite at h
  split_ifs at h
  cases h
  unfold RoleTables.insert
  split_ifs <;> rfl

namespace Directory

variable (d : Directory)

/-! ## Services -/

/-- `groups::get`. -/
def getGroup (id : Uuid) : Except AppError Group := orError (.notFound "group") (d.findGroup id)

/-- `roles::get`; a role is what the tables say of it. -/
def getRole (id : Uuid) : Except AppError Unit := require (.notFound "role") (d.hasRole id)

/-- `users::get`, and the check that the user is not deleted. -/
def loadUser (id : Uuid) : Except AppError Unit := require (.notFound "user") (d.hasUser id)

/-- `groups::create`, with the id it draws. -/
def createGroup (id : Uuid) (input : NewGroup) : Except AppError Directory := do
  let name ← validateName input.name
  require (.badRequest "attributes must be a JSON object") (input.attributes.all isObject)
  require (.badRequest "parent group does not exist")
    (input.parentId.all fun p => (d.findGroup p).isSome)
  require (.badRequest "a tenant can have at most 10000 groups") (d.groups.length < 10000)
  d.insertGroup ⟨id, input.parentId, name, input.description, input.attributes.getD (.object [])⟩

/-- Where `groups::update` may move a group. -/
def checkMove (id : Uuid) : Option (Option Uuid) → Except AppError Unit
  | some (some newParent) => do
      require (.badRequest "a group cannot be its own parent") (newParent != id)
      require (.badRequest "parent group does not exist") (!(d.ancestorIds newParent).isEmpty)
      require (.badRequest "cannot move a group under one of its descendants")
        (!(d.ancestorIds newParent).contains id)
  | _ => .ok ()

/-- `groups::update`, past the request without a field. -/
def changeGroup (id : Uuid) (patch : GroupUpdate) : Except AppError Directory := do
  let name ← patch.name.mapM validateName
  d.checkMove id patch.parentId
  let updated ← d.replaceGroup id { patch with name := name }
  orError (.notFound "group") updated

/-- `groups::update`. -/
def updateGroup (id : Uuid) (patch : GroupUpdate) : Except AppError Directory :=
  if patch.isEmpty then (d.getGroup id).map fun _ => d else d.changeGroup id patch

/-- `groups::add_member`. -/
def addMember (groupId userId : Uuid) : Except AppError Directory := do
  let _ ← d.getGroup groupId
  d.loadUser userId
  d.insertMember ⟨groupId, userId⟩

/-- The principal exists. -/
def findPrincipal : Principal → Except AppError Unit
  | .user id => d.loadUser id
  | .group id => (d.getGroup id).map fun _ => ()

/-- `roles::assign`. -/
def assign (roleId : Uuid) (principal : Principal) : Except AppError Directory := do
  d.getRole roleId
  d.findPrincipal principal
  d.insertAssignment ⟨roleId, principal, none⟩

/-- The principal may have a role in an organization. -/
def findInOrg (org : Uuid) : Principal → Except AppError Unit
  | .user id => require (.badRequest "the user is not a member of this organization")
      (d.orgMembers.contains ⟨org, id⟩)
  | .group id => (d.getGroup id).map fun _ => ()

/-- `organizations::assign_role`. -/
def assignInOrg (org roleId : Uuid) (principal : Principal) : Except AppError Directory := do
  require (.notFound "organization") (d.organizations.contains org)
  d.getRole roleId
  d.findInOrg org principal
  d.insertAssignment ⟨roleId, principal, some org⟩

/-- `roles::add_composite`. -/
def addComposite (parent child : Uuid) : Except AppError Directory :=
  match h : Roles.addComposite d.roles d.tenantId parent child with
  | .ok t => .ok { d with
      roles := t
      assignedRoleKey := fun a ha => addComposite_roles h ▸ d.assignedRoleKey a ha }
  | .error e => .error e

/-- `resource_servers::get_permission`. -/
def getPermission (id : Uuid) : Except AppError Permission :=
  orError (.notFound "permission") (d.permissions.find? fun p => p.id == id)

/-- `resource_servers::get`. -/
def getServer (id : Uuid) : Except AppError ResourceServer :=
  orError (.notFound "resource server") (d.servers.find? fun s => s.id == id)

/-- Built-in roles stay as they are. -/
def requireChangeable (roleId : Uuid) : Except AppError Unit := do
  d.getRole roleId
  require (.forbidden "built-in roles cannot be changed") (!d.builtInRoles.contains roleId)

/-- `resource_servers::grant`. -/
def grant (roleId permissionId : Uuid) : Except AppError Directory := do
  d.requireChangeable roleId
  let _ ← d.getPermission permissionId
  .ok (d.insertGrant ⟨roleId, permissionId⟩)

end Directory

/-! ## Routes -/

/-- The calls that change roles and groups. -/
inductive AdminCall
  | createGroup (id : Uuid) (input : NewGroup)
  | updateGroup (group : Uuid) (patch : GroupUpdate)
  | addMember (group user : Uuid)
  | joinGroup (user group : Uuid)
  | assignUserRole (user role : Uuid)
  | assignGroupRole (group role : Uuid)
  | assignUserRoleInOrg (org user role : Uuid)
  | assignGroupRoleInOrg (org group role : Uuid)
  | addComposite (role child : Uuid)
  | grantPermission (role permission : Uuid)

namespace AdminCtx

variable (a : AdminCtx) (d : Directory)

/-- `require_can_grant`, of what a grant carries. -/
def requireCanGrant (grant : Grant) : Except AppError Unit := a.canGrant none (d.permissionsOfGrant grant)

/-- `groups::add_member`, and `users::join_group`: the same under another permission. -/
def putMember (permission : String) (group user : Uuid) : Except AppError Directory := do
  a.require d.tenantId permission
  d.loadUser user
  let _ ← d.getGroup group
  a.requireCanGrant d (.group group)
  d.addMember group user

/-- `users::assign_role`. -/
def assignUserRole (user role : Uuid) : Except AppError Directory := do
  a.require d.tenantId "ridm:users:write"
  d.loadUser user
  d.getRole role
  a.requireCanGrant d (.role role)
  d.assign role (.user user)

/-- `groups::assign_role`. -/
def assignGroupRole (group role : Uuid) : Except AppError Directory := do
  a.require d.tenantId "ridm:groups:write"
  let _ ← d.getGroup group
  d.getRole role
  a.requireCanGrant d (.role role)
  d.assign role (.group group)

/-- `organizations::assign_user_role`, and `assign_group_role`. -/
def assignRoleInOrg (org role : Uuid) (principal : Principal) : Except AppError Directory := do
  a.requireOrg d.tenantId org "ridm:orgs:write"
  d.getRole role
  a.canGrant (some org) (d.permissionsOfGrant (.role role))
  d.assignInOrg org role principal

/-- `roles::add_composite`. -/
def addComposite (role child : Uuid) : Except AppError Directory := do
  a.require d.tenantId "ridm:roles:write"
  d.requireChangeable role
  d.getRole child
  a.requireCanGrant d (.role child)
  d.addComposite role child

/-- What `grant_permission` asks of a permission of a built-in resource server. -/
def requireHolds (p : Permission) (rs : ResourceServer) : Except AppError Unit :=
  if rs.builtIn then a.canGrant none [p.name] else .ok ()

/-- `roles::grant_permission`. -/
def grantPermission (role permission : Uuid) : Except AppError Directory := do
  a.require d.tenantId "ridm:resource-servers:write"
  let p ← d.getPermission permission
  let rs ← d.getServer p.resourceServerId
  a.requireHolds p rs
  d.grant role permission

/-- What a call answers: the tables it leaves, or an error. -/
def perform : AdminCall → Except AppError Directory
  | .createGroup id input => do
      a.require d.tenantId "ridm:groups:write"
      d.createGroup id input
  | .updateGroup group patch => do
      a.require d.tenantId "ridm:groups:write"
      d.updateGroup group patch
  | .addMember group user => a.putMember d "ridm:groups:write" group user
  | .joinGroup user group => a.putMember d "ridm:users:write" group user
  | .assignUserRole user role => a.assignUserRole d user role
  | .assignGroupRole group role => a.assignGroupRole d group role
  | .assignUserRoleInOrg org user role => a.assignRoleInOrg d org role (.user user)
  | .assignGroupRoleInOrg org group role => a.assignRoleInOrg d org role (.group group)
  | .addComposite role child => a.addComposite d role child
  | .grantPermission role permission => a.grantPermission d role permission

end AdminCtx

end Ridm.Roles
