import Ridm.Roles.AdminCalls

/-!
# What users hold

The queries of the directory as relations over its rows.  A user holds an admin permission when some
assignment that counts gives the user a role that carries it (`mem_permissionsOfUser`); what
`permissions_of_grant` lists is what the grant carries (`mem_permissionsOfGrant_role`,
`mem_permissionsOfGrant_group`).
-/

namespace Ridm.Roles

open Paths (Steps searchDown)

namespace Directory

variable (d : Directory)

/-! ## Relations -/

/-- One group is right above another. -/
def Above (a b : Uuid) : Prop := b ∈ d.parents a

/-- An admin permission is granted to a role itself. -/
def Bears (role : Uuid) (n : String) : Prop :=
  ∃ s ∈ d.findAdminServer, ∃ p ∈ d.permissions, p.resourceServerId = s.id ∧ p.name = n ∧
    ⟨role, p.id⟩ ∈ d.grants

instance (role : Uuid) (n : String) : Decidable (d.Bears role n) :=
  inferInstanceAs (Decidable (∃ s ∈ d.findAdminServer, ∃ p ∈ d.permissions,
    p.resourceServerId = s.id ∧ p.name = n ∧ ⟨role, p.id⟩ ∈ d.grants))

/-- A role has an admin permission, of its own or through its composites. -/
def Carries (role : Uuid) (n : String) : Prop :=
  ∃ k ≤ 64, ∃ r, Steps (d.roles.Contains d.tenantId) k role r ∧ d.Bears r n

/-- A user is in a group, so many levels below it. -/
def InGroup (user g : Uuid) (k : ℕ) : Prop := ∃ m, ⟨m, user⟩ ∈ d.members ∧ Steps d.Above k m g

/-- A role that is assigned to the group itself carries the permission. -/
def GroupCarries (g : Uuid) (scope : OrgScope) (n : String) : Prop :=
  ∃ a ∈ d.assignments, a.principal = .group g ∧ scope.counts a.orgId = true ∧ d.Carries a.roleId n

/-- A user has an admin permission where assignments of a scope count. -/
def Holds (user : Uuid) (scope : OrgScope) (n : String) : Prop :=
  (∃ a ∈ d.assignments, a.principal = .user user ∧ scope.counts a.orgId = true ∧ d.Carries a.roleId n) ∨
    ∃ g, ∃ k ≤ 64, d.InGroup user g k ∧ d.GroupCarries g scope n

variable {d} {user role g : Uuid} {scope : OrgScope} {n : String}

/-! ## What the queries find -/

lemma findGroup_isSome : (d.findGroup g).isSome = true ↔ g ∈ d.groups.map Group.id := by
  simp [findGroup]

lemma findGroup_eq_none : d.findGroup g = none ↔ g ∉ d.groups.map Group.id := by
  simp [findGroup]

lemma findGroup_id {o : Group} (h : d.findGroup g = some o) : o.id = g := by
  have := List.find?_some h
  exact beq_iff_eq.mp this

variable {roleIds : List Uuid} {a b : Uuid}

lemma above_iff : d.Above a b ↔ ∃ o, d.findGroup a = some o ∧ o.parentId = some b := by
  simp [Above, parents, Option.bind_eq_some_iff]

lemma Above.exists (h : d.Above a b) : b ∈ d.groups.map Group.id := by
  obtain ⟨o, ho, hb⟩ := above_iff.mp h
  exact d.parentKey o (List.mem_of_find?_eq_some ho) b hb

lemma mem_userGroups : g ∈ d.userGroups user ↔ ∃ k ≤ 64, d.InGroup user g k := by
  rw [userGroups, Paths.mem_searchDown]
  constructor
  · rintro ⟨m, hm, k, hk, hsteps⟩
    obtain ⟨row, hrow, rfl⟩ := List.mem_map.mp hm
    obtain ⟨hmember, huser⟩ := List.mem_filter.mp hrow
    obtain rfl := beq_iff_eq.mp huser
    exact ⟨k, hk, row.of, hmember, hsteps⟩
  · rintro ⟨k, hk, m, hm, hsteps⟩
    exact ⟨m, List.mem_map.mpr ⟨_, List.mem_filter.mpr ⟨hm, beq_self_eq_true user⟩, rfl⟩, k, hk, hsteps⟩

lemma mem_ancestorIds {a : Uuid} (ha : a ∈ d.groups.map Group.id) :
    g ∈ d.ancestorIds a ↔ ∃ k ≤ 64, Steps d.Above k a g := by
  rw [ancestorIds, if_pos (findGroup_isSome.mpr ha), Paths.mem_searchDown]
  simp only [List.mem_singleton, exists_eq_left]
  rfl

lemma mem_permissionsForRoles {server : Uuid} :
    n ∈ d.permissionsForRoles server roleIds ↔ ∃ p ∈ d.permissions, p.resourceServerId = server ∧
      p.name = n ∧ ∃ r ∈ roleIds, ⟨r, p.id⟩ ∈ d.grants := by
  simp only [permissionsForRoles, List.mem_insertionSort, List.mem_dedup, List.mem_map, List.mem_filter,
    Bool.and_eq_true, List.any_eq_true, beq_iff_eq, List.contains_iff_mem]
  constructor
  · rintro ⟨p, ⟨hp, hserver, ⟨r, _⟩, hgrant, rfl, hr⟩, rfl⟩
    exact ⟨p, hp, hserver, rfl, r, hr, hgrant⟩
  · rintro ⟨p, hp, hserver, rfl, r, hr, hgrant⟩
    exact ⟨p, ⟨hp, hserver, _, hgrant, rfl, hr⟩, rfl⟩

lemma mem_permissionsForRoles_admin {s : ResourceServer} (hs : d.findAdminServer = some s)
    : n ∈ d.permissionsForRoles s.id roleIds ↔ ∃ r ∈ roleIds, d.Bears r n := by
  rw [mem_permissionsForRoles]
  constructor
  · rintro ⟨p, hp, hserver, hname, r, hr, hgrant⟩
    exact ⟨r, hr, s, hs, p, hp, hserver, hname, hgrant⟩
  · rintro ⟨r, hr, s', hs', p, hp, hserver, hname, hgrant⟩
    obtain rfl := Option.some.inj (hs.symm.trans hs')
    exact ⟨p, hp, hserver, hname, r, hr, hgrant⟩

lemma findAdminServer_some : ∃ s, d.findAdminServer = some s := by
  obtain ⟨s, hs, hid⟩ := d.adminServer
  exact Option.isSome_iff_exists.mp (List.find?_isSome.mpr ⟨s, hs, beq_iff_eq.mpr hid⟩)

lemma hasRole_iff : d.hasRole role = true ↔ (d.tenantId, role) ∈ d.roles.roles := by
  simp [hasRole]

lemma hasRole_of_steps {r : Uuid} {k : ℕ} (h : Steps (d.roles.Contains d.tenantId) k role r)
    (hrole : d.hasRole role = true) : d.hasRole r = true :=
  h.end_of (p := fun r => d.hasRole r = true)
    (fun _ _ hab => hasRole_iff.mpr (d.roles.foreignKeys _ hab).2) hrole

lemma children_graph : (fun a b => b ∈ d.children a) = d.roles.Contains d.tenantId := by
  funext a b
  exact propext mem_childRoles

lemma exists_searchDown_bears :
    (∃ r ∈ searchDown d.children 64 roleIds, d.Bears r n) ↔ ∃ role ∈ roleIds, d.Carries role n := by
  constructor
  · rintro ⟨r, hr, hbears⟩
    obtain ⟨role, hrole, k, hk, hsteps⟩ := Paths.mem_searchDown.mp hr
    exact ⟨role, hrole, k, hk, r, children_graph (d := d) ▸ hsteps, hbears⟩
  · rintro ⟨role, hrole, k, hk, r, hsteps, hbears⟩
    refine ⟨r, Paths.mem_searchDown.mpr ⟨role, hrole, k, hk, ?_⟩, hbears⟩
    rwa [children_graph]

/-! ## What a user holds -/

lemma mem_directRoles : role ∈ d.directRoles user scope ↔ ∃ a ∈ d.assignments, a.roleId = role ∧
    scope.counts a.orgId = true ∧
      (a.principal = .user user ∨ ∃ g, (∃ k ≤ 64, d.InGroup user g k) ∧ a.principal = .group g) := by
  simp only [directRoles, List.mem_map, List.mem_filter, Bool.and_eq_true, Bool.or_eq_true,
    beq_iff_eq, List.any_eq_true, mem_userGroups]
  constructor
  · rintro ⟨a, ⟨ha, hwho, hcounts⟩, hrole⟩
    exact ⟨a, ha, hrole, hcounts, hwho⟩
  · rintro ⟨a, ha, hrole, hcounts, hwho⟩
    exact ⟨a, ⟨ha, hwho, hcounts⟩, hrole⟩

lemma exists_directRoles_carries : (∃ role ∈ d.directRoles user scope, d.Carries role n) ↔
    d.Holds user scope n := by
  constructor
  · rintro ⟨role, hrole, hcarries⟩
    obtain ⟨a, ha, rfl, hcounts, huser | ⟨g, ⟨k, hk, hin⟩, hgroup⟩⟩ := mem_directRoles.mp hrole
    · exact .inl ⟨a, ha, huser, hcounts, hcarries⟩
    · exact .inr ⟨g, k, hk, hin, a, ha, hgroup, hcounts, hcarries⟩
  · rintro (⟨a, ha, huser, hcounts, hcarries⟩ | ⟨g, k, hk, hin, a, ha, hgroup, hcounts, hcarries⟩)
    · exact ⟨_, mem_directRoles.mpr ⟨a, ha, rfl, hcounts, .inl huser⟩, hcarries⟩
    · exact ⟨_, mem_directRoles.mpr ⟨a, ha, rfl, hcounts, .inr ⟨g, ⟨k, hk, hin⟩, hgroup⟩⟩, hcarries⟩

lemma effectiveRoles_eq : d.effectiveRoles user scope =
    searchDown d.children 64 (d.directRoles user scope) := by
  refine List.filter_eq_self.mpr fun r hr => ?_
  obtain ⟨role, hrole, k, -, hsteps⟩ := Paths.mem_searchDown.mp hr
  obtain ⟨a, ha, rfl, -⟩ := mem_directRoles.mp hrole
  rw [children_graph] at hsteps
  exact hasRole_of_steps hsteps (hasRole_iff.mpr (d.assignedRoleKey a ha))

lemma exists_effectiveRoles_bears :
    (∃ r ∈ d.effectiveRoles user scope, d.Bears r n) ↔ d.Holds user scope n := by
  rw [effectiveRoles_eq, exists_searchDown_bears, exists_directRoles_carries]

/-- **The admin permissions of a user.**  They are always found, and are those the user holds. -/
theorem mem_permissionsOfUser (d : Directory) (user : Uuid) (scope : OrgScope) :
    ∃ s, d.permissionsOfUser user scope = .ok s ∧ ∀ n, n ∈ s.names ↔ d.Holds user scope n := by
  obtain ⟨server, hserver⟩ := d.findAdminServer_some
  cases hempty : (d.effectiveRoles user scope).isEmpty with
  | true =>
      refine ⟨.empty, by simp [permissionsOfUser, hempty], fun n => ?_⟩
      rw [← exists_effectiveRoles_bears, List.isEmpty_iff.mp hempty]
      simp [PermissionSet.empty]
  | false =>
      refine ⟨.new (d.permissionsForRoles server.id (d.effectiveRoles user scope)), ?_, fun n => ?_⟩
      · simp [permissionsOfUser, hempty, hserver, orError, bind, Except.bind]
      · rw [PermissionSet.mem_new, mem_permissionsForRoles_admin hserver, exists_effectiveRoles_bears]

/-! ## What a grant carries -/

lemma mem_permissionsOfRoles (hroles : ∀ r ∈ roleIds, d.hasRole r = true)
    {server : ResourceServer} (hserver : d.findAdminServer = some server) :
    n ∈ d.permissionsForRoles server.id (d.expandComposites roleIds) ↔
      ∃ role ∈ roleIds, d.Carries role n := by
  rw [mem_permissionsForRoles_admin hserver, expandComposites, List.filter_eq_self.mpr hroles,
    exists_searchDown_bears]

/-- **What a role carries.** -/
theorem mem_permissionsOfGrant_role (hrole : d.hasRole role = true) :
    n ∈ d.permissionsOfGrant (.role role) ↔ d.Carries role n := by
  obtain ⟨server, hserver⟩ := d.findAdminServer_some
  have hroles : ∀ r ∈ [role], d.hasRole r = true := by
    intro r hr
    rwa [List.mem_singleton.mp hr]
  have := mem_permissionsOfRoles (n := n) hroles hserver
  simpa [permissionsOfGrant, hserver] using this

lemma mem_roleIdsOfGroupLineage (hg : g ∈ d.groups.map Group.id) :
    role ∈ d.roleIdsOfGroupLineage g ↔
      ∃ a ∈ d.assignments, a.roleId = role ∧ ∃ k ≤ 64, ∃ q, Steps d.Above k g q ∧ a.principal = .group q := by
  simp only [roleIdsOfGroupLineage, List.mem_map, List.mem_filter, List.any_eq_true, beq_iff_eq,
    mem_ancestorIds hg]
  constructor
  · rintro ⟨a, ⟨ha, q, ⟨k, hk, hsteps⟩, hq⟩, hrole⟩
    exact ⟨a, ha, hrole, k, hk, q, hsteps, hq⟩
  · rintro ⟨a, ha, hrole, k, hk, q, hsteps, hq⟩
    exact ⟨a, ⟨ha, q, ⟨k, hk, hsteps⟩, hq⟩, hrole⟩

/-- **What membership of a group carries**: what it and the groups above it do, whatever organization
the assignment is for. -/
theorem mem_permissionsOfGrant_group (hg : g ∈ d.groups.map Group.id) :
    n ∈ d.permissionsOfGrant (.group g) ↔
      ∃ k ≤ 64, ∃ q, Steps d.Above k g q ∧ d.GroupCarries q .anywhere n := by
  obtain ⟨server, hserver⟩ := d.findAdminServer_some
  have hroles : ∀ r ∈ d.roleIdsOfGroupLineage g, d.hasRole r = true := by
    intro r hr
    obtain ⟨a, ha, rfl, -⟩ := (mem_roleIdsOfGroupLineage hg).mp hr
    exact hasRole_iff.mpr (d.assignedRoleKey a ha)
  have hmem : n ∈ d.permissionsOfGrant (.group g) ↔ ∃ r ∈ d.roleIdsOfGroupLineage g, d.Carries r n := by
    simp only [permissionsOfGrant, hserver]
    split_ifs with hempty
    · simp [List.isEmpty_iff.mp hempty]
    · exact mem_permissionsOfRoles hroles hserver
  rw [hmem]
  constructor
  · rintro ⟨r, hr, hcarries⟩
    obtain ⟨a, ha, rfl, k, hk, q, hsteps, hq⟩ := (mem_roleIdsOfGroupLineage hg).mp hr
    exact ⟨k, hk, q, hsteps, a, ha, hq, by cases a.orgId <;> rfl, hcarries⟩
  · rintro ⟨k, hk, q, hsteps, a, ha, hq, -, hcarries⟩
    exact ⟨_, (mem_roleIdsOfGroupLineage hg).mpr ⟨a, ha, rfl, k, hk, q, hsteps, hq⟩, hcarries⟩

end Directory

end Ridm.Roles
