import Ridm.Roles.Escalation

/-!
# What a grant brings

`require_can_grant` asks `permissions_of_grant` what a membership or an assignment hands out, before it is
made.  The query that finds a user's roles afterwards (`effective_roles`) is another one.  Whatever it finds
more is among the roles that the check expanded (`grant_is_expanded`): both walk the same levels of groups and
of composites, from the same start, and the check leaves no organization out.
-/

namespace Ridm.Roles

open Paths (Steps searchDown)

namespace Directory

variable (d : Directory)

/-- `direct` of `permissions_of_grant`: the roles a grant names. -/
def rolesNamed : Grant → List Uuid
  | .role id => [id]
  | .group id => d.roleIdsOfGroupLineage id

/-- `all` of `permissions_of_grant`: the roles it expands. -/
def rolesExpanded (grant : Grant) : List Uuid := d.expandComposites (d.rolesNamed grant)

/-- A grant made to a user: membership of a group, or a role, in one organization or without. -/
def give (user : Uuid) (org : Option Uuid) : Grant → Except AppError Directory
  | .group id => d.insertMember ⟨id, user⟩
  | .role id => d.insertAssignment ⟨id, .user user, org⟩

variable {d} {d' : Directory} {user g role r : Uuid} {org : Option Uuid} {scope : OrgScope}

lemma mem_expandComposites {roleIds : List Uuid} (hroles : ∀ r ∈ roleIds, d.hasRole r = true) :
    r ∈ d.expandComposites roleIds ↔
      ∃ role ∈ roleIds, ∃ k ≤ 64, Steps (d.roles.Contains d.tenantId) k role r := by
  rw [expandComposites, List.filter_eq_self.mpr hroles, Paths.mem_searchDown, children_graph]

lemma mem_effectiveRoles : r ∈ d.effectiveRoles user scope ↔
    ∃ role ∈ d.directRoles user scope, ∃ k ≤ 64, Steps (d.roles.Contains d.tenantId) k role r := by
  rw [effectiveRoles_eq, Paths.mem_searchDown, children_graph]

/-- **A new member** has the roles of the group and of those above it, and no others. -/
lemma directRoles_insertMember (h : d.insertMember ⟨g, user⟩ = .ok d')
    (hrole : role ∈ d'.directRoles user scope) :
    role ∈ d.directRoles user scope ∨ role ∈ d.roleIdsOfGroupLineage g := by
  unfold insertMember at h
  split_ifs at h with hgroup huser hmem <;> obtain rfl := Except.ok.inj h
  · exact .inl hrole
  · obtain ⟨a, ha, rfl, hcounts, hwho⟩ := mem_directRoles.mp hrole
    rcases hwho with hwho | ⟨q, ⟨k, hk, m, hm, hpath⟩, hwho⟩
    · exact .inl (mem_directRoles.mpr ⟨a, ha, rfl, hcounts, .inl hwho⟩)
    · rcases List.mem_cons.mp hm with heq | hm
      · obtain rfl : m = g := congrArg Membership.of heq
        exact .inr ((mem_roleIdsOfGroupLineage hgroup).mpr ⟨a, ha, rfl, k, hk, q, hpath, hwho⟩)
      · exact .inl (mem_directRoles.mpr ⟨a, ha, rfl, hcounts, .inr ⟨q, ⟨k, hk, m, hm, hpath⟩, hwho⟩⟩)

/-- **A new assignment** adds its role, and no other. -/
lemma directRoles_insertAssignment {asg : RoleAssignment} (h : d.insertAssignment asg = .ok d')
    (hrole : role ∈ d'.directRoles user scope) : role ∈ d.directRoles user scope ∨ role = asg.roleId := by
  unfold insertAssignment at h
  split_ifs at h with href hmem <;> obtain rfl := Except.ok.inj h
  · exact .inl hrole
  · obtain ⟨a, ha, rfl, hcounts, hwho⟩ := mem_directRoles.mp hrole
    rcases List.mem_cons.mp ha with rfl | ha
    · exact .inr rfl
    · exact .inl (mem_directRoles.mpr ⟨a, ha, rfl, hcounts, hwho⟩)

variable {grant : Grant} {n : String}

lemma hasRole_of_named (h : d.give user org grant = .ok d') :
    ∀ r ∈ d.rolesNamed grant, d.hasRole r = true := by
  intro r hr
  cases grant with
  | role id =>
      simp only [give, insertAssignment] at h
      split_ifs at h with href <;> exact List.mem_singleton.mp hr ▸ hasRole_iff.mpr href.1
  | group id =>
      have hgroup : id ∈ d.groups.map Group.id := by
        simp only [give, insertMember] at h
        split_ifs at h with hgroup <;> exact hgroup
      obtain ⟨a, ha, rfl, -⟩ := (mem_roleIdsOfGroupLineage hgroup).mp hr
      exact hasRole_iff.mpr (d.assignedRoleKey a ha)

lemma roles_give (h : d.give user org grant = .ok d') :
    d'.roles = d.roles ∧ d'.tenantId = d.tenantId := by
  cases grant with
  | role id =>
      simp only [give, insertAssignment] at h
      split_ifs at h <;> cases h <;> exact ⟨rfl, rfl⟩
  | group id =>
      simp only [give, insertMember] at h
      split_ifs at h <;> cases h <;> exact ⟨rfl, rfl⟩

lemma bears_give (h : d.give user org grant = .ok d') :
    d'.Bears r n ↔ d.Bears r n := by
  cases grant with
  | role id =>
      simp only [give, insertAssignment] at h
      split_ifs at h <;> cases h <;> exact Iff.rfl
  | group id =>
      simp only [give, insertMember] at h
      split_ifs at h <;> cases h <;> exact Iff.rfl

lemma directRoles_give (h : d.give user org grant = .ok d')
    (hrole : role ∈ d'.directRoles user scope) :
    role ∈ d.directRoles user scope ∨ role ∈ d.rolesNamed grant := by
  cases grant with
  | role id =>
      rcases directRoles_insertAssignment h hrole with hold | rfl
      · exact .inl hold
      · exact .inr (List.mem_singleton_self _)
  | group id => exact directRoles_insertMember h hrole

/-- **What a grant adds** to the effective roles of a user is what the check expands. -/
lemma effectiveRoles_give (h : d.give user org grant = .ok d')
    (hr : r ∈ d'.effectiveRoles user scope) :
    r ∈ d.effectiveRoles user scope ∨ r ∈ d.rolesExpanded grant := by
  obtain ⟨role, hrole, k, hk, hpath⟩ := mem_effectiveRoles.mp hr
  rw [(roles_give h).1, (roles_give h).2] at hpath
  rcases directRoles_give h hrole with hold | hnamed
  · exact .inl (mem_effectiveRoles.mpr ⟨role, hold, k, hk, hpath⟩)
  · exact .inr ((mem_expandComposites (hasRole_of_named h)).mpr ⟨role, hnamed, k, hk, hpath⟩)

lemma mem_permissionsOfGrant :
    n ∈ d.permissionsOfGrant grant ↔ ∃ r ∈ d.rolesExpanded grant, d.Bears r n := by
  obtain ⟨server, hserver⟩ := d.findAdminServer_some
  have hnamed : d.permissionsOfGrant grant =
      if (d.rolesNamed grant).isEmpty then [] else d.permissionsForRoles server.id (d.rolesExpanded grant) := by
    cases grant <;> simp [permissionsOfGrant, hserver, rolesNamed, rolesExpanded]
  rw [hnamed]
  split_ifs with hempty
  · have hnone : ∀ k, searchDown d.children k [] = [] := by
      intro k
      induction k with
      | zero => rfl
      | succ k ih => simpa [searchDown] using ih
    simp [rolesExpanded, expandComposites, List.isEmpty_iff.mp hempty, hnone]
  · exact mem_permissionsForRoles_admin hserver

end Directory

/-- **The check sees what a grant brings.**  Of the roles a user has when a membership or an assignment is
made, tenant-wide, in any organization or anywhere, those that are new are among the roles the check
expanded; and so are the admin permissions that are new among those it asked for. -/
theorem grant_is_expanded {d d' : Directory} {user : Uuid} {org : Option Uuid} {grant : Grant}
    (h : d.give user org grant = .ok d') (scope : OrgScope) :
    (∀ r ∈ d'.effectiveRoles user scope, r ∈ d.effectiveRoles user scope ∨ r ∈ d.rolesExpanded grant) ∧
      ∃ s s', d.permissionsOfUser user scope = .ok s ∧ d'.permissionsOfUser user scope = .ok s' ∧
        ∀ n ∈ s'.names, n ∈ s.names ∨ n ∈ d.permissionsOfGrant grant := by
  refine ⟨fun r hr => Directory.effectiveRoles_give h hr, ?_⟩
  obtain ⟨s, hs, hmem⟩ := d.mem_permissionsOfUser user scope
  obtain ⟨s', hs', hmem'⟩ := d'.mem_permissionsOfUser user scope
  refine ⟨s, s', hs, hs', fun n hn => ?_⟩
  rw [hmem', ← Directory.exists_effectiveRoles_bears] at hn
  obtain ⟨r, hr, hbears⟩ := hn
  have hbefore : d.Bears r n := (Directory.bears_give h).mp hbears
  rcases Directory.effectiveRoles_give h hr with hold | hnew
  · exact .inl ((hmem n).mpr (Directory.exists_effectiveRoles_bears.mp ⟨r, hold, hbefore⟩))
  · exact .inr (Directory.mem_permissionsOfGrant.mpr ⟨r, hnew, hbefore⟩)

/-- User 2 joins the group of owners. -/
theorem grant_is_expanded_owners : ∃ d d', adminMachine.run sampleDirectory sampleCalls = some d ∧
    d.give 2 none (.group 20) = .ok d' ∧
    (∀ r ∈ d'.effectiveRoles 2 .anywhere, r ∈ d.effectiveRoles 2 .anywhere ∨
      r ∈ d.rolesExpanded (.group 20)) ∧
    ∃ s s', d.permissionsOfUser 2 .anywhere = .ok s ∧ d'.permissionsOfUser 2 .anywhere = .ok s' ∧
      ∀ n ∈ s'.names, n ∈ s.names ∨ n ∈ d.permissionsOfGrant (.group 20) := by
  obtain ⟨d, hrun, hgive⟩ := Machine.exists_run_of_any 
    (p := fun d : Directory => (d.give 2 none (.group 20)).toOption.isSome)
    (show (adminMachine.run sampleDirectory sampleCalls).any
      (fun d => (d.give 2 none (.group 20)).toOption.isSome) = true by decide +kernel)
  obtain ⟨d', hd'⟩ := Option.isSome_iff_exists.mp hgive
  exact ⟨d, d', hrun, toOption_eq_some.mp hd', grant_is_expanded (toOption_eq_some.mp hd') .anywhere⟩

end Ridm.Roles
