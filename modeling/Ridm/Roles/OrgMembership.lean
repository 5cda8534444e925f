import Ridm.Roles.GrantExpansion

/-!
# Roles within an organization

A role may be granted within one organization, and applies to sessions that act in it.  Here are the calls
that membership and such grants go through (`api/src/services/organizations.rs`), beside the sign-ins that
choose an organization (`services/flows.rs`) and the token endpoint, which resolves the roles again for every
token (`load_subject` of `oidc/token.rs`).

An organization is chosen among those the user belongs to, and the session, the codes issued on it and the
refresh tokens after them remember the choice.  Nothing asks again, and `remove_member` deletes the row of the
membership and no assignment.  So a role granted within an organization outlives the membership
(`roles_outlive_membership`); `org_roles_end_iff` says in which runs none does.
-/

namespace Ridm.Roles

open Paths (Steps)

/-! ## Rows -/

namespace Directory

variable (d : Directory)

/-- `repos::organizations::add_member`, of a membership that is not there. -/
def insertOrgMember (m : Membership) : Directory := { d with orgMembers := m :: d.orgMembers }

/-- `repos::organizations::remove_member`. -/
def deleteOrgMember (m : Membership) : Directory :=
  { d with orgMembers := d.orgMembers.filter fun o => o != m }

/-- `repos::roles::unassign`. -/
def deleteAssignment (a : RoleAssignment) : Directory :=
  { d with
    assignments := d.assignments.filter fun b => b != a
    assignedGroupKey := fun b hb => d.assignedGroupKey b (List.mem_filter.mp hb).1
    assignedRoleKey := fun b hb => d.assignedRoleKey b (List.mem_filter.mp hb).1 }

/-- What `organizations::add_member` looks up. -/
def checkMember (m : Membership) : Except AppError Unit := do
  require (.notFound "organization") (d.organizations.contains m.of)
  require (.notFound "user") (d.hasUser m.userId)

/-- The assignments to a user within an organization. -/
def grantsWithin (m : Membership) : List RoleAssignment :=
  d.assignments.filter fun a => a.principal == .user m.userId && a.orgId == some m.of

/-- `repos::organizations::of_user`. -/
def orgsOfUser (userId : Uuid) : List Uuid :=
  (d.orgMembers.filter fun m => m.userId == userId).map Membership.of

end Directory

/-- The scope in which roles are resolved for an `org_id`. -/
def OrgScope.ofOrg : Option Uuid → OrgScope
  | none => .tenantWide
  | some org => .inOrg org

/-! ## Sign-ins and tokens -/

/-- `SsoSession`, as far as it decides the organization; whether its flow is at the step that asks for one. -/
structure OrgSession where
  userId : Uuid
  orgId : Option Uuid
  asked : Bool

/-- `organization_pending`: `orgs` are those to choose from, `wanted` is the one the request names. -/
def OrgSession.settle (x : OrgSession) (orgs : List Uuid) (wanted : Option Uuid) : OrgSession :=
  if x.orgId.isSome then { x with asked := false }
  else match orgs with
    | [] => { x with asked := false }
    | [only] => { x with orgId := some only, asked := false }
    | _ =>
        if wanted.any orgs.contains then { x with orgId := wanted, asked := false }
        else { x with asked := true }

/-- What an `AuthCode` or a refresh token remembers. -/
structure OrgRecord where
  userId : Uuid
  orgId : Option Uuid

/-- An access token: whose it is, the roles it is issued with, and the tables as they were. -/
structure OrgToken where
  userId : Uuid
  roles : List Uuid
  tables : Directory

/-- A membership that was removed, and the assignments within the organization the user had. -/
structure Removal where
  member : Membership
  grants : List RoleAssignment

/-- A tenant.  The last three fields are what a run leaves to look back on: the tokens issued, the memberships
removed, and the assignments that were there from before a removal when the user joined again. -/
structure OrgState where
  tables : Directory
  disabled : List Uuid
  inactive : List Uuid
  sessions : List OrgSession
  records : List OrgRecord
  issued : List OrgToken
  removals : List Removal
  returned : List RoleAssignment

/-- A request; `joins` is the organization whose verified domain the user's address is at. -/
inductive OrgCall
  | addMember (m : Membership)
  | removeMember (m : Membership)
  | assignRole (org role : Uuid) (principal : Principal)
  | unassignRole (org role : Uuid) (principal : Principal)
  | signIn (user : Uuid) (joins wanted : Option Uuid)
  | continueFlow (session : ℕ) (wanted : Option Uuid)
  | pickOrganization (session : ℕ) (org : Uuid)
  | issueCode (session : ℕ)
  | redeem (record : ℕ) (refresh : Bool)

namespace OrgState

variable (s : OrgState)

/-- The user may sign in. -/
def active (user : Uuid) : Bool := s.tables.hasUser user && !s.inactive.contains user

/-- `selectable_organizations`. -/
def selectable (user : Uuid) : List Uuid := (s.tables.orgsOfUser user).filter fun o => !s.disabled.contains o

/-- A membership is made: nothing is done where it is there. -/
def join (m : Membership) : OrgState :=
  if m ∈ s.tables.orgMembers then s
  else { s with
    tables := s.tables.insertOrgMember m
    returned := (s.tables.grantsWithin m).filter (fun a =>
      s.removals.any fun x => x.member == m && x.grants.contains a) ++ s.returned }

/-- A membership is removed. -/
def leave (m : Membership) : OrgState :=
  if m ∈ s.tables.orgMembers then
    { s with tables := s.tables.deleteOrgMember m, removals := ⟨m, s.tables.grantsWithin m⟩ :: s.removals }
  else s

/-- `ensure_auto_join`. -/
def autoJoin (user : Uuid) : Option Uuid → OrgState
  | none => s
  | some org => s.join ⟨org, user⟩

/-- The token endpoint, with the code or the refresh token it takes. -/
def token (r : OrgRecord) (refresh : Bool) (others : List OrgRecord) : OrgState :=
  if s.active r.userId then
    { s with
      records := others ++ (if refresh then [r] else [])
      issued := ⟨r.userId, s.tables.effectiveRoles r.userId (.ofOrg r.orgId), s.tables⟩ :: s.issued }
  else { s with records := others }

/-- What a request leaves; one that is refused leaves everything as it was. -/
def perform : OrgCall → OrgState
  | .addMember m => if (s.tables.checkMember m).toOption.isSome then s.join m else s
  | .removeMember m => s.leave m
  | .assignRole org role principal =>
      ((s.tables.assignInOrg org role principal).toOption.map fun d => { s with tables := d }).getD s
  | .unassignRole org role principal =>
      { s with tables := s.tables.deleteAssignment ⟨role, principal, some org⟩ }
  | .signIn user joins wanted =>
      if s.active user then
        let t := s.autoJoin user joins
        { t with sessions := t.sessions ++ [OrgSession.settle ⟨user, none, false⟩ (t.selectable user) wanted] }
      else s
  | .continueFlow i wanted =>
      { s with sessions := s.sessions.modify i fun x => x.settle (s.selectable x.userId) wanted }
  | .pickOrganization i org =>
      { s with sessions := s.sessions.modify i fun x =>
          if x.asked && (s.selectable x.userId).contains org then { x with orgId := some org, asked := false }
          else x }
  | .issueCode i => { s with records := s.records ++ (s.sessions[i]?.map fun x => ⟨x.userId, x.orgId⟩).toList }
  | .redeem j refresh => (s.records[j]?.map fun r => s.token r refresh (s.records.eraseIdx j)).getD s

end OrgState

/-- A tenant under requests. -/
def orgMachine : Machine OrgState OrgCall where
  step s call := some (s.perform call)

/-! ## Which roles a user has within an organization only -/

namespace Directory

variable (d : Directory) {user org r : Uuid} {scope : OrgScope}

/-- A role the user has within this organization, and neither tenant-wide nor within another. -/
def OnlyWithin (user org r : Uuid) : Prop :=
  r ∈ d.effectiveRoles user (.inOrg org) ∧ r ∉ d.effectiveRoles user .tenantWide ∧
    ∀ other, other ≠ org → r ∉ d.effectiveRoles user (.inOrg other)

/-- An assignment gives the user a role: it is to the user or to a group above one the user is in, and its role
is this one or contains it. -/
def Gives (user : Uuid) (a : RoleAssignment) (r : Uuid) : Prop :=
  a ∈ d.assignments ∧
    (a.principal = .user user ∨ ∃ g, (∃ k ≤ 64, d.InGroup user g k) ∧ a.principal = .group g) ∧
    ∃ k ≤ 64, Steps (d.roles.Contains d.tenantId) k a.roleId r

/-- What assignments within the organization give the user, others give as well. -/
def Bare (user org : Uuid) : Prop :=
  ∀ a r, d.Gives user a r → a.orgId = some org → ∃ b, d.Gives user b r ∧ b.orgId ≠ some org

variable {d}

lemma mem_effectiveRoles_iff_gives : r ∈ d.effectiveRoles user scope ↔
    ∃ a, d.Gives user a r ∧ scope.counts a.orgId = true := by
  rw [mem_effectiveRoles]
  constructor
  · rintro ⟨role, hrole, hpath⟩
    obtain ⟨a, ha, rfl, hcounts, hwho⟩ := mem_directRoles.mp hrole
    exact ⟨a, ⟨ha, hwho, hpath⟩, hcounts⟩
  · rintro ⟨a, ⟨ha, hwho, hpath⟩, hcounts⟩
    exact ⟨a.roleId, mem_directRoles.mpr ⟨a, ha, rfl, hcounts, hwho⟩, hpath⟩

lemma onlyWithin_iff : d.OnlyWithin user org r ↔
    (∃ a, d.Gives user a r ∧ a.orgId = some org) ∧ ∀ a, d.Gives user a r → a.orgId = some org := by
  simp only [OnlyWithin, mem_effectiveRoles_iff_gives]
  constructor
  · rintro ⟨⟨a, hgives, hcounts⟩, hwide, hother⟩
    have hall : ∀ b, d.Gives user b r → b.orgId = some org := by
      intro b hb
      cases horg : b.orgId with
      | none => exact absurd ⟨b, hb, by rw [horg]; rfl⟩ hwide
      | some o =>
          by_contra hne
          refine hother o (fun heq => hne (heq ▸ rfl)) ⟨b, hb, ?_⟩
          rw [horg]
          exact beq_self_eq_true o
    exact ⟨⟨a, hgives, hall a hgives⟩, hall⟩
  · rintro ⟨⟨a, hgives, horg⟩, hall⟩
    refine ⟨⟨a, hgives, ?_⟩, ?_, ?_⟩
    · rw [horg]
      exact beq_self_eq_true org
    · rintro ⟨b, hb, hcounts⟩
      rw [hall b hb] at hcounts
      cases hcounts
    · rintro other hne ⟨b, hb, hcounts⟩
      rw [hall b hb] at hcounts
      exact hne (beq_iff_eq.mp hcounts).symm

lemma bare_iff : d.Bare user org ↔ ∀ r, ¬ d.OnlyWithin user org r := by
  constructor
  · intro hbare r honly
    obtain ⟨⟨a, hgives, horg⟩, hall⟩ := onlyWithin_iff.mp honly
    obtain ⟨b, hb, hne⟩ := hbare a r hgives horg
    exact hne (hall b hb)
  · intro hnone a r hgives horg
    by_contra hno
    push Not at hno
    exact hnone r (onlyWithin_iff.mpr ⟨⟨a, hgives, horg⟩, hno⟩)

end Directory

/-! ## The rule, and when it is kept -/

namespace OrgState

variable (s : OrgState)

/-- Roles within an organization end with the membership: no token of a user who is not a member has a role
held within the organization only, and nobody who joined again got an assignment back. -/
structure RolesEnd : Prop where
  issued : ∀ t ∈ s.issued, ∀ org, (⟨org, t.userId⟩ : Membership) ∉ t.tables.orgMembers →
    ∀ r ∈ t.roles, ¬ t.tables.OnlyWithin t.userId org r
  returned : s.returned = []

/-- The membership a request is about to make. -/
def joining : OrgCall → Option Membership
  | .addMember m => if (s.tables.checkMember m).toOption.isSome then some m else none
  | .signIn user joins _ => if s.active user then joins.map fun org => ⟨org, user⟩ else none
  | _ => none

/-- The code or refresh token a request is about to turn into a token. -/
def redeemed : OrgCall → Option OrgRecord
  | .redeem j _ => s.records[j]?.filter fun r => s.active r.userId
  | _ => none

/-- A removal that left nothing: who was removed and joins again has no assignment within the organization, and
who redeems what names an organization is a member or has by it nothing of its own. -/
structure LeftNothing (call : OrgCall) : Prop where
  joining : ∀ m ∈ s.joining call, m ∉ s.tables.orgMembers → (∃ x ∈ s.removals, x.member = m) →
    s.tables.grantsWithin m = []
  redeemed : ∀ r ∈ s.redeemed call, ∀ org ∈ r.orgId, (⟨org, r.userId⟩ : Membership) ∉ s.tables.orgMembers →
    s.tables.Bare r.userId org

/-- What somebody removed still has within the organization, they had when they were removed. -/
def Remembered : Prop :=
  ∀ m, m ∉ s.tables.orgMembers → (∃ x ∈ s.removals, x.member = m) →
    ∀ a ∈ s.tables.grantsWithin m, ∃ x ∈ s.removals, x.member = m ∧ a ∈ x.grants

variable {s} {t : OrgState} {m : Membership} {call : OrgCall}

lemma rolesEnd_congr (hissued : t.issued = s.issued) (hreturned : t.returned = s.returned) :
    t.RolesEnd ↔ s.RolesEnd := by
  constructor
  · intro h
    exact ⟨hissued ▸ h.issued, hreturned ▸ h.returned⟩
  · intro h
    exact ⟨hissued.symm ▸ h.issued, hreturned.symm ▸ h.returned⟩

lemma Remembered.of_le (h : s.Remembered) (hremovals : t.removals = s.removals)
    (hmembers : s.tables.orgMembers ⊆ t.tables.orgMembers)
    (hgrants : ∀ m, m ∉ t.tables.orgMembers → t.tables.grantsWithin m ⊆ s.tables.grantsWithin m) :
    t.Remembered := by
  intro m hout hremoved a ha
  rw [hremovals] at hremoved ⊢
  exact h m (fun hin => hout (hmembers hin)) hremoved a (hgrants m hout ha)

lemma remembered_join (h : s.Remembered) : (s.join m).Remembered := by
  unfold join
  split_ifs with hin
  · exact h
  · exact h.of_le rfl (List.subset_cons_self m _) fun _ _ => List.Subset.refl _

/-- **Joining again** brings nothing back exactly when there is nothing. -/
lemma rolesEnd_join_iff (hremembered : s.Remembered) (hends : s.RolesEnd) : (s.join m).RolesEnd ↔
    (m ∉ s.tables.orgMembers → (∃ x ∈ s.removals, x.member = m) → s.tables.grantsWithin m = []) := by
  unfold join
  split_ifs with hin
  · exact iff_of_true hends fun hout => absurd hin hout
  · constructor
    · intro h _ hremoved
      have hnone := h.returned
      simp only [List.append_eq_nil_iff, List.filter_eq_nil_iff] at hnone
      refine List.eq_nil_iff_forall_not_mem.mpr fun a ha => ?_
      obtain ⟨x, hx, hmember, hgrant⟩ := hremembered m hin hremoved a ha
      refine hnone.1 a ha (List.any_eq_true.mpr ⟨x, hx, ?_⟩)
      simp [hmember, hgrant]
    · intro h
      refine ⟨hends.issued, ?_⟩
      simp only [List.append_eq_nil_iff, List.filter_eq_nil_iff]
      refine ⟨fun a ha hback => ?_, hends.returned⟩
      obtain ⟨x, hx, hboth⟩ := List.any_eq_true.mp hback
      simp only [Bool.and_eq_true, beq_iff_eq] at hboth
      rw [h hin ⟨x, hx, hboth.1⟩] at ha
      exact List.not_mem_nil ha

lemma remembered_leave (h : s.Remembered) : (s.leave m).Remembered := by
  unfold leave
  split_ifs with hin
  · intro o hout hremoved a ha
    by_cases hsame : m = o
    · exact ⟨_, List.mem_cons_self, hsame, hsame ▸ ha⟩
    · have hout' : o ∉ s.tables.orgMembers := fun hmem =>
        hout (List.mem_filter.mpr ⟨hmem, bne_iff_ne.mpr (Ne.symm hsame)⟩)
      obtain ⟨x, hx, hmember⟩ := hremoved
      have hx' : x ∈ s.removals := by
        rcases List.mem_cons.mp hx with rfl | hx
        · exact absurd hmember hsame
        · exact hx
      obtain ⟨y, hy, hboth⟩ := h o hout' ⟨x, hx', hmember⟩ a ha
      exact ⟨y, List.mem_cons_of_mem _ hy, hboth⟩
  · exact h

lemma grantsWithin_assignInOrg {d d' : Directory} {org role : Uuid} {principal : Principal}
    (h : d.assignInOrg org role principal = .ok d') :
    d'.orgMembers = d.orgMembers ∧
      ∀ m, m ∉ d'.orgMembers → d'.grantsWithin m ⊆ d.grantsWithin m := by
  simp only [Directory.assignInOrg, bind_eq_ok, require_eq_ok] at h
  obtain ⟨_, -, _, -, _, hfind, hinsert⟩ := h
  unfold Directory.insertAssignment at hinsert
  split_ifs at hinsert with href hthere <;> obtain rfl := Except.ok.inj hinsert
  · exact ⟨rfl, fun m _ => List.Subset.refl _⟩
  · refine ⟨rfl, fun m hout a ha => ?_⟩
    obtain ⟨hmem, hwithin⟩ := List.mem_filter.mp ha
    rcases List.mem_cons.mp hmem with rfl | hmem
    · simp only [Bool.and_eq_true, beq_iff_eq, Option.some.injEq] at hwithin
      obtain ⟨rfl, rfl⟩ := hwithin
      rw [Directory.findInOrg, require_eq_ok, List.contains_iff_mem] at hfind
      exact absurd hfind hout
    · exact List.mem_filter.mpr ⟨hmem, hwithin⟩

/-- **One token.** -/
lemma rolesEnd_token_iff {r : OrgRecord} {refresh : Bool} {others : List OrgRecord} (hends : s.RolesEnd) :
    (s.token r refresh others).RolesEnd ↔ (s.active r.userId = true →
      ∀ org ∈ r.orgId, (⟨org, r.userId⟩ : Membership) ∉ s.tables.orgMembers → s.tables.Bare r.userId org) := by
  unfold token
  by_cases hactive : s.active r.userId = true
  · rw [if_pos hactive]
    constructor
    · intro h _ org horg hout
      refine Directory.bare_iff.mpr fun role honly => ?_
      refine h.issued _ List.mem_cons_self org hout role ?_ honly
      show role ∈ s.tables.effectiveRoles r.userId (.ofOrg r.orgId)
      rw [Option.mem_def.mp horg]
      exact honly.1
    · intro h
      refine ⟨?_, hends.returned⟩
      intro token htoken org hout role hrole honly
      rcases List.mem_cons.mp htoken with rfl | htoken
      · cases horg : r.orgId with
        | none =>
            have hrole : role ∈ s.tables.effectiveRoles r.userId (.ofOrg r.orgId) := hrole
            rw [horg] at hrole
            exact honly.2.1 hrole
        | some o =>
            have hrole : role ∈ s.tables.effectiveRoles r.userId (.ofOrg r.orgId) := hrole
            rw [horg] at hrole
            by_cases hsame : o = org
            · subst hsame
              exact Directory.bare_iff.mp (h hactive o horg hout) role honly
            · exact honly.2.2 o hsame hrole
      · exact hends.issued token htoken org hout role hrole honly
  · rw [if_neg hactive]
    refine iff_of_true ?_ fun h => absurd h hactive
    exact ⟨hends.issued, hends.returned⟩

lemma remembered_token (h : s.Remembered) (r : OrgRecord) (refresh : Bool) (others : List OrgRecord) :
    (s.token r refresh others).Remembered := by
  unfold token
  split_ifs <;> exact h

lemma leftNothing_of_none (hjoining : s.joining call = none) (hredeemed : s.redeemed call = none) :
    s.LeftNothing call where
  joining := by simp [hjoining]
  redeemed := by simp [hredeemed]

lemma step_of_congr (hends : s.RolesEnd) (hissued : t.issued = s.issued) (hreturned : t.returned = s.returned)
    (hjoining : s.joining call = none) (hredeemed : s.redeemed call = none) :
    t.RolesEnd ↔ s.LeftNothing call :=
  iff_of_true ((rolesEnd_congr hissued hreturned).mpr hends) (leftNothing_of_none hjoining hredeemed)

/-- **One request.** -/
lemma perform_step (hremembered : s.Remembered) (hends : s.RolesEnd) (call : OrgCall) :
    (s.perform call).Remembered ∧ ((s.perform call).RolesEnd ↔ s.LeftNothing call) := by
  cases call with
  | addMember m =>
      rw [perform]
      by_cases hcheck : (s.tables.checkMember m).toOption.isSome = true
      · rw [if_pos hcheck, rolesEnd_join_iff hremembered hends]
        refine ⟨remembered_join hremembered, ?_, fun h => h.joining m (by simp [joining, hcheck])⟩
        intro h
        exact ⟨by simpa [joining, hcheck] using h, by simp [redeemed]⟩
      · rw [if_neg hcheck]
        exact ⟨hremembered, step_of_congr hends rfl rfl (if_neg hcheck) rfl⟩
  | removeMember m =>
      refine ⟨remembered_leave hremembered, step_of_congr hends ?_ ?_ rfl rfl⟩ <;>
      · simp only [perform, leave]
        split_ifs <;> rfl
  | assignRole org role principal =>
      rw [perform]
      cases hassign : s.tables.assignInOrg org role principal with
      | error e => exact ⟨hremembered, step_of_congr hends rfl rfl rfl rfl⟩
      | ok d =>
          obtain ⟨hmembers, hgrants⟩ := grantsWithin_assignInOrg hassign
          refine ⟨hremembered.of_le rfl ?_ hgrants, step_of_congr hends rfl rfl rfl rfl⟩
          exact hmembers ▸ List.Subset.refl _
  | unassignRole org role principal =>
      refine ⟨hremembered.of_le rfl (List.Subset.refl _) fun m _ a ha => ?_, step_of_congr hends rfl rfl rfl rfl⟩
      obtain ⟨hmem, hwithin⟩ := List.mem_filter.mp ha
      exact List.mem_filter.mpr ⟨(List.mem_filter.mp hmem).1, hwithin⟩
  | signIn user joins wanted =>
      rw [perform]
      by_cases hactive : s.active user = true
      · rw [if_pos hactive]
        cases joins with
        | none => exact ⟨hremembered, step_of_congr hends rfl rfl (by simp [joining]) rfl⟩
        | some org =>
            have hjoin : (s.join ⟨org, user⟩).Remembered := remembered_join hremembered
            refine ⟨hjoin, Iff.trans (rolesEnd_congr (s := s.join ⟨org, user⟩) ?_ ?_)
              (Iff.trans (rolesEnd_join_iff hremembered hends) ?_)⟩
            · rfl
            · rfl
            · refine ⟨fun h => ⟨by simpa [joining, hactive] using h, by simp [redeemed]⟩, fun h => ?_⟩
              exact h.joining ⟨org, user⟩ (by simp [joining, hactive])
      · rw [if_neg hactive]
        exact ⟨hremembered, step_of_congr hends rfl rfl (if_neg hactive) rfl⟩
  | continueFlow i wanted => exact ⟨hremembered, step_of_congr hends rfl rfl rfl rfl⟩
  | pickOrganization i org => exact ⟨hremembered, step_of_congr hends rfl rfl rfl rfl⟩
  | issueCode i => exact ⟨hremembered, step_of_congr hends rfl rfl rfl rfl⟩
  | redeem j refresh =>
      rw [perform]
      cases hrecord : s.records[j]? with
      | none => exact ⟨hremembered, step_of_congr hends rfl rfl rfl (by simp [redeemed, hrecord])⟩
      | some r =>
          simp only [Option.map_some, Option.getD_some]
          refine ⟨remembered_token hremembered r refresh _, ?_⟩
          rw [rolesEnd_token_iff hends]
          constructor
          · intro h
            refine ⟨by simp [joining], fun r' hr' => ?_⟩
            rw [redeemed, hrecord, Option.mem_def, Option.filter_eq_some_iff, Option.some.injEq] at hr'
            obtain ⟨rfl, hactive⟩ := hr'
            exact h hactive
          · intro h hactive
            exact h.redeemed r (by simp [redeemed, hrecord, hactive])

end OrgState

/-- **When organization roles end with the membership.**  In every run that begins with no token to look back
on, however many sessions, codes and refresh tokens there are by then: in all states reached no token was issued
to a user outside an organization with a role held within it only, and nobody who joined again got back an
assignment from before, exactly when every removal had left nothing by the time somebody joins again or
redeems what names the organization. -/
theorem org_roles_end_iff {s s' : OrgState} {calls : List OrgCall} (hrun : orgMachine.run s calls = some s')
    (hissued : s.issued = []) (hremovals : s.removals = []) (hreturned : s.returned = []) :
    (∀ past rest t, calls = past ++ rest → orgMachine.run s past = some t → t.RolesEnd) ↔
      orgMachine.Meets OrgState.LeftNothing s calls := by
  refine Machine.always_iff_meets (I := OrgState.Remembered) (A := fun _ => True) ?_ (fun _ _ => trivial) hrun
    ?_ ⟨by simp [hissued], hreturned⟩
  · rintro t call t' - hremembered hends hstep
    obtain rfl := Option.some.inj hstep
    exact OrgState.perform_step hremembered hends call
  · rintro m - ⟨x, hx, -⟩
    rw [hremovals] at hx
    cases hx

/-! ## A member who leaves -/

def sampleOrg : OrgState where
  tables := { sampleDirectory with organizations := [50] }
  disabled := []
  inactive := []
  sessions := []
  records := []
  issued := []
  removals := []
  returned := []

def memberSignsIn : List OrgCall :=
  [.addMember ⟨50, 3⟩, .assignRole 50 11 (.user 3), .signIn 3 none none, .issueCode 0, .redeem 0 true]

def leavesNothing : List OrgCall :=
  memberSignsIn ++ [.unassignRole 50 11 (.user 3), .removeMember ⟨50, 3⟩, .addMember ⟨50, 3⟩, .redeem 0 true]

def leavesRole : List OrgCall :=
  memberSignsIn ++ [.removeMember ⟨50, 3⟩, .redeem 0 true, .addMember ⟨50, 3⟩]

def OrgState.keepsOrder (s : OrgState) (call : OrgCall) : Bool :=
  (s.joining call).all (fun m => (s.tables.grantsWithin m).isEmpty) &&
    (s.redeemed call).all fun r => r.orgId.all fun org => s.tables.orgMembers.contains ⟨org, r.userId⟩

lemma OrgState.leftNothing_of_keepsOrder {s : OrgState} {call : OrgCall} (h : s.keepsOrder call = true) :
    s.LeftNothing call := by
  rw [keepsOrder, Bool.and_eq_true, Option.all_eq_true, Option.all_eq_true] at h
  constructor
  · intro m hm _ _
    exact List.isEmpty_iff.mp (h.1 m hm)
  · intro r hr org horg hout
    have hall := (Option.all_eq_true _ _).mp (h.2 r hr) org horg
    exact absurd (List.contains_iff_mem.mp hall) hout

/-- Nothing is left, and nothing comes back. -/
theorem org_roles_end_in_order : ∃ s, orgMachine.run sampleOrg leavesNothing = some s ∧
    ∀ past rest t, leavesNothing = past ++ rest → orgMachine.run sampleOrg past = some t → t.RolesEnd := by
  have hany : (orgMachine.run sampleOrg leavesNothing).any (fun _ => true) = true := by decide +kernel
  obtain ⟨s, hrun, -⟩ := Machine.exists_run_of_any hany
  have hmeets : orgMachine.Meets (fun s call => s.keepsOrder call = true) sampleOrg leavesNothing := by
    decide +kernel
  exact ⟨s, hrun, (org_roles_end_iff hrun rfl rfl rfl).mpr
    (hmeets.mono OrgState.leftNothing_of_keepsOrder)⟩

def sampleOrgRows : List RoleAssignment :=
  [⟨11, .user 3, some 50⟩, ⟨10, .user 1, none⟩, ⟨11, .user 2, none⟩]

lemma onlyWithin_sampleOrgRows {d : Directory} (hrows : d.assignments = sampleOrgRows) :
    d.OnlyWithin 3 50 11 := by
  refine Directory.onlyWithin_iff.mpr ⟨⟨⟨11, .user 3, some 50⟩, ⟨?_, .inl rfl, 0, by omega, rfl⟩, rfl⟩, ?_⟩
  · rw [hrows]
    exact List.mem_cons_self
  · rintro a ⟨ha, hwho, -⟩
    rw [hrows] at ha
    simp only [sampleOrgRows, List.mem_cons, List.not_mem_nil, or_false] at ha
    rcases ha with rfl | rfl | rfl
    · rfl
    · simp at hwho
    · simp at hwho

/-- **Roles outlive the membership.**  A token refreshed after the removal has the role that user 3 was given
within the organization and has nowhere else; and it is theirs again as they join again. -/
theorem roles_outlive_membership : ∃ s, orgMachine.run sampleOrg leavesRole = some s ∧
    (∃ t ∈ s.issued, (⟨50, t.userId⟩ : Membership) ∉ t.tables.orgMembers ∧
      ∃ r ∈ t.roles, t.tables.OnlyWithin t.userId 50 r) ∧
    s.returned = [⟨11, .user 3, some 50⟩] := by
  have hany : (orgMachine.run sampleOrg leavesRole).any (fun s =>
      s.issued.any (fun t => t.userId == 3 && !t.tables.orgMembers.contains ⟨50, 3⟩ && t.roles.contains 11 &&
        t.tables.assignments == sampleOrgRows) && s.returned == [⟨11, .user 3, some 50⟩]) = true := by
    decide +kernel
  obtain ⟨s, hrun, hboth⟩ := Machine.exists_run_of_any hany
  simp only [Bool.and_eq_true, List.any_eq_true, beq_iff_eq, Bool.not_eq_true', List.contains_iff_mem] at hboth
  obtain ⟨⟨t, ht, ⟨⟨huser, hout⟩, hrole⟩, hrows⟩, hreturned⟩ := hboth
  refine ⟨s, hrun, ⟨t, ht, ?_, 11, hrole, ?_⟩, hreturned⟩
  · rw [huser]
    simpa using hout
  · rw [huser]
    exact onlyWithin_sampleOrgRows hrows

end Ridm.Roles
