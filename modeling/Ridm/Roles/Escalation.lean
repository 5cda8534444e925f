import Ridm.Roles.Holdings

/-!
# What a call lets others hold

`routes/admin/groups.rs` says that there is no escalation through groups.  Each route that hands
something out asks whether the administrator holds all that it carries; `groups::update`, which moves a
group under another and so gives its members what that one carries, does not ask.

`no_escalation_iff` is the exact condition over whole runs: a call that moves no group lets nobody hold
what neither they nor the administrator held, and one that moves a group does so exactly where the
members have that already or the administrator holds it.  In `move_escalates` a group is moved by an
administrator who may write groups and nothing else.
-/

namespace Ridm.Roles

open Paths (Steps Redirect)

/-! ## What must not happen -/

/-- What an administrator holds where assignments of a scope count. -/
def AdminCtx.holds (a : AdminCtx) (scope : OrgScope) (n : String) : Bool :=
  a.permissions.allows n ||
    match scope with
    | .tenantWide => false
    | .inOrg org => a.orgId == some org && a.orgPermissions.allows n
    | .anywhere => a.orgId.isSome && a.orgPermissions.allows n

/-- Every user's admin permissions afterwards are some that the user had, and some the administrator
holds. -/
def Contained (a : AdminCtx) (before after : Directory) : Prop :=
  ∀ user scope s s', before.permissionsOfUser user scope = .ok s →
    after.permissionsOfUser user scope = .ok s' → ∀ n ∈ s'.names, n ∈ s.names ∨ a.holds scope n = true

/-- Of a group that is moved under another: each user in it or in a group below it has what the roles
of that other group and of the groups above it carry, as far up as the queries look, or the
administrator holds it. -/
def Harmless (a : AdminCtx) (d : Directory) : AdminCall → Prop
  | .updateGroup group ⟨_, some (some newParent), _, _⟩ =>
      ∀ user scope n i j q, i + 1 + j ≤ 64 → d.InGroup user group i → Steps d.Above j newParent q →
        d.GroupCarries q scope n → d.Holds user scope n ∨ a.holds scope n = true
  | _ => True

/-- Calls that succeed, one after another; a call that is refused changes nothing. -/
def adminMachine : Machine Directory (AdminCtx × AdminCall) where
  step d call := (call.1.perform d call.2).toOption

namespace Directory

variable {d d' : Directory} {a : AdminCtx} {user g : Uuid} {scope : OrgScope} {n : String}

lemma contained_iff : Contained a d d' ↔
    ∀ user scope n, d'.Holds user scope n → d.Holds user scope n ∨ a.holds scope n = true := by
  constructor
  · intro h user scope n hholds
    obtain ⟨s, hs, hmem⟩ := d.mem_permissionsOfUser user scope
    obtain ⟨s', hs', hmem'⟩ := d'.mem_permissionsOfUser user scope
    rw [← hmem]
    exact h user scope s s' hs hs' n ((hmem' n).mpr hholds)
  · intro h user scope s s' hs hs' n hn
    obtain ⟨t, ht, hmem⟩ := d.mem_permissionsOfUser user scope
    obtain ⟨t', ht', hmem'⟩ := d'.mem_permissionsOfUser user scope
    obtain rfl := Except.ok.inj (hs.symm.trans ht)
    obtain rfl := Except.ok.inj (hs'.symm.trans ht')
    rw [hmem]
    exact h user scope n ((hmem' n).mp hn)

/-! ## Groups -/

/-- **A new group** has no members, and nothing is below it. -/
lemma holds_insertGroup {o : Group} (h : d.insertGroup o = .ok d') (hholds : d'.Holds user scope n) :
    d.Holds user scope n := by
  unfold insertGroup at h
  split_ifs at h with hkey hparent
  obtain rfl := Except.ok.inj h
  rcases hholds with huser | ⟨q, k, hk, ⟨m, hm, hpath⟩, hcarries⟩
  · exact .inl huser
  · refine .inr ⟨q, k, hk, ⟨m, hm, ?_⟩, hcarries⟩
    refine (Paths.steps_congr_away (g := o.id) (fun a ha b => ?_) fun j _ hto => ?_).mp hpath
    · have hne : (o.id == a) = false := beq_false_of_ne fun h => ha h.symm
      simp [above_iff, findGroup, hne]
    · exact hkey (.inl (hto.end_of (fun _ _ hab => hab.exists) (d.memberKey _ hm)))

variable {patch : GroupUpdate}

lemma above_replaceGroup (h : d.replaceGroup g patch = .ok (some d')) :
    (∀ a ≠ g, ∀ b, d'.Above a b ↔ d.Above a b) ∧
      ∃ o, d.findGroup g = some o ∧ ∀ b, d'.Above g b ↔ (patch.apply o).parentId = some b := by
  unfold replaceGroup at h
  split at h
  · cases h
  · rename_i o hfound
    dsimp only at h
    split_ifs at h with hkey hparent
    obtain rfl := Option.some.inj (Except.ok.inj h)
    have hid : o.id = g := findGroup_id hfound
    have hfind : ∀ a, (d.groups.map fun r => if r.id = g then patch.apply o else r).find?
        (fun r => r.id == a) = (d.findGroup a).map fun r => if r.id = g then patch.apply o else r := by
      intro a
      rw [List.find?_map]
      congr 2
      funext r
      rw [Function.comp_apply]
      split_ifs with hr
      · rw [hr, ← hid]
        rfl
      · rfl
    refine ⟨fun a ha b => ?_, o, hfound, fun b => ?_⟩
    · rw [above_iff, above_iff]
      refine exists_congr fun r => and_congr_left fun _ => ?_
      rw [findGroup, hfind, Option.map_eq_some_iff]
      constructor
      · rintro ⟨r', hr', rfl⟩
        rwa [if_neg (findGroup_id hr' ▸ ha)]
      · intro hr
        exact ⟨r, hr, if_neg (findGroup_id hr ▸ ha)⟩
    · rw [above_iff, findGroup, hfind, hfound]
      simp [hid]

lemma holds_replaceGroup (h : d.replaceGroup g patch = .ok (some d')) :
    d'.Holds user scope n ↔
      (∃ a ∈ d.assignments, a.principal = .user user ∧ scope.counts a.orgId = true ∧
        d.Carries a.roleId n) ∨
      ∃ q, ∃ k ≤ 64, (∃ m, ⟨m, user⟩ ∈ d.members ∧ Steps d'.Above k m q) ∧ d.GroupCarries q scope n := by
  unfold replaceGroup at h
  split at h
  · cases h
  · dsimp only at h
    split_ifs at h
    obtain rfl := Option.some.inj (Except.ok.inj h)
    exact Iff.rfl

/-- **A group that stays where it is**, or is moved to the top. -/
lemma holds_changeGroup_of_stays (h : d.replaceGroup g patch = .ok (some d'))
    (hstays : ∀ p, patch.parentId ≠ some (some p)) (hholds : d'.Holds user scope n) :
    d.Holds user scope n := by
  obtain ⟨hothers, o, hfound, hself⟩ := above_replaceGroup h
  have habove : ∀ {k m q}, Steps d'.Above k m q → Steps d.Above k m q := by
    refine fun hpath => hpath.mono fun a b hab => ?_
    by_cases ha : a = g
    · subst ha
      have hb := (hself b).mp hab
      cases hp : patch.parentId with
      | none =>
          rw [GroupUpdate.apply, hp] at hb
          exact above_iff.mpr ⟨o, hfound, hb⟩
      | some p =>
          rw [GroupUpdate.apply, hp] at hb
          cases hb
          exact absurd hp (hstays b)
    · exact (hothers a ha b).mp hab
  rcases (holds_replaceGroup h).mp hholds with huser | ⟨q, k, hk, ⟨m, hm, hpath⟩, hcarries⟩
  · exact .inl huser
  · exact .inr ⟨q, k, hk, ⟨m, hm, habove hpath⟩, hcarries⟩

/-- **A group that is moved.**  Its members, and those of the groups below it, hold what the new parent
and the groups above that carry, and nothing else that they did not hold. -/
lemma contained_move_iff {p : Uuid} (h : d.replaceGroup g patch = .ok (some d'))
    (hmove : patch.parentId = some (some p)) (hcheck : d.checkMove g patch.parentId = .ok ()) :
    Contained a d d' ↔
      ∀ user scope n i j q, i + 1 + j ≤ 64 → d.InGroup user g i → Steps d.Above j p q →
        d.GroupCarries q scope n → d.Holds user scope n ∨ a.holds scope n = true := by
  obtain ⟨hothers, o, hfound, hself⟩ := above_replaceGroup h
  have habove : d'.Above = Redirect d.Above g p := by
    funext a b
    by_cases ha : a = g
    · subst ha
      refine propext ((hself b).trans ?_)
      simp [GroupUpdate.apply, hmove, Redirect, eq_comm]
    · exact propext ((hothers a ha b).trans (Paths.redirect_away a ha b).symm)
  -- the check that keeps the groups a forest looks as far up as the queries do
  have haway : ∀ k ≤ 64, ¬ Steps d.Above k p g := by
    rw [hmove] at hcheck
    simp only [checkMove, bind_eq_ok, require_eq_ok] at hcheck
    obtain ⟨_, -, _, hparent, hbelow⟩ := hcheck
    intro k hk hpath
    have hp : p ∈ d.groups.map Group.id := by
      by_contra hp
      rw [ancestorIds, findGroup_eq_none.mpr hp] at hparent
      cases hparent
    have := (mem_ancestorIds hp).mpr ⟨k, hk, hpath⟩
    simp [this] at hbelow
  rw [contained_iff]
  constructor
  · rintro hcontained user scope n i j q hij ⟨m, hm, hto⟩ hon hcarries
    obtain ⟨k, hk, hpath⟩ := hto.redirect (fun k hkj => haway k (by omega)) hon
    refine hcontained user scope n ((holds_replaceGroup h).mpr (.inr ⟨q, k, by omega, ⟨m, hm, ?_⟩, hcarries⟩))
    rwa [habove]
  · intro hharmless user scope n hholds
    rcases (holds_replaceGroup h).mp hholds with huser | ⟨q, k, hk, ⟨m, hm, hpath⟩, hcarries⟩
    · exact .inl (.inl huser)
    · rw [habove] at hpath
      rcases Paths.steps_redirect_cases (fun j hj => haway j (by omega)) hpath with
        hold | ⟨i, j, hij, hto, hon⟩
      · exact .inl (.inr ⟨q, k, hk, ⟨m, hm, hold⟩, hcarries⟩)
      · exact hharmless user scope n i j q (by omega) ⟨m, hm, hto⟩ hon hcarries

/-! ## Memberships, assignments, composites and grants -/

/-- **A new member** holds what the group and those above it carry. -/
lemma holds_insertMember {m : Membership} (h : d.insertMember m = .ok d')
    (hholds : d'.Holds user scope n) :
    d.Holds user scope n ∨ ∃ k ≤ 64, ∃ q, Steps d.Above k m.of q ∧ d.GroupCarries q scope n := by
  unfold insertMember at h
  split_ifs at h with hgroup huser hmem
  · obtain rfl := Except.ok.inj h
    exact .inl hholds
  · obtain rfl := Except.ok.inj h
    rcases hholds with huser | ⟨q, k, hk, ⟨o, ho, hpath⟩, hcarries⟩
    · exact .inl (.inl huser)
    · rcases List.mem_cons.mp ho with rfl | ho
      · exact .inr ⟨k, hk, q, hpath, hcarries⟩
      · exact .inl (.inr ⟨q, k, hk, ⟨o, ho, hpath⟩, hcarries⟩)

/-- **A new assignment** hands out what its role carries, where it counts. -/
lemma holds_insertAssignment {asg : RoleAssignment} (h : d.insertAssignment asg = .ok d')
    (hholds : d'.Holds user scope n) :
    d.Holds user scope n ∨ (scope.counts asg.orgId = true ∧ d.Carries asg.roleId n) := by
  unfold insertAssignment at h
  split_ifs at h with href hmem
  · obtain rfl := Except.ok.inj h
    exact .inl hholds
  · obtain rfl := Except.ok.inj h
    rcases hholds with ⟨o, ho, hwho, hcounts, hcarries⟩ |
      ⟨q, k, hk, hin, o, ho, hwho, hcounts, hcarries⟩
    · rcases List.mem_cons.mp ho with rfl | ho
      · exact .inr ⟨hcounts, hcarries⟩
      · exact .inl (.inl ⟨o, ho, hwho, hcounts, hcarries⟩)
    · rcases List.mem_cons.mp ho with rfl | ho
      · exact .inr ⟨hcounts, hcarries⟩
      · exact .inl (.inr ⟨q, k, hk, hin, o, ho, hwho, hcounts, hcarries⟩)

lemma Holds.of_carries {P : Prop} (h : d'.Holds user scope n) (hassignments : d'.assignments = d.assignments)
    (hgroups : ∀ g k, d'.InGroup user g k → d.InGroup user g k)
    (hcarries : ∀ role, d'.Carries role n → d.Carries role n ∨ P) : d.Holds user scope n ∨ P := by
  rcases h with ⟨o, ho, hwho, hcounts, hrole⟩ | ⟨q, k, hk, hin, o, ho, hwho, hcounts, hrole⟩
  · rw [hassignments] at ho
    exact (hcarries _ hrole).imp_left fun hrole => .inl ⟨o, ho, hwho, hcounts, hrole⟩
  · rw [hassignments] at ho
    exact (hcarries _ hrole).imp_left fun hrole =>
      .inr ⟨q, k, hk, hgroups q k hin, o, ho, hwho, hcounts, hrole⟩

/-- **A new composite** adds what the child carries to what the parent and those that contain it do. -/
lemma holds_addComposite {parent child : Uuid} (h : d.addComposite parent child = .ok d')
    (hholds : d'.Holds user scope n) : d.Holds user scope n ∨ d.Carries child n := by
  unfold addComposite at h
  split at h
  · rename_i t hadded
    obtain rfl := Except.ok.inj h
    refine hholds.of_carries rfl (fun _ _ hin => hin) ?_
    rintro role ⟨k, hk, r, hpath, hbears⟩
    have hgraph : t = d.roles ∨
        t.Contains d.tenantId = Paths.AddEdge (d.roles.Contains d.tenantId) parent child := by
      rcases addComposite_cases d.roles d.tenantId parent child with
        ⟨hsame, -⟩ | ⟨-, -, _, _, _, hinsert⟩
      · rw [RoleCall.apply, hadded] at hsame
        exact .inl hsame
      · rw [RoleCall.apply, hadded] at hinsert
        change t = _ at hinsert
        rw [hinsert, contains_insert, if_pos rfl]
        exact .inr rfl
    rcases hgraph with rfl | hgraph
    · exact .inl ⟨k, hk, r, hpath, hbears⟩
    · change Steps (t.Contains d.tenantId) k role r at hpath
      rw [hgraph] at hpath
      rcases Paths.steps_addEdge hpath with hold | ⟨j, hj, hchild⟩
      · exact .inl ⟨k, hk, r, hold, hbears⟩
      · exact .inr ⟨j, by omega, r, hchild, hbears⟩
  · cases h

/-- **A new grant** adds one permission, and an admin permission only if it is one of the built-in
resource server. -/
lemma holds_insertGrant {row : PermissionAssignment} (hholds : (d.insertGrant row).Holds user scope n) :
    d.Holds user scope n ∨ ∃ s, d.findAdminServer = some s ∧ ∃ p ∈ d.permissions,
      p.resourceServerId = s.id ∧ p.name = n ∧ p.id = row.permissionId := by
  unfold insertGrant at hholds
  split_ifs at hholds with hmem
  · exact .inl hholds
  · refine hholds.of_carries rfl (fun _ _ hin => hin) ?_
    rintro role ⟨k, hk, r, hpath, s, hs, p, hp, hserver, hname, hgrant⟩
    rcases List.mem_cons.mp hgrant with rfl | hgrant
    · exact .inr ⟨s, hs, p, hp, hserver, hname, rfl⟩
    · exact .inl ⟨k, hk, r, hpath, s, hs, p, hp, hserver, hname, hgrant⟩

end Directory

/-! ## Calls -/

section Calls

variable {a : AdminCtx} {d d' : Directory} {call : AdminCall} {scope : OrgScope} {n : String}

lemma AdminCtx.allows_of_canGrant {names : List String} (h : a.canGrant none names = .ok ())
    (hn : n ∈ names) : a.holds scope n = true := by
  rw [canGrant, require_eq_ok, List.isEmpty_iff, cannotGrant, List.filter_eq_nil_iff] at h
  have := h n hn
  simp only [Option.isSome_none, Bool.false_and, Bool.not_false, Bool.and_true, Bool.not_eq_true',
    Bool.not_eq_false] at this
  unfold holds
  rw [this, Bool.true_or]

lemma AdminCtx.holds_of_canGrant {org : Uuid} {names : List String}
    (h : a.canGrant (some org) names = .ok ()) (hn : n ∈ names) (hcounts : scope.counts (some org) = true) :
    a.holds scope n = true := by
  rw [canGrant, require_eq_ok, List.isEmpty_iff, cannotGrant, List.filter_eq_nil_iff] at h
  have := h n hn
  unfold holds
  cases hallows : a.permissions.allows n with
  | true => rfl
  | false =>
      simp only [hallows, Option.isSome_some, Bool.true_and, Bool.not_false, Bool.not_eq_true',
        Bool.not_eq_false, Bool.and_eq_true, beq_iff_eq] at this
      obtain ⟨horg, hin⟩ := this
      cases scope with
      | tenantWide => cases hcounts
      | inOrg o =>
          obtain rfl := beq_iff_eq.mp hcounts
          simp [← horg, hin]
      | anywhere => simp [← horg, hin]

open Directory

lemma contained_putMember {permission : String} {group user : Uuid}
    (h : a.putMember d permission group user = .ok d') : Contained a d d' := by
  simp only [AdminCtx.putMember, addMember, getGroup, bind_eq_ok, orError_eq_ok] at h
  obtain ⟨_, -, _, -, o, hgroup, _, hgrant, o', hgroup', _, -, hinsert⟩ := h
  rw [contained_iff]
  intro u scope n hholds
  refine (holds_insertMember hinsert hholds).imp_right ?_
  rintro ⟨k, hk, q, hpath, hcarries⟩
  refine AdminCtx.allows_of_canGrant hgrant ((mem_permissionsOfGrant_group ?_).mpr ⟨k, hk, q, hpath, ?_⟩)
  · exact findGroup_isSome.mp (Option.isSome_iff_exists.mpr ⟨o, hgroup⟩)
  · obtain ⟨asg, hasg, hwho, -, hrole⟩ := hcarries
    exact ⟨asg, hasg, hwho, by cases asg.orgId <;> rfl, hrole⟩

lemma contained_assign {role : Uuid} {principal : Principal} (hgrant : a.requireCanGrant d (.role role) = .ok ())
    (h : d.assign role principal = .ok d') : Contained a d d' := by
  simp only [assign, getRole, bind_eq_ok, require_eq_ok] at h
  obtain ⟨_, hrole, _, -, hinsert⟩ := h
  rw [contained_iff]
  intro u scope n hholds
  refine (holds_insertAssignment hinsert hholds).imp_right ?_
  rintro ⟨-, hcarries⟩
  exact AdminCtx.allows_of_canGrant hgrant ((mem_permissionsOfGrant_role hrole).mpr hcarries)

lemma contained_assignRoleInOrg {org role : Uuid} {principal : Principal}
    (h : a.assignRoleInOrg d org role principal = .ok d') : Contained a d d' := by
  simp only [AdminCtx.assignRoleInOrg, assignInOrg, getRole, bind_eq_ok, require_eq_ok] at h
  obtain ⟨_, -, _, hrole, _, hgrant, _, -, _, -, _, -, hinsert⟩ := h
  rw [contained_iff]
  intro u scope n hholds
  refine (holds_insertAssignment hinsert hholds).imp_right ?_
  rintro ⟨hcounts, hcarries⟩
  exact AdminCtx.holds_of_canGrant hgrant ((mem_permissionsOfGrant_role hrole).mpr hcarries) hcounts

lemma contained_addComposite {role child : Uuid} (h : a.addComposite d role child = .ok d') :
    Contained a d d' := by
  simp only [AdminCtx.addComposite, getRole, bind_eq_ok, require_eq_ok] at h
  obtain ⟨_, -, _, -, _, hchild, _, hgrant, hadd⟩ := h
  rw [contained_iff]
  intro u scope n hholds
  refine (holds_addComposite hadd hholds).imp_right fun hcarries => ?_
  exact AdminCtx.allows_of_canGrant hgrant ((mem_permissionsOfGrant_role hchild).mpr hcarries)

lemma find?_unique {α : Type} {key : α → Uuid} {rows : List α} (hkey : (rows.map key).Nodup) {x y : α}
    (hx : x ∈ rows) (hy : rows.find? (fun r => key r == key x) = some y) : y = x := by
  have hid := List.find?_some hy
  exact List.inj_on_of_nodup_map hkey (List.mem_of_find?_eq_some hy) hx (beq_iff_eq.mp hid)

lemma contained_grantPermission {role permission : Uuid}
    (h : a.grantPermission d role permission = .ok d') : Contained a d d' := by
  simp only [AdminCtx.grantPermission, grant, getPermission, getServer, bind_eq_ok, orError_eq_ok] at h
  obtain ⟨_, -, p, hp, rs, hrs, _, hheld, _, -, _, -, hinsert⟩ := h
  obtain rfl := Except.ok.inj hinsert
  rw [contained_iff]
  intro u scope n hholds
  refine (holds_insertGrant hholds).imp_right ?_
  rintro ⟨s, hs, p', hp', hserver, rfl, rfl⟩
  -- the permission that was looked up is the one of the row, and its server the built-in one
  obtain rfl : p = p' := find?_unique d.permissionKey hp' hp
  obtain rfl : rs = s := by
    rw [hserver] at hrs
    exact find?_unique d.serverKey (List.mem_of_find?_eq_some hs) hrs
  have hbuiltIn : rs.builtIn = true := by
    have := List.find?_some hs
    exact d.adminBuiltIn rs (List.mem_of_find?_eq_some hs) (beq_iff_eq.mp this)
  rw [AdminCtx.requireHolds, if_pos hbuiltIn] at hheld
  exact AdminCtx.allows_of_canGrant hheld (List.mem_singleton.mpr rfl)

lemma contained_createGroup {id : Uuid} {input : NewGroup} (h : d.createGroup id input = .ok d') :
    Contained a d d' := by
  simp only [createGroup, bind_eq_ok] at h
  obtain ⟨_, -, _, -, _, -, _, -, hinsert⟩ := h
  rw [contained_iff]
  exact fun u scope n hholds => .inl (holds_insertGroup hinsert hholds)

/-- **A group that is changed.** -/
lemma contained_updateGroup_iff {group : Uuid} (h : d.updateGroup group patch = .ok d') :
    Contained a d d' ↔ Harmless a d (.updateGroup group patch) := by
  obtain ⟨name, parentId, description, attributes⟩ := patch
  unfold updateGroup at h
  split_ifs at h with hempty
  · -- a request without a field moves nothing
    have hparent : parentId = none := by
      simp only [GroupUpdate.isEmpty, Bool.and_eq_true, Option.isNone_iff_eq_none] at hempty
      exact hempty.1.1.2
    subst hparent
    cases hget : d.getGroup group with
    | error e =>
        rw [hget] at h
        cases h
    | ok o =>
        rw [hget] at h
        obtain rfl := Except.ok.inj h
        exact iff_of_true (contained_iff.mpr fun u scope n hholds => .inl hholds) trivial
  · simp only [changeGroup, bind_eq_ok, orError_eq_ok] at h
    obtain ⟨name', -, _, hcheck, _, hreplace, rfl⟩ := h
    rcases parentId with _ | _ | p
    · exact iff_of_true (contained_iff.mpr fun u scope n hholds =>
        .inl (holds_changeGroup_of_stays hreplace (by simp) hholds)) trivial
    · exact iff_of_true (contained_iff.mpr fun u scope n hholds =>
        .inl (holds_changeGroup_of_stays hreplace (by simp) hholds)) trivial
    · exact contained_move_iff hreplace rfl hcheck

/-- **One call.**  A call that succeeds lets nobody hold what neither they nor the administrator held,
exactly if it is harmless. -/
lemma contained_perform_iff (h : a.perform d call = .ok d') : Contained a d d' ↔ Harmless a d call := by
  cases call with
  | createGroup id input =>
      obtain ⟨_, -, hcreate⟩ := bind_eq_ok.mp h
      exact iff_of_true (contained_createGroup hcreate) trivial
  | updateGroup group patch =>
      obtain ⟨_, -, hupdate⟩ := bind_eq_ok.mp h
      exact contained_updateGroup_iff hupdate
  | addMember group user => exact iff_of_true (contained_putMember h) trivial
  | joinGroup user group => exact iff_of_true (contained_putMember h) trivial
  | assignUserRole user role =>
      simp only [AdminCtx.perform, AdminCtx.assignUserRole, bind_eq_ok] at h
      obtain ⟨_, -, _, -, _, -, _, hgrant, hassign⟩ := h
      exact iff_of_true (contained_assign hgrant hassign) trivial
  | assignGroupRole group role =>
      simp only [AdminCtx.perform, AdminCtx.assignGroupRole, bind_eq_ok] at h
      obtain ⟨_, -, _, -, _, -, _, hgrant, hassign⟩ := h
      exact iff_of_true (contained_assign hgrant hassign) trivial
  | assignUserRoleInOrg org user role => exact iff_of_true (contained_assignRoleInOrg h) trivial
  | assignGroupRoleInOrg org group role => exact iff_of_true (contained_assignRoleInOrg h) trivial
  | addComposite role child => exact iff_of_true (contained_addComposite h) trivial
  | grantPermission role permission => exact iff_of_true (contained_grantPermission h) trivial

end Calls

/-! ## Every run -/

/-- **No escalation.**  In every run of calls that succeed, from any tables, each call leaves every user
with admin permissions the user had before or the administrator who called holds, exactly when each
call that moves a group under another is made where the users in it and in the groups below have
already what it gives them, or the administrator holds that. -/
theorem no_escalation_iff {d₀ d : Directory} {calls : List (AdminCtx × AdminCall)}
    (hrun : adminMachine.run d₀ calls = some d) :
    (∀ past a call rest e e', calls = past ++ (a, call) :: rest → adminMachine.run d₀ past = some e →
        a.perform e call = .ok e' → Contained a e e') ↔
      adminMachine.Meets (fun e c => Harmless c.1 e c.2) d₀ calls := by
  rw [Machine.meets_iff_splits]
  constructor
  · rintro h past ⟨a, call⟩ rest e hsplit hpast
    obtain ⟨e', hpast', hrest⟩ := Machine.run_append.mp (hsplit ▸ hrun)
    obtain rfl := Option.some.inj (hpast.symm.trans hpast')
    obtain ⟨e', hstep, -⟩ := Machine.run_cons.mp hrest
    have hcall := toOption_eq_some.mp hstep
    exact (contained_perform_iff hcall).mp (h past a call rest e e' hsplit hpast hcall)
  · intro h past a call rest e e' hsplit hpast hcall
    exact (contained_perform_iff hcall).mpr (h past (a, call) rest e hsplit hpast)

/-- **What a run of harmless calls can give.**  In the end nobody holds anything but what they held at
first and what administrators who made the calls hold. -/
theorem held_after_run {d₀ d : Directory} {calls : List (AdminCtx × AdminCall)}
    (hrun : adminMachine.run d₀ calls = some d)
    (hharmless : adminMachine.Meets (fun e c => Harmless c.1 e c.2) d₀ calls) {user : Uuid}
    {scope : OrgScope} {n : String} (h : d.Holds user scope n) :
    d₀.Holds user scope n ∨ ∃ c ∈ calls, c.1.holds scope n = true := by
  induction calls generalizing d₀ with
  | nil =>
      cases hrun
      exact .inl h
  | cons c calls ih =>
      obtain ⟨d₁, hstep, hrest⟩ := Machine.run_cons.mp hrun
      obtain ⟨hfirst, hlater⟩ := hharmless.of_cons hstep
      rcases ih hrest hlater with hholds | ⟨c', hc', hby⟩
      · have hcontained := (contained_perform_iff (toOption_eq_some.mp hstep)).mpr hfirst
        exact (Directory.contained_iff.mp hcontained user scope n hholds).imp_right
          fun hby => ⟨c, List.mem_cons_self, hby⟩
      · exact .inr ⟨c', List.mem_cons_of_mem _ hc', hby⟩

/-! ## A group moved under another -/

def sampleDirectory : Directory where
  tenantId := 1
  users := [(1, false), (2, false), (3, false)]
  groups := []
  members := []
  roles := .empty [(1, 10), (1, 11)]
  builtInRoles := [10]
  assignments := [⟨10, .user 1, none⟩, ⟨11, .user 2, none⟩]
  servers := [⟨5, ADMIN_AUDIENCE, true⟩]
  permissions := [⟨100, 5, "ridm:groups:write"⟩, ⟨101, 5, "ridm:users:write"⟩]
  grants := [⟨10, 100⟩, ⟨10, 101⟩, ⟨11, 100⟩]
  organizations := []
  orgMembers := []
  groupKey := by decide
  parentKey := by decide
  memberKey := by decide
  assignedGroupKey := by simp
  assignedRoleKey := by decide
  serverKey := by decide
  permissionKey := by decide
  adminServer := by decide
  adminBuiltIn := by decide

def sampleOwner : AdminCtx where
  tenantId := 1
  isGlobal := false
  permissions := ⟨["ridm:groups:write", "ridm:users:write"], List.sortedLT_iff_pairwise.mpr (by decide)⟩
  orgId := none
  orgPermissions := .empty

def sampleGroupAdmin : AdminCtx where
  tenantId := 1
  isGlobal := false
  permissions := ⟨["ridm:groups:write"], List.sortedLT_iff_pairwise.mpr (by decide)⟩
  orgId := none
  orgPermissions := .empty

def sampleCalls : List (AdminCtx × AdminCall) :=
  [(sampleOwner, .createGroup 20 ⟨"owners", none, none, none⟩),
    (sampleOwner, .assignGroupRole 20 10),
    (sampleOwner, .createGroup 21 ⟨"guests", none, none, none⟩),
    (sampleOwner, .addMember 21 3)]

/-- What the owner does is contained: no group is moved. -/
theorem no_escalation_by_owner : ∃ d, adminMachine.run sampleDirectory sampleCalls = some d ∧
    ∀ past a call rest e e', sampleCalls = past ++ (a, call) :: rest →
      adminMachine.run sampleDirectory past = some e → a.perform e call = .ok e' → Contained a e e' := by
  obtain ⟨d, hrun, -⟩ := Machine.exists_run_of_any (p := fun _ => true)
    (show (adminMachine.run sampleDirectory sampleCalls).any (fun _ => true) = true by decide +kernel)
  have hstays : ∀ c ∈ sampleCalls, ∀ e, Harmless c.1 e c.2 := by
    simp [sampleCalls, Harmless]
  exact ⟨d, hrun, (no_escalation_iff hrun).mpr (((Machine.meets_iff_forall hrun).mpr hstays).mono
    fun h => h _)⟩

def sampleMove : AdminCall := .updateGroup 21 ⟨none, some (some 20), none, none⟩

def sampleEscalates (d : Directory) : Bool :=
  (sampleGroupAdmin.perform d sampleMove).toOption.any fun d' =>
    (d'.effectiveRoles 3 .tenantWide).any (fun r => d'.Bears r "ridm:users:write") &&
      !(d.effectiveRoles 3 .tenantWide).any fun r => d.Bears r "ridm:users:write"

/-- **A move escalates.**  Who may write groups and nothing else moves the guests under the owners, and
user 3 may write users. -/
theorem move_escalates : ∃ d d', adminMachine.run sampleDirectory sampleCalls = some d ∧
    sampleGroupAdmin.perform d sampleMove = .ok d' ∧ ¬ Contained sampleGroupAdmin d d' := by
  obtain ⟨d, hrun, hmove⟩ := Machine.exists_run_of_any
    (show (adminMachine.run sampleDirectory sampleCalls).any sampleEscalates = true by decide +kernel)
  obtain ⟨d', hperform, hboth⟩ := (Option.any_eq_true _ _).mp hmove
  rw [Bool.and_eq_true, Bool.not_eq_true', List.any_eq_true, ← Bool.not_eq_true, List.any_eq_true] at hboth
  obtain ⟨⟨r, hr, hbears⟩, hbefore⟩ := hboth
  refine ⟨d, d', hrun, toOption_eq_some.mp hperform, fun hcontained => ?_⟩
  have hafter : d'.Holds 3 .tenantWide "ridm:users:write" :=
    Directory.exists_effectiveRoles_bears.mp ⟨r, hr, of_decide_eq_true hbears⟩
  rcases Directory.contained_iff.mp hcontained 3 .tenantWide "ridm:users:write" hafter with hheld | hby
  · obtain ⟨r, hr, hbears⟩ := Directory.exists_effectiveRoles_bears.mpr hheld
    exact hbefore ⟨r, hr, decide_eq_true hbears⟩
  · revert hby
    decide

end Ridm.Roles
