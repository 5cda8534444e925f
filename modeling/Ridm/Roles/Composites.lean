import Ridm.Core.Types
import Ridm.Lib.Interleaving
import Ridm.Lib.Paths

/-!
# Composite roles

`add_composite` and `remove_composite` of `api/src/services/roles.rs`, over the tables `roles` and
`role_composites` with the constraints the schema puts on them.  What keeps the graph of composites
free of cycles is `composite_would_cycle` of `api/src/repos/roles.rs`, a recursive query that stops
at depth 64: it follows paths of up to 65 composites below the child and no further.

A cycle that closes a longer path is not seen.  `composites_acyclic_iff` is the exact condition over
whole runs, and `long_cycle_is_added` a run that closes one.
-/

namespace Ridm.Roles

open Paths (Acyclic AddEdge Steps searchDown)
open Relation (TransGen ReflTransGen)

/-- A row of `role_composites`. -/
structure Composite where
  tenantId : Uuid
  parentRoleId : Uuid
  childRoleId : Uuid
  deriving DecidableEq

instance : LawfulBEq (Uuid × Uuid) := inferInstance

/-- The roles of the tenants and their composites.  The fields that are propositions are the
table's constraints. -/
structure RoleTables where
  roles : List (Uuid × Uuid)
  composites : List Composite
  primaryKey : composites.Nodup
  foreignKeys : ∀ c ∈ composites, (c.tenantId, c.parentRoleId) ∈ roles ∧ (c.tenantId, c.childRoleId) ∈ roles
  notSelf : ∀ c ∈ composites, c.parentRoleId ≠ c.childRoleId

namespace RoleTables

/-- No composites yet. -/
def empty (roles : List (Uuid × Uuid)) : RoleTables where
  roles := roles
  composites := []
  primaryKey := List.nodup_nil
  foreignKeys _ h := absurd h List.not_mem_nil
  notSelf _ h := absurd h List.not_mem_nil

/-- The graph of a tenant's composites. -/
def Contains (t : RoleTables) (tenantId : Uuid) (parent child : Uuid) : Prop :=
  ⟨tenantId, parent, child⟩ ∈ t.composites

def childRoles (t : RoleTables) (tenantId parent : Uuid) : List Uuid :=
  (t.composites.filter fun c => c.tenantId == tenantId && c.parentRoleId == parent).map
    Composite.childRoleId

/-- `composite_would_cycle`: the rows of `down` have a depth from 0, the child's own composites, to
64. -/
def compositeWouldCycle (t : RoleTables) (tenantId parent child : Uuid) : Bool :=
  decide (parent ∈ searchDown (t.childRoles tenantId) 64 (t.childRoles tenantId child))

/-- `INSERT … ON CONFLICT DO NOTHING`. -/
def insert (t : RoleTables) (c : Composite) (hparent : (c.tenantId, c.parentRoleId) ∈ t.roles)
    (hchild : (c.tenantId, c.childRoleId) ∈ t.roles) (hself : c.parentRoleId ≠ c.childRoleId) :
    RoleTables :=
  if hmem : c ∈ t.composites then t
  else
    { roles := t.roles
      composites := c :: t.composites
      primaryKey := List.nodup_cons.mpr ⟨hmem, t.primaryKey⟩
      foreignKeys := by
        rintro d (_ | ⟨_, hd⟩)
        · exact ⟨hparent, hchild⟩
        · exact t.foreignKeys d hd
      notSelf := by
        rintro d (_ | ⟨_, hd⟩)
        · exact hself
        · exact t.notSelf d hd }

def delete (t : RoleTables) (c : Composite) : RoleTables where
  roles := t.roles
  composites := t.composites.filter (· != c)
  primaryKey := t.primaryKey.filter _
  foreignKeys d hd := t.foreignKeys d (List.mem_filter.mp hd).1
  notSelf d hd := t.notSelf d (List.mem_filter.mp hd).1

end RoleTables

def addComposite (t : RoleTables) (tenantId parent child : Uuid) : Except AppError RoleTables :=
  if hself : parent = child then .error (.badRequest "a role cannot contain itself")
  else if hparent : (tenantId, parent) ∈ t.roles then
    if hchild : (tenantId, child) ∈ t.roles then
      if t.compositeWouldCycle tenantId parent child then
        .error (.badRequest "adding this composite would create a cycle")
      else .ok (t.insert ⟨tenantId, parent, child⟩ hparent hchild hself)
    else .error (.notFound "role")
  else .error (.notFound "role")

def removeComposite (t : RoleTables) (tenantId parent child : Uuid) : RoleTables :=
  t.delete ⟨tenantId, parent, child⟩

/-! ## Runs -/

/-- The calls of a run. -/
inductive RoleCall
  | addComposite (tenantId parent child : Uuid)
  | removeComposite (tenantId parent child : Uuid)

/-- What a call leaves; a refused one leaves everything as it was. -/
def RoleCall.apply (t : RoleTables) : RoleCall → RoleTables
  | addComposite tenantId parent child =>
      match Roles.addComposite t tenantId parent child with
      | .ok t' => t'
      | .error _ => t
  | removeComposite tenantId parent child => Roles.removeComposite t tenantId parent child

/-- Calls one after another, each a transaction run alone. -/
def roleMachine : Machine RoleTables RoleCall where
  step t call := some (call.apply t)

/-- No role of any tenant reaches itself through composites. -/
def CompositesAcyclic (t : RoleTables) : Prop := ∀ tenantId, Acyclic (t.Contains tenantId)

/-- Of a composite that is to be added: if the parent is reached from the child at all, it is by at
most 65 composites. -/
def WithinDepth (t : RoleTables) : RoleCall → Prop
  | .addComposite tenantId parent child => TransGen (t.Contains tenantId) child parent →
      ∃ n ≤ 65, 0 < n ∧ Steps (t.Contains tenantId) n child parent
  | .removeComposite _ _ _ => True

/-! ## The guard -/

section Guard

variable {t : RoleTables} {tenantId parent child : Uuid}

lemma mem_childRoles : child ∈ t.childRoles tenantId parent ↔ t.Contains tenantId parent child := by
  simp only [RoleTables.childRoles, RoleTables.Contains, List.mem_map, List.mem_filter,
    Bool.and_eq_true, beq_iff_eq]
  constructor
  · rintro ⟨⟨_, _, _⟩, ⟨hc, rfl, rfl⟩, rfl⟩
    exact hc
  · intro h
    exact ⟨_, ⟨h, rfl, rfl⟩, rfl⟩

/-- **What the guard sees.** -/
lemma compositeWouldCycle_iff : t.compositeWouldCycle tenantId parent child = true ↔
    ∃ n ≤ 65, 0 < n ∧ Steps (t.Contains tenantId) n child parent := by
  have hgraph : (fun a b => b ∈ t.childRoles tenantId a) = t.Contains tenantId := by
    funext a b
    exact propext mem_childRoles
  rw [RoleTables.compositeWouldCycle, decide_eq_true_eq, Paths.mem_searchDown, hgraph]
  constructor
  · rintro ⟨c, hc, d, hd, hsteps⟩
    exact ⟨d + 1, by omega, by omega, c, mem_childRoles.mp hc, hsteps⟩
  · rintro ⟨n, hn, hpos, hsteps⟩
    obtain ⟨d, rfl⟩ : ∃ d, n = d + 1 := ⟨n - 1, by omega⟩
    obtain ⟨c, hc, hsteps⟩ := hsteps
    exact ⟨c, mem_childRoles.mpr hc, d, by omega, hsteps⟩

lemma exists_of_transGen (h : TransGen (t.Contains tenantId) child parent) :
    (tenantId, child) ∈ t.roles ∧ (tenantId, parent) ∈ t.roles := by
  obtain ⟨_, hfirst, -⟩ := Relation.TransGen.head'_iff.mp h
  obtain ⟨_, -, hlast⟩ := Relation.TransGen.tail'_iff.mp h
  exact ⟨(t.foreignKeys _ hfirst).1, (t.foreignKeys _ hlast).2⟩

lemma addComposite_cases (t : RoleTables) (tenantId parent child : Uuid) :
    ((RoleCall.addComposite tenantId parent child).apply t = t ∧
        (parent = child ∨ (tenantId, parent) ∉ t.roles ∨ (tenantId, child) ∉ t.roles ∨
          t.compositeWouldCycle tenantId parent child = true)) ∨
      (parent ≠ child ∧ t.compositeWouldCycle tenantId parent child = false ∧
        ∃ hparent hchild hself, (RoleCall.addComposite tenantId parent child).apply t =
          t.insert ⟨tenantId, parent, child⟩ hparent hchild hself) := by
  by_cases hself : parent = child
  · exact .inl ⟨by simp [RoleCall.apply, addComposite, hself], .inl hself⟩
  by_cases hparent : (tenantId, parent) ∈ t.roles
  · by_cases hchild : (tenantId, child) ∈ t.roles
    · cases hguard : t.compositeWouldCycle tenantId parent child with
      | true =>
          exact .inl ⟨by simp [RoleCall.apply, addComposite, hself, hparent, hchild, hguard],
            .inr (.inr (.inr rfl))⟩
      | false =>
          exact .inr ⟨hself, rfl, hparent, hchild, hself,
            by simp [RoleCall.apply, addComposite, hself, hparent, hchild, hguard]⟩
    · exact .inl ⟨by simp [RoleCall.apply, addComposite, hself, hparent, hchild],
        .inr (.inr (.inl hchild))⟩
  · exact .inl ⟨by simp [RoleCall.apply, addComposite, hself, hparent], .inr (.inl hparent)⟩

lemma contains_insert {c : Composite} {hparent hchild hself} (other : Uuid) :
    (t.insert c hparent hchild hself).Contains other =
      if other = c.tenantId then AddEdge (t.Contains other) c.parentRoleId c.childRoleId
      else t.Contains other := by
  obtain ⟨tenantId, parent, child⟩ := c
  funext a b
  simp only [RoleTables.insert, RoleTables.Contains]
  split_ifs with hmem hother hother
  · subst hother
    refine propext ⟨.inl, ?_⟩
    rintro (h | ⟨rfl, rfl⟩)
    · exact h
    · exact hmem
  · rfl
  · subst hother
    simp [AddEdge, RoleTables.Contains, or_comm]
  · simp [RoleTables.Contains, hother]

end Guard

/-! ## Every run -/

/-- **One call.**  From a graph without cycles a call leads to one without cycles exactly when it adds
no composite that closes a path too long for the guard. -/
lemma acyclic_apply_iff {t : RoleTables} {call : RoleCall} (hacyclic : CompositesAcyclic t) :
    CompositesAcyclic (call.apply t) ↔ WithinDepth t call := by
  cases call with
  | removeComposite tenantId parent child =>
      refine iff_of_true (fun other => ?_) trivial
      exact (hacyclic other).mono fun a b hab => (List.mem_filter.mp hab).1
  | addComposite tenantId parent child =>
      rcases addComposite_cases t tenantId parent child with
        ⟨hsame, hwhy⟩ | ⟨hne, hguard, _, _, _, hinsert⟩
      · rw [hsame]
        refine iff_of_true hacyclic fun hpath => ?_
        obtain ⟨hchild, hparent⟩ := exists_of_transGen hpath
        rcases hwhy with rfl | h | h | h
        · exact absurd hpath (hacyclic tenantId parent)
        · exact absurd hparent h
        · exact absurd hchild h
        · exact compositeWouldCycle_iff.mp h
      · -- the guard saw nothing, so within its depth there is nothing
        have hdepth : WithinDepth t (.addComposite tenantId parent child) ↔
            ¬ TransGen (t.Contains tenantId) child parent := by
          refine ⟨fun h hpath => ?_, fun h hpath => absurd hpath h⟩
          rw [compositeWouldCycle_iff.mpr (h hpath)] at hguard
          cases hguard
        have hclosed : ReflTransGen (t.Contains tenantId) child parent ↔
            TransGen (t.Contains tenantId) child parent := by
          rw [Relation.reflTransGen_iff_eq_or_transGen]
          exact or_iff_right hne
        rw [hdepth, ← hclosed, ← Paths.acyclic_addEdge_iff (hacyclic tenantId), hinsert]
        constructor
        · intro h
          have := h tenantId
          rwa [contains_insert, if_pos rfl] at this
        · intro h other
          rw [contains_insert]
          split_ifs with hother
          · exact hother ▸ h
          · exact hacyclic other

/-- **When the composites stay acyclic.**  In every run of `add_composite` and `remove_composite` from
an empty graph over any roles, no role reaches itself in any state reached, exactly when no call adds a
composite whose parent is reached from its child, but only by more than 65 composites. -/
theorem composites_acyclic_iff (roles : List (Uuid × Uuid)) (calls : List RoleCall) :
    (∀ past rest t, calls = past ++ rest → roleMachine.run (.empty roles) past = some t →
        CompositesAcyclic t) ↔
      roleMachine.Meets WithinDepth (.empty roles) calls := by
  have hempty : CompositesAcyclic (.empty roles) := by
    intro tenantId role hpath
    obtain ⟨_, hfirst, -⟩ := Relation.TransGen.head'_iff.mp hpath
    exact List.not_mem_nil hfirst
  obtain ⟨e, hrun⟩ := Machine.exists_run (M := roleMachine) (fun t call => ⟨_, rfl⟩) (.empty roles) calls
  refine Machine.always_iff_meets (I := fun _ => True) (A := fun _ => True) ?_ (fun _ _ => trivial)
    hrun trivial hempty
  rintro t call t' - - hacyclic hstep
  cases hstep
  exact ⟨trivial, acyclic_apply_iff hacyclic⟩

/-! ## A cycle that is too long -/

def sampleRoles : List (Uuid × Uuid) := (List.range 67).map fun i => (1, i)

def sampleChain : List RoleCall := (List.range 66).map fun i => .addComposite 1 i (i + 1)

def sampleComposites : List Composite :=
  ⟨1, 66, 0⟩ :: ((List.range 66).map fun i => ⟨1, i, i + 1⟩).reverse

lemma sampleChain_run : (roleMachine.run (.empty sampleRoles)
    (sampleChain ++ [.addComposite 1 66 0])).map RoleTables.composites = some sampleComposites := by
  decide +kernel

/-- **A cycle is added.**  Sixty-six composites in a row, and one more that leads from the last role to
the first. -/
theorem long_cycle_is_added : ∃ t, roleMachine.run (.empty sampleRoles)
    (sampleChain ++ [.addComposite 1 66 0]) = some t ∧ ¬ CompositesAcyclic t := by
  obtain ⟨t, hrun, hrows⟩ := Option.map_eq_some_iff.mp sampleChain_run
  refine ⟨t, hrun, fun hacyclic => hacyclic 1 66 ?_⟩
  have hedge : ∀ i : ℕ, i < 66 → t.Contains 1 i (i + 1) := by
    intro i hi
    rw [RoleTables.Contains, hrows]
    exact List.mem_cons_of_mem _
      (List.mem_reverse.mpr (List.mem_map.mpr ⟨i, List.mem_range.mpr hi, rfl⟩))
  have hchain : ∀ n : ℕ, n ≤ 66 → ReflTransGen (t.Contains 1) 0 n := by
    intro n hn
    induction n with
    | zero => exact .refl
    | succ n ih => exact (ih (by omega)).tail (hedge n (by omega))
  have hlast : t.Contains 1 66 0 := by
    rw [RoleTables.Contains, hrows]
    exact List.mem_cons_self
  exact .head' hlast (hchain 66 (Nat.le_refl 66))

end Ridm.Roles
