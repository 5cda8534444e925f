import Ridm.Roles.Escalation

/-!
# The tree of groups

`groups::create`, `groups::update` and `groups::delete` of `api/src/services/groups.rs` side by side.  Each is
one transaction, but under READ COMMITTED its statements see what others committed in between: a move reads
the groups above its new parent in one statement and writes the row in another, and locks none of those above.

What keeps a group from being put below itself is that it was not among the groups found, at most 64 levels
up.  `group_tree_iff` says when that is enough, and `moves_close_a_loop` is two moves at once that each
find nothing.
-/

namespace Ridm.Roles

open Paths (Acyclic Redirect)
open Relation (TransGen ReflTransGen)

/-! ## Deleting a group -/

/-- `ON DELETE CASCADE`, so many times: the rows whose parent is there. -/
def cascade : ℕ → List Group → List Group
  | 0, rows => rows
  | n + 1, rows => cascade n (rows.filter fun g => g.parentId.all (rows.map Group.id).contains)

lemma cascade_sublist (n : ℕ) (rows : List Group) : (cascade n rows).Sublist rows := by
  induction n generalizing rows with
  | zero => exact List.Sublist.refl rows
  | succ n ih => exact (ih _).trans List.filter_sublist

lemma cascade_closed {n : ℕ} {rows : List Group} (hn : rows.length ≤ n) :
    ∀ g ∈ cascade n rows, ∀ p ∈ g.parentId, p ∈ (cascade n rows).map Group.id := by
  induction n generalizing rows with
  | zero =>
      obtain rfl : rows = [] := List.length_eq_zero_iff.mp (Nat.le_zero.mp hn)
      simp [cascade]
  | succ n ih =>
      set left := rows.filter fun g => g.parentId.all (rows.map Group.id).contains with hleft
      by_cases hlen : left.length = rows.length
      · -- nothing went, so nothing goes in the rounds to come
        have hsame : left = rows := List.filter_sublist.eq_of_length hlen
        have hstay : ∀ m, cascade m rows = rows := by
          intro m
          induction m with
          | zero => rfl
          | succ m ihm => rw [cascade, ← hleft, hsame, ihm]
        rw [hstay]
        intro g hg p hp
        rw [← hsame, hleft] at hg
        have hall := (List.mem_filter.mp hg).2
        rw [Option.mem_def.mp hp] at hall
        exact List.contains_iff_mem.mp hall
      · have hless : left.length ≤ rows.length := List.length_filter_le ..
        have hshort : left.length ≤ n := by omega
        exact ih hshort

namespace Directory

variable (d : Directory)

/-- The groups that a `DELETE` of one leaves. -/
def groupsWithout (id : Uuid) : List Group :=
  cascade d.groups.length (d.groups.filter fun g => g.id != id)

lemma groupsWithout_sublist (id : Uuid) : (d.groupsWithout id).Sublist d.groups :=
  (cascade_sublist _ _).trans List.filter_sublist

/-- `repos::groups::delete`, with what goes with a group. -/
def deleteGroup (id : Uuid) : Directory :=
  let ids := (d.groupsWithout id).map Group.id
  { d with
    groups := d.groupsWithout id
    members := d.members.filter fun m => ids.contains m.of
    assignments := d.assignments.filter fun a => match a.principal with
      | .group g => ids.contains g
      | .user _ => true
    groupKey := d.groupKey.sublist ((d.groupsWithout_sublist id).map Group.id)
    parentKey := cascade_closed (List.length_filter_le ..)
    memberKey := fun m hm => List.contains_iff_mem.mp (List.mem_filter.mp hm).2
    assignedGroupKey := by
      intro a ha g hg
      have hkept := (List.mem_filter.mp ha).2
      rw [hg] at hkept
      exact List.contains_iff_mem.mp hkept
    assignedRoleKey := fun a ha => d.assignedRoleKey a (List.mem_filter.mp ha).1 }

end Directory

/-! ## Calls by their statements -/

/-- Where a call stands between its statements.  `seen` is what `ancestor_ids` found. -/
inductive GroupCall
  | create (id : Uuid) (input : NewGroup)
  | counting (row : Group)
  | inserting (row : Group)
  | update (id : Uuid) (patch : GroupUpdate)
  | writing (id : Uuid) (patch : GroupUpdate) (seen : List Uuid)
  | delete (id : Uuid)
  | done (answer : Except AppError Unit)

namespace GroupCall

/-- A call that has not begun. -/
def isFresh : GroupCall → Bool
  | create _ _ | update _ _ | delete _ => true
  | _ => false

/-- A call that goes on, or ends with an error. -/
def orDone {α : Type} (r : Except AppError α) (next : α → GroupCall) : GroupCall :=
  match r with
  | .ok a => next a
  | .error e => done (.error e)

/-- What a statement that writes leaves: its row committed, or nothing. -/
def commit (d : Directory) : Except AppError Directory → Directory × GroupCall
  | .ok d' => (d', done (.ok ()))
  | .error e => (d, done (.error e))

/-- The first statements of `groups::create`: the parent. -/
def checkParent (d : Directory) (id : Uuid) (input : NewGroup) : Except AppError Group := do
  let name ← validateName input.name
  require (.badRequest "attributes must be a JSON object") (input.attributes.all isObject)
  require (.badRequest "parent group does not exist")
    (input.parentId.all fun p => (d.findGroup p).isSome)
  .ok ⟨id, input.parentId, name, input.description, input.attributes.getD (.object [])⟩

/-- The first statement of `groups::update`: the groups above the new parent. -/
def checkAbove (d : Directory) (id : Uuid) (patch : GroupUpdate) : Except AppError GroupUpdate := do
  let name ← patch.name.mapM validateName
  d.checkMove id patch.parentId
  .ok { patch with name := name }

/-- What `ancestor_ids` finds above the new parent of a move. -/
def seenAbove (d : Directory) : Option (Option Uuid) → List Uuid
  | some (some p) => d.ancestorIds p
  | _ => []

/-- One statement of a call. -/
def act (d : Directory) : GroupCall → Option (Directory × GroupCall)
  | create id input => some (d, orDone (checkParent d id input) counting)
  | counting row =>
      some (d, orDone (require (.badRequest "a tenant can have at most 10000 groups")
        (d.groups.length < 10000)) fun _ => inserting row)
  | inserting row => some (commit d (d.insertGroup row))
  | update id patch =>
      if patch.isEmpty then some (d, done ((d.getGroup id).map fun _ => ()))
      else some (d, orDone (checkAbove d id patch) fun patch' =>
        writing id patch' (seenAbove d patch.parentId))
  | writing id patch _ =>
      some (commit d (d.replaceGroup id patch >>= orError (.notFound "group")))
  | delete id =>
      some (if (d.findGroup id).isSome then (d.deleteGroup id, done (.ok ()))
        else (d, done (.error (.notFound "group"))))
  | done _ => none

end GroupCall

/-- Calls on the groups of a tenant, side by side. -/
def groupCalls (ι : Type) : Calls ι Directory GroupCall Unit Empty where
  act _ d call _ := call.act d
  env _ e := e.elim

/-! ## Single statements -/

section Statements

variable {d d' : Directory} {id : Uuid} {patch : GroupUpdate}

/-- A move that is to be written was not found to go below itself. -/
def GroupCall.Sound : GroupCall → Prop
  | .writing id patch seen => ∀ p, patch.parentId = some (some p) → p ≠ id ∧ id ∉ seen
  | _ => True

lemma GroupCall.sound_orDone {α : Type} {r : Except AppError α} {next : α → GroupCall}
    (h : ∀ a, r = .ok a → (next a).Sound) : (orDone r next).Sound := by
  cases r with
  | ok a => exact h a rfl
  | error e => trivial

lemma GroupCall.sound_commit (r : Except AppError Directory) : (commit d r).2.Sound := by
  cases r <;> trivial

lemma GroupCall.sound_act {call call' : GroupCall} (h : call.act d = some (d', call')) : call'.Sound := by
  cases call with
  | create id input =>
      cases h
      exact sound_orDone fun _ _ => trivial
  | counting row =>
      cases h
      exact sound_orDone fun _ _ => trivial
  | inserting row =>
      rw [act, Option.some.injEq] at h
      obtain rfl : (commit d _).2 = call' := congrArg Prod.snd h
      exact sound_commit _
  | update id patch =>
      rw [act] at h
      split_ifs at h
      · cases h
        trivial
      · cases h
        refine sound_orDone fun patch' hcheck p hp => ?_
        simp only [checkAbove, bind_eq_ok] at hcheck
        obtain ⟨name, -, _, hmove, hpatch⟩ := hcheck
        obtain rfl := Except.ok.inj hpatch
        have hp : patch.parentId = some (some p) := hp
        rw [hp] at hmove ⊢
        simp only [Directory.checkMove, bind_eq_ok, require_eq_ok] at hmove
        obtain ⟨_, hne, _, -, hseen⟩ := hmove
        exact ⟨by simpa using hne, by simpa [seenAbove] using hseen⟩
  | writing id patch seen =>
      rw [act, Option.some.injEq] at h
      obtain rfl : (commit d _).2 = call' := congrArg Prod.snd h
      exact sound_commit _
  | delete id =>
      rw [act, Option.some.injEq] at h
      split_ifs at h <;> cases h <;> trivial
  | done answer => cases h

lemma above_insertGroup {row : Group} (h : d.insertGroup row = .ok d') (a b : Uuid) :
    d'.Above a b ↔ d.Above a b ∨ (a = row.id ∧ row.parentId = some b) := by
  unfold Directory.insertGroup at h
  split_ifs at h with hkey hparent
  obtain rfl := Except.ok.inj h
  have hnew : d.findGroup row.id = none := Directory.findGroup_eq_none.mpr fun hmem => hkey (.inl hmem)
  rw [Directory.above_iff, Directory.above_iff, Directory.findGroup, List.find?_cons]
  by_cases ha : a = row.id
  · subst ha
    simp [hnew]
  · simp [beq_false_of_ne (Ne.symm ha), ha, Directory.findGroup]

lemma acyclic_insertGroup {row : Group} (h : d.insertGroup row = .ok d') (hacyclic : Acyclic d.Above) :
    Acyclic d'.Above := by
  have habove := above_insertGroup h
  unfold Directory.insertGroup at h
  split_ifs at h with hkey hparent
  cases hp : row.parentId with
  | none =>
      refine hacyclic.mono fun a b hab => ((habove a b).mp hab).resolve_right ?_
      simp [hp]
  | some p =>
      have hedge : d'.Above = Paths.AddEdge d.Above row.id p := by
        funext a b
        simp [habove, Paths.AddEdge, hp, eq_comm]
      rw [hedge, Paths.acyclic_addEdge_iff hacyclic]
      intro hpath
      have hexists : row.id ∈ d.groups.map Group.id := by
        rcases Relation.reflTransGen_iff_eq_or_transGen.mp hpath with heq | htrans
        · exact heq ▸ hparent p hp
        · obtain ⟨_, -, hlast⟩ := Relation.TransGen.tail'_iff.mp htrans
          exact hlast.exists
      exact hkey (.inl hexists)

lemma acyclic_deleteGroup (hacyclic : Acyclic d.Above) : Acyclic (d.deleteGroup id).Above := by
  refine hacyclic.mono fun a b hab => ?_
  obtain ⟨o, ho, hparent⟩ := Directory.above_iff.mp hab
  have hmem : o ∈ d.groups := (d.groupsWithout_sublist id).subset (List.mem_of_find?_eq_some ho)
  have hid : o.id = a := Directory.findGroup_id ho
  cases hfound : d.findGroup a with
  | none => exact absurd (List.mem_map.mpr ⟨o, hmem, hid⟩) (Directory.findGroup_eq_none.mp hfound)
  | some o' =>
      have hsame : o' = o := List.inj_on_of_nodup_map d.groupKey (List.mem_of_find?_eq_some hfound) hmem
        ((Directory.findGroup_id hfound).trans hid.symm)
      exact Directory.above_iff.mpr ⟨o', hfound, hsame ▸ hparent⟩

/-- **A row that is written** keeps the tree exactly when its new parent is not below it. -/
lemma acyclic_replaceGroup_iff (h : d.replaceGroup id patch = .ok (some d')) (hacyclic : Acyclic d.Above) :
    Acyclic d'.Above ↔ ∀ p, patch.parentId = some (some p) → ¬ ReflTransGen d.Above p id := by
  obtain ⟨hothers, o, hfound, hrow⟩ := Directory.above_replaceGroup h
  rcases hp : patch.parentId with _ | _ | p
  · refine iff_of_true (hacyclic.mono fun a b hab => ?_) (by simp)
    by_cases ha : a = id
    · subst ha
      refine Directory.above_iff.mpr ⟨o, hfound, ?_⟩
      simpa [GroupUpdate.apply, hp] using (hrow b).mp hab
    · exact (hothers a ha b).mp hab
  · refine iff_of_true (hacyclic.mono fun a b hab => ?_) (by simp)
    by_cases ha : a = id
    · subst ha
      have := (hrow b).mp hab
      simp [GroupUpdate.apply, hp] at this
    · exact (hothers a ha b).mp hab
  · have hedge : d'.Above = Redirect d.Above id p := by
      funext a b
      refine propext ?_
      by_cases ha : a = id
      · subst ha
        simp [hrow, GroupUpdate.apply, hp, Redirect, eq_comm]
      · simp [hothers a ha b, Redirect, ha]
    rw [hedge, Paths.acyclic_redirect_iff hacyclic]
    simp

end Statements

/-! ## Every schedule -/

section Schedules

variable {ι : Type} [DecidableEq ι]

/-- What a move is about to write was seen by its check: if the group is now above its new parent, it was
among those found above it. -/
def SeenAbove (w : Pool ι Directory GroupCall) : Pick ι Unit Empty → Prop
  | .call i _ => ∀ id patch seen p d, w.calls i = .writing id patch seen → patch.parentId = some (some p) →
      w.shared.replaceGroup id patch = .ok (some d) → TransGen w.shared.Above p id → id ∈ seen
  | .env _ => True

omit [DecidableEq ι] in
/-- **One statement.** -/
lemma acyclic_act_iff {w : Pool ι Directory GroupCall} {i : ι} {d : Directory} {call : GroupCall}
    (hsound : (w.calls i).Sound) (hacyclic : Acyclic w.shared.Above)
    (h : (w.calls i).act w.shared = some (d, call)) :
    Acyclic d.Above ↔ SeenAbove w (.call i ()) := by
  have hidle : (∀ id patch seen, w.calls i ≠ .writing id patch seen) → SeenAbove w (.call i ()) :=
    fun hno id patch seen p d hw => absurd hw (hno id patch seen)
  cases hcall : w.calls i with
  | create id input =>
      rw [hcall] at h
      cases h
      exact iff_of_true hacyclic (hidle (by simp [hcall]))
  | counting row =>
      rw [hcall] at h
      cases h
      exact iff_of_true hacyclic (hidle (by simp [hcall]))
  | inserting row =>
      rw [hcall, GroupCall.act, Option.some.injEq] at h
      refine iff_of_true ?_ (hidle (by simp [hcall]))
      cases hinsert : w.shared.insertGroup row with
      | error e =>
          rw [hinsert] at h
          cases h
          exact hacyclic
      | ok d' =>
          rw [hinsert] at h
          cases h
          exact acyclic_insertGroup hinsert hacyclic
  | update id patch =>
      rw [hcall, GroupCall.act] at h
      split_ifs at h <;> cases h <;> exact iff_of_true hacyclic (hidle (by simp [hcall]))
  | writing id patch seen =>
      rw [hcall, GroupCall.act, Option.some.injEq] at h
      rw [hcall] at hsound
      have hcond : SeenAbove w (.call i ()) ↔ ∀ p d, patch.parentId = some (some p) →
          w.shared.replaceGroup id patch = .ok (some d) → TransGen w.shared.Above p id → id ∈ seen := by
        simp only [SeenAbove, hcall, GroupCall.writing.injEq]
        constructor
        · exact fun hc p d => hc id patch seen p d ⟨rfl, rfl, rfl⟩
        · rintro hc _ _ _ p d ⟨rfl, rfl, rfl⟩
          exact hc p d
      cases hreplace : w.shared.replaceGroup id patch with
      | error e =>
          rw [hreplace] at h
          cases h
          exact iff_of_true hacyclic (hcond.mpr (by simp [hreplace]))
      | ok found =>
          cases found with
          | none =>
              rw [hreplace] at h
              cases h
              exact iff_of_true hacyclic (hcond.mpr (by simp [hreplace]))
          | some d' =>
              rw [hreplace] at h
              cases h
              rw [acyclic_replaceGroup_iff hreplace hacyclic, hcond]
              refine forall_congr' fun p => ?_
              constructor
              · intro hno _ hp _ hpath
                exact absurd hpath.to_reflTransGen (hno hp)
              · intro hc hp hpath
                obtain ⟨hne, hseen⟩ := hsound p hp
                rcases Relation.reflTransGen_iff_eq_or_transGen.mp hpath with heq | htrans
                · exact hne heq.symm
                · exact hseen (hc _ hp hreplace htrans)
  | delete id =>
      rw [hcall, GroupCall.act, Option.some.injEq] at h
      refine iff_of_true ?_ (hidle (by simp [hcall]))
      split_ifs at h <;> cases h
      · exact acyclic_deleteGroup hacyclic
      · exact hacyclic
  | done answer =>
      rw [hcall] at h
      cases h

/-- **When the groups stay a forest.**  In every schedule of calls that begin on a forest, no group is its
own ancestor in any state reached, exactly when each move that is written either finds its group not above
the new parent or had found it there. -/
theorem group_tree_iff {w w' : Pool ι Directory GroupCall} {picks : List (Pick ι Unit Empty)}
    (hfresh : ∀ i, (w.calls i).isFresh = true) (hforest : Acyclic w.shared.Above)
    (hrun : (groupCalls ι).machine.run w picks = some w') :
    (∀ past rest t, picks = past ++ rest → (groupCalls ι).machine.run w past = some t →
        Acyclic t.shared.Above) ↔ (groupCalls ι).machine.Meets SeenAbove w picks := by
  refine Machine.always_iff_meets (I := fun w => ∀ i, (w.calls i).Sound) (A := fun _ => True) ?_
    (fun _ _ => trivial) hrun ?_ hforest
  · rintro w pick w' - hsound hacyclic hstep
    cases pick with
    | env e => exact e.elim
    | call i k =>
        obtain ⟨d, call, hact, rfl⟩ := Calls.step_call.mp hstep
        refine ⟨Pool.next_forall (p := fun _ (call : GroupCall) => call.Sound) (GroupCall.sound_act hact)
          fun j _ => hsound j, ?_⟩
        exact acyclic_act_iff (hsound i) hacyclic hact
  · intro i
    have := hfresh i
    cases hcall : w.calls i <;> simp_all [GroupCall.isFresh, GroupCall.Sound]

end Schedules

/-! ## Two moves at once -/

def sampleGroupCalls : Pool (Fin 4) Directory GroupCall where
  shared := sampleDirectory
  calls
    | 0 => .create 20 ⟨"staff", none, none, none⟩
    | 1 => .create 21 ⟨"guests", none, none, none⟩
    | 2 => .update 20 ⟨none, some (some 21), none, none⟩
    | 3 => .update 21 ⟨none, some (some 20), none, none⟩

lemma sampleGroupCalls_fresh (i : Fin 4) : (sampleGroupCalls.calls i).isFresh = true := by
  revert i
  decide

lemma sampleGroupCalls_forest : Acyclic sampleGroupCalls.shared.Above := by
  intro g hg
  obtain ⟨_, hfirst, -⟩ := Relation.TransGen.head'_iff.mp hg
  exact List.not_mem_nil hfirst.exists

def madeGroups : List (Pick (Fin 4) Unit Empty) := [0, 0, 0, 1, 1, 1].map fun i => .call i ()

def movesInTurn : List (Pick (Fin 4) Unit Empty) := madeGroups ++ [.call 2 (), .call 2 (), .call 3 ()]

def movesAtOnce : List (Pick (Fin 4) Unit Empty) :=
  madeGroups ++ [.call 2 (), .call 3 (), .call 2 (), .call 3 ()]

def movesToTop (w : Pool (Fin 4) Directory GroupCall) : Pick (Fin 4) Unit Empty → Bool
  | .call i _ => match w.calls i with
      | .writing _ ⟨_, some (some p), _, _⟩ _ => (w.shared.parents p).isEmpty
      | _ => true
  | .env _ => true

lemma seenAbove_of_movesToTop {w : Pool (Fin 4) Directory GroupCall} {pick : Pick (Fin 4) Unit Empty}
    (h : movesToTop w pick = true) : SeenAbove w pick := by
  cases pick with
  | env e => trivial
  | call i k =>
      rintro id ⟨name, parentId, description, attributes⟩ seen p d hcall rfl - hpath
      obtain ⟨q, hfirst, -⟩ := Relation.TransGen.head'_iff.mp hpath
      simp only [movesToTop, hcall, List.isEmpty_iff] at h
      rw [Directory.Above, h] at hfirst
      cases hfirst

/-- In turn the second move is refused, and the groups stay a forest. -/
theorem group_tree_in_turn : ∃ w, (groupCalls (Fin 4)).machine.run sampleGroupCalls movesInTurn = some w ∧
    ∀ past rest t, movesInTurn = past ++ rest →
      (groupCalls (Fin 4)).machine.run sampleGroupCalls past = some t → Acyclic t.shared.Above := by
  have hany : ((groupCalls (Fin 4)).machine.run sampleGroupCalls movesInTurn).any (fun _ => true) = true := by
    decide +kernel
  obtain ⟨w, hrun, -⟩ := Machine.exists_run_of_any hany
  have hmeets : (groupCalls (Fin 4)).machine.Meets (fun w pick => movesToTop w pick = true)
      sampleGroupCalls movesInTurn := by
    decide +kernel
  exact ⟨w, hrun, (group_tree_iff sampleGroupCalls_fresh sampleGroupCalls_forest hrun).mpr
    (hmeets.mono seenAbove_of_movesToTop)⟩

/-- **Two moves close a loop.**  Neither group is above the other when the moves are checked, and when both
are written each is. -/
theorem moves_close_a_loop :
    ∃ w, (groupCalls (Fin 4)).machine.run sampleGroupCalls movesAtOnce = some w ∧
      TransGen w.shared.Above 20 20 := by
  have hany : ((groupCalls (Fin 4)).machine.run sampleGroupCalls movesAtOnce).any
      (fun w => w.shared.parents 20 == [21] && w.shared.parents 21 == [20]) = true := by
    decide +kernel
  obtain ⟨w, hrun, hloop⟩ := Machine.exists_run_of_any hany
  rw [Bool.and_eq_true, beq_iff_eq, beq_iff_eq] at hloop
  refine ⟨w, hrun, .tail (.single (b := 21) ?_) ?_⟩
  · rw [Directory.Above, hloop.1]
    exact List.mem_singleton_self 21
  · rw [Directory.Above, hloop.2]
    exact List.mem_singleton_self 20

end Ridm.Roles
