import Ridm.MasterKey.Rotation

/-!
# The column and the blob

The column `key_version` is there so that SQL can tell what a row is sealed under.  Writers take it from
the blob.  A pass stamps its target on what it has re-encrypted, and the target was fixed when it began,
while a row is sealed under whatever the node's current generation then is.  `versions_exact_iff` is the
exact condition for the column to tell the truth in every state of a run; `stamps_other_generation` is a
run in which it does not.
-/

namespace Ridm.MasterKey

variable {N T K P ι : Type}

/-- Every row's column names the generation its blob is sealed under. -/
def Store.Named (g : Store N T K P) : Prop := ∀ t, ∀ row ∈ g.tables t, row.keyVersion = row.blob.keyVersion

/-! ## What is told from the column -/

/-- Whatever is told from the column is so of the blobs: the highest generation in use, how many rows are
pending, and which rows a call of `rotate_rows` takes. -/
structure Store.Exact (g : Store N T K P) : Prop where
  named : g.Named
  highest : ∀ tables, g.highestVersionInUse tables =
    highest (tables.flatMap fun t => (g.tables t).map fun row => row.blob.keyVersion)
  pending : ∀ n tables, g.pending n tables = (tables.flatMap g.tables).countP fun row =>
    row.blob.keyVersion ≠ (g.nodes n).current ||
      ((g.nodes n).staleCipher = some .xChaCha20Poly1305 && row.blob.cipher = .xChaCha20Poly1305)
  selects : ∀ t, ∀ row ∈ g.tables t, ∀ (x : Node) (r : Range T),
    r.selects x row = (row.blob.keyVersion == r.version && legacyFilter x r.legacyOnly row)

variable {w : Pool ι (Store N T K P) (Task N T K P)} {g : Store N T K P} {n : N}

lemma exact_iff : g.Exact ↔ g.Named := by
  refine ⟨Store.Exact.named, fun h => ⟨h, fun tables => ?_, fun n tables => ?_, fun t row hrow x r => ?_⟩⟩
  · rw [Store.highestVersionInUse]
    congr 1
    refine List.flatMap_congr fun t _ => List.map_congr_left fun row hrow => ?_
    exact h t row hrow
  · rw [Store.pending]
    refine List.countP_congr fun row hrow => ?_
    obtain ⟨t, -, hrow⟩ := List.mem_flatMap.mp hrow
    rw [h t row hrow]
  · rw [Range.selects, h t row hrow]

lemma Store.Quiet.named_iff {g g' : Store N T K P} (h : g.Quiet g') : g'.Named ↔ g.Named := by
  rw [Store.Named, Store.Named, h.tables]

/-! ## Batches -/

section Batches

variable [LinearOrder K]

/-- The rows an update writes back were sealed under the target of the pass. -/
def StampsTarget (g : Store N T K P) (n : N) (r : Range T) (jobs : List (Job T K P)) : Prop :=
  ∀ row ∈ g.tables r.plan.table, r.selects (g.nodes n) row = true →
    ∀ blob ∈ (sealedJob jobs row.key).bind Job.sealedBlob, blob.keyVersion = r.plan.target

/-- **The update of a batch** keeps the column true exactly when it stamps what the blobs say. -/
lemma named_update_iff [DecidableEq T] {r : Range T} {jobs : List (Job T K P)} (hnamed : g.Named) :
    (g.setTable r.plan.table fun rows => rows.map (r.update (g.nodes n) jobs)).Named ↔
      StampsTarget g n r jobs := by
  constructor
  · intro h row hrow hselects blob hblob
    have hrow' : r.update (g.nodes n) jobs row ∈
        (g.setTable r.plan.table fun rows => rows.map (r.update (g.nodes n) jobs)).tables r.plan.table := by
      rw [mem_setTable, if_pos rfl]
      exact List.mem_map_of_mem hrow
    have hname := h _ _ hrow'
    rw [Range.update, Option.mem_def.mp hblob] at hname
    simp only [hselects, if_true] at hname
    exact hname.symm
  · intro h t row' hrow'
    rw [mem_setTable] at hrow'
    split_ifs at hrow' with ht
    · obtain ⟨row, hrow, rfl⟩ := List.mem_map.mp hrow'
      rw [Range.update]
      split
      · next blob hblob =>
          split_ifs with hselects
          · exact (h row hrow hselects blob hblob).symm
          · exact hnamed _ row hrow
      · exact hnamed _ row hrow
    · exact hnamed t row' hrow'

end Batches

/-! ## Whole runs -/

/-- The blobs a pass has re-encrypted are under its target. -/
def Task.OnTarget : Task N T K P → Prop
  | .pass _ (.sealing r _ _ jobs) => ∀ j ∈ jobs, ∀ b, j.state = .sealed b → b.keyVersion = r.plan.target
  | _ => True

lemma Pass.Empty.onTarget {p : Pass T K P} (h : p.Empty) : (Task.pass n p).OnTarget := by
  cases p with
  | sealing r after full jobs => exact absurd rfl (h r after full jobs)
  | _ => trivial

/-- The generation a pass seals under is its target. -/
def SealsTarget (w : Pool ι (Store N T K P) (Task N T K P)) : Pick ι Choice (Event N T K) → Prop
  | .call i (.job m _) =>
      match w.calls i with
      | .pass n (.sealing r _ _ jobs) =>
          ∀ j ∈ jobs[m]?, ∀ p, j.state = .opened p → (w.shared.nodes n).current = r.plan.target
      | _ => True
  | _ => True

section Runs

variable [DecidableEq N] [DecidableEq T] [LinearOrder K] {all : List T}

/-- **A step of a pass**: only the update of a batch touches the column. -/
lemma named_pass {i : ι} {k : Choice}
    {p p' : Pass T K P} (hnamed : w.shared.Named) (hcall : w.calls i = .pass n p)
    (h : p.step all n w.shared k = some (g, p')) : g.Named ↔ AtUpdate StampsTarget w (.call i k) := by
  cases pass_moves h with
  | other hp hquiet _ => exact iff_of_true (hquiet.named_iff.mpr hnamed) (atUpdate_empty hcall hp)
  | reads hp => exact iff_of_true hnamed (atUpdate_empty hcall hp)
  | advances r after full jobs m answers j j' hj hquiet =>
      exact iff_of_true (hquiet.named_iff.mpr hnamed) trivial
  | updates r after full jobs answers =>
      rw [atUpdate_sealing hcall]
      exact named_update_iff hnamed

/-- **A pass that seals under its target** has only such blobs in its hands. -/
lemma onTarget_pass {i : ι} {k : Choice} {p p' : Pass T K P} (htarget : (w.calls i).OnTarget)
    (hseals : SealsTarget w (.call i k)) (hcall : w.calls i = .pass n p)
    (h : p.step all n w.shared k = some (g, p')) : (Task.pass n p').OnTarget := by
  rw [hcall] at htarget
  cases pass_moves h with
  | other _ _ hempty => exact hempty.onTarget
  | reads _ r after full rows =>
      intro j hj b hb
      obtain ⟨row, -, rfl⟩ := List.mem_map.mp hj
      cases hb
  | advances r after full jobs m answers j j' hj hquiet hadvances =>
      intro j₁ hj₁ b hb
      rcases List.mem_or_eq_of_mem_set hj₁ with hold | rfl
      · exact htarget j₁ hold b hb
      · rcases hadvances.state with hfailed | hopened | ⟨q, blob, hq, hencrypt, hsealed⟩
        · rw [hfailed] at hb
          cases hb
        · rw [hopened] at hb
          cases hb
        · rw [hsealed] at hb
          cases hb
          rw [SealsTarget, hcall] at hseals
          rw [(encrypt_eq_some hencrypt).2]
          exact hseals j hj q hq
  | updates r after full jobs answers hempty => exact hempty.onTarget

omit [DecidableEq N] in
lemma named_writer {t : T} {inserts : Bool} {key : K} {plaintext : P} {l l' : Writer T K P}
    {g g' : Store N T K P} (hnamed : g.Named)
    (h : l.step n t inserts key plaintext g = some (g', l')) : g'.Named := by
  cases l with
  | idle =>
      obtain ⟨blob, -, h⟩ := Option.map_eq_some_iff.mp h
      cases h
      exact hnamed
  | sealed blob =>
      cases h
      intro t' row hrow
      rcases mem_write hrow with hold | rfl
      · exact hnamed t' row hold
      · rfl
  | done => cases h

lemma named_event {g g' : Store N T K P} {e : Event N T K} (hnamed : g.Named)
    (h : env all g e = some g') : g'.Named := by
  cases e with
  | load n version => exact (quiet_key h).named_iff.mpr hnamed
  | create n => exact (quiet_create h).named_iff.mpr hnamed
  | adopt n => exact (quiet_adopt h).named_iff.mpr hnamed
  | delete t key =>
      cases h
      intro t' row hrow
      rw [mem_setTable] at hrow
      split_ifs at hrow with ht
      · exact hnamed t row (List.mem_filter.mp hrow).1
      · exact hnamed t' row hrow

variable [DecidableEq ι]

lemma meets_stampsTarget {as : List (Pick ι Choice (Event N T K))} (hidle : ∀ i, (w.calls i).Idle)
    (hseals : (rotating ι all).machine.Meets SealsTarget w as) :
    (rotating ι all).machine.Meets (AtUpdate StampsTarget) w as := by
  refine Machine.Meets.imp (I := fun u => ∀ i, (u.calls i).OnTarget) ?_ ?_ hseals fun i => ?_
  · intro u a u' hu hC hstep
    cases a with
    | call i k =>
        obtain ⟨g, l, hact, rfl⟩ := Calls.step_call.mp hstep
        intro j
        by_cases hj : j = i
        · subst hj
          rw [Pool.next_self]
          rcases act_cases hact with ⟨n, p, p', hcall, hpass, rfl⟩ | ⟨n, t, _, _, _, x, x', -, -, rfl⟩
          · exact onTarget_pass (hu j) hC hcall hpass
          · trivial
        · rw [Pool.next_of_ne u hj]
          exact hu j
    | env e =>
        obtain ⟨g, -, rfl⟩ := Calls.step_env.mp hstep
        exact hu
  · intro u a hu _
    match a with
    | .env _ | .call _ (.job _ _) => trivial
    | .call i (.go _) =>
        have htask := hu i
        rw [AtUpdate]
        split
        · next n r after full jobs hcall =>
            rw [hcall] at htask
            intro row _ _ blob hblob
            obtain ⟨j, hj, hsealed⟩ := Option.bind_eq_some_iff.mp hblob
            obtain ⟨hmem, -, b, hstate, hb⟩ := sealedJob_eq_some hj
            rw [hb] at hsealed
            cases hsealed
            exact htask j hmem _ hstate
        · trivial
  · have hstart := hidle i
    cases hcall : w.calls i with
    | pass n p =>
        rw [hcall] at hstart
        cases hstart
        trivial
    | writer => trivial

/-- **When the column tells the truth.**  In every run of passes and writers on any nodes, with
generations created, loaded and made current in between, the column names the generation of the blob in
every state, and all that is told from it is exact, if and only if every row a pass writes back was
sealed under its target.  It was if the node's current generation is the target whenever a row of the
pass is encrypted. -/
theorem versions_exact_iff (all : List T) (w w' : Pool ι (Store N T K P) (Task N T K P))
    (as : List (Pick ι Choice (Event N T K))) (hidle : ∀ i, (w.calls i).Idle) (hnamed : w.shared.Named)
    (hrun : (rotating ι all).machine.run w as = some w') :
    ((∀ bs cs u, as = bs ++ cs → (rotating ι all).machine.run w bs = some u → u.shared.Exact) ↔
      (rotating ι all).machine.Meets (AtUpdate StampsTarget) w as) ∧
    ((rotating ι all).machine.Meets SealsTarget w as →
      (rotating ι all).machine.Meets (AtUpdate StampsTarget) w as) := by
  refine ⟨?_, meets_stampsTarget hidle⟩
  refine Machine.always_iff_meets (I := fun _ => True) (G := fun u => u.shared.Exact)
    (A := fun _ => True) ?_ (fun _ _ => trivial) hrun trivial (exact_iff.mpr hnamed)
  rintro u a u' - - hexact hstep
  refine ⟨trivial, ?_⟩
  rw [exact_iff] at hexact ⊢
  cases a with
  | call i k =>
      obtain ⟨g, l, hact, rfl⟩ := Calls.step_call.mp hstep
      rcases act_cases hact with ⟨n, p, p', hcall, hpass, rfl⟩ |
        ⟨n, t, inserts, key, plaintext, x, x', hcall, hwriter, rfl⟩
      · exact named_pass hexact hcall hpass
      · exact iff_of_true (named_writer hexact hwriter) (atUpdate_writer hcall)
  | env e =>
      obtain ⟨g, henv, rfl⟩ := Calls.step_env.mp hstep
      exact iff_of_true (named_event hexact henv) trivial

end Runs

/-! ## A generation that moves -/

instance [LinearOrder K] (g : Store N T K P) (n : N) (r : Range T) (jobs : List (Job T K P)) :
    Decidable (StampsTarget g n r jobs) :=
  inferInstanceAs (Decidable (∀ row ∈ g.tables r.plan.table, _ → ∀ blob ∈
    (sealedJob jobs row.key).bind Job.sealedBlob, blob.keyVersion = r.plan.target))

def versionsAfter (as : List (Pick ℕ Choice (Event Bool Unit ℕ))) : Option (List (ℕ × ℕ)) :=
  ((rotating ℕ [()]).machine.run twoNodes as).map fun w =>
    (w.shared.tables ()).map fun row => (row.keyVersion, row.blob.keyVersion)

def movesBetween : List (Pick ℕ Choice (Event Bool Unit ℕ)) :=
  List.replicate 5 (.call 0 (.go true)) ++ [.call 0 (.job 0 true), .env (.create false),
    .env (.load true 3), .call 0 (.job 0 true), .call 0 (.go true)]

/-- While the current generation stays, the column and the blobs agree. -/
theorem versions_exact_staying : versionsAfter (rotates (writes 1)) = some [(2, 2)] ∧
    ∀ bs cs u, rotates (writes 1) = bs ++ cs → (rotating ℕ [()]).machine.run twoNodes bs = some u →
      u.shared.Exact := by
  obtain ⟨w', hrun⟩ : ∃ w', (rotating ℕ [()]).machine.run twoNodes (rotates (writes 1)) = some w' :=
    Option.isSome_iff_exists.mp (by decide +kernel)
  refine ⟨by decide +kernel, (versions_exact_iff [()] twoNodes w' (rotates (writes 1))
    started_twoNodes.idle ?_ hrun).1.mpr (by decide +kernel)⟩
  intro t row hrow
  obtain rfl := List.mem_singleton.mp hrow
  rfl

/-- **A row under the third generation says it is under the second**: so the node, which is on the third,
counts it as pending, and the second as the highest in use. -/
theorem stamps_other_generation : versionsAfter movesBetween = some [(2, 3)] ∧
    ∃ u, (rotating ℕ [()]).machine.run twoNodes movesBetween = some u ∧ ¬ u.shared.Exact ∧
      u.shared.pending true [()] = 1 ∧ u.shared.highestVersionInUse [()] = 2 := by
  have hversions : versionsAfter movesBetween = some [(2, 3)] := by decide +kernel
  have hcounts : (((rotating ℕ [()]).machine.run twoNodes movesBetween).map fun u =>
      (u.shared.pending true [()], u.shared.highestVersionInUse [()])) = some (1, 2) := by decide +kernel
  refine ⟨hversions, ?_⟩
  obtain ⟨u, hrun, hu⟩ := Option.map_eq_some_iff.mp hversions
  rw [hrun, Option.map_some, Option.some.injEq, Prod.mk.injEq] at hcounts
  refine ⟨u, hrun, fun hexact => ?_, hcounts⟩
  have hrow : (2, 3) ∈ (u.shared.tables ()).map fun row => (row.keyVersion, row.blob.keyVersion) := by
    rw [hu]
    exact List.mem_singleton_self _
  obtain ⟨row, hmem, heq⟩ := List.mem_map.mp hrow
  have hsame := hexact.named () row hmem
  simp only [Prod.mk.injEq] at heq
  rw [heq.1, heq.2] at hsame
  cases hsame

end Ridm.MasterKey
