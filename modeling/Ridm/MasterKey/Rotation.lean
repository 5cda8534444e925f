import Ridm.MasterKey.Steps

/-!
# What a rotation writes over

A pass updates a row only where `key_version` still is what it was when the batch was read.  That tells
it from every write under another generation, and from none under the same: a writer on a node that has
not adopted the new generation leaves the column as it was.  `rotation_keeps_writes_iff` is the exact
condition for a run to keep all writes; `rotation_loses_write` is one that does not.
-/

namespace Ridm.MasterKey

variable {N T K P ι : Type}

/-- Every row holds what a writer has last put there. -/
def Store.Kept (g : Store N T K P) : Prop := ∀ t, ∀ row ∈ g.tables t, row.blob.plaintext = row.written

/-! ## The invariant -/

/-- What a writer has put into a row is told by when it did. -/
def Store.Stamped (g : Store N T K P) : Prop := ∀ t, ∀ row ∈ g.tables t, row.writtenAt < g.writes ∧
  ∀ row' ∈ g.tables t, row.key = row'.key → row.writtenAt = row'.writtenAt → row.written = row'.written

/-- A row of a batch is re-encrypted from what it was read as, and that is what the writer has put there
whose write it was. -/
structure Job.Sound (g : Store N T K P) (t : T) (j : Job T K P) : Prop where
  opened : ∀ p, j.state = .opened p → p = j.blob.plaintext
  sealed : ∀ b, j.state = .sealed b → b.plaintext = j.blob.plaintext
  past : j.writtenAt < g.writes
  written : ∀ row ∈ g.tables t, row.key = j.key → row.writtenAt = j.writtenAt →
    row.written = j.blob.plaintext

/-- The invariant of a task. -/
def Task.Sound (g : Store N T K P) : Task N T K P → Prop
  | .pass _ (.sealing r _ _ jobs) => ∀ j ∈ jobs, j.Sound g r.plan.table
  | .writer _ _ _ _ plaintext (.sealed blob) => blob.plaintext = plaintext
  | _ => True

/-- What was written stays, or is written over by a writer. -/
structure Store.Follows (g g' : Store N T K P) : Prop where
  writes : g.writes ≤ g'.writes
  rows : ∀ t, ∀ row' ∈ g'.tables t, (∃ row ∈ g.tables t, row'.key = row.key ∧
    row'.written = row.written ∧ row'.writtenAt = row.writtenAt) ∨ g.writes ≤ row'.writtenAt

variable {g g' : Store N T K P}

lemma Store.Quiet.follows (h : g.Quiet g') : g.Follows g' where
  writes := by rw [h.writes]
  rows t row hrow := by
    rw [h.tables] at hrow
    exact .inl ⟨row, hrow, rfl, rfl, rfl⟩

variable {w : Pool ι (Store N T K P) (Task N T K P)} {f : List (Row T K P) → List (Row T K P)}
  {l : Task N T K P} {jobs : List (Job T K P)} {inserts : Bool} {blob : Encrypted T K P}
  {j : Job T K P} {i : ι}

lemma Job.Sound.follows {t : T} (h : j.Sound g t) (hfollows : g.Follows g') : j.Sound g' t where
  opened := h.opened
  sealed := h.sealed
  past := Nat.lt_of_lt_of_le h.past hfollows.writes
  written row' hrow' hkey hat := by
    rcases hfollows.rows t row' hrow' with ⟨row, hrow, hkey', hwritten, hat'⟩ | hlater
    · rw [hwritten]
      exact h.written row hrow (hkey'.symm.trans hkey) (hat'.symm.trans hat)
    · rw [hat] at hlater
      exact absurd h.past (Nat.not_lt.mpr hlater)

lemma Task.Sound.follows (h : l.Sound g) (hfollows : g.Follows g') : l.Sound g' := by
  match l, h with
  | .pass _ (.sealing r _ _ jobs), h => exact fun j hj => (h j hj).follows hfollows
  | .pass _ .idle, _ | .pass _ (.refreshing _), _ | .pass _ (.tables _ _), _ | .pass _ (.ranges _), _
  | .pass _ (.reading _ _), _ | .pass _ .done, _ => trivial
  | .writer _ _ _ _ _ .idle, _ | .writer _ _ _ _ _ .done, _ => trivial
  | .writer _ _ _ _ _ (.sealed _), h => exact h

section Histories

variable {g g' : Store N T K P} {n : N} {t : T}

lemma Store.Stamped.follows (h : g.Stamped) (hfollows : g.Follows g')
    (hold : ∀ t, ∀ row ∈ g'.tables t, row.writtenAt < g.writes) : g'.Stamped := by
  intro t row hrow
  obtain ⟨row₀, hrow₀, hkey, hwritten, hat⟩ := (hfollows.rows t row hrow).resolve_right
    (Nat.not_le.mpr (hold t row hrow))
  refine ⟨Nat.lt_of_lt_of_le (hold t row hrow) hfollows.writes, fun row' hrow' hkey' hat' => ?_⟩
  obtain ⟨row₁, hrow₁, hkey₁, hwritten₁, hat₁⟩ := (hfollows.rows t row' hrow').resolve_right
    (Nat.not_le.mpr (hold t row' hrow'))
  rw [hwritten, hwritten₁]
  refine (h t row₀ hrow₀).2 row₁ hrow₁ ?_ ?_
  · rw [← hkey, ← hkey₁, hkey']
  · rw [← hat, ← hat₁, hat']

variable {g : Store N T K P} {row : Row T K P} {key : K}

lemma sound_job (hstamped : g.Stamped) (hkept : g.Kept) (hrow : row ∈ g.tables t) :
    row.job.Sound g t where
  opened _ h := nomatch h
  sealed _ h := nomatch h
  past := (hstamped t row hrow).1
  written row' hrow' hkey hat :=
    ((hstamped t row' hrow').2 row hrow hkey hat).trans (hkept t row hrow).symm

lemma Job.Sound.advances {j j' : Job T K P} (h : j.Sound g t) (hadvances : Advances g n t j j') :
    j'.Sound g t where
  opened p hp := by
    rw [hadvances.blob]
    rcases hadvances.state with hfailed | hopened | ⟨q, blob, -, -, hsealed⟩
    · rw [hfailed] at hp
      cases hp
    · rw [hopened] at hp
      cases hp
      rfl
    · rw [hsealed] at hp
      cases hp
  sealed b hb := by
    rw [hadvances.blob]
    rcases hadvances.state with hfailed | hopened | ⟨q, blob, hq, hencrypt, hsealed⟩
    · rw [hfailed] at hb
      cases hb
    · rw [hopened] at hb
      cases hb
    · rw [hsealed] at hb
      cases hb
      rw [(encrypt_eq_some hencrypt).1]
      exact h.opened q hq
  past := hadvances.writtenAt ▸ h.past
  written row hrow hkey hat := by
    rw [hadvances.blob]
    exact h.written row hrow (hkey.trans hadvances.key) (hat.trans hadvances.writtenAt)

end Histories

section Tables

variable [DecidableEq T] {g : Store N T K P} {t : T}

lemma mem_setTable {t' : T} :
    row ∈ (g.setTable t f).tables t' ↔ if t' = t then row ∈ f (g.tables t) else row ∈ g.tables t' := by
  rw [Store.setTable]
  by_cases h : t' = t
  · subst h
    simp
  · simp [h]

lemma follows_setTable
    (hf : ∀ row' ∈ f (g.tables t), ∃ row ∈ g.tables t, row'.key = row.key ∧
      row'.written = row.written ∧ row'.writtenAt = row.writtenAt) : g.Follows (g.setTable t f) where
  writes := le_refl _
  rows t' row' hrow' := by
    rw [mem_setTable] at hrow'
    split_ifs at hrow' with ht
    · exact .inl (ht ▸ hf row' hrow')
    · exact .inl ⟨row', hrow', rfl, rfl, rfl⟩

lemma Store.Stamped.setTable (h : g.Stamped)
    (hf : ∀ row' ∈ f (g.tables t), ∃ row ∈ g.tables t, row'.key = row.key ∧
      row'.written = row.written ∧ row'.writtenAt = row.writtenAt) : (g.setTable t f).Stamped := by
  refine h.follows (follows_setTable hf) fun t' row' hrow' => ?_
  rw [mem_setTable] at hrow'
  split_ifs at hrow' with ht
  · obtain ⟨row, hrow, -, -, hat⟩ := hf row' hrow'
    exact hat ▸ (h t row hrow).1
  · exact (h t' row' hrow').1

end Tables

/-! ## Batches and writes -/

section Writes

variable [LinearOrder K]

lemma update_history (x : Node) (r : Range T) (jobs : List (Job T K P)) (row : Row T K P) :
    (r.update x jobs row).key = row.key ∧ (r.update x jobs row).written = row.written ∧
      (r.update x jobs row).writtenAt = row.writtenAt := by
  rw [Range.update]
  split
  · split_ifs <;> exact ⟨rfl, rfl, rfl⟩
  · exact ⟨rfl, rfl, rfl⟩

lemma mem_writeRow {p : P} {at_ : ℕ}
    {rows : List (Row T K P)} (h : row ∈ writeRow inserts key blob p at_ rows) :
    row ∈ rows ∨ row = ⟨key, blob.keyVersion, blob, p, at_⟩ := by
  simp only [writeRow] at h
  split_ifs at h
  · obtain ⟨row₀, hrow₀, rfl⟩ := List.mem_map.mp h
    split_ifs
    · exact .inr rfl
    · exact .inl hrow₀
  · rw [List.mem_append, List.mem_singleton] at h
    exact h
  · exact .inl h

lemma sealedJob_eq_some
    (h : sealedJob jobs key = some j) : j ∈ jobs ∧ j.key = key ∧ ∃ b, j.state = .sealed b ∧
      j.sealedBlob = some b := by
  have hfound := List.find?_some h
  rw [Bool.and_eq_true, beq_iff_eq, Option.isSome_iff_exists] at hfound
  obtain ⟨hkey, b, hb⟩ := hfound
  refine ⟨List.mem_of_find?_eq_some h, hkey, b, ?_, hb⟩
  rw [Job.sealedBlob] at hb
  split at hb
  · next blob hstate =>
      cases hb
      exact hstate
  · cases hb

variable [DecidableEq T] {g : Store N T K P} {n : N} {t : T}

lemma mem_write {t' : T} {p : P}
    (h : row ∈ (g.setTable t (writeRow inserts key blob p g.writes)).tables t') :
    row ∈ g.tables t' ∨ row = ⟨key, blob.keyVersion, blob, p, g.writes⟩ := by
  rw [mem_setTable] at h
  split_ifs at h with ht
  · subst ht
    exact mem_writeRow h
  · exact .inl h

lemma follows_write (inserts : Bool) (key : K) (blob : Encrypted T K P) (p : P) :
    g.Follows { g.setTable t (writeRow inserts key blob p g.writes) with writes := g.writes + 1 } where
  writes := Nat.le_succ _
  rows t' row hrow := by
    have hrow' := mem_setTable.mp hrow
    split_ifs at hrow' with ht
    · subst ht
      rcases mem_writeRow hrow' with hold | rfl
      · exact .inl ⟨row, hold, rfl, rfl, rfl⟩
      · exact .inr (Nat.le_refl _)
    · exact .inl ⟨row, hrow', rfl, rfl, rfl⟩

lemma Store.Stamped.write (h : g.Stamped) (inserts : Bool) (key : K) (blob : Encrypted T K P) (p : P) :
    Store.Stamped
      { g.setTable t (writeRow inserts key blob p g.writes) with writes := g.writes + 1 } := by
  intro t' row hrow
  rcases mem_write hrow with hold | rfl
  · refine ⟨Nat.lt_succ_of_lt (h t' row hold).1, fun row' hrow' hkey hat => ?_⟩
    rcases mem_write hrow' with hold' | rfl
    · exact (h t' row hold).2 row' hold' hkey hat
    · exact absurd hat (Nat.ne_of_lt (h t' row hold).1)
  · refine ⟨Nat.lt_succ_self _, fun row' hrow' hkey hat => ?_⟩
    rcases mem_write hrow' with hold' | rfl
    · exact absurd hat.symm (Nat.ne_of_lt (h t' row' hold').1)
    · rfl

/-- The update of a batch meets no row that has been given another value since the batch was read, under
the generation (and, for a pass over the stale cipher, in the cipher) it was read in. -/
def SparesWrites (g : Store N T K P) (n : N) (r : Range T) (jobs : List (Job T K P)) : Prop :=
  ∀ row ∈ g.tables r.plan.table, ∀ j ∈ sealedJob jobs row.key, r.selects (g.nodes n) row = true →
    row.writtenAt = j.writtenAt ∨ row.written = j.blob.plaintext

/-- **The update of a batch** keeps what writers have written exactly when it spares their writes. -/
lemma kept_update_iff {r : Range T} (hjobs : ∀ j ∈ jobs, j.Sound g r.plan.table) (hkept : g.Kept) :
    (g.setTable r.plan.table fun rows => rows.map (r.update (g.nodes n) jobs)).Kept ↔
      SparesWrites g n r jobs := by
  -- A row the update rewrites holds what it was read as.
  have hhit : ∀ row j, sealedJob jobs row.key = some j → r.selects (g.nodes n) row = true →
      (r.update (g.nodes n) jobs row).blob.plaintext = j.blob.plaintext ∧
      (row.key = j.key ∧ j ∈ jobs) := by
    intro row j hj hselects
    obtain ⟨hmem, hkey, b, hstate, hblob⟩ := sealedJob_eq_some hj
    rw [Range.update, hj, Option.bind_some, hblob]
    simp only [hselects, if_true]
    exact ⟨(hjobs j hmem).sealed b hstate, hkey.symm, hmem⟩
  constructor
  · intro h row hrow j hj hselects
    obtain ⟨hplain, hkey, hmem⟩ := hhit row j hj hselects
    obtain ⟨-, hwritten, -⟩ := update_history (g.nodes n) r jobs row
    have hrow' : r.update (g.nodes n) jobs row ∈
        (g.setTable r.plan.table fun rows => rows.map (r.update (g.nodes n) jobs)).tables r.plan.table := by
      rw [mem_setTable, if_pos rfl]
      exact List.mem_map_of_mem hrow
    have hkept' := h _ _ hrow'
    rw [hplain, hwritten] at hkept'
    exact .inr hkept'.symm
  · intro h t row' hrow'
    rw [mem_setTable] at hrow'
    split_ifs at hrow' with ht
    · obtain ⟨row, hrow, rfl⟩ := List.mem_map.mp hrow'
      obtain ⟨-, hwritten, -⟩ := update_history (g.nodes n) r jobs row
      rw [hwritten]
      cases hj : sealedJob jobs row.key with
      | none =>
          rw [Range.update, hj]
          exact hkept _ row hrow
      | some j =>
          by_cases hselects : r.selects (g.nodes n) row = true
          · obtain ⟨hplain, hkey, hmem⟩ := hhit row j hj hselects
            rw [hplain]
            rcases h row hrow j hj hselects with hat | hsame
            · exact ((hjobs j hmem).written row hrow hkey hat).symm
            · exact hsame.symm
          · rw [Range.update, hj, Option.bind_some]
            obtain ⟨-, -, b, -, hblob⟩ := sealedJob_eq_some hj
            rw [hblob]
            simp only [hselects]
            exact hkept _ row hrow
    · exact hkept t row' hrow'

end Writes

/-! ## Whole runs -/

section Runs

/-- The task has not begun. -/
def Task.Idle : Task N T K P → Prop
  | .pass _ p => p = .idle
  | .writer _ _ _ _ _ w => w = .idle

/-- Nothing has begun, and every row holds what was last put there. -/
structure Started (w : Pool ι (Store N T K P) (Task N T K P)) : Prop where
  stamped : w.shared.Stamped
  kept : w.shared.Kept
  idle : ∀ i, (w.calls i).Idle

/-- The invariant. -/
structure Sound (w : Pool ι (Store N T K P) (Task N T K P)) : Prop where
  stamped : w.shared.Stamped
  tasks : ∀ i, (w.calls i).Sound w.shared

lemma Task.Idle.sound (h : l.Idle) : l.Sound g := by
  cases l with
  | pass n p => cases h; trivial
  | writer n t inserts key plaintext w => cases h; trivial

lemma Store.Quiet.kept_iff (h : g.Quiet g') : g'.Kept ↔ g.Kept := by
  rw [Store.Kept, Store.Kept, h.tables]

lemma Store.Stamped.quiet (h : g.Stamped) (hquiet : g.Quiet g') : g'.Stamped := by
  rw [Store.Stamped, hquiet.tables, hquiet.writes]
  exact h

lemma Pass.Empty.sound {n : N} {p : Pass T K P} (h : p.Empty) :
    (Task.pass n p).Sound g := by
  cases p with
  | sealing r after full jobs => exact absurd rfl (h r after full jobs)
  | _ => trivial

lemma Sound.next [DecidableEq ι] (hw : Sound w)
    (hstamped : g.Stamped) (hfollows : w.shared.Follows g) (hl : l.Sound g) :
    Sound (w.next i g l) where
  stamped := hstamped
  tasks j := by
    by_cases hj : j = i
    · subst hj
      rw [Pool.next_self]
      exact hl
    · rw [Pool.next_of_ne w hj]
      exact (hw.tasks j).follows hfollows

variable [DecidableEq N] [DecidableEq T] [LinearOrder K] {all : List T}

/-- **Everything else** loses nothing either. -/
lemma sound_event {e : Event N T K}
    (hw : Sound w) (hkept : w.shared.Kept) (h : env all w.shared e = some g) :
    Sound (⟨g, w.calls⟩ : Pool ι _ _) ∧ g.Kept := by
  have hquiet : ∀ {g'}, w.shared.Quiet g' → Sound (⟨g', w.calls⟩ : Pool ι _ _) ∧ g'.Kept := fun hq =>
    ⟨⟨hw.stamped.quiet hq, fun j => (hw.tasks j).follows hq.follows⟩, hq.kept_iff.mpr hkept⟩
  cases e with
  | load n version => exact hquiet (quiet_key h)
  | create n => exact hquiet (quiet_create h)
  | adopt n => exact hquiet (quiet_adopt h)
  | delete t key =>
      cases h
      have hold : ∀ row' ∈ (w.shared.tables t).filter fun r => !(r.key == key),
          ∃ row ∈ w.shared.tables t, row'.key = row.key ∧ row'.written = row.written ∧
            row'.writtenAt = row.writtenAt :=
        fun row' hrow' => ⟨row', (List.mem_filter.mp hrow').1, rfl, rfl, rfl⟩
      refine ⟨⟨hw.stamped.setTable hold, fun j => (hw.tasks j).follows (follows_setTable hold)⟩,
        fun t' row hrow => ?_⟩
      rw [mem_setTable] at hrow
      split_ifs at hrow with ht
      · exact hkept t row (List.mem_filter.mp hrow).1
      · exact hkept t' row hrow

variable [DecidableEq ι]

/-- **A step of a pass**: only an update of a batch can lose a write. -/
lemma sound_pass {k : Choice} {n : N} {p p' : Pass T K P} (hw : Sound w) (hkept : w.shared.Kept)
    (hcall : w.calls i = .pass n p) (h : p.step all n w.shared k = some (g, p')) :
    Sound (w.next i g (.pass n p')) ∧ (g.Kept ↔ AtUpdate SparesWrites w (.call i k)) := by
  cases pass_moves h with
  | other hp hquiet hempty =>
      exact ⟨hw.next (hw.stamped.quiet hquiet) hquiet.follows hempty.sound,
        iff_of_true (hquiet.kept_iff.mpr hkept) (atUpdate_empty hcall hp)⟩
  | reads hp r after full rows hrows =>
      refine ⟨hw.next hw.stamped (Store.Quiet.refl _).follows ?_, iff_of_true hkept (atUpdate_empty hcall hp)⟩
      intro j hj
      obtain ⟨row, hrow, rfl⟩ := List.mem_map.mp hj
      exact sound_job hw.stamped hkept (hrows row hrow)
  | advances r after full jobs m answers j j' hj hquiet hadvances =>
      refine ⟨hw.next (hw.stamped.quiet hquiet) hquiet.follows ?_,
        iff_of_true (hquiet.kept_iff.mpr hkept) trivial⟩
      have htask := hw.tasks i
      rw [hcall] at htask
      intro j₁ hj₁
      rcases List.mem_or_eq_of_mem_set hj₁ with hold | rfl
      · exact (htask j₁ hold).follows hquiet.follows
      · exact ((htask j (List.mem_of_getElem? hj)).advances hadvances).follows hquiet.follows
  | updates r after full jobs answers hempty =>
      have htask := hw.tasks i
      rw [hcall] at htask
      have hold : ∀ row' ∈ (w.shared.tables r.plan.table).map (r.update (w.shared.nodes n) jobs),
          ∃ row ∈ w.shared.tables r.plan.table, row'.key = row.key ∧ row'.written = row.written ∧
            row'.writtenAt = row.writtenAt := by
        intro row' hrow'
        obtain ⟨row, hrow, rfl⟩ := List.mem_map.mp hrow'
        exact ⟨row, hrow, update_history _ r jobs row⟩
      refine ⟨hw.next (hw.stamped.setTable hold) (follows_setTable hold) hempty.sound, ?_⟩
      rw [atUpdate_sealing hcall]
      exact kept_update_iff htask hkept

omit [DecidableEq N] in
/-- **A step of a writer** loses nothing. -/
lemma sound_writer {n : N} {t : T} {plaintext : P} {l l' : Writer T K P} (hw : Sound w)
    (hkept : w.shared.Kept) (hcall : w.calls i = .writer n t inserts key plaintext l)
    (h : l.step n t inserts key plaintext w.shared = some (g, l')) :
    Sound (w.next i g (.writer n t inserts key plaintext l')) ∧ g.Kept := by
  cases l with
  | idle =>
      obtain ⟨blob, hencrypt, h⟩ := Option.map_eq_some_iff.mp h
      cases h
      exact ⟨hw.next hw.stamped (Store.Quiet.refl _).follows (encrypt_eq_some hencrypt).1, hkept⟩
  | sealed blob =>
      cases h
      have htask := hw.tasks i
      rw [hcall] at htask
      refine ⟨hw.next (hw.stamped.write inserts key blob plaintext)
        (follows_write inserts key blob plaintext) trivial, fun t' row hrow => ?_⟩
      rcases mem_write hrow with hold | rfl
      · exact hkept t' row hold
      · exact htask
  | done => cases h

/-- **What a rotation keeps.**  In every run of passes and writers on any nodes, every row holds in every
state what a writer has last put there, exactly when no pass updates a row that has been given another
value since its batch was read and still is under the generation it was read under. -/
theorem rotation_keeps_writes_iff (all : List T) (w w' : Pool ι (Store N T K P) (Task N T K P))
    (as : List (Pick ι Choice (Event N T K))) (hw : Started w)
    (hrun : (rotating ι all).machine.run w as = some w') :
    (∀ bs cs u, as = bs ++ cs → (rotating ι all).machine.run w bs = some u → u.shared.Kept) ↔
      (rotating ι all).machine.Meets (AtUpdate SparesWrites) w as := by
  refine Machine.always_iff_meets (I := Sound) (G := fun u => u.shared.Kept) (A := fun _ => True)
    ?_ (fun _ _ => trivial) hrun ⟨hw.stamped, fun i => (hw.idle i).sound⟩ hw.kept
  rintro u a u' - hu hkept hstep
  cases a with
  | call i k =>
      obtain ⟨g, l, hact, rfl⟩ := Calls.step_call.mp hstep
      rcases act_cases hact with ⟨n, p, p', hcall, hpass, rfl⟩ |
        ⟨n, t, inserts, key, plaintext, x, x', hcall, hwriter, rfl⟩
      · exact sound_pass hu hkept hcall hpass
      · obtain ⟨hsound, hkept'⟩ := sound_writer hu hkept hcall hwriter
        exact ⟨hsound, iff_of_true hkept' (atUpdate_writer hcall)⟩
  | env e =>
      obtain ⟨g, henv, rfl⟩ := Calls.step_env.mp hstep
      obtain ⟨hsound, hkept'⟩ := sound_event hu hkept henv
      exact ⟨hsound, iff_of_true hkept' trivial⟩

end Runs

/-! ## Two nodes -/

instance [LinearOrder K] [DecidableEq P] (g : Store N T K P) (n : N) (r : Range T)
    (jobs : List (Job T K P)) : Decidable (SparesWrites g n r jobs) :=
  inferInstanceAs (Decidable (∀ row ∈ g.tables r.plan.table, ∀ j ∈ sealedJob jobs row.key, _ → _))

def nodeAt (current : ℕ) (keys : List ℕ) : Node :=
  { current, keys, envVersions := [1], wrappers := ["kms"], primary := some "kms",
    writeCipher := .aes256GcmHkdf, staleCipher := none, legacyReads := false, created := [] }

def twoNodes : Pool ℕ (Store Bool Unit ℕ ℕ) (Task Bool Unit ℕ ℕ) where
  shared :=
    { nodes := fun n => if n then nodeAt 2 [1, 2] else nodeAt 1 [1], generations := [⟨2, "kms"⟩],
      tables := fun _ => [⟨7, 1, ⟨.aes256GcmHkdf, 1, ((), 7), 10⟩, 10, 0⟩], writes := 1 }
  calls i := if i = 0 then .pass true .idle else .writer (i == 1) () true 7 (10 * i + 10) .idle

def rotates (between : List (Pick ℕ Choice (Event Bool Unit ℕ))) :
    List (Pick ℕ Choice (Event Bool Unit ℕ)) :=
  List.replicate 5 (.call 0 (.go true)) ++ List.replicate 2 (.call 0 (.job 0 true)) ++ between ++
    [.call 0 (.go true)]

def writes (i : ℕ) : List (Pick ℕ Choice (Event Bool Unit ℕ)) := List.replicate 2 (.call i (.go true))

def rowsAfter (as : List (Pick ℕ Choice (Event Bool Unit ℕ))) : Option (List (ℕ × ℕ × ℕ)) :=
  ((rotating ℕ [()]).machine.run twoNodes as).map fun w =>
    (w.shared.tables ()).map fun row => (row.blob.plaintext, row.keyVersion, row.written)

lemma started_twoNodes : Started twoNodes where
  stamped := by
    intro t row hrow
    obtain rfl := List.mem_singleton.mp hrow
    refine ⟨by decide, fun row' hrow' _ _ => ?_⟩
    obtain rfl := List.mem_singleton.mp hrow'
    rfl
  kept := by
    intro t row hrow
    obtain rfl := List.mem_singleton.mp hrow
    rfl
  idle i := by
    rw [twoNodes]
    by_cases h : i = 0 <;> simp [h, Task.Idle]

/-- A writer that is on the new generation when the batch has been read is not written over. -/
theorem rotation_keeps_writes_adopted : rowsAfter (rotates (writes 1)) = some [(20, 2, 20)] ∧
    ∀ bs cs u, rotates (writes 1) = bs ++ cs → (rotating ℕ [()]).machine.run twoNodes bs = some u →
      u.shared.Kept := by
  obtain ⟨w', hrun⟩ : ∃ w', (rotating ℕ [()]).machine.run twoNodes (rotates (writes 1)) = some w' :=
    Option.isSome_iff_exists.mp (by decide +kernel)
  exact ⟨by decide +kernel, (rotation_keeps_writes_iff [()] twoNodes w' (rotates (writes 1))
    started_twoNodes hrun).mpr (by decide +kernel)⟩

/-- **A rotation loses a write**: between the reading of a batch and its update a writer on a node that
has not adopted the new generation replaces the value, and the old one comes back. -/
theorem rotation_loses_write : Started twoNodes ∧
    rowsAfter (rotates (writes 2)) = some [(10, 2, 30)] ∧
    ∃ u, (rotating ℕ [()]).machine.run twoNodes (rotates (writes 2)) = some u ∧ ¬ u.shared.Kept := by
  have hrows : rowsAfter (rotates (writes 2)) = some [(10, 2, 30)] := by decide +kernel
  refine ⟨started_twoNodes, hrows, ?_⟩
  obtain ⟨u, hrun, hu⟩ := Option.map_eq_some_iff.mp hrows
  refine ⟨u, hrun, fun hkept => ?_⟩
  have hrow : (10, 2, 30) ∈ (u.shared.tables ()).map fun row =>
      (row.blob.plaintext, row.keyVersion, row.written) := by
    rw [hu]
    exact List.mem_singleton_self _
  obtain ⟨row, hmem, heq⟩ := List.mem_map.mp hrow
  have hsame := hkept () row hmem
  simp only [Prod.mk.injEq] at heq
  rw [heq.1, heq.2.2] at hsame
  cases hsame

end Ridm.MasterKey
