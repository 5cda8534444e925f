import Ridm.MasterKey.Model

/-!
# What a step of a pass does

Most steps of a pass leave the tables alone (`Store.Quiet`).  `pass_moves` says once what the others do:
a batch is read, one of its rows is decrypted or encrypted again, or the batch is updated.
-/

namespace Ridm.MasterKey

variable {N T K P : Type}

/-- The tables, and what writers have done, are as before. -/
structure Store.Quiet (g g' : Store N T K P) : Prop where
  tables : g'.tables = g.tables
  writes : g'.writes = g.writes

lemma Store.Quiet.refl (g : Store N T K P) : g.Quiet g := ⟨rfl, rfl⟩

/-- The pass has no batch in its hands. -/
def Pass.Empty (p : Pass T K P) : Prop := ∀ r after full jobs, p ≠ .sealing r after full jobs

variable {k : Choice} {blob : Encrypted T K P} {all : List T} {aad : T × K} {r : Range T} {x : Node}
  {t : T} {p : P}

lemma encrypt_eq_some
    (h : x.encrypt aad p = some blob) : blob.plaintext = p ∧ blob.keyVersion = x.current := by
  rw [Node.encrypt] at h
  split_ifs at h
  cases h
  exact ⟨rfl, rfl⟩

/-- A row of a batch as it is read. -/
def Row.job (row : Row T K P) : Job T K P := ⟨row.key, row.blob, .read, row.writtenAt⟩

lemma mem_of_mem_batch [LinearOrder K] {after : Option K} {rows : List (Row T K P)}
    {row : Row T K P} (h : row ∈ r.batch x after rows) : row ∈ rows := by
  have hsorted := List.mem_of_mem_take h
  rw [List.mem_mergeSort] at hsorted
  exact (List.mem_filter.mp hsorted).1

section Custody

variable [DecidableEq N] {g g' : Store N T K P} {n : N}

lemma quiet_key {version : ℕ} (h : g.key n version = some g') : g.Quiet g' := by
  rw [Store.key] at h
  split_ifs at h
  · cases h
    exact .refl g
  · simp only [Option.bind_eq_bind, Option.bind_eq_some_iff] at h
    obtain ⟨row, -, x, -, h⟩ := h
    cases h
    exact ⟨rfl, rfl⟩

lemma quiet_create {tables : List T} (h : g.createGeneration n tables = some g') : g.Quiet g' := by
  simp only [Store.createGeneration, Option.bind_eq_bind, Option.bind_eq_some_iff] at h
  obtain ⟨primary, -, h⟩ := h
  split_ifs at h
  cases h
  exact ⟨rfl, rfl⟩

lemma quiet_adopt (h : g.adopt n = some g') : g.Quiet g' := by
  rw [Store.adopt] at h
  split at h <;> cases h
  exact ⟨rfl, rfl⟩

variable [DecidableEq T] [LinearOrder K]

lemma decrypt_eq_some
    (h : g.decrypt n aad blob = some (g', p)) : g.Quiet g' ∧ p = blob.plaintext := by
  rw [Store.decrypt] at h
  split_ifs at h
  · obtain ⟨g'', hkey, h⟩ := Option.bind_eq_some_iff.mp h
    cases h
    exact ⟨quiet_key hkey, rfl⟩
  · obtain ⟨g'', -, h⟩ := Option.bind_eq_some_iff.mp h
    cases h

/-- What becomes of a row of a batch in one step. -/
structure Advances (g : Store N T K P) (n : N) (t : T) (j j' : Job T K P) : Prop where
  key : j'.key = j.key
  blob : j'.blob = j.blob
  writtenAt : j'.writtenAt = j.writtenAt
  state : j'.state = .failed ∨ j'.state = .opened j.blob.plaintext ∨
    ∃ p blob, j.state = .opened p ∧ (g.nodes n).encrypt (t, j.key) p = some blob ∧
      j'.state = .sealed blob

lemma advance_spec {j j' : Job T K P} {answers : Bool}
    (h : g.advance n t j answers = some (g', j')) : g.Quiet g' ∧ Advances g n t j j' := by
  rw [Store.advance.eq_def] at h
  split at h
  · split at h
    · next g'' p hdecrypt =>
        cases h
        obtain ⟨hquiet, rfl⟩ := decrypt_eq_some hdecrypt
        exact ⟨hquiet, rfl, rfl, rfl, .inr (.inl rfl)⟩
    · cases h
      exact ⟨.refl g, rfl, rfl, rfl, .inl rfl⟩
  · next p hstate =>
      split at h
      · next blob hencrypt =>
          cases h
          exact ⟨.refl g, rfl, rfl, rfl, .inr (.inr ⟨p, blob, hstate, hencrypt, rfl⟩)⟩
      · cases h
        exact ⟨.refl g, rfl, rfl, rfl, .inl rfl⟩
  · cases h
    exact ⟨.refl g, rfl, rfl, rfl, .inl rfl⟩
  · cases h
    exact ⟨.refl g, rfl, rfl, rfl, .inl rfl⟩
  · cases h
  · cases h

/-- What a step of a pass does. -/
inductive Moves (g : Store N T K P) (n : N) :
    Choice → Pass T K P → Store N T K P → Pass T K P → Prop
  | other {k : Choice} {p : Pass T K P} {g' : Store N T K P} {p' : Pass T K P} (hp : p.Empty)
      (hquiet : g.Quiet g') (hempty : p'.Empty) : Moves g n k p g' p'
  | reads {k : Choice} {p : Pass T K P} (hp : p.Empty) (r : Range T) (after : K) (full : Bool)
      (rows : List (Row T K P)) (hrows : ∀ row ∈ rows, row ∈ g.tables r.plan.table) :
      Moves g n k p g (.sealing r after full (rows.map Row.job))
  | advances {g' : Store N T K P} (r : Range T) (after : K) (full : Bool) (jobs : List (Job T K P))
      (i : ℕ) (answers : Bool) (j j' : Job T K P) (hj : jobs[i]? = some j) (hquiet : g.Quiet g')
      (hadvances : Advances g n r.plan.table j j') :
      Moves g n (.job i answers) (.sealing r after full jobs) g' (.sealing r after full (jobs.set i j'))
  | updates {p' : Pass T K P} (r : Range T) (after : K) (full : Bool) (jobs : List (Job T K P))
      (answers : Bool) (hempty : p'.Empty) :
      Moves g n (.go answers) (.sealing r after full jobs)
        (g.setTable r.plan.table fun rows => rows.map (r.update (g.nodes n) jobs)) p'

/-- **What a step of a pass does.** -/
lemma pass_moves {p p' : Pass T K P}
    (h : p.step all n g k = some (g', p')) : Moves g n k p g' p' := by
  rw [Pass.step.eq_def] at h
  split at h
  · cases h
    exact .other nofun (.refl g) nofun
  · next version rest =>
      cases h
      refine .other nofun ?_ nofun
      cases hkey : g.key n version with
      | none => exact .refl g
      | some g'' => exact quiet_key hkey
  · cases h
    exact .other nofun (.refl g) nofun
  · cases h
    exact .other nofun (.refl g) nofun
  · cases h
    exact .other nofun (.refl g) nofun
  · cases h
    exact .other nofun (.refl g) nofun
  · cases h
    exact .other nofun (.refl g) nofun
  · cases h
    exact .other nofun (.refl g) nofun
  · next r after =>
      simp only at h
      split at h
      · cases h
        exact .other nofun (.refl g) nofun
      · cases h
        exact .reads nofun r _ _ _ fun row hrow => mem_of_mem_batch hrow
  · next r after full jobs i answers =>
      simp only [Option.bind_eq_some_iff, Option.map_eq_some_iff] at h
      obtain ⟨j, hj, ⟨g'', j'⟩, hadvance, h⟩ := h
      cases h
      obtain ⟨hquiet, hadvances⟩ := advance_spec hadvance
      exact .advances r after full jobs i answers j j' hj hquiet hadvances
  · next r after full jobs answers =>
      split_ifs at h with hover hfull
      · cases h
        exact .updates r after full jobs answers nofun
      · cases h
        exact .updates r after full jobs answers nofun
  · cases h

lemma act_cases {l l' : Task N T K P} (h : act all g l k = some (g', l')) :
    (∃ n p p', l = .pass n p ∧ p.step all n g k = some (g', p') ∧ l' = .pass n p') ∨
    ∃ n t inserts key plaintext w w', l = .writer n t inserts key plaintext w ∧
      w.step n t inserts key plaintext g = some (g', w') ∧ l' = .writer n t inserts key plaintext w' := by
  cases l with
  | pass n p =>
      obtain ⟨⟨g'', p'⟩, hstep, heq⟩ := Option.map_eq_some_iff.mp h
      cases heq
      exact .inl ⟨n, p, p', rfl, hstep, rfl⟩
  | writer n t inserts key plaintext w =>
      obtain ⟨⟨g'', w'⟩, hstep, heq⟩ := Option.map_eq_some_iff.mp h
      cases heq
      exact .inr ⟨n, t, inserts, key, plaintext, w, w', rfl, hstep, rfl⟩

end Custody

/-! ## Conditions on updates -/

section Updates

variable {ι : Type} {C : Store N T K P → N → Range T → List (Job T K P) → Prop}
  {w : Pool ι (Store N T K P) (Task N T K P)} {i : ι} {n : N}

/-- Every batch that is updated meets a condition. -/
def AtUpdate (C : Store N T K P → N → Range T → List (Job T K P) → Prop)
    (w : Pool ι (Store N T K P) (Task N T K P)) : Pick ι Choice (Event N T K) → Prop
  | .call i (.go _) =>
      match w.calls i with
      | .pass n (.sealing r _ _ jobs) => C w.shared n r jobs
      | _ => True
  | _ => True

lemma atUpdate_sealing {after : K} {full answers : Bool} {jobs : List (Job T K P)}
    (h : w.calls i = .pass n (.sealing r after full jobs)) :
    AtUpdate C w (.call i (.go answers)) ↔ C w.shared n r jobs := by
  rw [AtUpdate, h]

lemma atUpdate_empty {p : Pass T K P} (h : w.calls i = .pass n p) (hempty : p.Empty) :
    AtUpdate C w (.call i k) := by
  cases k with
  | job => trivial
  | go answers =>
      rw [AtUpdate, h]
      cases p with
      | sealing r after full jobs => exact absurd rfl (hempty r after full jobs)
      | _ => trivial

lemma atUpdate_writer {inserts : Bool} {key : K} {plaintext : P}
    {x : Writer T K P} (h : w.calls i = .writer n t inserts key plaintext x) :
    AtUpdate C w (.call i k) := by
  cases k with
  | job => trivial
  | go answers =>
      rw [AtUpdate, h]
      trivial

instance [∀ g n r jobs, Decidable (C g n r jobs)] : ∀ a, Decidable (AtUpdate C w a)
  | .call i (.go _) =>
      match h : w.calls i with
      | .pass n (.sealing r _ _ jobs) => decidable_of_iff (C w.shared n r jobs) (atUpdate_sealing h).symm
      | .pass _ .idle | .pass _ (.refreshing _) | .pass _ (.tables _ _) | .pass _ (.ranges _)
      | .pass _ (.reading _ _) | .pass _ .done => .isTrue (atUpdate_empty h nofun)
      | .writer _ _ _ _ _ _ => .isTrue (atUpdate_writer h)
  | .call _ (.job _ _) => .isTrue trivial
  | .env _ => .isTrue trivial

end Updates

end Ridm.MasterKey
