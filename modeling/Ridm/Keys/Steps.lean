import Ridm.Keys.Model

/-!
# What a step does to the keys

A step inserts a row, or makes the updates its call was about to make, or leaves the store alone
(`act_store`).  The keys a call of `maintain` has still to revoke are those it had before, less the one
it has just revoked, or those that the table it has just read shows as past their overlap
(`act_pending`).

No update changes what a row is called, and a row keeps what all updates of it keep (`setAll_keeps`).
-/

namespace Ridm.Keys

/-! ## The table -/

section Table

variable {t t' : KeyTable} {rows : List SigningKey} {k k' key : SigningKey} {c : Change}
  {changes : List Change} {id : Uuid}

lemma check_eq_some : KeyTable.check rows = some t ↔ t.rows = rows := by
  rw [KeyTable.check]
  constructor
  · intro h
    split_ifs at h
    cases h
    rfl
  · rintro rfl
    rw [dif_pos t.constraints]

@[simp] lemma Change.apply_id (c : Change) (k : SigningKey) : (c.apply k).id = k.id := by
  rw [Change.apply]
  split_ifs <;> rfl

@[simp] lemma Change.apply_kid (c : Change) (k : SigningKey) : (c.apply k).kid = k.kid := by
  rw [Change.apply]
  split_ifs <;> rfl

lemma Change.apply_of_eq (h : k.id = c.id) : c.apply k =
    { k with status := c.status, expiresAt := c.expiresAt <|> k.expiresAt } := if_pos h

lemma Change.apply_of_ne (h : k.id ≠ c.id) : c.apply k = k := if_neg h

lemma KeyTable.mem_insert (h : t.insert key = some t') (hk : k ∈ t.rows) : k ∈ t'.rows := by
  rw [check_eq_some.mp h]
  exact List.mem_cons_of_mem _ hk

lemma KeyTable.mem_setStatus (h : t.setStatus c = some t') (hk : k ∈ t.rows) : c.apply k ∈ t'.rows := by
  rw [check_eq_some.mp h]
  exact List.mem_map_of_mem hk

lemma KeyTable.eq_of_id_eq (hk : k ∈ t.rows) (hk' : k' ∈ t.rows) (hid : k.id = k'.id) : k = k' :=
  List.inj_on_of_nodup_map t.constraints.ids hk hk' hid

lemma KeyTable.findById_eq_some : t.findById id = some k ↔ k ∈ t.rows ∧ k.id = id := by
  constructor
  · intro h
    exact ⟨List.mem_of_find?_eq_some h, by simpa using List.find?_some h⟩
  · rintro ⟨hk, hid⟩
    cases hfind : t.findById id with
    | none => exact absurd (beq_iff_eq.mpr hid) (List.find?_eq_none.mp hfind k hk)
    | some k' =>
        have hk' : k'.id = id := by simpa using List.find?_some hfind
        exact congrArg some (t.eq_of_id_eq (List.mem_of_find?_eq_some hfind) hk (hk'.trans hid.symm))

lemma KeyTable.mem_list {s : KeyStatus} : k ∈ t.list (some s) ↔ k ∈ t.rows ∧ k.status = s := by
  rw [KeyTable.list, List.mem_mergeSort, List.mem_filter]
  simp

lemma KeyTable.mem_listPublished : k ∈ t.listPublished ↔ k ∈ t.rows ∧ k.status.isPublished = true := by
  rw [KeyTable.listPublished, List.mem_mergeSort, List.mem_filter]

lemma KeyTable.nodup_list (s : Option KeyStatus) : ((t.list s).map SigningKey.id).Nodup := by
  rw [KeyTable.list, ((List.mergeSort_perm _ _).map _).nodup_iff]
  exact t.constraints.ids.sublist (List.filter_sublist.map _)

lemma KeyTable.of_findActive {alg : Tokens.SigningAlg} {now : Instant}
    (h : t.findActive alg now = some k) : k ∈ t.rows ∧ k.status = .active := by
  have hmem := List.mem_of_mem_head? h
  rw [List.mem_mergeSort, List.mem_filter] at hmem
  refine ⟨hmem.1, ?_⟩
  have := hmem.2
  simp only [Bool.and_eq_true, beq_iff_eq] at this
  exact this.1.2

/-- **What a transaction keeps.**  A row stays where it is, by its id and `kid`, and keeps what every
update of it keeps. -/
lemma KeyTable.setAll_keeps {P : SigningKey → Prop} (h : t.setAll changes = some t') (hk : k ∈ t.rows)
    (hP : P k) (hkeep : ∀ c ∈ changes, c.id = k.id → ∀ k', k'.id = k.id → P k' → P (c.apply k')) :
    ∃ k' ∈ t'.rows, k'.id = k.id ∧ k'.kid = k.kid ∧ P k' := by
  induction changes generalizing t k with
  | nil =>
      cases h
      exact ⟨k, hk, rfl, rfl, hP⟩
  | cons c changes ih =>
      obtain ⟨u, hu, hrest⟩ := Option.bind_eq_some_iff.mp h
      have hP' : P (c.apply k) := by
        by_cases hid : c.id = k.id
        · exact hkeep c List.mem_cons_self hid k rfl hP
        · rwa [Change.apply_of_ne fun h => hid h.symm]
      obtain ⟨k', hk', hid, hkid, hPk'⟩ := ih hrest (mem_setStatus hu hk) hP'
        fun c' hc' hid' k' hk' hPk' => hkeep c' (List.mem_cons_of_mem _ hc')
          (hid'.trans (c.apply_id k)) k' (hk'.trans (c.apply_id k)) hPk'
      exact ⟨k', hk', hid.trans (c.apply_id k), hkid.trans (c.apply_kid k), hPk'⟩

end Table

lemma SigningKey.isExpired_iff {k : SigningKey} {now : Instant} :
    k.isExpired now = true ↔ ∃ e, k.expiresAt = some e ∧ e ≤ now := by
  rw [isExpired, Option.any_eq_true]
  simp

lemma SigningKey.PastOverlap.mono {k : SigningKey} {now now' : Instant} (h : k.PastOverlap now)
    (hle : now ≤ now') : k.PastOverlap now' := by
  obtain ⟨e, he, hnow⟩ := isExpired_iff.mp h.2
  exact ⟨h.1, isExpired_iff.mpr ⟨e, he, Int.le_trans hnow hle⟩⟩

/-! ## Steps -/

section Steps

variable {policy : KeyPolicy} {g g' : Store} {l l' next : Task} {k : Choice} {id : Uuid}
  {changes : List Change}

lemma update_cases (h : g.update id changes next = (g', l')) :
    (g' = g ∧ ∃ e, l' = .failed e) ∨
      (l' = next ∧ ∃ t, g.table.setAll changes = some t ∧ g' = g.commit changes t) := by
  rw [Store.update] at h
  split at h
  · cases h
    exact .inl ⟨rfl, _, rfl⟩
  · next t ht =>
      split_ifs at h
      · cases h
        exact .inr ⟨rfl, t, ht, rfl⟩
      · cases h
        exact .inl ⟨rfl, _, rfl⟩

lemma find_cases {revoked : String} {next : SigningKey → Task} (h : g.find id revoked next = (g', l')) :
    g' = g ∧ ((∃ e, l' = .failed e) ∨ ∃ key, l' = next key) := by
  rw [Store.find] at h
  split at h
  · cases h
    exact ⟨rfl, .inl ⟨_, rfl⟩⟩
  · next key _ =>
      split_ifs at h <;> cases h
      · exact ⟨rfl, .inl ⟨_, rfl⟩⟩
      · exact ⟨rfl, .inr ⟨key, rfl⟩⟩

lemma create_cases {key : SigningKey} {rest : Option (List Tokens.SigningAlg)}
    (h : g.create key rest = (g', l')) :
    (g' = g ∧ ∃ e, l' = .failed e) ∨
      (l'.pending = [] ∧ ∃ t, g.table.insert key = some t ∧ g' = g.commit [] t) := by
  rw [Store.create] at h
  split at h
  · cases h
    exact .inl ⟨rfl, _, rfl⟩
  · next t ht =>
      cases h
      refine .inr ⟨?_, t, ht, rfl⟩
      cases rest <;> rfl

@[simp] lemma Task.pending_resume (rest : List Tokens.SigningAlg) : (Task.resume rest).pending = [] := by
  cases rest <;> rfl

lemma pending_of_revoked {c : Change} (hc : c ∈ l.writes) (hrevoked : c.status = .revoked) :
    c.id ∈ l.pending := by
  cases l with
  | activating key overlap active rest =>
      rcases List.mem_append.mp hc with hother | hself
      · obtain ⟨other, -, rfl⟩ := List.mem_map.mp hother
        cases hrevoked
      · obtain rfl := List.mem_singleton.mp hself
        cases hrevoked
  | retiring id overlap =>
      obtain rfl := List.mem_singleton.mp hc
      cases hrevoked
  | revokingAt now at' id ids =>
      obtain rfl := List.mem_singleton.mp hc
      exact List.mem_cons_self
  | _ => cases hc

/-- What a step of a call may do.  What is pending after it was pending before, or has just been read. -/
inductive Effect (g : Store) (l : Task) (k : Choice) : Store → Task → Prop
  | quiet (l' : Task) (hpending : l'.pending = [] ∨ l'.pending = l.pending) : Effect g l k g l'
  | inserted (key : SigningKey) (t : KeyTable) (l' : Task) (ht : g.table.insert key = some t)
      (hpending : l'.pending = []) : Effect g l k (g.commit [] t) l'
  | committed (t : KeyTable) (l' : Task) (ht : g.table.setAll l.writes = some t)
      (hpending : l'.pending = l.pending.tail) : Effect g l k (g.commit l.writes t) l'
  /-- The keys to revoke are those that some committed table shows as past their overlap. -/
  | listed (now : Instant) (behind : ℕ) (t : KeyTable) (hl : l = .sweeping now)
      (hk : k = .reads behind) (ht : g.snapshot behind = some t) :
      Effect g l k g (.revoking now
        (((t.list (some .retiring)).filter fun key => key.isExpired now).map SigningKey.id))

lemma Effect.of_failed (e : AppError) : Effect g l k g (.failed e) := .quiet _ (.inl rfl)

lemma Effect.of_update (h : g.update id l.writes next = (g', l'))
    (hpending : next.pending = l.pending.tail) : Effect g l k g' l' := by
  rcases update_cases h with ⟨rfl, e, rfl⟩ | ⟨rfl, t, ht, rfl⟩
  · exact .of_failed e
  · exact .committed t l' ht hpending

lemma Effect.of_find {revoked : String} {next : SigningKey → Task}
    (h : g.find id revoked next = (g', l')) (hpending : ∀ key, (next key).pending = []) :
    Effect g l k g' l' := by
  obtain ⟨rfl, ⟨e, rfl⟩ | ⟨key, rfl⟩⟩ := find_cases h
  · exact .of_failed e
  · exact .quiet _ (.inl (hpending key))

lemma Effect.of_create {key : SigningKey} {rest : Option (List Tokens.SigningAlg)}
    (h : g.create key rest = (g', l')) : Effect g l k g' l' := by
  rcases create_cases h with ⟨rfl, e, rfl⟩ | ⟨hpending, t, ht, rfl⟩
  · exact .of_failed e
  · exact .inserted key t l' ht hpending

/-- **What a step does**, whatever the call. -/
theorem act_effect (h : act policy g l k = some (g', l')) : Effect g l k g' l' := by
  cases k with
  | fails =>
      cases l <;> cases h <;> exact .of_failed _
  | draws id kid =>
      cases l with
      | inserting => exact .of_create (Option.some.inj h)
      | _ => cases h
  | reads behind =>
      cases l with
      | sweeping now =>
          obtain ⟨t, ht, h⟩ := Option.bind_eq_some_iff.mp h
          cases h
          exact .listed now behind t rfl rfl ht
      | revoking now ids =>
          cases ids with
          | cons => cases h
          | nil =>
              obtain ⟨t, ht, h⟩ := Option.bind_eq_some_iff.mp h
              cases h
              exact .quiet _ (.inl (Task.pending_resume _))
      | _ => cases h
  | go =>
      cases l with
      | create | rotateAlg | found | listing | retire | maintain =>
          cases h
          exact .quiet _ (.inl rfl)
      | activate | finding | retireFinding => exact .of_find (Option.some.inj h) fun _ => rfl
      | activating => exact .of_update (Option.some.inj h) (Task.pending_resume _)
      | retiring => exact .of_update (Option.some.inj h) rfl
      | revoking now ids =>
          cases ids with
          | nil => cases h
          | cons =>
              cases h
              exact .quiet _ (.inr rfl)
      | revokingAt => exact .of_update (Option.some.inj h) rfl
      | rotating rest =>
          cases rest with
          | nil => cases h
          | cons =>
              cases h
              exact .quiet _ (.inl rfl)
      | inserting | sweeping | done | failed => cases h

end Steps

end Ridm.Keys
