import Ridm.RefreshTokens.Families
import Ridm.RefreshTokens.Transactions
import Mathlib.Data.Fintype.Basic

/-!
# Reuse detection beside a rotation

Reuse of a consumed token revokes its whole family, but the revoking `UPDATE` and a rotation of the
family's live token lock different rows.  A rotation that is under way when the `UPDATE` takes its
snapshot commits a successor the `UPDATE` never sees: it waits for the rotated row, revokes that,
and leaves the successor live.  `successor_survives` is such a schedule.

The one thing that goes wrong is that a candidate is consumed between the snapshot and the moment
the `UPDATE` comes to it (`Unrotated` excludes it).  Then `reuse_ends_family` holds: once a
redemption that detected reuse has committed, no token of the family is ever redeemed again.  The
invariant, `Sweeps`, says of an `UPDATE` under way that every live row of the family is a candidate
still to come or one it has locked, **or** some candidate still to come has been consumed.
-/

namespace Ridm.RefreshTokens

def NoLive (tenantId familyId : Uuid) (rows : Table) : Prop :=
  ∀ r ∈ rows, inFamily tenantId familyId r = true → r.isLive = false

section

variable {ι : Type}

/-- The candidates an `UPDATE` under way has still to come to. -/
def Pc.todo : Pc → List RefreshToken
  | .revoking _ todo _ _ _ => todo
  | _ => []

/-- **No candidate was consumed since the snapshot.**  Whenever a family's `UPDATE` comes to a
candidate row, that row is consumed only if it was so in the snapshot. -/
def Unrotated (w : Pool ι (Db ι) Pc) : Pick ι Choice Env → Prop
  | .call i (.row id) => ∀ s ∈ (w.calls i).todo, s.id = id →
      ∀ r ∈ w.shared.rows, r.id = id → r.consumedAt = s.consumedAt
  | _ => True

instance (w : Pool ι (Db ι) Pc) : ∀ a, Decidable (Unrotated w a)
  | .call _ (.row _) => inferInstanceAs (Decidable (∀ s ∈ _, _ → ∀ r ∈ _, _ → _))
  | .call _ .go | .call _ .rollBack | .env _ => .isTrue trivial

/-- Transaction `i` holds the lock on the row it read, and the row is still what it read. -/
def Holds (db : Db ι) (i : ι) (t : RefreshToken) : Prop := t ∈ db.rows ∧ db.lock t.id = some i

/-- **An `UPDATE` under way** with the candidates `todo` to come and the rows `done` locked: it will
have come to every live row of the family, unless a candidate still to come was consumed. -/
def Sweeps (rows : Table) (tenantId familyId : Uuid) (todo : List RefreshToken)
    (done : List Uuid) : Prop :=
  (∀ r ∈ rows, inFamily tenantId familyId r = true → r.isLive = true →
    (∃ s ∈ todo, s.id = r.id ∧ s.consumedAt = none) ∨ r.id ∈ done) ∨
  ∃ s ∈ todo, s.consumedAt = none ∧ ∃ r ∈ rows, r.id = s.id ∧ r.consumedAt.isSome = true

/-- What holds of each transaction. -/
def CallOk (db : Db ι) (i : ι) : Pc → Prop
  | .locked req _ _ _ t => t.tenantId = req.tenantId ∧ Holds db i t
  | .exchanging req _ _ t =>
      t.tenantId = req.tenantId ∧ t.clientId = req.clientId ∧ t.isLive = true ∧ Holds db i t
  | .revoking t todo done _ _ =>
      (∀ id ∈ done, db.lock id = some i) ∧ Sweeps db.rows t.tenantId t.familyId todo done
  | .returned (some t) (.error e) => e = reuseDetected → NoLive t.tenantId t.familyId db.rows
  | _ => True

/-- **The invariant.** -/
def Sound (w : Pool ι (Db ι) Pc) : Prop := ∀ i, CallOk w.shared i (w.calls i)

/-! ## What the others' steps leave alone -/

variable {db db' : Db ι} {i j : ι} {l : Pc} {t : RefreshToken}

lemma CallOk.of_lock (h : CallOk db j l) (hrows : db'.rows = db.rows)
    (hlock : ∀ id, db.lock id = some j → db'.lock id = some j) : CallOk db' j l := by
  cases l with
  | locked req sessions draw now t =>
      obtain ⟨htenant, hmem, hheld⟩ := h
      exact ⟨htenant, hrows ▸ hmem, hlock _ hheld⟩
  | exchanging req draw now t =>
      obtain ⟨htenant, hclient, hlive, hmem, hheld⟩ := h
      exact ⟨htenant, hclient, hlive, hrows ▸ hmem, hlock _ hheld⟩
  | revoking t todo done now answer =>
      exact ⟨fun id hid => hlock id (h.1 id hid), hrows ▸ h.2⟩
  | returned found answer =>
      cases found with
      | none => trivial
      | some t =>
          cases answer with
          | ok issued => trivial
          | error e => exact fun he => hrows ▸ h he
  | _ => trivial

/-- `f` ages the rows transaction `i` has locked, and no others. -/
structure AgesLocked (db : Db ι) (i : ι) (f : RefreshToken → RefreshToken) : Prop where
  ages : ∀ r, Ages r (f r)
  id : ∀ r, (f r).id = r.id
  consumed : ∀ r, r.consumedAt.isSome = true → (f r).consumedAt.isSome = true
  locked : ∀ r, f r ≠ r → db.lock r.id = some i

variable {tenantId familyId : Uuid} {done : List Uuid} {f : RefreshToken → RefreshToken}

lemma inFamily_ages {r r' : RefreshToken} (h : Ages r r') :
    inFamily tenantId familyId r' = inFamily tenantId familyId r := by
  simp [inFamily, h.tenantId, h.familyId]

variable {todo : List RefreshToken} {t₀ : RefreshToken} {rows : Table} {answer : OAuthError}
  {new : RefreshToken} {k : Choice}

lemma NoLive.map (hf : ∀ r, Ages r (f r)) (h : NoLive tenantId familyId rows) :
    NoLive tenantId familyId (rows.map f) := by
  intro r' hr' hfam
  obtain ⟨r, hr, rfl⟩ := List.mem_map.mp hr'
  rw [inFamily_ages (hf r)] at hfam
  by_contra hlive
  have hrlive := (hf r).live (by simpa using hlive)
  rw [h r hr hfam] at hrlive
  cases hrlive

lemma Sweeps.map (hf : ∀ r, Ages r (f r)) (hid : ∀ r, (f r).id = r.id)
    (hconsumed : ∀ r, r.consumedAt.isSome = true → (f r).consumedAt.isSome = true)
    (h : Sweeps rows tenantId familyId todo done) :
    Sweeps (rows.map f) tenantId familyId todo done := by
  rcases h with hall | ⟨s, hs, hsnone, r, hr, hrs, hrsome⟩
  · refine Or.inl fun r' hr' hfam hlive => ?_
    obtain ⟨r, hr, rfl⟩ := List.mem_map.mp hr'
    rw [inFamily_ages (hf r)] at hfam
    rw [hid r]
    exact hall r hr hfam ((hf r).live hlive)
  · exact Or.inr ⟨s, hs, hsnone, f r, List.mem_map.mpr ⟨r, hr, rfl⟩, (hid r).trans hrs,
      hconsumed r hrsome⟩

lemma Sweeps.append (h : Sweeps rows tenantId familyId todo done)
    (hnew : inFamily tenantId familyId new = false) :
    Sweeps (rows ++ [new]) tenantId familyId todo done := by
  rcases h with hall | ⟨s, hs, hsnone, r, hr, hrs, hrsome⟩
  · refine Or.inl fun r hr hfam hlive => ?_
    rw [List.mem_append, List.mem_singleton] at hr
    rcases hr with hr | rfl
    · exact hall r hr hfam hlive
    · rw [hnew] at hfam
      cases hfam
  · exact Or.inr ⟨s, hs, hsnone, r, List.mem_append_left _ hr, hrs, hrsome⟩

lemma Holds.map (h : Holds db j t) (hji : j ≠ i) (hf : AgesLocked db i f) : t ∈ db.rows.map f := by
  refine List.mem_map.mpr ⟨t, h.1, ?_⟩
  by_contra hne
  have hmine := hf.locked t hne
  rw [h.2, Option.some.injEq] at hmine
  exact hji hmine

/-- **Ageing one's own rows** does not disturb the others. -/
lemma CallOk.map (h : CallOk db j l) (hji : j ≠ i) (hf : AgesLocked db i f) :
    CallOk { db with rows := db.rows.map f } j l := by
  cases l with
  | locked req sessions draw now t =>
      obtain ⟨htenant, hholds⟩ := h
      exact ⟨htenant, hholds.map hji hf, hholds.2⟩
  | exchanging req draw now t =>
      obtain ⟨htenant, hclient, hlive, hholds⟩ := h
      exact ⟨htenant, hclient, hlive, hholds.map hji hf, hholds.2⟩
  | revoking t todo done now answer => exact ⟨h.1, h.2.map hf.ages hf.id hf.consumed⟩
  | returned found answer =>
      cases found with
      | none => trivial
      | some t =>
          cases answer with
          | ok issued => trivial
          | error e => exact fun he => (h he).map hf.ages
  | _ => trivial

lemma agesLocked_consumeIf (hheld : db.lock t.id = some i) (now : Instant) :
    AgesLocked db i (consumeIf t.tenantId t.id now) where
  ages := ages_consumeIf t.tenantId t.id now
  id r := by
    simp only [consumeIf]
    split_ifs <;> rfl
  consumed r hr := by
    simp only [consumeIf]
    split_ifs
    · rfl
    · exact hr
  locked r hne := by
    simp only [consumeIf] at hne
    split_ifs at hne with hid
    · simp only [Bool.and_eq_true, beq_iff_eq] at hid
      rw [hid.2, hheld]
    · exact absurd rfl hne

lemma agesLocked_revokeIf (hheld : ∀ id ∈ done, db.lock id = some i)
    (now : Instant) : AgesLocked db i (revokeIf (fun r => done.contains r.id) now) where
  ages := ages_revokeIf _ now
  id r := by
    simp only [revokeIf]
    split_ifs <;> rfl
  consumed r hr := by
    simp only [revokeIf]
    split_ifs <;> exact hr
  locked r hne := by
    simp only [revokeIf] at hne
    split_ifs at hne with hid
    · simp only [Bool.and_eq_true, List.contains_iff_mem] at hid
      exact hheld r.id hid.1
    · exact absurd rfl hne

/-- **A rotation** by `i` of a live row it has locked does not disturb the others: an `UPDATE`
that was to come to the row finds it consumed. -/
lemma CallOk.rotate {now : Instant} (h : CallOk db j l) (hji : j ≠ i)
    (hmem : t ∈ db.rows) (hheld : db.lock t.id = some i) (hlive : t.isLive = true)
    (hfam : ∀ tenantId familyId, inFamily tenantId familyId new = inFamily tenantId familyId t) :
    CallOk { db with rows := markConsumed t.tenantId t.id now db.rows ++ [new] } j l := by
  have hf := agesLocked_consumeIf hheld now
  have hmap := h.map hji hf
  cases l with
  | locked req sessions draw now' r =>
      obtain ⟨htenant, hrmem, hrheld⟩ := hmap
      exact ⟨htenant, List.mem_append_left _ hrmem, hrheld⟩
  | exchanging req draw now' r =>
      obtain ⟨htenant, hclient, hrlive, hrmem, hrheld⟩ := hmap
      exact ⟨htenant, hclient, hrlive, List.mem_append_left _ hrmem, hrheld⟩
  | revoking r todo done now' answer =>
      refine ⟨h.1, ?_⟩
      by_cases hin : inFamily r.tenantId r.familyId t = true
      · rcases h.2 with hall | ⟨s, hs, hsnone, r', hr', hrs, hrsome⟩
        · -- the rotated row was live, so the `UPDATE` was still to come to it
          rcases hall t hmem hin hlive with ⟨s, hs, hid, hsnone⟩ | hdone
          · have himage : consumeIf t.tenantId t.id now t ∈
                markConsumed t.tenantId t.id now db.rows := List.mem_map_of_mem hmem
            exact Or.inr ⟨s, hs, hsnone, _, List.mem_append_left _ himage,
              (hf.id t).trans hid.symm, by simp [consumeIf]⟩
          · have hmine := h.1 t.id hdone
            rw [hheld, Option.some.injEq] at hmine
            exact absurd hmine.symm hji
        · have himage : consumeIf t.tenantId t.id now r' ∈
              markConsumed t.tenantId t.id now db.rows := List.mem_map_of_mem hr'
          exact Or.inr ⟨s, hs, hsnone, _, List.mem_append_left _ himage, (hf.id r').trans hrs,
            hf.consumed r' hrsome⟩
      · exact hmap.2.append (by simpa [hfam] using hin)
  | returned found answer =>
      cases found with
      | none => trivial
      | some r =>
          cases answer with
          | ok issued => trivial
          | error e =>
              intro he r' hr' hin
              rw [List.mem_append, List.mem_singleton] at hr'
              rcases hr' with hr' | rfl
              · exact hmap he r' hr' hin
              · rw [hfam] at hin
                have hdead := h he t hmem hin
                rw [hlive] at hdead
                cases hdead
  | _ => trivial

/-! ## One step -/

variable [DecidableEq ι]

lemma checkRequest_ne_reuse {req : RedeemRequest} {now : Instant} {e : OAuthError}
    (h : checkRequest req t now = some e) : e ≠ reuseDetected := by
  simp only [checkRequest] at h
  split_ifs at h
  · cases h; decide
  · cases h; decide
  · cases h; decide
  · split at h
    · cases h; simp [reuseDetected]
    · split at h
      · cases h; simp [reuseDetected]
      · cases h

lemma CallOk.release (h : CallOk db j l) (hji : j ≠ i) : CallOk (db.release i) j l :=
  h.of_lock rfl fun _ hheld => Db.release_lock hheld hji

lemma sweeps_candidates (rows : Table) (tenantId familyId : Uuid) :
    Sweeps rows tenantId familyId (candidates rows tenantId familyId) [] := by
  refine Or.inl fun r hr hfam hlive => Or.inl ⟨r, ?_, rfl, (isLive_iff.mp hlive).1⟩
  simp [candidates, hr, hfam, (isLive_iff.mp hlive).2]

variable {w : Pool ι (Db ι) Pc} {hash : String → Digest} {req : RedeemRequest}
  {sessions : Sessions} {draw : Draw} {now : Instant} {l' : Pc}

/-- **`SELECT … FOR UPDATE`**: the row is locked, and is what was read. -/
lemma select_ok (h : ∀ j, j ≠ i → CallOk db j (w.calls j))
    (hstep : selectForUpdate hash i db req sessions draw now = some (db', l')) :
    CallOk db' i l' ∧ ∀ j, j ≠ i → CallOk db' j (w.calls j) := by
  simp only [selectForUpdate] at hstep
  split at hstep
  · simp only [Option.some.injEq, Prod.mk.injEq] at hstep
    obtain ⟨rfl, rfl⟩ := hstep
    exact ⟨trivial, h⟩
  · rename_i t hfind
    split_ifs at hstep with hcan
    simp only [Option.some.injEq, Prod.mk.injEq] at hstep
    obtain ⟨rfl, rfl⟩ := hstep
    obtain ⟨hmem, htenant⟩ := findByHash_spec hfind
    refine ⟨⟨htenant, hmem, Db.lockRow_lock_self⟩, fun j hji => ?_⟩
    exact (h j hji).of_lock rfl fun _ hheld => Db.lockRow_lock hcan hheld hji

/-- **What the decision on the locked row can be**: a refusal that is no reuse, the family's
revocation, or the exchange of a live token. -/
lemma decideFound_cases (hstep : decideFound i db req sessions draw now t = (db', l')) :
    (∃ e, e ≠ reuseDetected ∧ db' = db.release i ∧ l' = .returned (some t) (.error e)) ∨
    (∃ e, db' = db ∧
      l' = .revoking t (candidates db.rows req.tenantId t.familyId) [] now e) ∨
    (t.clientId = req.clientId ∧ t.isLive = true ∧ db' = db ∧
      l' = .exchanging req draw now t) := by
  by_cases hclient : t.clientId = req.clientId
  swap
  · rw [decideFound, if_pos hclient] at hstep
    cases hstep
    exact Or.inl ⟨_, by decide, rfl, rfl⟩
  by_cases hconsumed : t.consumedAt.isSome = true
  · rw [decideFound, if_neg (not_not.mpr hclient), if_pos hconsumed] at hstep
    cases hstep
    exact Or.inr (Or.inl ⟨_, rfl, rfl⟩)
  by_cases hrevoked : t.revokedAt.isSome = true
  · rw [decideFound, if_neg (not_not.mpr hclient), if_neg hconsumed, if_pos hrevoked] at hstep
    cases hstep
    exact Or.inl ⟨_, by decide, rfl, rfl⟩
  rw [decideFound, if_neg (not_not.mpr hclient), if_neg hconsumed, if_neg hrevoked] at hstep
  split at hstep
  · rename_i e hcheck
    cases hstep
    exact Or.inl ⟨e, checkRequest_ne_reuse hcheck, rfl, rfl⟩
  · split_ifs at hstep
    · cases hstep
      exact Or.inr (Or.inl ⟨_, rfl, rfl⟩)
    · cases hstep
      have hlive := isLive_iff.mpr ⟨by simpa using hconsumed, by simpa using hrevoked⟩
      exact Or.inr (Or.inr ⟨hclient, hlive, rfl, rfl⟩)

/-- **The decision** on the locked row. -/
lemma decide_ok (h : ∀ j, j ≠ i → CallOk db j (w.calls j)) (htenant : t.tenantId = req.tenantId)
    (hholds : Holds db i t) (hstep : decideFound i db req sessions draw now t = (db', l')) :
    CallOk db' i l' ∧ ∀ j, j ≠ i → CallOk db' j (w.calls j) := by
  rcases decideFound_cases hstep with ⟨e, he, rfl, rfl⟩ | ⟨e, rfl, rfl⟩ | ⟨hclient, hlive, rfl, rfl⟩
  · exact ⟨fun heq => absurd heq he, fun j hji => (h j hji).release hji⟩
  · rw [← htenant]
    exact ⟨⟨by simp, sweeps_candidates db'.rows t.tenantId t.familyId⟩, h⟩
  · exact ⟨⟨htenant, hclient, hlive, hholds⟩, h⟩

/-- **The `UPDATE` comes to a row** that was not consumed since the snapshot. -/
lemma revokeRow_ok {id : Uuid} (h : ∀ j, j ≠ i → CallOk db j (w.calls j))
    (hmine : CallOk db i (.revoking t todo done now answer))
    (hC : ∀ s ∈ todo, s.id = id → ∀ r ∈ db.rows, r.id = id → r.consumedAt = s.consumedAt)
    (hstep : revokeRow i db t todo done now answer id = some (db', l')) :
    CallOk db' i l' ∧ ∀ j, j ≠ i → CallOk db' j (w.calls j) := by
  obtain ⟨hheld, hsweeps⟩ := hmine
  -- the row is in `done` now, or revoked already
  have hnext : ∀ done', (∀ id' ∈ done, id' ∈ done') →
      (id ∈ done' ∨ ∀ r ∈ db.rows, r.id = id → r.isLive = false) →
      Sweeps db.rows t.tenantId t.familyId (todo.filter (·.id != id)) done' := by
    intro done' hsub hid
    rcases hsweeps with hall | ⟨s, hs, hsnone, r, hr, hrs, hrsome⟩
    · refine Or.inl fun r hr hfam hlive => ?_
      rcases hall r hr hfam hlive with ⟨s, hs, hsid, hsnone⟩ | hdone
      · by_cases hrid : r.id = id
        · rcases hid with hdone | hdead
          · exact Or.inr (hrid ▸ hdone)
          · rw [hdead r hr hrid] at hlive
            cases hlive
        · exact Or.inl ⟨s, by simp [hs, hsid, hrid], hsid, hsnone⟩
      · exact Or.inr (hsub _ hdone)
    · refine Or.inr ⟨s, ?_, hsnone, r, hr, hrs, hrsome⟩
      have hne : s.id ≠ id := by
        intro hsid
        have hsame := hC s hs hsid r hr (hrs.trans hsid)
        rw [hsame, hsnone] at hrsome
        cases hrsome
      simp [hs, hne]
  simp only [revokeRow] at hstep
  split_ifs at hstep with hcan hany
  · cases hstep
    simp only [Bool.and_eq_true] at hcan
    refine ⟨⟨?_, hnext _ (by simp +contextual) (Or.inl (by simp))⟩, fun j hji => ?_⟩
    · intro id' hid'
      rcases List.mem_cons.mp hid' with rfl | hid'
      · exact Db.lockRow_lock_self
      · exact Db.lockRow_lock_mine (hheld id' hid')
    · exact (h j hji).of_lock rfl fun _ hlock => Db.lockRow_lock hcan.2 hlock hji
  · cases hstep
    refine ⟨⟨hheld, hnext done (fun _ hdone => hdone) (Or.inr fun r hr hrid => ?_)⟩, h⟩
    by_contra hlive
    refine hany (List.any_eq_true.mpr ⟨r, hr, ?_⟩)
    simp [hrid, (isLive_iff.mp (by simpa using hlive)).2]

/-- **The revoking commit**: when no candidate is left, no live row of the family is. -/
lemma revoked_ok (h : ∀ j, j ≠ i → CallOk db j (w.calls j))
    (hmine : CallOk db i (.revoking t [] done now answer)) :
    CallOk (db.commit i (revokeWhere (fun r => done.contains r.id) now db.rows)) i
        (.returned (some t) (.error answer)) ∧
      ∀ j, j ≠ i → CallOk (db.commit i (revokeWhere (fun r => done.contains r.id) now db.rows)) j
        (w.calls j) := by
  obtain ⟨hheld, hsweeps⟩ := hmine
  refine ⟨?_, fun j hji => ?_⟩
  · intro _ r' hr' hfam
    obtain ⟨r, hr, rfl⟩ := List.mem_map.mp hr'
    have hages := ages_revokeIf (fun r => done.contains r.id) now r
    rw [inFamily_ages hages] at hfam
    by_contra hlive
    have hrlive := hages.live (by simpa using hlive)
    rcases hsweeps with hall | ⟨s, hs, -⟩
    · rcases hall r hr hfam hrlive with ⟨s, hs, -⟩ | hdone
      · cases hs
      · simp [revokeIf, hdone, (isLive_iff.mp hrlive).2, RefreshToken.isLive] at hlive
    · cases hs
  · exact ((h j hji).map hji (agesLocked_revokeIf hheld now)).release hji

/-- **The exchange's commit.** -/
lemma exchange_ok (h : ∀ j, j ≠ i → CallOk db j (w.calls j))
    (hmine : CallOk db i (.exchanging req draw now t)) :
    CallOk (db.commit i (exchange hash db.rows req t draw now).1) i
        (.returned (some t) (exchange hash db.rows req t draw now).2) ∧
      ∀ j, j ≠ i → CallOk (db.commit i (exchange hash db.rows req t draw now).1) j
        (w.calls j) := by
  obtain ⟨htenant, hclient, hlive, hmem, hheld⟩ := hmine
  have hsame : ∀ j, j ≠ i → CallOk (db.commit i db.rows) j (w.calls j) :=
    fun j hji => (h j hji).release hji
  simp only [exchange]
  split_ifs
  · exact ⟨trivial, hsame⟩
  · split
    · rename_i tokens' issued hinsert
      rw [insertIn_ok hinsert, ← htenant]
      refine ⟨trivial, fun j hji => ?_⟩
      have hrotated : CallOk { db with rows := markConsumed t.tenantId t.id now db.rows ++
          [newRow hash t.tenantId t.familyId (successorRequest req.clientId t) t.expiresAt draw
            now] } j (w.calls j) :=
        (h j hji).rotate hji hmem hheld hlive (fun _ _ => rfl)
      exact hrotated.release hji
    · exact ⟨fun he => by simp [reuseDetected] at he, hsame⟩

/-- **One step of a transaction** keeps the invariant. -/
lemma Sound.step (h : Sound w) (hC : Unrotated w (.call i k))
    (hstep : act hash i w.shared (w.calls i) k = some (db', l')) : Sound (w.next i db' l') := by
  have hmine := h i
  have hothers : ∀ j, j ≠ i → CallOk w.shared j (w.calls j) := fun j _ => h j
  suffices hgoal : CallOk db' i l' ∧ ∀ j, j ≠ i → CallOk db' j (w.calls j) from
    Pool.next_forall (p := CallOk db') hgoal.1 hgoal.2
  have hrolledBack : CallOk (w.shared.release i) i .rolledBack ∧
      ∀ j, j ≠ i → CallOk (w.shared.release i) j (w.calls j) :=
    ⟨trivial, fun j hji => (h j).release hji⟩
  cases hl : w.calls i with
  | idle req sessions draw =>
      rw [hl] at hstep
      cases k with
      | go =>
          simp only [act] at hstep
          split_ifs at hstep <;> (cases hstep; exact ⟨trivial, hothers⟩)
      | _ => cases hstep
  | begun req sessions draw now =>
      rw [hl] at hstep
      cases k with
      | go => exact select_ok hothers hstep
      | row id => cases hstep
      | rollBack => cases hstep; exact hrolledBack
  | locked req sessions draw now t =>
      rw [hl] at hstep hmine
      cases k with
      | go => exact decide_ok hothers hmine.1 hmine.2 (Option.some.inj hstep)
      | row id => cases hstep
      | rollBack => cases hstep; exact hrolledBack
  | revoking t todo done now answer =>
      rw [hl] at hstep hmine
      cases k with
      | go =>
          simp only [act] at hstep
          split_ifs at hstep with hempty
          rw [List.isEmpty_iff] at hempty
          subst hempty
          cases hstep
          exact revoked_ok hothers hmine
      | row id =>
          refine revokeRow_ok hothers hmine ?_ hstep
          simpa [Unrotated, hl, Pc.todo] using hC
      | rollBack => cases hstep; exact hrolledBack
  | exchanging req draw now t =>
      rw [hl] at hstep hmine
      cases k with
      | go => cases hstep; exact exchange_ok hothers hmine
      | row id => cases hstep
      | rollBack => cases hstep; exact hrolledBack
  | returned found answer => rw [hl] at hstep; cases k <;> cases hstep
  | rolledBack => rw [hl] at hstep; cases k <;> cases hstep

omit [DecidableEq ι] in
lemma Sound.env_step {e : Env} (h : Sound w) (hstep : env w.shared e = some db') :
    Sound ⟨db', w.calls⟩ := by
  cases e with
  | tick d =>
      simp only [env, Option.some.injEq] at hstep
      subst hstep
      exact fun i => (h i).of_lock rfl fun _ hheld => hheld

/-! ## After the reuse was detected -/

/-- The transaction does not redeem a token of the family of `t₀`. -/
def Pc.Spares (t₀ : RefreshToken) : Pc → Prop
  | .exchanging _ _ _ t => ¬ t.SameFamily t₀
  | .returned (some t) (.ok _) => ¬ t.SameFamily t₀
  | _ => True

lemma decideFound_spares (hlive : t.isLive = true → ¬ t.SameFamily t₀)
    (hstep : decideFound i db req sessions draw now t = (db', l')) : l'.Spares t₀ := by
  rcases decideFound_cases hstep with ⟨e, -, -, rfl⟩ | ⟨e, -, rfl⟩ | ⟨-, hl, -, rfl⟩
  · trivial
  · trivial
  · exact hlive hl

/-- **One step of a later redemption**: with no live row left, it spares the family. -/
lemma spares_step
    (hno : NoLive t₀.tenantId t₀.familyId db.rows) (hok : CallOk db i l) (hl : l.Spares t₀)
    (hstep : act hash i db l k = some (db', l')) : l'.Spares t₀ := by
  cases l with
  | idle req sessions draw =>
      cases k with
      | go =>
          simp only [act] at hstep
          split_ifs at hstep <;> (cases hstep; trivial)
      | _ => cases hstep
  | begun req sessions draw now =>
      cases k with
      | go =>
          simp only [act, selectForUpdate] at hstep
          split at hstep
          · cases hstep; trivial
          · split_ifs at hstep
            cases hstep
            trivial
      | row id => cases hstep
      | rollBack => cases hstep; trivial
  | locked req sessions draw now t =>
      cases k with
      | go =>
          refine decideFound_spares (fun hlive hfam => ?_) (Option.some.inj hstep)
          have hdead := hno t hok.2.1 (inFamily_iff.mpr hfam)
          rw [hlive] at hdead
          cases hdead
      | row id => cases hstep
      | rollBack => cases hstep; trivial
  | revoking t todo done now answer =>
      cases k with
      | go =>
          simp only [act] at hstep
          split_ifs at hstep
          cases hstep
          trivial
      | row id =>
          simp only [act, revokeRow] at hstep
          split_ifs at hstep <;> (cases hstep; trivial)
      | rollBack => cases hstep; trivial
  | exchanging req draw now t =>
      cases k with
      | go =>
          cases hstep
          cases (exchange hash db.rows req t draw now).2 with
          | ok issued => exact hl
          | error e => trivial
      | row id => cases hstep
      | rollBack => cases hstep; trivial
  | returned found answer => cases k <;> cases hstep
  | rolledBack => cases k <;> cases hstep

/-- The transaction has not begun. -/
def Pc.isIdle : Pc → Bool
  | .idle .. => true
  | _ => false

/-- The transaction has not begun, or is over. -/
def Pc.isQuiet : Pc → Bool
  | .idle .. | .returned .. | .rolledBack => true
  | _ => false

/-- A redemption has detected reuse of a token of `t₀`'s family and committed, and every
transaction that was under way is over (at the end of `as`): no redemption that starts afterwards
(in the course of `bs`) redeems a token of that family. -/
def ReuseEndsFamily (hash : String → Digest) (w : Pool ι (Db ι) Pc)
    (as bs : List (Pick ι Choice Env)) : Prop :=
  ∀ w₁ w₂ d t₀, (redemptions ι hash).machine.run w as = some w₁ →
    w₁.calls d = .returned (some t₀) (.error reuseDetected) →
    (∀ i, (w₁.calls i).isQuiet = true) →
    (redemptions ι hash).machine.run w₁ bs = some w₂ →
    ∀ q t issued, (w₁.calls q).isIdle = true →
      w₂.calls q = .returned (some t) (.ok issued) → ¬ t.SameFamily t₀

variable {as bs : List (Pick ι Choice Env)}

/-- **Reuse detection ends the family** in every schedule in which no revoking `UPDATE` comes to a
candidate that was consumed since its snapshot, whatever transactions run beside each other. -/
theorem reuse_ends_family (hidle : ∀ i, (w.calls i).isIdle = true)
    (hmeets : (redemptions ι hash).machine.Meets Unrotated w (as ++ bs)) :
    ReuseEndsFamily hash w as bs := by
  intro w₁ w₂ d t₀ hrun₁ hd _ hrun₂ q t issued hq hanswer
  obtain ⟨hmeets₁, hmeets₂⟩ := hmeets.of_append hrun₁
  have hsound₁ : Sound w₁ := by
    refine Calls.run_inv (I := Sound) Sound.step (fun h _ => h.env_step) hmeets₁ hrun₁ ?_
    intro i
    have hi := hidle i
    cases hl : w.calls i <;> simp_all [Pc.isIdle, CallOk]
  have hspares : (w₁.calls q).Spares t₀ := by
    cases hl : w₁.calls q <;> simp_all [Pc.isIdle, Pc.Spares]
  have hinv := Calls.run_inv (I := fun w => Sound w ∧
    w.calls d = .returned (some t₀) (.error reuseDetected) ∧ (w.calls q).Spares t₀)
    ?_ ?_ hmeets₂ hrun₂ ⟨hsound₁, hd, hspares⟩
  · have hlast := hinv.2.2
    rw [hanswer] at hlast
    exact hlast
  · rintro w i k db' l' ⟨hsound, hd, hspares⟩ hC hstep
    have hno : NoLive t₀.tenantId t₀.familyId w.shared.rows := by
      have hok := hsound d
      rw [hd] at hok
      exact hok rfl
    have hdi : d ≠ i := by
      rintro rfl
      have hnone := hstep
      simp only [redemptions, hd] at hnone
      cases k <;> cases hnone
    refine ⟨hsound.step hC hstep, by rw [Pool.next_of_ne w hdi, hd], ?_⟩
    by_cases hqi : q = i
    · subst hqi
      rw [Pool.next_self]
      exact spares_step hno (hsound q) hspares hstep
    · rw [Pool.next_of_ne w hqi]
      exact hspares
  · rintro w e db' ⟨hsound, hd, hspares⟩ _ hstep
    exact ⟨hsound.env_step hstep, hd, hspares⟩

end

/-! ## The schedule that leaves a successor live -/

def reuseRace : Pool (Fin 3) (Db (Fin 3)) Pc where
  shared :=
    { now := seconds 120
      rows := ((table sha256).run [] refreshed).getD []
      lock := fun _ => none }
  calls
    | 0 => .idle (refresh "rt_first") noneEnded ⟨20, "rt_unused"⟩
    | 1 => .idle (refresh "rt_second") noneEnded ⟨12, "rt_third"⟩
    | 2 => .idle { refresh "rt_third" with rotate := false } noneEnded ⟨21, "rt_unused"⟩

def statements (i : Fin 3) (n : ℕ) : List (Pick (Fin 3) Choice Env) :=
  List.replicate n (.call i .go)

def comesTo (i : Fin 3) (id : Uuid) : List (Pick (Fin 3) Choice Env) := [.call i (.row id)]

def rotationBetween : List (Pick (Fin 3) Choice Env) :=
  statements 1 3 ++ statements 0 3 ++ comesTo 0 10 ++ statements 1 1 ++ comesTo 0 11 ++
    statements 0 1

/-- **A successor survives.**  The family of a reused token was revoked, everything under way is
over, and the token the rotation left behind is redeemed. -/
theorem successor_survives : (∀ i, (reuseRace.calls i).isIdle = true) ∧
    ¬ ReuseEndsFamily sha256 reuseRace rotationBetween (statements 2 4) := by
  refine ⟨by decide, fun h => ?_⟩
  exact h _ _ 0 _ rfl rfl (by decide) rfl 2 _ _ rfl rfl ⟨rfl, rfl⟩

def rotationBefore : List (Pick (Fin 3) Choice Env) :=
  statements 1 4 ++ statements 0 3 ++ comesTo 0 12 ++ comesTo 0 11 ++ comesTo 0 10 ++
    statements 0 1

/-- With the rotation over in time, the reuse ends the family: the third token is refused. -/
theorem reuse_ends_family_rotationBefore :
    (∃ w t, (redemptions (Fin 3) sha256).machine.run reuseRace (rotationBefore ++ statements 2 3) =
      some w ∧ w.calls 2 = .returned (some t) (refuse .invalidGrant "refresh token revoked")) ∧
    ReuseEndsFamily sha256 reuseRace rotationBefore (statements 2 3) := by
  refine ⟨⟨_, _, rfl, rfl⟩, ?_⟩
  have hmeets : (redemptions (Fin 3) sha256).machine.Meets Unrotated reuseRace
      (rotationBefore ++ statements 2 3) := by decide
  exact reuse_ends_family (by decide) hmeets

end Ridm.RefreshTokens
